import EmulatR.Pte.AlphaPte

/-! # The Cchip interrupt registers

The interrupt side of the Cchip (chipsetLib/TsunamiCchip.h): MISC, the raw request register DRIR,
the per-CPU masks DIM and ignore counts IIC, and the per-CPU latches of the interval timer
(b_irq<2>) and of the interprocessor interrupt (b_irq<3>). The error class (b_irq<0>) and the device
class (b_irq<1>) have no latch: they are `DRIR & DIM` on bits 63:58 and 55:0. The
memory-configuration registers are left out.

`TsunamiCchip` is the register file, `miscWriteW1C` the write of MISC, `write` the write of any
register, `serialize` and `deserialize` the snapshot. -/

namespace EmulatR

/-- The interrupt state of the Cchip. -/
structure TsunamiCchip where
  /-- The number of CPUs. -/
  cpuCount : Nat
  /-- The chip revision of the variant. -/
  crev : BitVec 8
  /-- The MISC register. -/
  misc : Word
  /-- The raw device interrupt requests. -/
  drir : Word := 0
  /-- The device interrupt mask of every CPU. -/
  dim : Fin 4 → Word := fun _ => 0
  /-- The interval ignore count of every CPU; stored, not honoured. -/
  iic : Fin 4 → Word := fun _ => 0
  /-- The b_irq<2> latch of every CPU. -/
  pendingIrq2 : Fin 4 → Bool := fun _ => false
  /-- The b_irq<3> latch of every CPU. -/
  pendingIrq3 : Fin 4 → Bool := fun _ => false

namespace TsunamiCchip

/-! ## The fields of MISC -/

/-- The mask of a field. -/
def fieldMask (lsb width : Nat) : Word := BitVec.ofNat 64 (2 ^ width - 1) <<< lsb

/-- Nonexistent memory detected. -/
def NXM : Word := fieldMask 28 1
/-- MISC<NXS>, the source of the access that NXM records. -/
def NXS : Word := fieldMask 29 3
/-- Interval timer interrupt pending, a bit per CPU. -/
def ITINTR : Word := fieldMask 4 4
/-- Interprocessor interrupt pending, a bit per CPU. -/
def IPINTR : Word := fieldMask 8 4
/-- Interprocessor interrupt request. -/
def IPREQ : Word := fieldMask 12 4
/-- Arbitration won. -/
def ABW : Word := fieldMask 16 4
/-- Arbitration try. -/
def ABT : Word := fieldMask 20 4
/-- Arbitration clear. -/
def ACL : Word := fieldMask 24 1
/-- Device interrupt suppression. -/
def DEVSUP : Word := fieldMask 40 4

/-- Bits that writing one clears. -/
def w1cMask : Word := NXM ||| IPINTR ||| ITINTR
/-- Bits that writing one sets. -/
def w1sMask : Word := ABT ||| ABW
/-- Bits that are never stored. -/
def woMask : Word := DEVSUP ||| ACL ||| IPREQ

variable (c : TsunamiCchip)

/-- Power-on defaults. -/
def reset : TsunamiCchip :=
  { cpuCount := c.cpuCount, crev := c.crev, misc := c.crev.setWidth 64 <<< 32 }

/-- A reset clears DRIR. -/
@[simp] theorem reset_drir : c.reset.drir = 0 := rfl

/-- The Cchip as its constructor leaves it. -/
def make (cpuCount : Nat) (crev : BitVec 8) : TsunamiCchip :=
  { cpuCount := cpuCount, crev := crev, misc := crev.setWidth 64 <<< 32 }

/-- A new Cchip has no request. -/
@[simp] theorem make_drir (cpuCount : Nat) (crev : BitVec 8) : (make cpuCount crev).drir = 0 := rfl

/-! ## Device lines -/

/-- Assert a device interrupt line. -/
def assertInterrupt (bit : Nat) : TsunamiCchip := { c with drir := c.drir ||| BitVec.twoPow 64 bit }

/-- Deassert a device interrupt line. -/
def deassertInterrupt (bit : Nat) : TsunamiCchip :=
  { c with drir := c.drir &&& ~~~BitVec.twoPow 64 bit }

/-- Drive a device interrupt line. -/
def driveInterrupt (bit : Nat) (level : Bool) : TsunamiCchip :=
  if level then c.assertInterrupt bit else c.deassertInterrupt bit

/-- The CPU the run loop polls for. -/
abbrev cpu0 : Fin 4 := 0

/-- b_irq<0>: the error class, DRIR and DIM bits 63:58. -/
def pendingIrq0 (cpu : Fin 4) : Bool := (c.drir &&& c.dim cpu) &&& 0xFC00000000000000 != 0

/-- b_irq<1>: the device class, DRIR and DIM bits 55:0. -/
def pendingIrq1 (cpu : Fin 4) : Bool := (c.drir &&& c.dim cpu) &&& 0x00FFFFFFFFFFFFFF != 0

/-! ## Latches -/

/-- Acknowledge the timer latch. -/
def clearPendingIrq2 (cpu : Fin 4) : TsunamiCchip :=
  { c with pendingIrq2 := Function.update c.pendingIrq2 cpu false }

/-- Acknowledge the interprocessor latch. -/
def clearPendingIrq3 (cpu : Fin 4) : TsunamiCchip :=
  { c with pendingIrq3 := Function.update c.pendingIrq3 cpu false }

/-- Fire the interval timer for every configured CPU. -/
def fireIntervalTimer : TsunamiCchip :=
  { c with
    misc := (List.finRange 4).foldl
      (fun misc n => if n.val < c.cpuCount then misc ||| BitVec.twoPow 64 (4 + n.val) else misc)
      c.misc
    pendingIrq2 := fun n => decide (n.val < c.cpuCount) || c.pendingIrq2 n }

/-- Latch a nonexistent-memory access; the source is locked at the edge. -/
def latchNxm (srcCode : BitVec 3) : TsunamiCchip :=
  let misc := c.misc ||| NXM
  { c with
    misc := if c.misc &&& NXM = 0 then (misc &&& ~~~NXS) ||| (srcCode.setWidth 64 <<< 29) else misc
    drir := c.drir ||| BitVec.twoPow 64 63 }

/-- The stored value a MISC write leaves. -/
def miscAfterWrite (old writeVal : Word) : Word :=
  let staged := (old &&& ~~~(writeVal &&& w1cMask)) ||| (writeVal &&& w1sMask)
  -- an uncontended try wins the arbitration
  let newlyTried := (staged &&& ABT) &&& ~~~(old &&& ABT)
  let staged :=
    if newlyTried ≠ 0 ∧ old &&& ABT = 0 then staged ||| ((newlyTried >>> 4) &&& ABW) else staged
  let staged := if writeVal &&& ACL ≠ 0 then staged &&& ~~~(ABT ||| ABW) else staged
  -- a request always sets the pending bit of its target
  let staged := staged ||| (((writeVal &&& IPREQ) >>> 4) &&& IPINTR)
  (staged &&& ~~~woMask) ||| (old &&& woMask)

/-- Write MISC: the stored value, then the latches and DRIR<63>. -/
def miscWriteW1C (writeVal : Word) : TsunamiCchip :=
  { c with
    misc := miscAfterWrite c.misc writeVal
    pendingIrq2 := fun n => !writeVal.getLsbD (4 + n.val) && c.pendingIrq2 n
    drir := if writeVal &&& NXM ≠ 0 then c.drir &&& ~~~BitVec.twoPow 64 63 else c.drir
    -- a request sets the latch of a configured CPU, and then an acknowledge drops it
    pendingIrq3 := fun n =>
      !writeVal.getLsbD (8 + n.val) &&
        ((writeVal.getLsbD (12 + n.val) && decide (n.val < c.cpuCount)) || c.pendingIrq3 n) }

/-- The registers a CPU write can change here. -/
inductive Csr
  /-- MISC. -/
  | misc
  /-- The mask register of a CPU. -/
  | dim (cpu : Fin 4)
  /-- The interval timer's count register of a CPU. -/
  | iic (cpu : Fin 4)
  /-- A register that is not modelled. -/
  | other
  deriving DecidableEq, Repr

/-- The offset decode of the write path. -/
def Csr.decode (offset : Word) : Csr :=
  if offset = 0x0080 then .misc
  else if offset = 0x0200 then .dim 0
  else if offset = 0x0240 then .dim 1
  else if offset = 0x0600 then .dim 2
  else if offset = 0x0640 then .dim 3
  else if offset = 0x0380 then .iic 0
  else if offset = 0x03C0 then .iic 1
  else if offset = 0x0700 then .iic 2
  else if offset = 0x0740 then .iic 3
  else .other

/-- Write a register. DRIR and DIR are read-only, and the other registers hold no interrupt
state. -/
def write (offset value : Word) : TsunamiCchip :=
  match Csr.decode offset with
  | .misc => c.miscWriteW1C value
  | .dim cpu => { c with dim := Function.update c.dim cpu value }
  | .iic cpu => { c with iic := Function.update c.iic cpu value }
  | .other => c

/-! ## Snapshots -/

/-- What a snapshot holds of the Cchip; the latches do not travel. -/
structure Image where
  /-- MISC. -/
  misc : Word
  /-- DRIR. -/
  drir : Word
  /-- DIM. -/
  dim : Fin 4 → Word
  /-- IIC. -/
  iic : Fin 4 → Word

/-- Write the snapshot. -/
def serialize : Image := ⟨c.misc, c.drir, c.dim, c.iic⟩

/-- Restore from a snapshot; the latches keep their values. -/
def deserialize (i : Image) : TsunamiCchip :=
  { c with misc := i.misc, drir := i.drir, dim := i.dim, iic := i.iic }

/-! ## One line of DRIR -/

/-- Asserting a line sets its bit. -/
@[simp] theorem getLsbD_assertInterrupt {bit j : Nat} (hj : j < 64) :
    (c.assertInterrupt bit).drir.getLsbD j = (c.drir.getLsbD j || decide (bit = j)) := by
  rw [assertInterrupt, BitVec.getLsbD_or, BitVec.getLsbD_twoPow]
  by_cases h : bit = j
  · subst h
    simp [hj]
  · simp [h]

/-- Deasserting it clears the bit. -/
@[simp] theorem getLsbD_deassertInterrupt {bit j : Nat} (hj : j < 64) :
    (c.deassertInterrupt bit).drir.getLsbD j = (c.drir.getLsbD j && !decide (bit = j)) := by
  rw [deassertInterrupt, BitVec.getLsbD_and, BitVec.getLsbD_not, BitVec.getLsbD_twoPow]
  by_cases h : bit = j
  · subst h
    simp [hj]
  · simp [h, hj]

/-- Driving a line sets its own bit to the level and leaves the others. -/
theorem getLsbD_driveInterrupt {bit j : Nat} (hj : j < 64) (level : Bool) :
    (c.driveInterrupt bit level).drir.getLsbD j
      = if bit = j then level else c.drir.getLsbD j := by
  unfold driveInterrupt
  cases level with
  | false =>
    rw [if_neg Bool.false_ne_true, getLsbD_deassertInterrupt c hj]
    by_cases h : bit = j <;> simp [h]
  | true =>
    rw [if_pos rfl, getLsbD_assertInterrupt c hj]
    by_cases h : bit = j <;> simp [h]

/-- A nonexistent-memory latch touches DRIR<63> only. -/
theorem getLsbD_latchNxm {srcCode : BitVec 3} {j : Nat} (hj : j < 63) :
    (c.latchNxm srcCode).drir.getLsbD j = c.drir.getLsbD j := by
  change (c.drir ||| BitVec.twoPow 64 63).getLsbD j = _
  rw [BitVec.getLsbD_or, BitVec.getLsbD_twoPow]
  simp [show 63 ≠ j by omega]

/-- A CPU write touches DRIR<63> only. -/
theorem getLsbD_write {offset value : Word} {j : Nat} (hj : j < 63) :
    (c.write offset value).drir.getLsbD j = c.drir.getLsbD j := by
  unfold write
  cases Csr.decode offset with
  | misc =>
    change (if value &&& NXM ≠ 0 then c.drir &&& ~~~BitVec.twoPow 64 63 else c.drir).getLsbD j = _
    split
    · rw [BitVec.getLsbD_and, BitVec.getLsbD_not, BitVec.getLsbD_twoPow]
      simp [show 63 ≠ j by omega, show j < 64 by omega]
    · rfl
  | dim cpu => rfl
  | iic cpu => rfl
  | other => rfl

end TsunamiCchip

end EmulatR
