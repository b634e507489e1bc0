import EmulatR.Chipset.Pic8259Pair
import EmulatR.Chipset.TsunamiCchip

/-! # The device interrupt chain and its mirror in DRIR<55>

The output of the 8259 pair is mirrored into Cchip DRIR<55> at every step boundary
(chipsetLib/TsunamiChipset.h, `evalDeviceIrqs`). The mirror is written only when the output differs
from the cached level `lastPicLevel`, so it is right as long as the cache and DRIR<55> agree. Every
operation keeps them in step except two: a reset of the Cchip clears DRIR and leaves the cache (and
the whole-chipset reset resets the Cchip and neither the 8259 pair nor the cache), and an IIC
interrupt line that the operator has put on bit 55 writes the bit behind the cache's back.

`drir55_eq_output` is the law over runs; `reset_loses_pending_interrupt` is the run that breaks
it. -/

namespace EmulatR

open Library

/-- The levels of the device interrupt lines at a step boundary. -/
structure DeviceLevels where
  /-- COM1, ISA IRQ4. -/
  com1 : Bool
  /-- COM2, ISA IRQ3. -/
  com2 : Bool
  /-- The floppy controller, ISA IRQ6. -/
  fdc : Bool
  /-- The IIC controller, on a Cchip line of its own. -/
  iic : Bool
  deriving DecidableEq, Repr

/-- The interrupt chain of the chipset. -/
structure TsunamiChipset where
  /-- The Cchip. -/
  cchip : TsunamiCchip
  /-- The 8259 pair. -/
  pic : Pic8259Pair := {}
  /-- The cached output of the pair. -/
  lastPicLevel : Bool := false
  /-- The DRIR line of the IIC interrupt (`EMULATR_IIC_IRQ_BIT`), off by default. -/
  iicDrirBit : Option (Fin 56) := none
  /-- The cached IIC level, a variable of the process. -/
  lastIicLevel : Bool := false

namespace TsunamiChipset

variable (t : TsunamiChipset)

/-- The ISA bridge line. -/
def isaBridgeDrirBit : Nat := 55

/-- Feed the device lines to the 8259 pair. -/
def driveLines (lv : DeviceLevels) : TsunamiChipset :=
  { t with pic := ((t.pic.setIrqInput 4 lv.com1).setIrqInput 3 lv.com2).setIrqInput 6 lv.fdc }

/-- Write DRIR<55> if the output has changed. -/
def mirrorPic : TsunamiChipset :=
  let level := t.pic.outputAsserted
  if level = t.lastPicLevel then t
  else { t with lastPicLevel := level, cchip := t.cchip.driveInterrupt isaBridgeDrirBit level }

/-- Write the IIC line, if it is wired and has changed. -/
def mirrorIic (level : Bool) : TsunamiChipset :=
  match t.iicDrirBit with
  | none => t
  | some bit =>
    if level = t.lastIicLevel then t
    else { t with lastIicLevel := level, cchip := t.cchip.driveInterrupt bit level }

/-- The step-boundary evaluation of the device interrupts. -/
def evalDeviceIrqs (lv : DeviceLevels) : TsunamiChipset :=
  ((t.driveLines lv).mirrorPic).mirrorIic lv.iic

/-- The INTA cycle: acknowledge the pair and refresh the mirror. -/
def acknowledgeDeviceInterrupt (lv : DeviceLevels) : TsunamiChipset × Option (BitVec 8) :=
  ({ t with pic := t.pic.acknowledge.1 }.evalDeviceIrqs lv, t.pic.acknowledge.2)

/-- The whole-chipset reset. -/
def reset : TsunamiChipset := { t with cchip := t.cchip.reset }

/-- The DRIR line of a PCI INTx pin. -/
def pciIntxToDrirBit (pchipId : Fin 2) (intxLine : BitVec 2) : Nat :=
  32 + pchipId * 4 + intxLine.toNat

/-- What a snapshot holds of the chain. -/
structure Snapshot where
  /-- The Cchip registers. -/
  cchip : TsunamiCchip.Image
  /-- The 8259 pair. -/
  pic : Pic8259Pair
  /-- The cached output. -/
  lastPicLevel : Bool

/-- Write a snapshot. -/
def serializeDevices : Snapshot := ⟨t.cchip.serialize, t.pic, t.lastPicLevel⟩

/-- Restore a snapshot. -/
def deserializeDevices (s : Snapshot) : TsunamiChipset :=
  { t with
    cchip := t.cchip.deserialize s.cchip
    pic := s.pic
    lastPicLevel := s.lastPicLevel }

/-! ## Runs of the chain -/

/-- What can happen to the chain. -/
inductive Event
  /-- The device levels are evaluated. -/
  | evalDeviceIrqs (lv : DeviceLevels)
  /-- An IACK cycle. -/
  | acknowledgeDeviceInterrupt (lv : DeviceLevels)
  /-- A read of an 8259 port. -/
  | picRead (port : BitVec 16)
  /-- A write to an 8259 port. -/
  | picWrite (port : BitVec 16) (value : Word)
  /-- A write to a Cchip register. -/
  | cchipWrite (offset value : Word)
  /-- The interval timer fires. -/
  | fireIntervalTimer
  /-- Nonexistent memory is reported. -/
  | latchNxm (srcCode : BitVec 3)
  /-- A Pchip drives a PCI interrupt line. -/
  | pciInterrupt (pchipId : Fin 2) (intxLine : BitVec 2) (level : Bool)
  /-- The Cchip alone is reset. -/
  | cchipReset
  /-- The machine is reset. -/
  | reset
  /-- The machine is powered on. -/
  | powerOn
  /-- A snapshot is kept. -/
  | save
  /-- The `i`th snapshot is restored. -/
  | restore (i : Nat)

/-- The chain and the snapshots on disk. -/
structure System where
  /-- The chain. -/
  chip : TsunamiChipset
  /-- The snapshots written so far. -/
  disk : List Snapshot

/-- A chipset as its constructor leaves it. -/
def make (cpuCount : Nat) (crev : BitVec 8) (iicDrirBit : Option (Fin 56)) : TsunamiChipset :=
  { cchip := .make cpuCount crev, iicDrirBit := iicDrirBit }

/-- Load snapshot `i`, if it is there. -/
def System.load (s : System) (i : Nat) : System :=
  match s.disk[i]? with
  | some snap => { s with chip := s.chip.deserializeDevices snap }
  | none => s

/-- One event. -/
def System.step (s : System) : Event → System
  | .evalDeviceIrqs lv => { s with chip := s.chip.evalDeviceIrqs lv }
  | .acknowledgeDeviceInterrupt lv => { s with chip := (s.chip.acknowledgeDeviceInterrupt lv).1 }
  | .picRead port => { s with chip := { s.chip with pic := (s.chip.pic.ioRead port).1 } }
  | .picWrite port value =>
    { s with chip := { s.chip with pic := s.chip.pic.ioWrite port value } }
  | .cchipWrite offset value =>
    { s with chip := { s.chip with cchip := s.chip.cchip.write offset value } }
  | .fireIntervalTimer =>
    { s with chip := { s.chip with cchip := s.chip.cchip.fireIntervalTimer } }
  | .latchNxm srcCode =>
    { s with chip := { s.chip with cchip := s.chip.cchip.latchNxm srcCode } }
  | .pciInterrupt pchipId intxLine level =>
    { s with
      chip := { s.chip with
        cchip := s.chip.cchip.driveInterrupt (pciIntxToDrirBit pchipId intxLine) level } }
  | .cchipReset => { s with chip := { s.chip with cchip := s.chip.cchip.reset } }
  | .reset => { s with chip := s.chip.reset }
  | .powerOn =>
    { s with chip := make s.chip.cchip.cpuCount s.chip.cchip.crev s.chip.iicDrirBit }
  | .save => { s with disk := s.disk ++ [s.chip.serializeDevices] }
  | .restore i => s.load i

/-! ## The cache and the mirror -/

variable {t}

/-- The cached level is the level of DRIR<55>. -/
def Coherent (t : TsunamiChipset) : Prop := t.cchip.drir.getLsbD 55 = t.lastPicLevel

/-- A new machine is coherent. -/
theorem coherent_make (cpuCount : Nat) (crev : BitVec 8) (iicDrirBit : Option (Fin 56)) :
    (make cpuCount crev iicDrirBit).Coherent := by
  unfold Coherent make
  rw [TsunamiCchip.make_drir]
  simp

/-- A reset of the Cchip clears the line, so it fits a low cached level. -/
theorem coherent_reset (h : t.lastPicLevel = false) : t.reset.Coherent := by
  unfold Coherent TsunamiChipset.reset
  rw [TsunamiCchip.reset_drir, h]
  simp

/-- The condition on an event: the Cchip is not reset while the cached output is high, and an IIC
line on bit 55 does not change. -/
def System.Permits (s : System) : Event → Prop
  | .evalDeviceIrqs lv => s.chip.iicDrirBit = some 55 → lv.iic = s.chip.lastIicLevel
  | .acknowledgeDeviceInterrupt lv => s.chip.iicDrirBit = some 55 → lv.iic = s.chip.lastIicLevel
  | .cchipReset => s.chip.lastPicLevel = false
  | .reset => s.chip.lastPicLevel = false
  | _ => True

instance (s : System) (e : Event) : Decidable (s.Permits e) := by
  cases e <;> unfold System.Permits <;> infer_instance

/-- After the mirror is written, cache, DRIR<55> and output are one. -/
theorem Coherent.mirrorPic (h : t.Coherent) :
    t.mirrorPic.Coherent ∧ t.mirrorPic.lastPicLevel = t.mirrorPic.pic.outputAsserted := by
  simp only [TsunamiChipset.mirrorPic]
  by_cases hsame : t.pic.outputAsserted = t.lastPicLevel
  · rw [if_pos hsame]
    exact ⟨h, hsame.symm⟩
  · rw [if_neg hsame]
    refine ⟨?_, rfl⟩
    unfold Coherent
    -- the line is written with the level that is cached
    rw [TsunamiCchip.getLsbD_driveInterrupt _ (by decide),
      if_pos (show isaBridgeDrirBit = 55 from rfl)]

/-- The IIC line leaves DRIR<55> alone, unless it sits there and changes. -/
theorem mirrorIic_frame {level : Bool} (h : t.iicDrirBit = some 55 → level = t.lastIicLevel) :
    (t.mirrorIic level).cchip.drir.getLsbD 55 = t.cchip.drir.getLsbD 55 ∧
      (t.mirrorIic level).lastPicLevel = t.lastPicLevel ∧ (t.mirrorIic level).pic = t.pic := by
  unfold mirrorIic
  cases hbit : t.iicDrirBit with
  | none => exact ⟨rfl, rfl, rfl⟩
  | some bit =>
    by_cases hsame : level = t.lastIicLevel
    · simp [hsame]
    · -- the line changes, so it is not line 55
      have hne : (bit : Nat) ≠ 55 := by
        intro h55
        exact hsame (h (hbit.trans (congrArg some (Fin.ext h55))))
      simp only [hsame, if_false]
      refine ⟨?_, trivial, trivial⟩
      rw [TsunamiCchip.getLsbD_driveInterrupt _ (by decide), if_neg hne]

/-- **An evaluation leaves DRIR<55> equal to the output of the pair**, from a coherent state. -/
theorem Coherent.evalDeviceIrqs {lv : DeviceLevels} (h : t.Coherent)
    (hiic : t.iicDrirBit = some 55 → lv.iic = t.lastIicLevel) :
    (t.evalDeviceIrqs lv).Coherent ∧
      (t.evalDeviceIrqs lv).cchip.drir.getLsbD 55
        = (t.evalDeviceIrqs lv).pic.outputAsserted := by
  -- driving the input lines touches neither the cache nor DRIR
  have hlines : (t.driveLines lv).Coherent := h
  obtain ⟨hcoh, hout⟩ := hlines.mirrorPic
  have hbit : (t.driveLines lv).mirrorPic.iicDrirBit = t.iicDrirBit ∧
      (t.driveLines lv).mirrorPic.lastIicLevel = t.lastIicLevel := by
    simp only [TsunamiChipset.mirrorPic]
    split <;> exact ⟨rfl, rfl⟩
  have hiic' : (t.driveLines lv).mirrorPic.iicDrirBit = some 55 →
      lv.iic = (t.driveLines lv).mirrorPic.lastIicLevel := by
    rw [hbit.1, hbit.2]
    exact hiic
  obtain ⟨hdrir, hlast, hpic⟩ := mirrorIic_frame hiic'
  unfold Coherent TsunamiChipset.evalDeviceIrqs
  rw [hdrir, hlast, hpic, ← hout]
  exact ⟨hcoh, hcoh⟩

/-- The invariant: the chain and every snapshot on disk are coherent. -/
def System.Inv (s : System) : Prop :=
  s.chip.Coherent ∧ ∀ snap ∈ s.disk, snap.cchip.drir.getLsbD 55 = snap.lastPicLevel

/-- An event that leaves the disk alone has only the chain to keep coherent. -/
theorem System.Inv.of_chip {s : System} (h : s.Inv) {t : TsunamiChipset} (ht : t.Coherent) :
    System.Inv { s with chip := t } := ⟨ht, h.2⟩

/-- **Every permitted event keeps the chain coherent.** -/
theorem System.Inv.step {s : System} {e : Event} (h : s.Inv) (hok : s.Permits e) :
    (s.step e).Inv := by
  have hchip := h.1
  cases e with
  | evalDeviceIrqs lv => exact h.of_chip (hchip.evalDeviceIrqs hok).1
  | acknowledgeDeviceInterrupt lv =>
    -- acknowledging changes the pair, and then the evaluation brings the mirror up to date
    have hack : Coherent { s.chip with pic := s.chip.pic.acknowledge.1 } := hchip
    exact h.of_chip (hack.evalDeviceIrqs hok).1
  | picRead port => exact h.of_chip hchip
  | picWrite port value => exact h.of_chip hchip
  | cchipWrite offset value =>
    exact h.of_chip ((TsunamiCchip.getLsbD_write _ (by decide)).trans hchip)
  | fireIntervalTimer => exact h.of_chip hchip
  | latchNxm srcCode => exact h.of_chip ((TsunamiCchip.getLsbD_latchNxm _ (by decide)).trans hchip)
  | pciInterrupt pchipId intxLine level =>
    -- the PCI pins sit on lines 32 to 39
    have hne : pciIntxToDrirBit pchipId intxLine ≠ 55 := by
      unfold pciIntxToDrirBit
      omega
    refine h.of_chip ?_
    unfold Coherent
    rw [TsunamiCchip.getLsbD_driveInterrupt _ (by decide), if_neg hne]
    exact hchip
  | cchipReset => exact h.of_chip (coherent_reset hok)
  | reset => exact h.of_chip (coherent_reset hok)
  | powerOn => exact h.of_chip (coherent_make _ _ _)
  | save =>
    -- a snapshot is written coherent, like the chain it is taken from
    refine ⟨hchip, fun snap hsnap => ?_⟩
    rcases List.mem_append.mp hsnap with hsnap | hsnap
    · exact h.2 snap hsnap
    · rw [List.mem_singleton.mp hsnap]
      exact hchip
  | restore i =>
    change (s.load i).Inv
    unfold System.load
    cases hget : s.disk[i]? with
    | none => exact h
    | some snap =>
      -- a snapshot was coherent when it was written, and restores all three copies
      have hsnap : (s.chip.deserializeDevices snap).Coherent := h.2 snap (List.mem_of_getElem? hget)
      exact h.of_chip hsnap

/-- The events that end with an evaluation. -/
def Event.evaluates : Event → Bool
  | .evalDeviceIrqs _ => true
  | .acknowledgeDeviceInterrupt _ => true
  | _ => false

/-- A machine that has just been switched on, with no snapshots. -/
def System.start (cpuCount : Nat) (crev : BitVec 8) (iicDrirBit : Option (Fin 56)) : System :=
  ⟨make cpuCount crev iicDrirBit, []⟩

/-- **DRIR<55> mirrors the 8259 pair.** In every run in which the Cchip is not reset while the
cached output is high and no IIC line on bit 55 changes, DRIR<55> equals the output of the pair
after every evaluation. -/
theorem drir55_eq_output {cpuCount : Nat} {crev : BitVec 8} {iicDrirBit : Option (Fin 56)}
    {es : List Event} {e : Event} (he : e.evaluates = true)
    (hrun : RunMeets System.step System.Permits (System.start cpuCount crev iicDrirBit)
      (es ++ [e])) :
    let s := runFrom System.step (System.start cpuCount crev iicDrirBit) (es ++ [e])
    s.chip.cchip.drir.getLsbD 55 = s.chip.pic.outputAsserted := by
  intro s
  obtain ⟨hes, hlast⟩ := RunMeets_append.mp hrun
  have hinv : (runFrom System.step (System.start cpuCount crev iicDrirBit) es).Inv :=
    hes.invariant System.Inv (fun _ _ h hok => h.step hok)
      ⟨coherent_make _ _ _, fun snap h => absurd h List.not_mem_nil⟩
  have hs : s = System.step (runFrom System.step (System.start cpuCount crev iicDrirBit) es) e :=
    runFrom_append _ _ _ _
  rw [hs]
  cases e with
  | evalDeviceIrqs lv => exact (hinv.1.evalDeviceIrqs hlast.1).2
  | acknowledgeDeviceInterrupt lv =>
    generalize runFrom System.step (System.start cpuCount crev iicDrirBit) es = s' at hinv hlast
    have hack : Coherent { s'.chip with pic := s'.chip.pic.acknowledge.1 } := hinv.1
    exact (hack.evalDeviceIrqs hlast.1).2
  | _ => exact absurd he Bool.false_ne_true

/-- The 8259 pair initialised with IRQ4 open, and a COM1 interrupt evaluated. -/
def serialInterrupt : List Event :=
  Pic8259Pair.initWrites.map (fun w => .picWrite w.1 w.2) ++
    [.evalDeviceIrqs ⟨true, false, false, false⟩]

/-- A COM1 interrupt that is raised, acknowledged and ended keeps to the condition. -/
theorem drir55_eq_output_serial :
    let es := serialInterrupt ++
      [.evalDeviceIrqs ⟨true, false, false, false⟩, .picWrite 0x20 0x20, .cchipWrite 0x80 0x10]
    let e := Event.acknowledgeDeviceInterrupt ⟨true, false, false, false⟩
    let s := runFrom System.step (System.start 1 1 none) (es ++ [e])
    RunMeets System.step System.Permits (System.start 1 1 none) (es ++ [e]) ∧
      s.chip.cchip.drir.getLsbD 55 = s.chip.pic.outputAsserted :=
  ⟨by decide, drir55_eq_output rfl (by decide)⟩

/-- A reset of the Cchip alone, or of the whole chipset, while the pair's output is high: DRIR<55>
stays low although the output is still high at the next evaluation. -/
theorem reset_loses_pending_interrupt :
    let after e := runFrom System.step (System.start 1 1 none)
      (serialInterrupt ++ [e, .evalDeviceIrqs ⟨true, false, false, false⟩])
    ((after .cchipReset).chip.cchip.drir.getLsbD 55 = false ∧
        (after .cchipReset).chip.pic.outputAsserted = true) ∧
      (after .reset).chip.cchip.drir.getLsbD 55 = false ∧
        (after .reset).chip.pic.outputAsserted = true := by
  decide

end TsunamiChipset

end EmulatR
