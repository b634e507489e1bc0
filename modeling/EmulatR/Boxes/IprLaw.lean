import EmulatR.Boxes.Leaf
import EmulatR.Library.BitFields

/-! # Reading back the internal processor registers

HW_MFPR and HW_MTPR are two switches over one list of registers. This module relates them: what a
register reads after it was written, and that writing one register leaves the others alone.

Three of the registers overlap. IER_CM is IER and the current mode as one value, with the mode in
bits 4:3; IER alone and CM alone write and read their own part. CC is kept as an offset to the
cycle counter, so it reads as the value written plus the cycles since.

What a register is to keep of a value is taken from its bit layout in the headers, `writableBits`:

* PAL_BASE holds an address in bits 43:15, and the mask that the write applies ends at bit 42.
* I_CTL, VA_CTL, IER and IER_CM have read-only, ignored and reserved bits, and the code stores them.
* MM_STAT is read-only, and the code stores what is written to it.
* CM is bits 4:3 of the data, and the code takes bits 1:0.

`hwMtprLaw_iff` says for which values none of this shows.

`palBase_loses_bit_43` is a write whose read-back does not agree. -/

namespace EmulatR

namespace HwIpr

/-- The registers that a field of the CPU state stands behind. -/
def backed : HwIpr → Bool
  | excAddr | palBase | iCtl | mCtl | ier | ierCm | cm | mmStat | vaCtl | cc => true
  | itbPteTemp | dtbPteTemp => true
  | palTemp _ => true
  | _ => false

/-- The bits of a register that software can set. They are the fields of the register's layout in
coreLib/IprFields.h and coreLib/VA_types.h; coreLib/HW_IPR.h gives MM_STAT as read-only, and the
comment on the IER_CM group in PalEntries.cpp places CM in bits 4:3. No layout is given for the
rest. -/
def writableBits : HwIpr → Word
  -- bits 43:15; the others are RAZ/MBZ
  | palBase => 0xFFFFFFF8000
  -- bits 47:30 and 22:0; 63:48 copy bit 47, 29 is ignored, CHIP_ID in 28:23 is read-only
  | iCtl => 0xFFFFC07FFFFF
  -- bits 63:30 and 2:0; the others are reserved
  | vaCtl => 0xFFFFFFFFC0000007
  -- bits 38:14, 12:5 and 2; the others are ignored, but for the mode field
  | ier => 0x7FFFFFDFE4
  | ierCm => 0x7FFFFFDFFC
  | cm => 0x18
  | mmStat => 0
  | _ => BitVec.allOnes 64

/-- The bits of a value that go wrong in the register: those that the code stores though the
register does not have them, bit 43 of PAL_BASE, which it drops, and the bits of CM in the right
place and in the wrong one. -/
def strayBits : HwIpr → Word
  | palBase => 0x80000000000
  | iCtl => 0x3F800000
  | vaCtl => 0x3FFFFFF8
  | ier | ierCm => 0xFFFFFF8000002003
  | cm => 0x1B
  | mmStat => BitVec.allOnes 64
  | _ => 0

/-- The sign extension of the low 48 bits. -/
def sext48 (v : Word) : Word := (v.setWidth 48).signExtend 64

/-- The value has none of the bits that go wrong, and for I_CTL its bits 63:48 are copies of bit
47. -/
def Fits (p : HwIpr) (v : Word) : Prop :=
  v &&& p.strayBits = 0 ∧ (p = iCtl → sext48 v = v)

/-- Two registers that show a common field. -/
def sharesField (p q : HwIpr) : Bool :=
  p == q || (p == ierCm && (q == ier || q == cm)) || (q == ierCm && (p == ier || p == cm))

end HwIpr

/-- The CPU some cycles later. -/
def CpuState.elapse (cpu : CpuState) (k : Word) : CpuState :=
  { cpu with cycleCount := cpu.cycleCount + k }

/-- What a register is to read `k` cycles after `v` was written to it: the bits that software can
set, with the copies of bit 47 in I_CTL, or a count. -/
def HwIpr.readsBack (p : HwIpr) (v k : Word) : Word :=
  match p with
  | cc => v + k
  | iCtl => sext48 (v &&& iCtl.writableBits)
  | p => v &&& p.writableBits

/-- **The register law**, for one HW_MTPR: any later HW_MFPR of the register returns the value
written, cut to the writable bits, and any HW_MFPR of a register that shares no field with it
returns what it would have returned without the write. -/
structure HwMtprLaw (g : InstructionGrain) (c : ExecCtx) (cpu : CpuState) : Prop where
  /-- The register reads back. -/
  readBack : ∀ (g' : InstructionGrain) (k : Word),
    iprSelector g'.encoded = iprSelector g.encoded →
    execHwMfpr g' ((execHwMtpr g c cpu).1.elapse k) =
      intWrite g' g'.encoded.ra ((iprSelector g.encoded).readsBack c.opB k)
  /-- The other registers are left alone. -/
  frame : ∀ (g' : InstructionGrain) (k : Word),
    (iprSelector g'.encoded).backed = true →
    (iprSelector g.encoded).sharesField (iprSelector g'.encoded) = false →
    execHwMfpr g' ((execHwMtpr g c cpu).1.elapse k) = execHwMfpr g' (cpu.elapse k)

/-! ## The two switches -/

/-- A write of I_CTL also stores the superpage enables and may exchange the register banks. -/
theorem writeICtl_eq (cpu : CpuState) (v : Word) :
    ∃ regs shadow live, writeICtl cpu v =
      { cpu with
        iCtl := v, iSpe := v.extractLsb' 3 3
        intReg := regs, intShadow := shadow, shadowLive := live } := by
  simp only [writeICtl]
  split
  · exact ⟨_, _, _, rfl⟩
  · exact ⟨cpu.intReg, cpu.intShadow, cpu.shadowLive, rfl⟩

/-- The two bits of a mode are its code. -/
@[simp] theorem ModePrivilege.toBits_ofBits : ∀ b : BitVec 2, (ofBits b).toBits = b := by decide

/-- The mode field of IER_CM is bits 4:3. -/
theorem IprFields.getLsbD_modeMask : ∀ i : Fin 64,
    (0x18 : Word).getLsbD i.val = (3 ≤ i.val && i.val < 5) := by decide

/-- The two portions of IER_CM make up the word. -/
theorem IprFields.ierCmCompose_parts (v : Word) :
    ierCmCompose (ierCmIerPortion v) (ierCmExtractMode v) = v := by
  apply BitVec.eq_of_getLsbD_eq
  intro i hi
  have hmask := getLsbD_modeMask ⟨i, hi⟩
  simp only [ierCmCompose, ierCmExtractMode, ModePrivilege.toBits_ofBits, ierCmIerPortion,
    BitVec.getLsbD_or, BitVec.getLsbD_and, BitVec.getLsbD_not, BitVec.getLsbD_shiftLeft,
    BitVec.getLsbD_setWidth, BitVec.getLsbD_extractLsb', hmask, hi]
  -- inside the mode field the bit comes from the mode, outside from IER
  by_cases hfield : 3 ≤ i ∧ i < 5
  · obtain ⟨h3, h5⟩ := hfield
    simp [h3, h5, show i - 3 < 2 by omega, show 3 + (i - 3) = i by omega, show i - 3 < 64 by omega]
  · by_cases h3 : 3 ≤ i
    · simp [h3, show ¬ i < 5 by omega, show ¬ i - 3 < 2 by omega]
    · simp [h3, show i < 3 by omega]

/-- The bits of a value that the code keeps for a register. -/
def HwIpr.storedBits : HwIpr → Word
  | palBase => 0x7FFFFFF8000
  | ier => ~~~0x18
  | cm => 0x3
  | _ => BitVec.allOnes 64

/-- What the code reads `k` cycles after a write of `v`. -/
def HwIpr.codeReads (p : HwIpr) (v k : Word) : Word :=
  if p = .cc then v + k else v &&& p.storedBits

/-- A register that keeps every bit reads as the value itself. -/
theorem HwIpr.codeReads_of_allOnes {p : HwIpr} {v k : Word} (hp : p ≠ .cc)
    (hbits : p.storedBits = BitVec.allOnes 64) : p.codeReads v k = v := by
  rw [codeReads, if_neg hp, hbits, BitVec.and_allOnes]

/-- The two low bits of a value, which CM keeps. -/
theorem setWidth_extractLsb'_zero_two (v : Word) :
    (v.extractLsb' 0 2).setWidth 64 = v &&& 0x3 := by
  apply BitVec.eq_of_toNat_eq
  rw [BitVec.toNat_setWidth, BitVec.extractLsb'_toNat, Nat.shiftRight_zero,
    Library.toNat_and_lowMask 2 rfl]
  omega

/-- A register that was written is read as the code reads it. -/
theorem readIpr_writeIpr_self (cpu : CpuState) (v k : Word) {p : HwIpr} (h : p.backed = true) :
    ∃ cpu', writeIpr cpu v p = some cpu' ∧ readIpr (cpu'.elapse k) p = some (p.codeReads v k) := by
  -- the cases of registers without a field close at once, the rest are taken up by name
  cases p <;> first | exact absurd h Bool.false_ne_true | skip
  case palBase => exact ⟨_, rfl, rfl⟩
  case ier => exact ⟨_, rfl, rfl⟩
  case cm =>
    refine ⟨_, rfl, congrArg some ?_⟩
    change (ModePrivilege.ofBits (v.extractLsb' 0 2)).toBits.setWidth 64 = v &&& 0x3
    rw [ModePrivilege.toBits_ofBits, setWidth_extractLsb'_zero_two]
  case ierCm =>
    refine ⟨_, rfl, congrArg some ?_⟩
    refine (IprFields.ierCmCompose_parts v).trans (Eq.symm ?_)
    refine HwIpr.codeReads_of_allOnes ?_ rfl
    nofun
  case cc =>
    refine ⟨_, rfl, congrArg some ?_⟩
    -- CC is kept as an offset from the cycle count and so goes on counting
    change cpu.cycleCount + k + (v - cpu.cycleCount) = v + k
    bv_omega
  case iCtl =>
    -- reading I_CTL sees the field only, whatever became of the banks
    obtain ⟨_, _, _, heq⟩ := writeICtl_eq cpu v
    refine ⟨_, congrArg some heq, congrArg some (Eq.symm ?_)⟩
    refine HwIpr.codeReads_of_allOnes ?_ rfl
    nofun
  case palTemp i =>
    refine ⟨_, rfl, congrArg some ?_⟩
    refine (Function.update_self i v cpu.palTemp).trans (Eq.symm ?_)
    refine HwIpr.codeReads_of_allOnes ?_ rfl
    nofun
  -- the other registers are a field of their own
  all_goals
    refine ⟨_, rfl, congrArg some (Eq.symm ?_)⟩
    refine HwIpr.codeReads_of_allOnes ?_ rfl
    nofun

/-! ## Which values read back -/

/-- Two masks keep the same of a value exactly if it has no bit that only one of them keeps. -/
theorem and_eq_and_iff (v a b : Word) : v &&& a = v &&& b ↔ v &&& (a ^^^ b) = 0 := by
  have hxor : (v &&& a) ^^^ (v &&& b) = v &&& (a ^^^ b) := by
    apply BitVec.eq_of_getLsbD_eq
    intro i hi
    simp only [BitVec.getLsbD_xor, BitVec.getLsbD_and]
    cases v.getLsbD i <;> simp
  rw [← hxor]
  exact BitVec.xor_eq_zero_iff.symm

namespace HwIpr

/-- The low bits of `sext48` are those of the value, and the others are copies of bit 47. -/
theorem getLsbD_sext48 (v : Word) {i : Nat} (hi : i < 64) :
    (sext48 v).getLsbD i = if i < 48 then v.getLsbD i else v.getLsbD 47 := by
  rw [sext48, BitVec.getLsbD_signExtend, BitVec.msb_setWidth, decide_eq_true hi]
  simp only [BitVec.getLsbD_setWidth, Bool.true_and]
  split
  · next h => rw [decide_eq_true h, Bool.true_and]
  · rfl

/-- Below bit 48 the fields of I_CTL are the bits that do not go wrong. -/
theorem getLsbD_writableBits_iCtl : ∀ i : Fin 48,
    iCtl.writableBits.getLsbD i.val = !iCtl.strayBits.getLsbD i.val := by
  decide

/-- I_CTL reads back a value that is a sign extension without its read-only and ignored bits. -/
theorem eq_sext48_and_iff (v : Word) : v = sext48 (v &&& iCtl.writableBits) ↔ iCtl.Fits v := by
  have hbit : ∀ i < 64, (sext48 (v &&& iCtl.writableBits)).getLsbD i =
      if i < 48 then v.getLsbD i && !iCtl.strayBits.getLsbD i else v.getLsbD 47 := by
    intro i hi
    have h47 : iCtl.writableBits.getLsbD 47 = true := by decide
    rw [getLsbD_sext48 _ hi, BitVec.getLsbD_and, BitVec.getLsbD_and, h47, Bool.and_true]
    split
    · next h => rw [getLsbD_writableBits_iCtl ⟨i, h⟩]
    · rfl
  have hhigh : ∀ i : Fin 64, 48 ≤ i.val → iCtl.strayBits.getLsbD i.val = false := by decide
  have hzero : ∀ i, (0 : Word).getLsbD i = false := fun _ => BitVec.getLsbD_zero
  constructor
  · intro h
    refine ⟨BitVec.eq_of_getLsbD_eq fun i hi => ?_, fun _ => BitVec.eq_of_getLsbD_eq fun i hi => ?_⟩
    · rw [BitVec.getLsbD_and, hzero]
      by_cases h48 : i < 48
      · rw [h, hbit i hi, if_pos h48, Bool.and_assoc, Bool.not_and_self, Bool.and_false]
      · rw [hhigh ⟨i, hi⟩ (Nat.le_of_not_lt h48), Bool.and_false]
    · have hv := congrArg (BitVec.getLsbD · i) h
      rw [getLsbD_sext48 v hi]
      split
      · rfl
      · next h48 => exact (hv.trans ((hbit i hi).trans (if_neg h48))).symm
  · rintro ⟨hstray, hsext⟩
    refine BitVec.eq_of_getLsbD_eq fun i hi => ?_
    rw [hbit i hi]
    split
    · have hclear := congrArg (BitVec.getLsbD · i) hstray
      simp only [BitVec.getLsbD_and, hzero] at hclear
      cases hv : v.getLsbD i with
      | false => rfl
      | true =>
        rw [hv, Bool.true_and] at hclear
        rw [hclear]
        rfl
    · next h48 =>
      have hcopy := congrArg (BitVec.getLsbD · i) (hsext rfl)
      simp only [getLsbD_sext48 v hi, if_neg h48] at hcopy
      exact hcopy.symm

/-- The code reads back what the layout asks for exactly on the values that fit. -/
theorem codeReads_eq_iff (p : HwIpr) (v k : Word) : p.codeReads v k = p.readsBack v k ↔ p.Fits v := by
  -- but for I_CTL and CC both are masks, and they differ in the bits that go wrong
  have hmask : p ≠ .iCtl → p.storedBits ^^^ p.writableBits = p.strayBits →
      (v &&& p.storedBits = v &&& p.writableBits ↔ p.Fits v) := by
    intro hne hxor
    rw [and_eq_and_iff, hxor, Fits]
    exact (and_iff_left fun h => absurd h hne).symm
  cases p with
  | iCtl =>
    have hstored : codeReads .iCtl v k = v := codeReads_of_allOnes (by nofun) rfl
    rw [hstored]
    exact eq_sext48_and_iff v
  | cc =>
    have hfits : cc.Fits v := ⟨BitVec.and_zero, by nofun⟩
    exact iff_of_true rfl hfits
  | palTemp i => exact hmask (by nofun) (BitVec.xor_self)
  | _ => exact hmask (by nofun) (by decide)

end HwIpr

/-- A write leaves every backed register alone that shares no field with the one written. -/
theorem readIpr_writeIpr_of_not_sharesField (cpu : CpuState) (v k : Word) {p q : HwIpr}
    (hp : p.backed = true) (hq : q.backed = true) (h : p.sharesField q = false) :
    ∃ cpu', writeIpr cpu v p = some cpu' ∧
      readIpr (cpu'.elapse k) q = readIpr (cpu.elapse k) q := by
  cases p <;> first | exact absurd hp Bool.false_ne_true | skip
  case palTemp i =>
    refine ⟨_, rfl, ?_⟩
    cases q <;> first | exact absurd hq Bool.false_ne_true | rfl | skip
    case palTemp j =>
      -- two PAL temporaries with one number would share a field
      have hne : j ≠ i := by
        rintro rfl
        exact absurd h (by simp [HwIpr.sharesField])
      change some (Function.update cpu.palTemp i v j) = some (cpu.palTemp j)
      rw [Function.update_of_ne hne]
  case iCtl =>
    obtain ⟨_, _, _, heq⟩ := writeICtl_eq cpu v
    refine ⟨_, congrArg some heq, ?_⟩
    cases q <;>
      first | exact absurd hq Bool.false_ne_true | exact absurd h (by decide) | rfl
  all_goals
    refine ⟨_, rfl, ?_⟩
    cases q <;>
      first | exact absurd hq Bool.false_ne_true | exact absurd h (by decide) | rfl

/-! ## The law -/

/-- The CPU after a write that is not refused. -/
theorem execHwMtpr_of_writeIpr {g : InstructionGrain} {c : ExecCtx} {cpu cpu' : CpuState}
    (h : writeIpr cpu c.opB (iprSelector g.encoded) = some cpu') :
    (execHwMtpr g c cpu).1 = cpu' := by
  rw [execHwMtpr, h]

/-- The result of a read that is not refused. -/
theorem execHwMfpr_of_readIpr {g : InstructionGrain} {cpu : CpuState} {v : Word}
    (h : readIpr cpu (iprSelector g.encoded) = some v) :
    execHwMfpr g cpu = intWrite g g.encoded.ra v := by
  rw [execHwMfpr, h]

/-- **The registers read back and do not disturb each other**, for every CPU, register and value,
exactly if the value fits the register; and RPCC reads what HW_MFPR of CC reads. -/
theorem hwMtprLaw_iff (cpu : CpuState) :
    (∀ (g : InstructionGrain) (c : ExecCtx),
      (iprSelector g.encoded).backed = true →
      (HwMtprLaw g c cpu ↔ (iprSelector g.encoded).Fits c.opB)) ∧
    ∀ g g' : InstructionGrain, iprSelector g'.encoded = .cc →
      (execRpcc g cpu).regWriteValue = (execHwMfpr g' cpu).regWriteValue := by
  refine ⟨fun g c hp => ⟨?_, ?_⟩, ?_⟩
  · rintro ⟨hread, -⟩
    -- read the register back with the selector it was written with
    obtain ⟨cpu', hw, hr⟩ := readIpr_writeIpr_self cpu c.opB 0 hp
    have h := hread g 0 rfl
    rw [execHwMtpr_of_writeIpr hw, execHwMfpr_of_readIpr hr] at h
    exact (HwIpr.codeReads_eq_iff _ _ 0).mp (congrArg BoxResult.regWriteValue h)
  · intro hfits
    refine ⟨fun g' k hsel => ?_, fun g' k hq hshare => ?_⟩
    · obtain ⟨cpu', hw, hr⟩ := readIpr_writeIpr_self cpu c.opB k hp
      rw [← hsel] at hr
      rw [execHwMtpr_of_writeIpr hw, execHwMfpr_of_readIpr hr, hsel,
        (HwIpr.codeReads_eq_iff _ _ k).mpr hfits]
    · obtain ⟨cpu', hw, hr⟩ := readIpr_writeIpr_of_not_sharesField cpu c.opB k hp hq hshare
      rw [execHwMtpr_of_writeIpr hw, execHwMfpr, execHwMfpr, hr]
  · intro g g' hsel
    rw [execHwMfpr, hsel]
    rfl

/-- HW_MTPR R1 of the register with the given index. -/
def hwMtprOf (index : BitVec 8) : InstructionGrain :=
  { pc := 0, semFlags := [], encoded := 0x77E10000#32 ||| (index.setWidth 32 <<< 8), primaryOp := 0x1D }

/-- A PAL_BASE with bit 43 set loses it: the register reads back as zero, where bits 43:15 of the
value were to be kept. I_CTL keeps the chip number it is given and IER its ignored bits. -/
theorem palBase_loses_bit_43 :
    (iprSelector (hwMtprOf 0x10).encoded = .palBase ∧
      (execHwMfpr (hwMtprOf 0x10)
        (execHwMtpr (hwMtprOf 0x10) { opB := 0x80000000000 } {}).1).regWriteValue = 0 ∧
      HwIpr.palBase.readsBack 0x80000000000 0 = 0x80000000000 ∧
      ¬ HwMtprLaw (hwMtprOf 0x10) { opB := 0x80000000000 } {}) ∧
    (iprSelector (hwMtprOf 0x11).encoded = .iCtl ∧
      (execHwMfpr (hwMtprOf 0x11)
        (execHwMtpr (hwMtprOf 0x11) { opB := 0x1F800000 } {}).1).regWriteValue = 0x1F800000 ∧
      HwIpr.iCtl.readsBack 0x1F800000 0 = 0 ∧
      ¬ HwMtprLaw (hwMtprOf 0x11) { opB := 0x1F800000 } {}) ∧
    iprSelector (hwMtprOf 0x0A).encoded = .ier ∧
      (execHwMfpr (hwMtprOf 0x0A)
        (execHwMtpr (hwMtprOf 0x0A) { opB := 0x2003 } {}).1).regWriteValue = 0x2003 ∧
      HwIpr.ier.readsBack 0x2003 0 = 0 ∧
      ¬ HwMtprLaw (hwMtprOf 0x0A) { opB := 0x2003 } {} := by
  refine ⟨⟨by decide, by decide, by decide, fun h => ?_⟩,
    ⟨by decide, by decide, by decide, fun h => ?_⟩, by decide, by decide, by decide, fun h => ?_⟩
  · have hread := congrArg BoxResult.regWriteValue (h.readBack (hwMtprOf 0x10) 0 rfl)
    exact absurd hread (by decide)
  · have hread := congrArg BoxResult.regWriteValue (h.readBack (hwMtprOf 0x11) 0 rfl)
    exact absurd hread (by decide)
  · have hread := congrArg BoxResult.regWriteValue (h.readBack (hwMtprOf 0x0A) 0 rfl)
    exact absurd hread (by decide)

end EmulatR
