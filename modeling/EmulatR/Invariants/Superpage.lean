import EmulatR.Invariants.Translation

/-! # Superpages byte by byte

A superpage maps a region of kernel addresses one to one. The translator masks the page offset out
of the address (mmuLib/Ev6Translator.h), so it returns the first byte of the page, where a hit in
the translation buffer puts the offset back.

`byteLevelData` and `byteLevelInstruction` are the two translators over a map of the regions that
keeps every bit of the offset. The code agrees with them exactly where a superpage translation has
no offset.

`superpage_byteLevel_iff` is the exact condition; `superpage_loses_offset` is an address that breaks
it. -/

namespace EmulatR

namespace Ev6Translator

/-! ## The map -/

/-- Where the enabled regions put an address: the first one it lies in, with VA<43:0>, VA<40:0>
sign-extended to 44 bits, or VA<29:0>. -/
def superpageMap (va : Word) (spe : BitVec 3) : Option Word :=
  if spe.getLsbD 2 && va.extractLsb' 46 2 == 2 then some ((va.extractLsb' 0 44).setWidth 64)
  else if spe.getLsbD 1 && va.extractLsb' 41 7 == 0x7E then
    some (((va.extractLsb' 0 41).signExtend 44).setWidth 64)
  else if spe.getLsbD 0 && va.extractLsb' 30 18 == 0x3FFFE then
    some ((va.extractLsb' 0 30).setWidth 64)
  else none

/-- Data translation over the map. -/
def byteLevelData (cpu : CpuState) (va : Word) (access : AccessKind) : TranslationResult :=
  if !isCanonicalVA va cpu.vaCtl then .nonCanonical
  else match superpageMap va cpu.mSpe with
    | some pa => if cpu.mode = .kernel then .success pa else .accessViolation
    | none =>
      match cpu.dtbMgr.lookup .dtb va cpu.asn with
      | some pte => applyTlbHit pte va access cpu.mode
      | none => .dtbMiss

/-- Instruction translation over the map. -/
def byteLevelInstruction (cpu : CpuState) (va : Word) : TranslationResult :=
  if !isAlignedFor (va &&& ~~~1) 4 then .unaligned
  else if cpu.inPalMode then .success ((va &&& ~~~1) &&& paMask)
  else if !isCanonicalVA va cpu.vaCtl then .nonCanonical
  else match superpageMap va cpu.iSpe with
    | some pa => if cpu.mode = .kernel then .success pa else .accessViolation
    | none =>
      match cpu.itbMgr.lookup .itb va cpu.asn with
      | some pte => applyTlbHit pte va .execute cpu.mode
      | none => .itbMiss

/-- The map has an image exactly in the enabled regions. -/
theorem superpageMap_ne_none_iff {va : Word} {spe : BitVec 3} :
    superpageMap va spe ≠ none ↔ InSuperpage va spe := by
  simp only [superpageMap, InSuperpage, Bool.and_eq_true, beq_iff_eq]
  split_ifs with h2 h1 h0
  · exact iff_of_true (by simp) (Or.inl h2)
  · exact iff_of_true (by simp) (Or.inr (Or.inl h1))
  · exact iff_of_true (by simp) (Or.inr (Or.inr h0))
  · refine iff_of_false (fun h => h rfl) ?_
    rintro (h | h | h)
    · exact h2 h
    · exact h1 h
    · exact h0 h

/-! ## The code's superpages -/

/-- An address without its page offset. -/
def pageBase (a : Word) : Word := a &&& ~~~0x1FFF

/-- The base of a page has the offset bits clear. -/
theorem getLsbD_pageBase (a : Word) {i : Nat} (hi : i < 64) :
    (pageBase a).getLsbD i = (decide (13 ≤ i) && a.getLsbD i) := by
  have hmask : ∀ i : Fin 64, (~~~0x1FFF : Word).getLsbD i.val = decide (13 ≤ i.val) := by decide
  rw [pageBase, BitVec.getLsbD_and, hmask ⟨i, hi⟩, Bool.and_comm]

/-- An address is its page's base iff its offset is zero. -/
theorem pageBase_eq_self_iff (a : Word) : pageBase a = a ↔ a.extractLsb' 0 13 = 0 := by
  constructor
  · intro h
    refine BitVec.eq_of_getLsbD_eq fun i hi => ?_
    have hbit := congrArg (BitVec.getLsbD · i) h
    simp only [getLsbD_pageBase a (show i < 64 by omega), show ¬ 13 ≤ i by omega, decide_false,
      Bool.false_and] at hbit
    rw [BitVec.getLsbD_extractLsb', Nat.zero_add, ← hbit, Bool.and_false]
    exact BitVec.getLsbD_zero.symm
  · intro h
    refine BitVec.eq_of_getLsbD_eq fun i hi => ?_
    rw [getLsbD_pageBase a hi]
    by_cases h13 : 13 ≤ i
    · simp [h13]
    · have hbit := congrArg (BitVec.getLsbD · i) h
      simp only [BitVec.getLsbD_extractLsb', show i < 13 by omega, Nat.zero_add] at hbit
      simpa [h13] using hbit.symm

/-- A region's image has the page offset of the address. -/
theorem extractLsb'_superpageMap {va pa : Word} {spe : BitVec 3}
    (h : superpageMap va spe = some pa) : pa.extractLsb' 0 13 = va.extractLsb' 0 13 := by
  rw [superpageMap] at h
  refine BitVec.eq_of_getLsbD_eq fun i hi => ?_
  split_ifs at h
  all_goals
    cases h
    simp [BitVec.getElem_signExtend, hi, show i < 44 by omega, show i < 41 by omega,
      show i < 30 by omega, show i < 64 by omega]

/-- The masks of the three regions keep the page number and drop the offset. -/
theorem superpageMasks : ∀ i : Fin 64,
    (0x00000FFFFFFFE000 : Word).getLsbD i.val = decide (13 ≤ i.val ∧ i.val < 44) ∧
    (0x000001FFFFFFE000 : Word).getLsbD i.val = decide (13 ≤ i.val ∧ i.val < 41) ∧
    (0x000000003FFFE000 : Word).getLsbD i.val = decide (13 ≤ i.val ∧ i.val < 30) ∧
    (0x00000E0000000000 : Word).getLsbD i.val = decide (41 ≤ i.val ∧ i.val < 44) := by decide

/-- **The code maps an address where the map puts its page.** -/
theorem tryKsegTranslate_eq (va : Word) (mode : ModePrivilege) (spe : BitVec 3) :
    tryKsegTranslate va mode spe = match superpageMap va spe with
      | none => .notKseg
      | some pa => if mode ≠ .kernel then .accessViolation else .success (pageBase pa) := by
  have hwide : va &&& 0x00000FFFFFFFE000 = pageBase ((va.extractLsb' 0 44).setWidth 64) := by
    refine BitVec.eq_of_getLsbD_eq fun i hi => ?_
    rw [BitVec.getLsbD_and, (superpageMasks ⟨i, hi⟩).1, getLsbD_pageBase _ hi]
    simp only [BitVec.getLsbD_setWidth, BitVec.getLsbD_extractLsb', Nat.zero_add]
    grind
  have hmiddle : (if (va &&& 0x000001FFFFFFE000).getLsbD 40 then
      (va &&& 0x000001FFFFFFE000) ||| 0x00000E0000000000 else va &&& 0x000001FFFFFFE000) =
      pageBase (((va.extractLsb' 0 41).signExtend 44).setWidth 64) := by
    refine BitVec.eq_of_getLsbD_eq fun i hi => ?_
    have h40 : (va &&& 0x000001FFFFFFE000).getLsbD 40 = va.getLsbD 40 := by simp
    have hmsb : (va.extractLsb' 0 41).msb = va.getLsbD 40 := by
      simp [BitVec.msb_eq_getLsbD_last]
    obtain ⟨-, hmask, -, hsign⟩ := superpageMasks ⟨i, hi⟩
    rw [h40, getLsbD_pageBase _ hi, BitVec.getLsbD_setWidth, BitVec.getLsbD_signExtend, hmsb]
    -- bits 43:41 are the sign
    cases hs : va.getLsbD 40 with
    | true =>
      rw [if_pos rfl, BitVec.getLsbD_or, BitVec.getLsbD_and, hmask, hsign]
      simp only [BitVec.getLsbD_extractLsb', Nat.zero_add]
      grind
    | false =>
      rw [if_neg (by decide), BitVec.getLsbD_and, hmask]
      simp only [BitVec.getLsbD_extractLsb', Nat.zero_add]
      grind
  have hnarrow : va &&& 0x000000003FFFE000 = pageBase ((va.extractLsb' 0 30).setWidth 64) := by
    refine BitVec.eq_of_getLsbD_eq fun i hi => ?_
    rw [BitVec.getLsbD_and, (superpageMasks ⟨i, hi⟩).2.2.1, getLsbD_pageBase _ hi]
    simp only [BitVec.getLsbD_setWidth, BitVec.getLsbD_extractLsb', Nat.zero_add]
    grind
  simp only [tryKsegTranslate, superpageMap, hwide, hmiddle, hnarrow]
  split_ifs <;> rfl

/-- An image has at most 44 bits, so the mask on the way to memory leaves its page alone. -/
theorem pageBase_and_paMask {va pa : Word} {spe : BitVec 3} (h : superpageMap va spe = some pa) :
    pageBase pa &&& paMask = pageBase pa := by
  have hhigh : ∀ i, 44 ≤ i → pa.getLsbD i = false := by
    rw [superpageMap] at h
    intro i hi
    split_ifs at h
    all_goals
      cases h
      simp [BitVec.getLsbD_setWidth, BitVec.getLsbD_of_ge, hi, show 30 ≤ i by omega]
  refine BitVec.eq_of_getLsbD_eq fun i hi => ?_
  have hmask : ∀ i : Fin 64, paMask.getLsbD i.val = decide (i.val < 44) := by decide
  rw [BitVec.getLsbD_and, getLsbD_pageBase pa hi, hmask ⟨i, hi⟩]
  by_cases h44 : i < 44
  · simp [h44]
  · simp [hhigh i (by omega)]

/-- What is left to either translator once the canonical form is checked. -/
theorem afterSuperpage_iff (va : Word) (mode : ModePrivilege) (spe : BitVec 3)
    (buffer : TranslationResult) :
    (match (tryKsegTranslate va mode spe).pa? with
      | some pa => TranslationResult.success (pa &&& paMask)
      | none =>
        if tryKsegTranslate va mode spe = TranslationResult.accessViolation then
          TranslationResult.accessViolation
        else buffer) =
      (match superpageMap va spe with
      | some pa =>
        if mode = ModePrivilege.kernel then TranslationResult.success pa
        else TranslationResult.accessViolation
      | none => buffer) ↔
    (mode = .kernel → InSuperpage va spe → va.extractLsb' 0 13 = 0) := by
  rw [← superpageMap_ne_none_iff, tryKsegTranslate_eq]
  cases hmap : superpageMap va spe with
  | none => exact iff_of_true rfl fun _ h => absurd rfl h
  | some pa =>
    by_cases hmode : mode = .kernel
    · -- the offset is the only thing that can differ
      simp only [hmode, ne_eq, not_true_eq_false, if_false, TranslationResult.pa?, if_true,
        pageBase_and_paMask hmap, TranslationResult.success.injEq, pageBase_eq_self_iff,
        extractLsb'_superpageMap hmap]
      exact ⟨fun h _ _ => h, fun h => h trivial nofun⟩
    · simp [hmode, TranslationResult.pa?]

/-! ## The result -/

/-- **Superpages keep addresses exactly without an offset.** For every CPU and address, the data and
the instruction translation are the byte-level ones iff the address has no page offset, where it is
translated by a superpage at all: canonical, in kernel mode and in an enabled region, and for a
fetch aligned and outside PALmode. Of two addresses in one page the byte-level map keeps the
difference. -/
theorem superpage_byteLevel_iff (cpu : CpuState) (va : Word) :
    (∀ access, translateData cpu va access = byteLevelData cpu va access ↔
      (isCanonicalVA va cpu.vaCtl = true → cpu.mode = .kernel → InSuperpage va cpu.mSpe →
        va.extractLsb' 0 13 = 0)) ∧
    (translateInstruction cpu va = byteLevelInstruction cpu va ↔
      (isAlignedFor (va &&& ~~~1) 4 = true → cpu.inPalMode = false →
        isCanonicalVA va cpu.vaCtl = true → cpu.mode = .kernel → InSuperpage va cpu.iSpe →
        va.extractLsb' 0 13 = 0)) ∧
    ∀ (va' pa : Word) (spe : BitVec 3), vaToVpn va = vaToVpn va' →
      superpageMap va spe = some pa → superpageMap va' spe = some pa → va = va' := by
  refine ⟨fun access => ?_, ?_, fun va' pa spe hpage h h' => ?_⟩
  · rw [translateData, byteLevelData]
    cases isCanonicalVA va cpu.vaCtl with
    | false => simp
    | true =>
      exact (afterSuperpage_iff va cpu.mode cpu.mSpe _).trans ⟨fun h _ => h, fun h => h rfl⟩
  · rw [translateInstruction, byteLevelInstruction]
    cases isAlignedFor (va &&& ~~~1) 4 with
    | false => simp
    | true =>
      cases cpu.inPalMode with
      | true => simp
      | false =>
        cases isCanonicalVA va cpu.vaCtl with
        | false => simp
        | true =>
          exact (afterSuperpage_iff va cpu.mode cpu.iSpe _).trans
            ⟨fun h _ _ _ => h, fun h => h rfl rfl rfl⟩
  · -- the page number and the offset agree
    have hoffset := (extractLsb'_superpageMap h).symm.trans (extractLsb'_superpageMap h')
    refine BitVec.eq_of_getLsbD_eq fun i hi => ?_
    by_cases h13 : i < 13
    · have hbit := congrArg (BitVec.getLsbD · i) hoffset
      simpa [BitVec.getLsbD_extractLsb', h13] using hbit
    · have hbit := congrArg (BitVec.getLsbD · (i - 13)) hpage
      simp only [vaToVpn, BitVec.getLsbD_ushiftRight, Nat.add_sub_cancel' (not_lt.mp h13)] at hbit
      exact hbit

/-- A kernel with the first gigabyte enabled for both streams. -/
def ksegCpu : CpuState := { mSpe := 1, iSpe := 1 }

/-- **A superpage loses the offset.** The kernel reads and fetches the quadword after the first one
of its first superpage from physical address 0. -/
theorem superpage_loses_offset :
    (¬ ∀ (cpu : CpuState) (va : Word) (access : AccessKind),
      translateData cpu va access = byteLevelData cpu va access) ∧
    ¬ ∀ (cpu : CpuState) (va : Word),
      translateInstruction cpu va = byteLevelInstruction cpu va := by
  constructor
  · intro h
    refine absurd (h ksegCpu 0xFFFFFFFF80000008 .dataRead) ?_
    decide +kernel
  · intro h
    refine absurd (h ksegCpu 0xFFFFFFFF80000008) ?_
    decide +kernel

end Ev6Translator

end EmulatR
