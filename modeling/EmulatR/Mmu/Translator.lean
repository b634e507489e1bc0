import EmulatR.Core.CpuState

/-! # Address translation

The EV6 translator (mmuLib/Ev6Translator.h). A data access is checked for alignment if traps are
enabled, then for a canonical address, then against the superpages, then against the data
translation buffer. An instruction fetch in PALmode is physical; otherwise it takes the same path
through the instruction-side enables and buffer. The physical address exists only on success.

`translateData`, `translateDataAligned` and `translateInstruction` are the translator,
`TranslationResult` its answers. -/

namespace EmulatR

/-- The outcome of a translation. -/
inductive TranslationResult
  /-- The physical address. -/
  | success (pa : Word)
  | nonCanonical | notKseg | dtbMiss | itbMiss | accessViolation
  | faultOnRead | faultOnWrite | faultOnExecute | busError | unaligned
  deriving DecidableEq, Repr

/-- The fault code of an outcome. -/
def TranslationResult.toFaultCode : TranslationResult → FaultCode
  | success _ => .noFault
  | notKseg => .noFault
  | nonCanonical => .nonCanonical
  | dtbMiss => .dtbMiss
  | itbMiss => .itbMiss
  | accessViolation => .acv
  | faultOnRead => .faultOnRead
  | faultOnWrite => .faultOnWrite
  | faultOnExecute => .faultOnExecute
  | busError => .busError
  | unaligned => .unaligned

/-- The physical address of a successful outcome. -/
def TranslationResult.pa? : TranslationResult → Option Word
  | success pa => some pa
  | _ => none

/-- What an access is for. -/
inductive AccessKind
  | dataRead | dataWrite | execute
  deriving DecidableEq, Repr

namespace Ev6Translator

/-- The 44-bit physical address mask. -/
def paMask : Word := 0xFFFFFFFFFFF

/-- The address is sign-extended from bit 47, or from bit 42 if VA_CTL does not select 48 bits. -/
def isCanonicalVA (va vaCtl : Word) : Bool :=
  let msb := if vaCtl.getLsbD 1 then 47 else 42
  let high := va >>> msb
  high == 0 || high == (BitVec.allOnes 64) >>> msb

/-- The superpages, most significant enable first. Outside kernel mode a match is a violation. -/
def tryKsegTranslate (va : Word) (mode : ModePrivilege) (spe : BitVec 3) : TranslationResult :=
  -- VA<47:46> = 2, VA<43:13> mapped one to one
  if spe.getLsbD 2 && va.extractLsb' 46 2 == 2 then
    if mode ≠ .kernel then .accessViolation else .success (va &&& 0x00000FFFFFFFE000)
  -- VA<47:41> = 0x7E, with PA<43:41> the sign of VA<40>
  else if spe.getLsbD 1 && va.extractLsb' 41 7 == 0x7E then
    if mode ≠ .kernel then .accessViolation
    else
      let base := va &&& 0x000001FFFFFFE000
      .success (if base.getLsbD 40 then base ||| 0x00000E0000000000 else base)
  -- VA<47:30> = 0x3FFFE, the first gigabyte
  else if spe.getLsbD 0 && va.extractLsb' 30 18 == 0x3FFFE then
    if mode ≠ .kernel then .accessViolation else .success (va &&& 0x000000003FFFE000)
  else .notKseg

/-- The address is a multiple of the access size. -/
def isAlignedFor (va : Word) (accessSize : Nat) : Bool :=
  accessSize ≤ 1 || va &&& (BitVec.ofNat 64 accessSize - 1) == 0

/-- The physical address of a translation buffer hit: the frame with an 8 KiB page offset. -/
def hitPa (pte : AlphaPte) (va : Word) : Word := ((pte.pfn <<< 13) ||| (va &&& 0x1FFF)) &&& paMask

/-- The permission checks of a translation buffer hit, then the physical address. -/
def applyTlbHit (pte : AlphaPte) (va : Word) (access : AccessKind) (mode : ModePrivilege) :
    TranslationResult :=
  match access with
  | .dataRead =>
    if pte.bitFOR then .faultOnRead else if !pte.canRead mode then .accessViolation
    else .success (hitPa pte va)
  | .dataWrite =>
    if pte.bitFOW then .faultOnWrite else if !pte.canWrite mode then .accessViolation
    else .success (hitPa pte va)
  | .execute =>
    if pte.bitFOE then .faultOnExecute else if !pte.canExecute mode then .accessViolation
    else .success (hitPa pte va)

/-- Translate a data address. -/
def translateData (cpu : CpuState) (va : Word) (access : AccessKind) : TranslationResult :=
  if !isCanonicalVA va cpu.vaCtl then .nonCanonical
  else match (tryKsegTranslate va cpu.mode cpu.mSpe).pa? with
    | some pa => .success (pa &&& paMask)
    | none =>
      -- a superpage address from outside kernel mode never reaches the buffer
      if tryKsegTranslate va cpu.mode cpu.mSpe = .accessViolation then .accessViolation
      else match cpu.dtbMgr.lookup .dtb va cpu.asn with
        | some pte => applyTlbHit pte va access cpu.mode
        | none => .dtbMiss

/-- Translate a data address of the given size; a misaligned one traps if traps are enabled. -/
def translateDataAligned (cpu : CpuState) (va : Word) (accessSize : Nat) (access : AccessKind) :
    TranslationResult :=
  if !isAlignedFor va accessSize && cpu.unalignTrapEnabled then .unaligned
  else translateData cpu va access

/-- Translate an instruction address. -/
def translateInstruction (cpu : CpuState) (va : Word) : TranslationResult :=
  if !isAlignedFor (va &&& ~~~1) 4 then .unaligned
  -- PALcode is fetched physically; data in PALmode still translates
  else if cpu.inPalMode then .success ((va &&& ~~~1) &&& paMask)
  else if !isCanonicalVA va cpu.vaCtl then .nonCanonical
  else match (tryKsegTranslate va cpu.mode cpu.iSpe).pa? with
    | some pa => .success (pa &&& paMask)
    | none =>
      if tryKsegTranslate va cpu.mode cpu.iSpe = .accessViolation then .accessViolation
      else match cpu.itbMgr.lookup .itb va cpu.asn with
        | some pte => applyTlbHit pte va .execute cpu.mode
        | none => .itbMiss

/-! ## Which outcomes each stream can have -/

/-- The outcomes of a data translation. -/
def IsDataOutcome (access : AccessKind) : TranslationResult → Prop
  | .success _ => True
  | .nonCanonical => True
  | .dtbMiss => True
  | .accessViolation => True
  | .unaligned => True
  | .faultOnRead => access = .dataRead
  | .faultOnWrite => access = .dataWrite
  | .notKseg => False
  | .itbMiss => False
  | .faultOnExecute => False
  | .busError => False

/-- The outcomes of an instruction translation. -/
def IsFetchOutcome : TranslationResult → Prop
  | .success _ => True
  | .nonCanonical => True
  | .itbMiss => True
  | .accessViolation => True
  | .unaligned => True
  | .faultOnExecute => True
  | .notKseg => False
  | .dtbMiss => False
  | .faultOnRead => False
  | .faultOnWrite => False
  | .busError => False

/-- A data hit has a data outcome. -/
theorem applyTlbHit_isDataOutcome (pte : AlphaPte) (va : Word) {access : AccessKind}
    (mode : ModePrivilege) (h : access ≠ .execute) :
    IsDataOutcome access (applyTlbHit pte va access mode) := by
  cases access with
  | dataRead => simp only [applyTlbHit]; split_ifs <;> trivial
  | dataWrite => simp only [applyTlbHit]; split_ifs <;> trivial
  | execute => exact absurd rfl h

/-- A data translation has a data outcome. -/
theorem translateData_isDataOutcome (cpu : CpuState) (va : Word) {access : AccessKind}
    (h : access ≠ .execute) : IsDataOutcome access (translateData cpu va access) := by
  rw [translateData]
  split
  · trivial
  · split
    · trivial
    · split
      · trivial
      · split
        -- a hit; the other branches are canonical form, superpage and miss
        · exact applyTlbHit_isDataOutcome _ va cpu.mode h
        · trivial

/-- **Data translations fail only in data ways.** -/
theorem translateDataAligned_isDataOutcome (cpu : CpuState) (va : Word) (size : Nat)
    {access : AccessKind} (h : access ≠ .execute) :
    IsDataOutcome access (translateDataAligned cpu va size access) := by
  rw [translateDataAligned]
  split
  · trivial
  · exact translateData_isDataOutcome cpu va h

/-- **Instruction translations fail only in instruction ways.** -/
theorem translateInstruction_isFetchOutcome (cpu : CpuState) (va : Word) :
    IsFetchOutcome (translateInstruction cpu va) := by
  rw [translateInstruction]
  split
  · trivial
  · split
    · trivial
    · split
      · trivial
      · split
        · trivial
        · split
          · trivial
          · split
            · simp only [applyTlbHit]; split_ifs <;> trivial
            · trivial

end Ev6Translator

end EmulatR
