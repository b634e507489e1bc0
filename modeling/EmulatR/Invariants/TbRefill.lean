import EmulatR.Pipeline.MemDrainer

/-! # Refilling the translation buffers

There is no hardware page walker. A miss traps to PALcode, which finds the PTE and installs it with
HW_MTPR, and the access is executed again. For this to make progress the installed entry has to be
the one the lookup finds.

The two sides are keyed differently. ITB_PTE installs under the CPU's address space number, which is
also what every lookup uses. DTB_PTE0 and DTB_PTE1 install under the number staged in DTB_ASN0 and
DTB_ASN1, eight bits wide. The CPU's number is documented to be that of PCTX; but selector 0x40,
where PCTX lives, is taken for PAL_TEMP 0, so a write of PCTX never changes it, and SWPCTX loads all
64 bits of the HWPCB field. When PALcode stages another number than the CPU's, the entry is found
only if it is global and happens to be in a shard the lookup probes.

`tbRefill_progress_iff` is the exact condition; `tbRefill_misses_again` is a refill that does not
help. -/

namespace EmulatR

/-- A sequence of HW_MTPR writes. -/
def writeIprs (cpu : CpuState) : List (HwIpr × Word) → Option CpuState
  | [] => some cpu
  | (p, v) :: ws => (writeIpr cpu v p).bind fun cpu' => writeIprs cpu' ws

/-- The two banks of DTB fill registers. -/
inductive DtbBank
  | zero | one
  deriving DecidableEq, Repr

/-- Stage the address space number in both banks, then fill through one of them. -/
def dtbRefill (bank : DtbBank) (asnReg va pteReg : Word) : List (HwIpr × Word) :=
  match bank with
  | .zero => [(.dtbAsn0, asnReg), (.dtbAsn1, asnReg), (.dtbTag0, va), (.dtbPte0, pteReg)]
  | .one => [(.dtbAsn0, asnReg), (.dtbAsn1, asnReg), (.dtbTag1, va), (.dtbPte1, pteReg)]

/-- Fill the instruction buffer. -/
def itbRefill (va pteReg : Word) : List (HwIpr × Word) := [(.itbTag, va), (.itbPte, pteReg)]

/-- The address space number a DTB_ASN register holds after a write. -/
def dtbAsnField (asnReg : Word) : Word := (asnReg >>> 56) &&& 0xFF

/-- The entry a DTB fill installs is one the CPU's lookups find: it is in the CPU's address space,
or it is global and in one of the shards probed for the address. -/
def RefillFound (cpu : CpuState) (asnReg va pteReg : Word) : Prop :=
  dtbAsnField asnReg = cpu.asn ∨
    (pteReg.getLsbD 4 = true ∧ ∃ gh, SPAMShardManager.shardIndexOf 16
        (TlbTag.make (vaToVpn va) (dtbAsnField asnReg) .dtb (pteGh pteReg)) =
      SPAMShardManager.probeShard 16 .dtb va cpu.asn gh)

instance (cpu : CpuState) (asnReg va pteReg : Word) :
    Decidable (RefillFound cpu asnReg va pteReg) := inferInstanceAs (Decidable (_ ∨ _))

/-! ## The fills -/

/-- DTB_PTE keeps the ASM bit where it is. -/
theorem bitASM_canonicalFromDtbPte (v : Word) : (canonicalFromDtbPte v).bitASM = v.getLsbD 4 := by
  have hone : (1 : Word).getLsbD 4 = false := by decide
  simp only [canonicalFromDtbPte, AlphaPte.bitASM, BitVec.getLsbD_or, BitVec.getLsbD_and, hone,
    BitVec.getLsbD_shiftLeft]
  simp

/-- A DTB refill leaves everything but the buffer and the fill registers as it was. -/
theorem writeIprs_dtbRefill (cpu : CpuState) (bank : DtbBank) (asnReg va pteReg : Word) :
    ∃ tag0 tag1, writeIprs cpu (dtbRefill bank asnReg va pteReg) = some { cpu with
      dtbAsn0 := dtbAsnField asnReg, dtbAsn1 := dtbAsnField asnReg
      dtbTag0 := tag0, dtbTag1 := tag1, dtbPteTemp := pteReg
      dtbMgr := cpu.dtbMgr.insert .dtb va (dtbAsnField asnReg) (canonicalFromDtbPte pteReg)
        (pteGh pteReg) } := by
  cases bank with
  | zero => exact ⟨va, cpu.dtbTag1, rfl⟩
  | one => exact ⟨cpu.dtbTag0, va, rfl⟩

/-- An ITB refill leaves everything but the buffer and the fill registers as it was. -/
theorem writeIprs_itbRefill (cpu : CpuState) (va pteReg : Word) :
    writeIprs cpu (itbRefill va pteReg) = some { cpu with
      itbTag := va, itbPteTemp := pteReg
      itbMgr := cpu.itbMgr.insert .itb va cpu.asn (canonicalFromItbPte pteReg) (pteGh pteReg) } :=
  rfl

/-! ## The access again -/

namespace Ev6Translator

/-- The address comes as far as the data buffer: it is canonical and in no enabled superpage. -/
def ReachesDtb (cpu : CpuState) (va : Word) : Prop :=
  isCanonicalVA va cpu.vaCtl = true ∧ (tryKsegTranslate va cpu.mode cpu.mSpe).pa? = none ∧
    tryKsegTranslate va cpu.mode cpu.mSpe ≠ .accessViolation

/-- A hit is no miss. -/
theorem applyTlbHit_ne_miss (pte : AlphaPte) (va : Word) (access : AccessKind)
    (mode : ModePrivilege) :
    applyTlbHit pte va access mode ≠ .dtbMiss ∧ applyTlbHit pte va access mode ≠ .itbMiss := by
  cases access with
  | dataRead => simp only [applyTlbHit]; split_ifs <;> simp
  | dataWrite => simp only [applyTlbHit]; split_ifs <;> simp
  | execute => simp only [applyTlbHit]; split_ifs <;> simp

/-- A data translation misses iff the address reaches the buffer and is not in it. -/
theorem translateData_eq_dtbMiss_iff {cpu : CpuState} {va : Word} {access : AccessKind} :
    translateData cpu va access = .dtbMiss ↔
      ReachesDtb cpu va ∧ cpu.dtbMgr.lookup .dtb va cpu.asn = none := by
  rw [translateData]
  split
  · rename_i hcan
    -- each exit above the buffer contradicts one part of `ReachesDtb`
    refine ⟨fun h => (by cases h), fun h => ?_⟩
    rw [h.1.1] at hcan
    cases hcan
  rename_i hcan
  rw [Bool.not_eq_true', Bool.not_eq_false] at hcan
  split
  · rename_i pa hk
    refine ⟨fun h => (by cases h), fun h => ?_⟩
    rw [h.1.2.1] at hk
    cases hk
  rename_i hk
  split
  · rename_i hacv
    exact ⟨fun h => (by cases h), fun h => absurd hacv h.1.2.2⟩
  rename_i hacv
  split
  · rename_i pte hl
    -- a hit answers with a translation or a fault, never with a miss
    refine ⟨fun h => absurd h (applyTlbHit_ne_miss pte va access cpu.mode).1, fun h => ?_⟩
    rw [h.2] at hl
    cases hl
  · rename_i hl
    exact ⟨fun _ => ⟨⟨hcan, hk, hacv⟩, hl⟩, fun _ => rfl⟩

/-- An instruction translation misses only if the address is not in the buffer. -/
theorem lookup_of_translateInstruction_eq_itbMiss {cpu : CpuState} {va : Word}
    (h : translateInstruction cpu va = .itbMiss) :
    cpu.itbMgr.lookup .itb va cpu.asn = none := by
  -- only the last exit is a miss, and there the lookup has failed
  rw [translateInstruction] at h
  split at h
  · cases h
  split at h
  · cases h
  split at h
  · cases h
  split at h
  · cases h
  split at h
  · cases h
  split at h
  · exact absurd h (applyTlbHit_ne_miss _ va .execute cpu.mode).2
  · assumption

end Ev6Translator

/-- The access of a result misses iff it is a virtual one that is let through by the alignment check
and its address misses. -/
theorem MemDrainer.translate_eq_dtbMiss_iff {cpu : CpuState} {r : BoxResult} :
    MemDrainer.translate cpu r = .dtbMiss ↔
      r.isPhysAddr = false ∧
        (!Ev6Translator.isAlignedFor r.memAddr r.memSize && cpu.unalignTrapEnabled) = false ∧
        Ev6Translator.ReachesDtb cpu r.memAddr ∧
        cpu.dtbMgr.lookup .dtb r.memAddr cpu.asn = none := by
  have hdata : Ev6Translator.translateData cpu r.memAddr (MemDrainer.accessKind r) = .dtbMiss ↔
      Ev6Translator.ReachesDtb cpu r.memAddr ∧
        cpu.dtbMgr.lookup .dtb r.memAddr cpu.asn = none :=
    Ev6Translator.translateData_eq_dtbMiss_iff
  rw [MemDrainer.translate, Ev6Translator.translateDataAligned, ← hdata]
  split
  · rename_i hphys
    exact ⟨fun h => (by cases h), fun h => absurd (hphys.symm.trans h.1) (by decide)⟩
  rename_i hphys
  rw [Bool.not_eq_true] at hphys
  split
  · rename_i hal
    exact ⟨fun h => (by cases h), fun h => absurd (hal.symm.trans h.2.1) (by decide)⟩
  · rename_i hal
    rw [Bool.not_eq_true] at hal
    exact ⟨fun h => ⟨hphys, hal, h⟩, fun h => h.2.2⟩

/-- **Refills make progress**, exactly when the entry is one the CPU finds. For every CPU and every
load or store that misses in the data buffer, after a refill of its page through either bank the
access misses again unless the number staged is the CPU's address space number, or the entry is
global and in a probed shard. After a refill of the instruction buffer a fetch never misses. -/
theorem tbRefill_progress_iff (cpu : CpuState) :
    (∀ (bank : DtbBank) (asnReg pteReg : Word) (r : BoxResult),
      MemDrainer.translate cpu r = .dtbMiss →
      ∃ cpu', writeIprs cpu (dtbRefill bank asnReg r.memAddr pteReg) = some cpu' ∧
        (MemDrainer.translate cpu' r ≠ .dtbMiss ↔ RefillFound cpu asnReg r.memAddr pteReg)) ∧
    ∀ va pteReg : Word,
      ∃ cpu', writeIprs cpu (itbRefill va pteReg) = some cpu' ∧
        Ev6Translator.translateInstruction cpu' va ≠ .itbMiss := by
  refine ⟨fun bank asnReg pteReg r hmiss => ?_, fun va pteReg => ?_⟩
  · obtain ⟨tag0, tag1, hw⟩ := writeIprs_dtbRefill cpu bank asnReg r.memAddr pteReg
    refine ⟨_, hw, ?_⟩
    obtain ⟨hphys, hal, hreach, hlookup⟩ := MemDrainer.translate_eq_dtbMiss_iff.mp hmiss
    -- both sides are now about the lookup in the buffer with the entry inserted
    rw [RefillFound, ← bitASM_canonicalFromDtbPte,
      ← SPAMShardManager.lookup_insert_ne_none_iff hlookup, ne_eq, ne_eq, not_iff_not,
      MemDrainer.translate_eq_dtbMiss_iff]
    -- the refill changes neither what decides before the buffer nor the CPU's number
    exact ⟨fun h => h.2.2.2, fun h => ⟨hphys, hal, hreach, h⟩⟩
  · refine ⟨_, writeIprs_itbRefill cpu va pteReg, fun h => ?_⟩
    -- the entry just written is live under the number the fetch looks up
    have hnone := Ev6Translator.lookup_of_translateInstruction_eq_itbMiss h
    exact SPAMShardManager.lookup_insert_self _ _ _ _ _ _ hnone

/-! ## A refill that is not found -/

/-- HW_MTPR R1, PCTX: selector 0x40. -/
def hwMtprPctx : InstructionGrain :=
  { pc := 0, semFlags := [], encoded := 0x77E14000, primaryOp := 0x1D }

/-- A quadword load from 0x10000. -/
def loadQuad : BoxResult := { memAddr := 0x10000, memSize := 8, regWriteIdx := 1 }

/-- A context whose address space number has a ninth bit. -/
def wideAsnMemory : GuestMemory := ((GuestMemory.empty 1).write 0x128 0x105 8).1

/-- A CPU about to switch to that context. -/
def switchingCpu : CpuState :=
  { pcbb := 0x1000, intReg := Function.update (fun _ => 0) 16 0x100 }

/-- PALcode switches to address space 5 through PCTX, or to 0x105 through SWPCTX, stages that number
and fills a page of kernel read and write rights for the load that missed: the load misses again. -/
theorem tbRefill_misses_again :
    MemDrainer.translate (execHwMtpr hwMtprPctx { opB := 5 <<< 39 } {}).1 loadQuad = .dtbMiss ∧
    (writeIprs (execHwMtpr hwMtprPctx { opB := 5 <<< 39 } {}).1
      (dtbRefill .zero (5 <<< 56) 0x10000 0x800001100)).map
        (MemDrainer.translate · loadQuad) = some .dtbMiss ∧
    (execSwpctxVms hwMtprPctx switchingCpu wideAsnMemory).cpu.asn = 0x105 ∧
    (writeIprs (execSwpctxVms hwMtprPctx switchingCpu wideAsnMemory).cpu
      (dtbRefill .zero (0x105 <<< 56) 0x10000 0x800001100)).map
        (MemDrainer.translate · loadQuad) = some .dtbMiss := by
  refine ⟨?_, ?_, ?_, ?_⟩ <;> decide +kernel

end EmulatR
