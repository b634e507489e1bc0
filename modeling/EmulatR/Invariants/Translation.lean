import EmulatR.Invariants.FaultInfo

/-! # Where a translation can come from

A translation succeeds in one of three ways: the CPU fetches in PALmode, kernel mode uses an enabled
superpage, or a live entry of the translation buffer matches and permits the access. In every case
the physical address has at most 44 bits.

What the translator consults (the mode, the superpage enables, VA_CTL and the two buffers) is
written by HW_MTPR alone. So code outside kernel mode that executes no HW_MTPR, over any run, never
gets a translation that no entry of the buffers it started with permits to its mode.

`translation_sound` is the result. -/

namespace EmulatR

namespace AlphaPte

/-- The entry permits the access: its fault-on bit is clear and the enable of the mode is set. There
is no execute enable; the read enable stands in for it. -/
def Permits (pte : AlphaPte) (mode : ModePrivilege) : AccessKind → Prop
  | .dataRead => pte.bitFOR = false ∧ pte.readEnable mode = true
  | .dataWrite => pte.bitFOW = false ∧ pte.writeEnable mode = true
  | .execute => pte.bitFOE = false ∧ pte.readEnable mode = true

end AlphaPte

namespace Ev6Translator

/-- The address lies in a superpage that is enabled. -/
def InSuperpage (va : Word) (spe : BitVec 3) : Prop :=
  (spe.getLsbD 2 = true ∧ va.extractLsb' 46 2 = 2) ∨
    (spe.getLsbD 1 = true ∧ va.extractLsb' 41 7 = 0x7E) ∨
    (spe.getLsbD 0 = true ∧ va.extractLsb' 30 18 = 0x3FFFE)

/-- A live entry of the buffer matches the address, permits the access to the mode and gives the
physical address. -/
def GrantedBy (tb : TbManager) (asn va pa : Word) (mode : ModePrivilege) (access : AccessKind) :
    Prop :=
  ∃ i w, (tb.slot i w).matches (vaToVpn va) asn = true ∧
    (tb.slot i w).isLiveUnder tb.globalEpoch tb.processEpoch = true ∧
    (tb.slot i w).pte.Permits mode access ∧ pa = hitPa (tb.slot i w).pte va

/-! ## One translation -/

/-- A masked address has 44 bits. -/
theorem toNat_and_paMask_lt (x : Word) : (x &&& paMask).toNat < 2 ^ 44 := by
  rw [BitVec.toNat_and]
  exact Nat.lt_of_le_of_lt Nat.and_le_right (by decide)

/-- A superpage translates in kernel mode only. -/
theorem tryKsegTranslate_pa {va pa : Word} {mode : ModePrivilege} {spe : BitVec 3}
    (h : (tryKsegTranslate va mode spe).pa? = some pa) : mode = .kernel ∧ InSuperpage va spe := by
  have hkernel : ∀ {r : Word}, (if mode ≠ .kernel then TranslationResult.accessViolation
      else .success r).pa? = some pa → mode = .kernel := by
    intro r h
    by_contra hm
    rw [if_pos hm] at h
    cases h
  rw [tryKsegTranslate] at h
  split at h
  · rename_i hc
    rw [Bool.and_eq_true, beq_iff_eq] at hc
    exact ⟨hkernel h, Or.inl hc⟩
  · split at h
    · rename_i hc
      rw [Bool.and_eq_true, beq_iff_eq] at hc
      exact ⟨hkernel h, Or.inr (Or.inl hc)⟩
    · split at h
      · rename_i hc
        rw [Bool.and_eq_true, beq_iff_eq] at hc
        exact ⟨hkernel h, Or.inr (Or.inr hc)⟩
      · cases h

/-- A hit succeeds only if the entry permits the access. -/
theorem applyTlbHit_success {pte : AlphaPte} {va pa : Word} {access : AccessKind}
    {mode : ModePrivilege} (h : applyTlbHit pte va access mode = .success pa) :
    pte.Permits mode access ∧ pa = hitPa pte va := by
  cases access with
  | dataRead =>
    simp only [applyTlbHit] at h
    split_ifs at h with hfo hen
    cases h
    simp only [AlphaPte.canRead, Bool.not_eq_true', Bool.not_eq_false, Bool.and_eq_true] at hen
    exact ⟨⟨by simpa using hfo, hen.2⟩, rfl⟩
  | dataWrite =>
    simp only [applyTlbHit] at h
    split_ifs at h with hfo hen
    cases h
    simp only [AlphaPte.canWrite, Bool.not_eq_true', Bool.not_eq_false, Bool.and_eq_true] at hen
    exact ⟨⟨by simpa using hfo, hen.2⟩, rfl⟩
  | execute =>
    simp only [applyTlbHit] at h
    split_ifs at h with hfo hen
    cases h
    simp only [AlphaPte.canExecute, AlphaPte.canRead, Bool.not_eq_true', Bool.not_eq_false,
      Bool.and_eq_true] at hen
    -- `canExecute` is the fault-on bit and `canRead`, so the read enable lies one level deeper
    exact ⟨⟨by simpa using hfo, hen.2.2⟩, rfl⟩

/-- A buffer hit that succeeds is granted by an entry of the buffer. -/
theorem grantedBy_of_lookup {tb : TbManager} {realm : TlbRealm} {asn va pa : Word}
    {mode : ModePrivilege} {access : AccessKind} {pte : AlphaPte}
    (hl : tb.lookup realm va asn = some pte) (h : applyTlbHit pte va access mode = .success pa) :
    GrantedBy tb asn va pa mode access := by
  obtain ⟨i, w, hmatch, hlive, rfl⟩ := SPAMShardManager.exists_slot_of_lookup hl
  exact ⟨i, w, hmatch, hlive, applyTlbHit_success h⟩

/-- Every address that is granted has 44 bits. -/
theorem toNat_pa_lt_of_grantedBy {tb : TbManager} {asn va pa : Word} {mode : ModePrivilege}
    {access : AccessKind} (h : GrantedBy tb asn va pa mode access) : pa.toNat < 2 ^ 44 := by
  obtain ⟨i, w, -, -, -, rfl⟩ := h
  exact toNat_and_paMask_lt _

/-- A data translation that succeeds is a superpage or a hit in the buffer. -/
theorem translateData_eq_success {cpu : CpuState} {va pa : Word} {access : AccessKind}
    (h : translateData cpu va access = .success pa) :
    (pa.toNat < 2 ^ 44 ∧ cpu.mode = .kernel ∧ InSuperpage va cpu.mSpe) ∨
      (isCanonicalVA va cpu.vaCtl = true ∧ ∃ pte, cpu.dtbMgr.lookup .dtb va cpu.asn = some pte ∧
        applyTlbHit pte va access cpu.mode = .success pa) := by
  rw [translateData] at h
  split at h
  · cases h
  -- a canonical address that is no superpage one reaches the buffer
  rename_i hcan
  rw [Bool.not_eq_true', Bool.not_eq_false] at hcan
  split at h
  · rename_i pa' hk
    cases h
    exact Or.inl ⟨toNat_and_paMask_lt _, tryKsegTranslate_pa hk⟩
  split at h
  · cases h
  split at h
  -- only the buffer's answer is left
  · exact Or.inr ⟨hcan, _, ‹_›, h⟩
  · cases h

/-- An instruction translation that succeeds is a PALmode fetch, a superpage or a hit in the
buffer. -/
theorem translateInstruction_eq_success {cpu : CpuState} {va pa : Word}
    (h : translateInstruction cpu va = .success pa) :
    (pa.toNat < 2 ^ 44 ∧ (cpu.inPalMode = true ∨ (cpu.mode = .kernel ∧ InSuperpage va cpu.iSpe))) ∨
      (isCanonicalVA va cpu.vaCtl = true ∧ ∃ pte, cpu.itbMgr.lookup .itb va cpu.asn = some pte ∧
        applyTlbHit pte va .execute cpu.mode = .success pa) := by
  rw [translateInstruction] at h
  split at h
  · cases h
  split at h
  -- PALmode fetches are physical, before any check of the address
  · rename_i hpal
    cases h
    exact Or.inl ⟨toNat_and_paMask_lt _, Or.inl hpal⟩
  split at h
  · cases h
  rename_i hcan
  rw [Bool.not_eq_true', Bool.not_eq_false] at hcan
  split at h
  · rename_i pa' hk
    cases h
    exact Or.inl ⟨toNat_and_paMask_lt _, Or.inr (tryKsegTranslate_pa hk)⟩
  split at h
  · cases h
  split at h
  · exact Or.inr ⟨hcan, _, ‹_›, h⟩
  · cases h

/-- **Where a data translation comes from.** -/
theorem translateData_success {cpu : CpuState} {va pa : Word} {access : AccessKind}
    (h : translateData cpu va access = .success pa) :
    pa.toNat < 2 ^ 44 ∧
      ((cpu.mode = .kernel ∧ InSuperpage va cpu.mSpe) ∨
        (isCanonicalVA va cpu.vaCtl = true ∧
          GrantedBy cpu.dtbMgr cpu.asn va pa cpu.mode access)) := by
  rcases translateData_eq_success h with ⟨hpa, hsuper⟩ | ⟨hcan, pte, hl, hhit⟩
  · exact ⟨hpa, Or.inl hsuper⟩
  -- the buffer's answer carries the entry that granted it
  · have hgrant := grantedBy_of_lookup hl hhit
    exact ⟨toNat_pa_lt_of_grantedBy hgrant, Or.inr ⟨hcan, hgrant⟩⟩

/-- **Where an instruction translation comes from.** -/
theorem translateInstruction_success {cpu : CpuState} {va pa : Word}
    (h : translateInstruction cpu va = .success pa) :
    pa.toNat < 2 ^ 44 ∧
      (cpu.inPalMode = true ∨ (cpu.mode = .kernel ∧ InSuperpage va cpu.iSpe) ∨
        (isCanonicalVA va cpu.vaCtl = true ∧
          GrantedBy cpu.itbMgr cpu.asn va pa cpu.mode .execute)) := by
  rcases translateInstruction_eq_success h with ⟨hpa, hpal | hsuper⟩ | ⟨hcan, pte, hl, hhit⟩
  · exact ⟨hpa, Or.inl hpal⟩
  · exact ⟨hpa, Or.inr (Or.inl hsuper)⟩
  · have hgrant := grantedBy_of_lookup hl hhit
    exact ⟨toNat_pa_lt_of_grantedBy hgrant, Or.inr (Or.inr ⟨hcan, hgrant⟩)⟩

end Ev6Translator

/-! ## Runs without HW_MTPR -/

/-- What the translator consults, the address space number apart. -/
structure TranslationContext where
  /-- The current mode. -/
  mode : ModePrivilege
  /-- The I-side superpage enables. -/
  iSpe : BitVec 3
  /-- The D-side superpage enables. -/
  mSpe : BitVec 3
  /-- VA_CTL. -/
  vaCtl : Word
  /-- The instruction translation buffer. -/
  itbMgr : TbManager
  /-- The data translation buffer. -/
  dtbMgr : TbManager

/-- The translation context of a CPU. -/
def CpuState.translationContext (cpu : CpuState) : TranslationContext :=
  ⟨cpu.mode, cpu.iSpe, cpu.mSpe, cpu.vaCtl, cpu.itbMgr, cpu.dtbMgr⟩

/-- Entering PALmode changes nothing that translation reads. -/
theorem translationContext_palModeEnter (cpu : CpuState) :
    cpu.palModeEnter.translationContext = cpu.translationContext := by
  obtain ⟨ir, sh, sl, pc, h⟩ := palModeEnter_frame cpu
  rw [h]
  rfl

/-- Switching PALmode in either direction changes nothing that translation reads. -/
theorem translationContext_setPalMode (cpu : CpuState) (target : Bool) :
    (cpu.setPalMode target).translationContext = cpu.translationContext := by
  obtain ⟨ir, sh, sl, pc, h⟩ := setPalMode_frame cpu target
  rw [h]
  rfl

/-- **Every leaf but HW_MTPR leaves the translation context alone.** SWPCTX, which no row names,
loads another address space number, and that only. -/
theorem translationContext_exec (fp : FpBackend) (g : InstructionGrain) (c : ExecCtx)
    (cpu : CpuState) (mem : GuestMemory) {l : Leaf} (hl : l ≠ .pal .hwMtpr) :
    (l.exec fp g c cpu mem).cpu.translationContext = cpu.translationContext := by
  cases l with
  | ordinary l =>
    obtain ⟨f, i, h⟩ := l.exec_cpu fp g c cpu
    rw [Leaf.exec, h]
    rfl
  | pal l =>
    cases l with
    | hwMtpr => exact absurd rfl hl
    | callPalDispatch =>
      -- the linkage is stored first, which the context does not see
      exact translationContext_palModeEnter { cpu with excAddr := callPalLinkage g cpu }
    | hwRei => exact translationContext_setPalMode cpu _
    | cserve => simp only [Leaf.exec, PalLeaf.exec, execCserve]; split <;> rfl
    | ldqpVms => simp only [Leaf.exec, PalLeaf.exec, execLdqpVms]; split <;> rfl
    | stqpVms => simp only [Leaf.exec, PalLeaf.exec, execStqpVms]; split <;> rfl
    | _ => rfl

section Runs

variable {δ : Type} (cfg : Config δ)

/-- The next instruction is no HW_MTPR. -/
def HwMtprFree (m : Machine δ) : Event δ → Prop
  | .step => ∀ e, fetched cfg m = some e → (decodeEntry cfg m.cpu e).leaf ≠ .pal .hwMtpr
  | .interrupt _ _ => True
  | .inject => True
  | .environment _ _ => True

variable {cfg} {m : Machine δ}

/-- A fault delivery changes nothing that translation reads. -/
theorem translationContext_retireFault (pc : Word) (f : FaultCode) (cpu : CpuState) :
    (retireFault pc f cpu).translationContext = cpu.translationContext := by
  obtain ⟨ir, sh, sl, pc', ea, hl, h⟩ := retireFault_frame pc f cpu
  rw [h]
  rfl

/-- An interrupt changes nothing that translation reads. -/
theorem translationContext_stageInterruptDivert (cpu : CpuState) (isumMask : Word) :
    (stageInterruptDivert cpu isumMask).translationContext = cpu.translationContext := by
  obtain ⟨ir, sh, sl, pc, h⟩ := stageInterruptDivert_frame cpu isumMask
  rw [h]
  rfl

/-- After a step the translation context is the one before it, or the one the leaf leaves. -/
theorem translationContext_stepCpu_cases (cfg : Config δ) (m : Machine δ) :
    (stepCpu cfg m).cpu.translationContext = m.cpu.translationContext ∨
      ∃ e, fetched cfg m = some e ∧
        (stepCpu cfg m).cpu.translationContext = (leafOut cfg m e).cpu.translationContext := by
  have hout := stepCpu_cases cfg m
  generalize stepCpu cfg m = m' at hout
  cases hout with
  | halted _ => exact Or.inl rfl
  | fetchFault f _ _ =>
    exact Or.inl (translationContext_retireFault m.cpu.pc f (latchFetchFault m.cpu))
  | fault e f m'' _ _ hf =>
    -- before it is delivered a fault may latch MM_STAT, VA and the Cbox error registers
    obtain ⟨⟨ms, va, cb, hcpu⟩, -⟩ := hf.frame
    refine Or.inl ((translationContext_retireFault m.cpu.pc f m''.cpu).trans ?_)
    rw [hcpu]
    rfl
  | done e v m'' _ he _ =>
    obtain ⟨ir, fr, hcommit⟩ := MemDrainer.commitRegWrite_frame (leafOut cfg m e).cpu
      { (leafOut cfg m e).result with regWriteValue := v }
    -- after the leaf there is only the register write and the next PC
    refine Or.inr ⟨e, he, ?_⟩
    show (doneCpu cfg m e v).translationContext = _
    rw [doneCpu, hcommit]
    rfl

/-- One instruction other than HW_MTPR leaves the translation context alone, however it ends. -/
theorem translationContext_stepCpu (h : HwMtprFree cfg m .step) :
    (stepCpu cfg m).cpu.translationContext = m.cpu.translationContext := by
  rcases translationContext_stepCpu_cases cfg m with hstep | ⟨e, he, hstep⟩
  · exact hstep
  · rw [hstep, leafOut_eq]
    exact translationContext_exec cfg.fp _ _ m.cpu _ (h e he)

/-- An event other than an instruction leaves the translation context alone. -/
theorem translationContext_of_ne_step {ev : Event δ} (h : ev ≠ .step) :
    (machineStep cfg m ev).cpu.translationContext = m.cpu.translationContext := by
  cases ev with
  | step => exact absurd rfl h
  | interrupt line relocated =>
    rw [machineStep]
    split
    · exact translationContext_stageInterruptDivert m.cpu line.isumMask
    · rfl
  | inject =>
    rw [machineStep]
    split
    · exact translationContext_stageInterruptDivert m.cpu (1 <<< 33)
    · rfl
  | environment devices cycleCount => rfl

/-- **One event.** -/
theorem translationContext_machineStep {ev : Event δ} (h : HwMtprFree cfg m ev) :
    (machineStep cfg m ev).cpu.translationContext = m.cpu.translationContext := by
  cases ev with
  | step => exact translationContext_stepCpu h
  | _ =>
    refine translationContext_of_ne_step ?_
    nofun

/-- A run without HW_MTPR ends in the translation context it started in. -/
theorem translationContext_machineRun {es : List (Event δ)}
    (h : Library.RunMeets (machineStep cfg) (HwMtprFree cfg) m es) :
    (machineRun cfg m es).cpu.translationContext = m.cpu.translationContext :=
  h.invariant (fun x : Machine δ => x.cpu.translationContext = m.cpu.translationContext)
    (fun _ _ hx hev => (translationContext_machineStep hev).trans hx) rfl

variable (cfg)

open Ev6Translator in
/-- **Translations are sound.** A data or instruction translation succeeds only by a fetch in
PALmode, by an enabled superpage in kernel mode, or by a live matching entry that permits the access
to the current mode; its physical address is below `2^44`. And over every run that executes no
HW_MTPR from a mode other than kernel, a translation, other than a fetch in PALmode, is granted to
that mode by an entry the buffers held at the start. -/
theorem translation_sound :
    (∀ (cpu : CpuState) (va pa : Word) (access : AccessKind),
      translateData cpu va access = .success pa →
        pa.toNat < 2 ^ 44 ∧
          ((cpu.mode = .kernel ∧ InSuperpage va cpu.mSpe) ∨
            (isCanonicalVA va cpu.vaCtl = true ∧
              GrantedBy cpu.dtbMgr cpu.asn va pa cpu.mode access))) ∧
    (∀ (cpu : CpuState) (va pa : Word), translateInstruction cpu va = .success pa →
        pa.toNat < 2 ^ 44 ∧
          (cpu.inPalMode = true ∨ (cpu.mode = .kernel ∧ InSuperpage va cpu.iSpe) ∨
            (isCanonicalVA va cpu.vaCtl = true ∧
              GrantedBy cpu.itbMgr cpu.asn va pa cpu.mode .execute))) ∧
    ∀ (m : Machine δ) (es : List (Event δ)), m.cpu.mode ≠ .kernel →
      Library.RunMeets (machineStep cfg) (HwMtprFree cfg) m es →
      (machineRun cfg m es).cpu.mode = m.cpu.mode ∧
      (∀ (va pa : Word) (access : AccessKind),
        translateData (machineRun cfg m es).cpu va access = .success pa →
          GrantedBy m.cpu.dtbMgr (machineRun cfg m es).cpu.asn va pa m.cpu.mode access) ∧
      ∀ va pa : Word, translateInstruction (machineRun cfg m es).cpu va = .success pa →
        (machineRun cfg m es).cpu.inPalMode = true ∨
          GrantedBy m.cpu.itbMgr (machineRun cfg m es).cpu.asn va pa m.cpu.mode .execute := by
  refine ⟨fun _ _ _ _ => translateData_success, fun _ _ _ => translateInstruction_success,
    fun m es hmode hfree => ?_⟩
  have hctx := translationContext_machineRun hfree
  generalize (machineRun cfg m es).cpu = cpu at hctx
  have hm : cpu.mode = m.cpu.mode := congrArg TranslationContext.mode hctx
  have hitb : cpu.itbMgr = m.cpu.itbMgr := congrArg TranslationContext.itbMgr hctx
  have hdtb : cpu.dtbMgr = m.cpu.dtbMgr := congrArg TranslationContext.dtbMgr hctx
  refine ⟨hm, fun va pa access h => ?_, fun va pa h => ?_⟩
  · rw [← hdtb, ← hm]
    -- a superpage would need kernel mode, and the mode is the one of the start
    rcases (translateData_success h).2 with ⟨hk, -⟩ | ⟨-, hgrant⟩
    · exact absurd (hm.symm.trans hk) hmode
    · exact hgrant
  · rw [← hitb, ← hm]
    rcases (translateInstruction_success h).2 with hpal | ⟨hk, -⟩ | ⟨-, hgrant⟩
    · exact Or.inl hpal
    · exact absurd (hm.symm.trans hk) hmode
    · exact Or.inr hgrant

end Runs

end EmulatR
