import EmulatR.System.Platform

/-! # Memory-management fault information

PALcode classifies a memory-management fault from MM_STAT, VA and the vector it was entered through.
MM_STAT is a status word of ten bits. The drain stage writes one for a data access that does not
translate, but a failed fetch, a refused bus access and the misaligned LDQP and STQP write an
address there instead (pipelineLib/PipelineDriver.h, pipelineLib/MemDrainer.h); and an access
violation or a non-canonical address of a fetch shares its fault code, and so its vector, with the
data stream (coreLib/Ev6EntryVectors.h). `faultInfo_machineRun` says that nothing else goes
wrong.

`nonCanonical_fetch_enters_dfault` is a step outside the condition. -/

namespace EmulatR

/-- A status word: the bits above 9 are zero. -/
def IsStatusWord (w : Word) : Prop := w.toNat < 1024

instance (w : Word) : Decidable (IsStatusWord w) := inferInstanceAs (Decidable (w.toNat < 1024))

/-! ## The status of a data fault -/

/-- The status word by its four flags and the opcode. -/
def statusWord (store acv for' fow : Bool) (op : BitVec 6) : Word :=
  (if store then 1 else 0) ||| (if acv then 2 else 0) ||| (if for' then 4 else 0)
    ||| (if fow then 8 else 0) ||| (op.setWidth 64 <<< 4)

/-- The fields of a status word. -/
theorem statusWord_spec : ∀ (store acv for' fow : Bool) (op : BitVec 6),
    IsStatusWord (statusWord store acv for' fow op) ∧
      (statusWord store acv for' fow op).getLsbD 0 = store ∧
      (statusWord store acv for' fow op).getLsbD 1 = acv ∧
      (statusWord store acv for' fow op).getLsbD 2 = for' ∧
      (statusWord store acv for' fow op).getLsbD 3 = fow ∧
      (statusWord store acv for' fow op).extractLsb' 4 6 = op := by
  decide +kernel

/-- What is latched is a status word. -/
theorem mmStatOf_eq (isStore : Bool) (tr : TranslationResult) (op : BitVec 6) :
    MemDrainer.mmStatOf isStore tr op =
      statusWord isStore (tr = .accessViolation) (tr = .faultOnRead) (tr = .faultOnWrite) op := by
  simp only [MemDrainer.mmStatOf, statusWord, decide_eq_true_eq]

/-! ## The leaves -/

/-- A leaf writes MM_STAT only as HW_MTPR to it, or as a LDQP or STQP that traps. -/
theorem mmStat_exec (fp : FpBackend) (g : InstructionGrain) (c : ExecCtx) (cpu : CpuState)
    (mem : GuestMemory) (l : Leaf) (hq : ¬ l.quadFaults cpu)
    (hm : l = .pal .hwMtpr → iprSelector g.encoded ≠ .mmStat) :
    (l.exec fp g c cpu mem).cpu.mmStat = cpu.mmStat := by
  cases l with
  | ordinary l =>
    obtain ⟨f, i, h⟩ := l.exec_cpu fp g c cpu
    rw [Leaf.exec, h]
  | pal l =>
    cases l with
    | callPalDispatch =>
      -- the switch to PALmode moves the banks and the PC only
      obtain ⟨ir, sh, sl, pc, h⟩ :=
        palModeEnter_frame { cpu with excAddr := callPalLinkage g cpu }
      simp only [Leaf.exec, PalLeaf.exec, execCallPalDispatch, h]
    | cserve => simp only [Leaf.exec, PalLeaf.exec, execCserve]; split <;> rfl
    | ldqpVms =>
      have hq' : ¬ quadTraps cpu := fun h => hq (by rw [Leaf.quadFaults, h]; rfl)
      simp only [Leaf.exec, PalLeaf.exec, execLdqpVms, if_neg hq']
    | stqpVms =>
      have hq' : ¬ quadTraps cpu := fun h => hq (by rw [Leaf.quadFaults, h]; rfl)
      simp only [Leaf.exec, PalLeaf.exec, execStqpVms, if_neg hq']
    | hwMtpr =>
      have hm' := hm rfl
      simp only [Leaf.exec, PalLeaf.exec, execHwMtpr]
      -- one case per register; only MM_STAT writes the field, and it is excluded
      revert hm'
      generalize iprSelector g.encoded = ipr
      intro hm'
      cases ipr with
      | mmStat => exact absurd rfl hm'
      | iCtl => simp only [writeIpr, writeICtl]; split <;> rfl
      | _ => rfl
    | hwRei =>
      obtain ⟨ir, sh, sl, pc, h⟩ :=
        setPalMode_frame cpu ((hwReiTarget g.encoded cpu).getLsbD 0)
      simp only [Leaf.exec, PalLeaf.exec, execHwRei, h]
    | _ => rfl

/-! ## The events that may write an address into MM_STAT -/

section Runs

variable {δ : Type} (cfg : Config δ)

/-- The next instruction is no HW_MTPR to MM_STAT. -/
def NoMtprMmStat (m : Machine δ) : Event δ → Prop
  | .step => ∀ e, fetched cfg m = some e → (decodeEntry cfg m.cpu e).leaf = .pal .hwMtpr →
      iprSelector e ≠ .mmStat
  | .interrupt _ _ => True
  | .inject => True
  | .environment _ _ => True

/-- The fetch faults in no way that looks like a data fault: the PC it latches is a status word, and
the translation is neither a violation nor non-canonical. -/
def FetchOk (m : Machine δ) : Prop :=
  fetched cfg m = none → IsStatusWord m.cpu.pc ∧
    Ev6Translator.translateInstruction m.cpu m.cpu.pc ≠ .accessViolation ∧
    Ev6Translator.translateInstruction m.cpu m.cpu.pc ≠ .nonCanonical

/-- A word that traps as a LDQP or STQP, or whose access the bus refuses, has a status word for an
address. -/
def AccessOk (m : Machine δ) (e : Encoded) : Prop :=
  ((decodeEntry cfg m.cpu e).leaf.quadFaults m.cpu → IsStatusWord (m.cpu.intReg 16)) ∧
    (MemDrainer.Refuses cfg.devices (afterFetch cfg m) (leafOut cfg m e).result →
      IsStatusWord (leafOut cfg m e).result.memAddr)

/-- The event latches no address in MM_STAT that is not a status word, and takes no instruction
fault to a data vector. -/
def MmOk (m : Machine δ) : Event δ → Prop
  | .step => m.cpu.halted ∨ FetchOk cfg m ∧ ∀ e, fetched cfg m = some e → AccessOk cfg m e
  | .interrupt _ _ => True
  | .inject => True
  | .environment _ _ => True

variable {cfg} {m : Machine δ}

/-! ### MM_STAT stays a status word -/

/-- A delivery keeps MM_STAT. -/
theorem mmStat_retireFault (pc : Word) (f : FaultCode) (cpu : CpuState) :
    (retireFault pc f cpu).mmStat = cpu.mmStat := by
  obtain ⟨ir, sh, sl, pc', ea, hl, h⟩ := retireFault_frame pc f cpu
  rw [h]

/-- A delivery keeps VA. -/
theorem va_retireFault (pc : Word) (f : FaultCode) (cpu : CpuState) :
    (retireFault pc f cpu).va = cpu.va := by
  obtain ⟨ir, sh, sl, pc', ea, hl, h⟩ := retireFault_frame pc f cpu
  rw [h]

/-- An interrupt keeps MM_STAT. -/
theorem mmStat_stageInterruptDivert (cpu : CpuState) (mask : Word) :
    (stageInterruptDivert cpu mask).mmStat = cpu.mmStat := by
  obtain ⟨ir, sh, sl, pc, h⟩ := stageInterruptDivert_frame cpu mask
  rw [h]

/-- An instruction that ends changes MM_STAT in its leaf only. -/
theorem mmStat_doneCpu (e : Encoded) (v : Word) :
    (doneCpu cfg m e v).mmStat = (leafOut cfg m e).cpu.mmStat := by
  obtain ⟨ir, fr, h⟩ := MemDrainer.commitRegWrite_frame (leafOut cfg m e).cpu
    { (leafOut cfg m e).result with regWriteValue := v }
  rw [doneCpu, h]

/-- What is latched has the shape of MM_STAT. -/
theorem isStatusWord_mmStatOf (isStore : Bool) (tr : TranslationResult) (op : BitVec 6) :
    IsStatusWord (MemDrainer.mmStatOf isStore tr op) := by
  rw [mmStatOf_eq]
  exact (statusWord_spec _ _ _ _ _).1

/-- A drain that faults leaves a status word. -/
theorem isStatusWord_of_stepFault {e : Encoded} {f : FaultCode} {m' : Machine δ}
    (hm : IsStatusWord m.cpu.mmStat) (hok : AccessOk cfg m e) (h : StepFault cfg m e f m') :
    IsStatusWord m'.cpu.mmStat := by
  rcases h.leaf_or_access with ⟨-, rfl⟩ | ⟨hr, hlatch⟩
  -- the leaf faulted: only a trapping LDQP or STQP has written the field
  · simp only [Leaf.interruptedCpu]
    split
    · exact hok.1 ‹_›
    · exact hm
  · cases hlatch with
    | leaf hleaf => exact absurd hr hleaf
    | translation _ _ _ => exact isStatusWord_mmStatOf _ _ _
    | load pa _ hs hpa hst hbus =>
      exact hok.2 ⟨hr, hs, pa, hpa, by rw [if_neg hst]; exact hbus⟩
    | store pa _ hs hpa hst hlk hbus =>
      exact hok.2 ⟨hr, hs, pa, hpa, by rw [if_pos hst]; exact ⟨hlk, hbus⟩⟩

/-- An instruction that completes leaves MM_STAT alone. -/
theorem mmStat_leafOut {e : Encoded} (hr : (leafOut cfg m e).result.faultCode = .noFault)
    (hm : (decodeEntry cfg m.cpu e).leaf = .pal .hwMtpr → iprSelector e ≠ .mmStat) :
    (leafOut cfg m e).cpu.mmStat = m.cpu.mmStat := by
  rw [leafOut_eq] at hr ⊢
  refine mmStat_exec _ _ _ _ _ _ (fun hq => ?_) hm
  rw [Leaf.faultCode_of_quadFaults cfg.fp _ _ hq] at hr
  cases hr

/-- One instruction keeps a status word in MM_STAT. -/
theorem isStatusWord_stepCpu (hm : IsStatusWord m.cpu.mmStat) (hmt : NoMtprMmStat cfg m .step)
    (hok : MmOk cfg m .step) : IsStatusWord (stepCpu cfg m).cpu.mmStat := by
  have hout := stepCpu_cases cfg m
  generalize stepCpu cfg m = m' at hout ⊢
  cases hout with
  | halted _ => exact hm
  | fetchFault f hh h =>
    -- the PC goes into MM_STAT, so the condition on fetches is used
    have hnone : fetched cfg m = none := by rw [fetched, h]; rfl
    show IsStatusWord (retireFault m.cpu.pc f (latchFetchFault m.cpu)).mmStat
    rw [mmStat_retireFault]
    exact ((hok.resolve_left hh).1 hnone).1
  | fault e f x hh he h =>
    show IsStatusWord (retireFault m.cpu.pc f x.cpu).mmStat
    rw [mmStat_retireFault]
    exact isStatusWord_of_stepFault hm ((hok.resolve_left hh).2 e he) h
  | done e v x hh he h =>
    show IsStatusWord (doneCpu cfg m e v).mmStat
    rw [mmStat_doneCpu, mmStat_leafOut h (hmt e he)]
    exact hm

/-- **One event keeps a status word in MM_STAT.** -/
theorem isStatusWord_machineStep (hm : IsStatusWord m.cpu.mmStat) {ev : Event δ}
    (hmt : NoMtprMmStat cfg m ev) (hok : MmOk cfg m ev) :
    IsStatusWord (machineStep cfg m ev).cpu.mmStat := by
  cases ev with
  | step => exact isStatusWord_stepCpu hm hmt hok
  | interrupt line relocated =>
    rw [machineStep]
    split
    · rw [mmStat_stageInterruptDivert]
      exact hm
    · exact hm
  | inject =>
    rw [machineStep]
    split
    · rw [mmStat_stageInterruptDivert]
      exact hm
    · exact hm
  | environment devices cycleCount => exact hm

/-! ### The information of a data fault -/

variable (cfg)

/-- The access of the fetched word does not translate. -/
def DataFault (m : Machine δ) (e : Encoded) (tr : TranslationResult) : Prop :=
  (leafOut cfg m e).result.faultCode = .noFault ∧ (leafOut cfg m e).result.memSize ≠ 0 ∧
    MemDrainer.translate m.cpu (leafOut cfg m e).result = tr ∧ tr.pa? = none

/-- The vectors of the data stream. -/
def dataVectors : List PalEntry := [.dtbmSingle, .dtbmDouble3, .dfault, .unalign]

/-- The state after a data fault describes the access that faulted. -/
structure DataFaultInfo (m : Machine δ) (e : Encoded) (tr : TranslationResult) : Prop where
  /-- MM_STAT is a status word. -/
  status : IsStatusWord (stepCpu cfg m).cpu.mmStat
  /-- Bit 0: the access is a store. -/
  store : (stepCpu cfg m).cpu.mmStat.getLsbD 0 = (leafOut cfg m e).result.memIsStore
  /-- Bit 1: an access violation. -/
  acv : (stepCpu cfg m).cpu.mmStat.getLsbD 1 ↔ tr = .accessViolation
  /-- Bit 2: a fault on read. -/
  faultOnRead : (stepCpu cfg m).cpu.mmStat.getLsbD 2 ↔ tr = .faultOnRead
  /-- Bit 3: a fault on write. -/
  faultOnWrite : (stepCpu cfg m).cpu.mmStat.getLsbD 3 ↔ tr = .faultOnWrite
  /-- Bits 9:4: the opcode. -/
  opcode : (stepCpu cfg m).cpu.mmStat.extractLsb' 4 6 = e.primaryOp
  /-- VA is the effective address. -/
  va : (stepCpu cfg m).cpu.va = (leafOut cfg m e).result.memAddr
  /-- It is delivered to a data vector, and to DTBM_DOUBLE exactly for a miss of a virtual-PTE
  load. -/
  vector : m.cpu.palBase ≠ 0 → ∃ entry ∈ dataVectors,
    (stepCpu cfg m).cpu.pc = computeHwExceptionEntry m.cpu.palBase entry ||| 1 ∧
      (entry = .dtbmDouble3 ↔ tr = .dtbMiss ∧ MemDrainer.isVpteLoad (leafGrain cfg m e))

variable {cfg} {e : Encoded} {tr : TranslationResult}

/-- The CPU after a data fault. -/
theorem stepCpu_of_dataFault (hh : ¬ m.cpu.halted) (he : fetched cfg m = some e)
    (h : DataFault cfg m e tr) :
    (stepCpu cfg m).cpu = (retireFault m.cpu.pc (MemDrainer.dataFaultCode (leafGrain cfg m e) tr)
      (MemDrainer.latchDataFault (leafGrain cfg m e) m.cpu (leafOut cfg m e).result tr)).tick := by
  obtain ⟨hr, hs, htr, hpa⟩ := h
  -- the chain fetch, leaf, translation, drain, retire, with every other branch excluded
  have hf := MemDrainer.dataFaultCode_ne_noFault (leafGrain cfg m e) (htr ▸ hpa)
  rw [htr] at hf
  have happly := MemDrainer.applyMemEffect_of_none cfg.devices cfg.silicon (leafGrain cfg m e)
    (m := afterFetch cfg m) (htr ▸ hpa)
  rw [show (afterFetch cfg m).cpu = m.cpu from rfl, htr] at happly
  have hissue : issue cfg m =
      ({ afterFetch cfg m with
          cpu := MemDrainer.latchDataFault (leafGrain cfg m e) m.cpu (leafOut cfg m e).result tr },
        { (leafOut cfg m e).result with
          faultCode := MemDrainer.dataFaultCode (leafGrain cfg m e) tr }) := by
    rw [issue_of_ok cfg ((fetched_eq_some cfg).mp he), executeWord_afterFetch,
      preDrain_of_access cfg hr hs, MemDrainer.drain, if_neg (not_not.mpr hr), if_neg hs, happly,
      MemDrainer.commit_of_fault hf]
  rw [stepCpu_eq cfg hh, hissue, retire, if_pos hf]

/-- The vector of a data fault. -/
theorem entryForFault_dataFaultCode (g : InstructionGrain) {access : AccessKind}
    (hout : Ev6Translator.IsDataOutcome access tr) (hpa : tr.pa? = none) :
    ∃ entry ∈ dataVectors, entryForFault (MemDrainer.dataFaultCode g tr) = some entry ∧
      (entry = .dtbmDouble3 ↔ tr = .dtbMiss ∧ MemDrainer.isVpteLoad g) := by
  cases tr with
  -- the one outcome with two vectors, by the type of the load
  | dtbMiss =>
    by_cases hv : MemDrainer.isVpteLoad g
    · exact ⟨.dtbmDouble3, by decide, by rw [MemDrainer.dataFaultCode, if_pos ⟨rfl, hv⟩]; rfl,
        by simp [hv]⟩
    · exact ⟨.dtbmSingle, by decide,
        by rw [MemDrainer.dataFaultCode, if_neg fun h => hv h.2]; rfl, by simp [hv]⟩
  | success pa => cases hpa
  | notKseg => exact hout.elim
  | itbMiss => exact hout.elim
  | faultOnExecute => exact hout.elim
  | busError => exact hout.elim
  | unaligned => exact ⟨.unalign, by decide, rfl, by simp⟩
  | _ => exact ⟨.dfault, by decide, rfl, by simp⟩

/-- **A data fault leaves its own status, address and vector.** -/
theorem dataFaultInfo (hh : ¬ m.cpu.halted) (he : fetched cfg m = some e)
    (h : DataFault cfg m e tr) : DataFaultInfo cfg m e tr := by
  have hcpu := stepCpu_of_dataFault hh he h
  have hstat : (stepCpu cfg m).cpu.mmStat =
      statusWord (leafOut cfg m e).result.memIsStore (tr = .accessViolation) (tr = .faultOnRead)
        (tr = .faultOnWrite) e.primaryOp := by
    rw [← mmStatOf_eq, hcpu]
    exact mmStat_retireFault _ _ _
  -- the status word decodes to the inputs it was built from
  obtain ⟨hw, h0, h1, h2, h3, hop⟩ := statusWord_spec (leafOut cfg m e).result.memIsStore
    (tr = .accessViolation) (tr = .faultOnRead) (tr = .faultOnWrite) e.primaryOp
  rw [← hstat] at hw h0 h1 h2 h3 hop
  refine ⟨hw, h0, by rw [h1, decide_eq_true_eq], by rw [h2, decide_eq_true_eq],
    by rw [h3, decide_eq_true_eq], hop, ?_, fun hb => ?_⟩
  · rw [hcpu]
    exact va_retireFault _ _ _
  · obtain ⟨-, -, htr, hpa⟩ := h
    obtain ⟨entry, hmem, hentry, hdouble⟩ := entryForFault_dataFaultCode (leafGrain cfg m e)
      (htr ▸ MemDrainer.translate_isDataOutcome m.cpu (leafOut cfg m e).result) hpa
    refine ⟨entry, hmem, ?_, hdouble⟩
    rw [hcpu]
    exact pc_retireFault m.cpu.pc (MemDrainer.latchDataFault _ m.cpu _ tr) hentry hb

/-! ### The vector of an instruction fault -/

/-- The vectors an instruction fault may be delivered to. -/
def fetchVectors : List PalEntry := [.itbMiss, .iacv, .unalign]

/-- A fetch that does not translate. -/
theorem stepCpu_of_fetchFault (cfg : Config δ) (hh : ¬ m.cpu.halted)
    (hpa : (Ev6Translator.translateInstruction m.cpu m.cpu.pc).pa? = none) :
    fetched cfg m = none ∧ (stepCpu cfg m).cpu = (retireFault m.cpu.pc
      (Ev6Translator.translateInstruction m.cpu m.cpu.pc).toFaultCode
      (latchFetchFault m.cpu)).tick := by
  have hf : (fetchWord cfg m).2 =
      .error (Ev6Translator.translateInstruction m.cpu m.cpu.pc).toFaultCode := by
    rw [fetchWord, hpa]
  refine ⟨by rw [fetched, hf]; rfl, ?_⟩
  rw [stepCpu_eq cfg hh, issue_of_error cfg hf, retire, if_pos (fetchWord_error_ne_noFault cfg hf)]

/-- An instruction fault that is neither a violation nor non-canonical has a vector of its own. -/
theorem entryForFault_fetch (hout : Ev6Translator.IsFetchOutcome tr) (hpa : tr.pa? = none)
    (hacv : tr ≠ .accessViolation) (hnc : tr ≠ .nonCanonical) :
    ∃ entry ∈ fetchVectors, entryForFault tr.toFaultCode = some entry := by
  cases tr with
  | success pa => cases hpa
  | accessViolation => exact absurd rfl hacv
  | nonCanonical => exact absurd rfl hnc
  | itbMiss => exact ⟨.itbMiss, by decide, rfl⟩
  | unaligned => exact ⟨.unalign, by decide, rfl⟩
  | faultOnExecute => exact ⟨.iacv, by decide, rfl⟩
  | _ => exact hout.elim

/-- A failed fetch goes to one of the fetch vectors. -/
theorem fetchFault_vector (hok : MmOk cfg m .step) (hh : ¬ m.cpu.halted)
    (hpa : (Ev6Translator.translateInstruction m.cpu m.cpu.pc).pa? = none)
    (hb : m.cpu.palBase ≠ 0) : ∃ entry ∈ fetchVectors,
      (stepCpu cfg m).cpu.pc = computeHwExceptionEntry m.cpu.palBase entry ||| 1 := by
  obtain ⟨hnone, hcpu⟩ := stepCpu_of_fetchFault cfg hh hpa
  obtain ⟨-, hacv, hnc⟩ := (hok.resolve_left hh).1 hnone
  obtain ⟨entry, hmem, hentry⟩ := entryForFault_fetch
    (Ev6Translator.translateInstruction_isFetchOutcome m.cpu m.cpu.pc) hpa hacv hnc
  refine ⟨entry, hmem, ?_⟩
  rw [hcpu]
  exact pc_retireFault m.cpu.pc (latchFetchFault m.cpu) hentry hb

/-! ### Runs -/

variable (cfg)

/-- **Memory-management fault information.** Over every run without HW_MTPR to MM_STAT in which no
event latches another address there, MM_STAT is a status word in every state reached. From every
such state a data fault leaves its own status, address and vector, and an instruction fault under
the same condition goes to no data vector. -/
theorem faultInfo_machineRun (hm : IsStatusWord m.cpu.mmStat) {es : List (Event δ)}
    (hmt : Library.RunMeets (machineStep cfg) (NoMtprMmStat cfg) m es)
    (hrun : Library.RunMeets (machineStep cfg) (MmOk cfg) m es) :
    IsStatusWord (machineRun cfg m es).cpu.mmStat ∧
      (∀ e tr, ¬ (machineRun cfg m es).cpu.halted →
        fetched cfg (machineRun cfg m es) = some e →
        DataFault cfg (machineRun cfg m es) e tr →
        DataFaultInfo cfg (machineRun cfg m es) e tr) ∧
      (MmOk cfg (machineRun cfg m es) .step → ¬ (machineRun cfg m es).cpu.halted →
        (Ev6Translator.translateInstruction (machineRun cfg m es).cpu
          (machineRun cfg m es).cpu.pc).pa? = none →
        (machineRun cfg m es).cpu.palBase ≠ 0 →
        ∃ entry ∈ fetchVectors, (stepCpu cfg (machineRun cfg m es)).cpu.pc =
          computeHwExceptionEntry (machineRun cfg m es).cpu.palBase entry ||| 1) := by
  have hinv : IsStatusWord (machineRun cfg m es).cpu.mmStat :=
    (hmt.and hrun).invariant (fun x : Machine δ => IsStatusWord x.cpu.mmStat)
      (fun _ _ h hok => isStatusWord_machineStep h hok.1 hok.2) hm
  exact ⟨hinv, fun _ _ hh he h => dataFaultInfo hh he h,
    fun hok hh hpa hb => fetchFault_vector hok hh hpa hb⟩

end Runs

/-- LDQ R0, 0(R1). -/
def ldqWord : Encoded := 0xA4010000

/-- The LDQ row of the table. -/
def ldqRow : GrainRow :=
  ⟨"LDQ", 0x29, some 0, .direct,
    [.memFormat, .readsRb, .writesRa, .readsInt, .writesInt, .load, .cacheable],
    .ordinary (.load 8)⟩

/-- A machine in PALmode with empty translation buffers, about to execute LDQ R0, 0(R1). -/
def ldqMachine : Machine Unit := ⟨resetCpu 1 0x600000, ⟨.empty 16, ()⟩, .empty⟩

/-- The word decodes to LDQ. -/
theorem decodeEntry_ldq (cpu : CpuState) :
    decodeEntry (fetchOnly ldqWord).config cpu ldqWord = ldqRow.entry := by
  have hrow : ldqRow ∈ GrainMaster.rows :=
    GrainMaster.mem_rows_of_family GrainMaster.memoryRows (by simp [GrainMaster.families])
      (by decide +kernel)
  exact (fetchOnly ldqWord).decodeEntry_eq _ cpu hrow
    (GrainRow.selected_of_isDirect (by decide) (by decide) (by decide)) (by decide)

/-- The machine fetches it. -/
theorem fetched_ldqMachine : fetched (fetchOnly ldqWord).config ldqMachine = some ldqWord :=
  fetched_fetchOnly_of_pal (show ldqMachine.cpu.pc = 1 from rfl) (by decide) (by decide)

/-- The leaf of LDQ runs. -/
theorem leafOut_ldqMachine : leafOut (fetchOnly ldqWord).config ldqMachine ldqWord =
    ldqRow.leaf.exec (fetchOnly ldqWord).fp (grainOf ldqRow.entry 1 ldqWord) ⟨0, 0⟩ ldqMachine.cpu
      ldqMachine.bus.memory :=
  leafOut_of_entry _ (decodeEntry_ldq _)

/-- The access of the LDQ misses the translation buffer. -/
theorem dataFault_ldqMachine :
    DataFault (fetchOnly ldqWord).config ldqMachine ldqWord .dtbMiss := by
  rw [DataFault, leafOut_ldqMachine]
  exact ⟨rfl, by decide, by decide +kernel, rfl⟩

/-- LDQ with a miss in the data translation buffer, and the state after it. -/
theorem faultInfo_machineRun_ldq :
    DataFaultInfo (fetchOnly ldqWord).config ldqMachine ldqWord .dtbMiss ∧
      IsStatusWord (machineRun (fetchOnly ldqWord).config ldqMachine [.step]).cpu.mmStat := by
  have hm : IsStatusWord ldqMachine.cpu.mmStat := by decide
  have hleaf : (decodeEntry (fetchOnly ldqWord).config ldqMachine.cpu ldqWord).leaf =
      .ordinary (.load 8) := congrArg GrainEntry.leaf (decodeEntry_ldq _)
  have hmt : NoMtprMmStat (fetchOnly ldqWord).config ldqMachine .step := by
    intro e he hl
    rw [fetched_ldqMachine] at he
    cases he
    rw [hleaf] at hl
    cases hl
  have hok : MmOk (fetchOnly ldqWord).config ldqMachine .step := by
    refine Or.inr ⟨fun h => ?_, fun e he => ?_⟩
    · rw [fetched_ldqMachine] at h
      cases h
    · rw [fetched_ldqMachine] at he
      cases he
      refine ⟨fun h => ?_, ?_⟩
      · rw [hleaf] at h
        cases h
      · rintro ⟨-, -, pa, hpa, -⟩
        obtain ⟨-, -, htr, -⟩ := dataFault_ldqMachine
        rw [show (afterFetch (fetchOnly ldqWord).config ldqMachine).cpu = ldqMachine.cpu from rfl,
          htr] at hpa
        cases hpa
  have hmt' : Library.RunMeets (machineStep (fetchOnly ldqWord).config)
      (NoMtprMmStat (fetchOnly ldqWord).config) ldqMachine [.step] := ⟨hmt, trivial⟩
  have hok' : Library.RunMeets (machineStep (fetchOnly ldqWord).config)
      (MmOk (fetchOnly ldqWord).config) ldqMachine [.step] := ⟨hok, trivial⟩
  refine ⟨?_, (faultInfo_machineRun _ hm hmt' hok').1⟩
  exact (faultInfo_machineRun _ hm (Library.RunMeets_nil ..) (Library.RunMeets_nil ..)).2.1 _ _
    (by nofun) fetched_ldqMachine dataFault_ldqMachine

/-- A machine in native mode whose PC is not canonical. -/
def nonCanonicalMachine : Machine Unit := ⟨resetCpu 0x4000000000000 0x8000, ⟨.empty 16, ()⟩, .empty⟩

/-- A fetch from a non-canonical address latches the PC in MM_STAT and goes to DFAULT. -/
theorem nonCanonical_fetch_enters_dfault :
    IsStatusWord nonCanonicalMachine.cpu.mmStat ∧
      Library.RunMeets (machineStep (fetchOnly ldqWord).config)
        (NoMtprMmStat (fetchOnly ldqWord).config) nonCanonicalMachine [.step] ∧
      (Ev6Translator.translateInstruction nonCanonicalMachine.cpu
        nonCanonicalMachine.cpu.pc).pa? = none ∧
      ¬ IsStatusWord (machineRun (fetchOnly ldqWord).config nonCanonicalMachine
        [.step]).cpu.mmStat ∧
      (machineRun (fetchOnly ldqWord).config nonCanonicalMachine [.step]).cpu.pc =
        computeHwExceptionEntry nonCanonicalMachine.cpu.palBase .dfault ||| 1 := by
  have htr : Ev6Translator.translateInstruction nonCanonicalMachine.cpu
      nonCanonicalMachine.cpu.pc = .nonCanonical := by decide
  have hpa := congrArg TranslationResult.pa? htr
  obtain ⟨hnone, hcpu⟩ := stepCpu_of_fetchFault (fetchOnly ldqWord).config
    (m := nonCanonicalMachine) (by nofun) hpa
  refine ⟨by decide, ⟨?_, trivial⟩, hpa, ?_, ?_⟩
  · intro e he
    rw [hnone] at he
    cases he
  · rw [machineRun_step, hcpu]
    show ¬ IsStatusWord (retireFault _ _ _).mmStat
    rw [mmStat_retireFault]
    decide
  · rw [machineRun_step, hcpu, htr]
    exact pc_retireFault _ (latchFetchFault nonCanonicalMachine.cpu)
      (show entryForFault .nonCanonical = some .dfault from rfl) (by decide)

end EmulatR
