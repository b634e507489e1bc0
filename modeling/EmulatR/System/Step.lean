import EmulatR.System.Machine

/-! # What one step can do

Every invariant of the machine is proved from the same case analysis, done once here. A step either
fails to fetch, or runs a leaf; the drain stage then either faults, having touched only the fault
latches of the CPU, or commits the leaf's register write with a value of its own. `stepCpu_cases`
puts these together with the retire stage. -/

namespace EmulatR

/-! ## The drain stage -/

namespace MemDrainer

section

variable {δ : Type} (D : Devices δ) (silicon : Bool) (g : InstructionGrain)

/-- The register write, read back. -/
theorem intReg_commitRegWrite (cpu : CpuState) {r : BoxResult} (hi : r.regWriteIdx ≠ 31)
    (hf : r.regWriteIsFp = false) :
    (commitRegWrite cpu r).intReg r.regWriteIdx = r.regWriteValue := by
  simp only [commitRegWrite, if_neg hi, hf, Bool.false_eq_true, if_false]
  split
  · exact (Function.update_of_ne hi _ _).trans (Function.update_self ..)
  · exact Function.update_self ..

/-- The register write touches the register files only. -/
theorem commitRegWrite_frame (cpu : CpuState) (r : BoxResult) :
    ∃ ir fr, commitRegWrite cpu r = { cpu with intReg := ir, fpReg := fr } := by
  simp only [commitRegWrite]
  split_ifs <;> exact ⟨_, _, rfl⟩

/-- The access was done: the CPU is as it was and only the register value may have changed. -/
def Settled (cpu : CpuState) (r : BoxResult) (x : Machine δ × BoxResult) : Prop :=
  x.1.cpu = cpu ∧ ∃ v, x.2 = { r with regWriteValue := v }

/-- A translation without an address is a fault. -/
theorem toFaultCode_ne_noFault {tr : TranslationResult} (h : tr.pa? = none)
    (hk : tr ≠ .notKseg) : tr.toFaultCode ≠ .noFault := by
  cases tr with
  | success pa => cases h
  | notKseg => exact absurd rfl hk
  | _ => decide

/-- A data access has a data outcome. -/
theorem translate_isDataOutcome (cpu : CpuState) (r : BoxResult) :
    Ev6Translator.IsDataOutcome (accessKind r) (translate cpu r) := by
  rw [translate]
  split
  · trivial
  · refine Ev6Translator.translateDataAligned_isDataOutcome cpu _ _ ?_
    rw [accessKind]
    split <;> decide

/-- A data access without an address faults. -/
theorem dataFaultCode_ne_noFault {cpu : CpuState} {r : BoxResult}
    (h : (translate cpu r).pa? = none) : dataFaultCode g (translate cpu r) ≠ .noFault := by
  -- `notKseg` has no fault code, and no data translation ends in it
  have hk : translate cpu r ≠ .notKseg := by
    intro h
    have := translate_isDataOutcome cpu r
    rw [h] at this
    exact this
  rw [dataFaultCode]
  split
  · decide
  · exact toFaultCode_ne_noFault h hk

/-- The machine after a drain that faulted. -/
inductive FaultLatch (m : Machine δ) (r : BoxResult) : FaultCode → Machine δ → Prop
  /-- The leaf faulted; the drain did nothing. -/
  | leaf (h : r.faultCode ≠ .noFault) : FaultLatch m r r.faultCode m
  /-- The access did not translate. -/
  | translation (hr : r.faultCode = .noFault) (hs : r.memSize ≠ 0)
      (h : (translate m.cpu r).pa? = none) :
      FaultLatch m r (dataFaultCode g (translate m.cpu r))
        { m with cpu := latchDataFault g m.cpu r (translate m.cpu r) }
  /-- The bus refused a load. -/
  | load (pa : Word) (hr : r.faultCode = .noFault) (hs : r.memSize ≠ 0)
      (hpa : (translate m.cpu r).pa? = some pa) (hst : ¬ r.memIsStore)
      (h : (m.bus.read D pa r.memSize).2.status ≠ .ok) :
      FaultLatch m r .busError
        { m with bus := (m.bus.read D pa r.memSize).1, cpu := latchBusError m.cpu r.memAddr }
  /-- The bus refused a store; a store-conditional has dropped its reservation by then. -/
  | store (pa : Word) (hr : r.faultCode = .noFault) (hs : r.memSize ≠ 0)
      (hpa : (translate m.cpu r).pa? = some pa) (hst : r.memIsStore)
      (hlk : r.isLocked → m.locks.check m.cpu.cpuSlot pa)
      (h : (m.bus.write D pa r.memData r.memSize).2.status ≠ .ok) :
      FaultLatch m r .busError
        { cpu := latchBusError m.cpu r.memAddr
          bus := (m.bus.write D pa r.memData r.memSize).1
          locks := if r.isLocked then m.locks.clear m.cpu.cpuSlot else m.locks }

/-- The bus refuses the access; a store-conditional without its reservation never reaches it. -/
def Refuses (m : Machine δ) (r : BoxResult) : Prop :=
  r.faultCode = .noFault ∧ r.memSize ≠ 0 ∧ ∃ pa, (translate m.cpu r).pa? = some pa ∧
    if r.memIsStore then
      (r.isLocked → m.locks.check m.cpu.cpuSlot pa) ∧
        (m.bus.write D pa r.memData r.memSize).2.status ≠ .ok
    else (m.bus.read D pa r.memSize).2.status ≠ .ok

variable {D g}

/-- What is latched for is a fault. -/
theorem FaultLatch.ne_noFault {m m' : Machine δ} {r : BoxResult} {f : FaultCode}
    (h : FaultLatch D g m r f m') : f ≠ .noFault := by
  cases h with
  | leaf h => exact h
  | translation _ _ h => exact dataFaultCode_ne_noFault g h
  | load _ _ _ _ _ _ => decide
  | store _ _ _ _ _ _ _ => decide

/-- The leaf has faulted, or it wants memory. -/
theorem FaultLatch.interrupted {m m' : Machine δ} {r : BoxResult} {f : FaultCode}
    (h : FaultLatch D g m r f m') : r.faultCode ≠ .noFault ∨ r.memSize ≠ 0 := by
  cases h with
  | leaf h => exact Or.inl h
  | translation _ hs _ => exact Or.inr hs
  | load _ _ hs _ _ _ => exact Or.inr hs
  | store _ _ hs _ _ _ _ => exact Or.inr hs

/-- A refused drain touches only the fault latches of the CPU. -/
theorem FaultLatch.cpu_eq {m m' : Machine δ} {r : BoxResult} {f : FaultCode}
    (h : FaultLatch D g m r f m') :
    ∃ ms va cb, m'.cpu = { m.cpu with mmStat := ms, va := va, cBox := cb } := by
  cases h with
  | leaf _ => exact ⟨m.cpu.mmStat, m.cpu.va, m.cpu.cBox, rfl⟩
  | translation _ _ _ => exact ⟨_, _, m.cpu.cBox, rfl⟩
  | load _ _ _ _ _ _ => exact ⟨_, m.cpu.va, _, rfl⟩
  | store _ _ _ _ _ _ _ => exact ⟨_, m.cpu.va, _, rfl⟩

/-- Guest memory is as the leaf left it. -/
theorem FaultLatch.memory_eq {m m' : Machine δ} {r : BoxResult} {f : FaultCode}
    (h : FaultLatch D g m r f m') : m'.bus.memory = m.bus.memory := by
  cases h with
  | leaf _ => rfl
  | translation _ _ _ => rfl
  | load pa _ _ _ _ _ => exact Chipset.memory_read D m.bus pa r.memSize
  | store pa _ _ _ _ _ h => exact Chipset.memory_write_of_busError D h

variable (D) (g)

/-- A faulting result is not committed. -/
theorem commit_of_fault {m : Machine δ} {r : BoxResult} (h : r.faultCode ≠ .noFault) :
    commit m r = (m, r) := if_pos h

/-- Every other result is. -/
theorem commit_of_noFault {m : Machine δ} {r : BoxResult} (h : r.faultCode = .noFault) :
    commit m r = ({ m with cpu := commitRegWrite m.cpu r }, r) := if_neg (not_not.mpr h)

/-- A store that the bus refuses latches a bus error. -/
theorem performStore_of_refused {m : Machine δ} {r : BoxResult} {pa : Word}
    (h : (m.bus.write D pa r.memData r.memSize).2.status ≠ .ok) :
    performStore D m r pa = ({ m with
      bus := (m.bus.write D pa r.memData r.memSize).1, cpu := latchBusError m.cpu r.memAddr },
      { r with faultCode := .busError }) := by
  rw [performStore, if_pos h]

/-- A store that the bus takes settles. -/
theorem performStore_settled {m : Machine δ} {r : BoxResult} {pa : Word}
    (h : (m.bus.write D pa r.memData r.memSize).2.status = .ok) :
    Settled m.cpu r (performStore D m r pa) := by
  rw [performStore, if_neg (not_not.mpr h)]
  refine ⟨rfl, ?_⟩
  split
  · exact ⟨1, rfl⟩
  · exact ⟨r.regWriteValue, rfl⟩

/-- An access that does not translate latches its fault. -/
theorem applyMemEffect_of_none {m : Machine δ} {r : BoxResult}
    (hpa : (translate m.cpu r).pa? = none) :
    applyMemEffect D silicon g m r =
      ({ m with cpu := latchDataFault g m.cpu r (translate m.cpu r) },
        { r with faultCode := dataFaultCode g (translate m.cpu r) }) := by
  rw [applyMemEffect, hpa]

/-- An access that translates goes to the bus. -/
theorem applyMemEffect_of_pa {m : Machine δ} {r : BoxResult} {pa : Word}
    (hpa : (translate m.cpu r).pa? = some pa) :
    applyMemEffect D silicon g m r =
      if r.memIsStore then applyStoreEffect D m r pa else applyLoadEffect D silicon m r pa := by
  rw [applyMemEffect, hpa]

/-- An access that the bus refuses is a bus error. -/
theorem faultCode_of_refuses {m : Machine δ} {r : BoxResult} (h : Refuses D m r) :
    (applyMemEffect D silicon g m r).2.faultCode = .busError := by
  obtain ⟨-, -, pa, hpa, hbus⟩ := h
  rw [applyMemEffect_of_pa D silicon g hpa]
  split at hbus
  · rename_i hst
    rw [if_pos hst, applyStoreEffect]
    -- a store-conditional writes from the machine that has dropped the reservation
    split
    · rw [if_pos (hbus.1 ‹_›),
        performStore_of_refused D (m := { m with locks := m.locks.clear m.cpu.cpuSlot }) hbus.2]
    · rw [performStore_of_refused D hbus.2]
  · rename_i hst
    rw [if_neg hst, applyLoadEffect, if_pos hbus]

/-- A memory access either faults, as `FaultLatch` says, or is done. -/
theorem applyMemEffect_cases (m : Machine δ) {r : BoxResult} (hr : r.faultCode = .noFault)
    (hs : r.memSize ≠ 0) :
    FaultLatch D g m r (applyMemEffect D silicon g m r).2.faultCode
        (applyMemEffect D silicon g m r).1 ∨
      Settled m.cpu r (applyMemEffect D silicon g m r) := by
  rw [applyMemEffect]
  split
  -- no address
  · exact Or.inl (.translation hr hs ‹_›)
  rename_i pa hpa
  split
  · rename_i hst
    -- a store: split on the bus first, then on the reservation
    rw [applyStoreEffect]
    by_cases hok : (m.bus.write D pa r.memData r.memSize).2.status = .ok
    · right
      split
      · split
        · exact performStore_settled D (m := { m with locks := m.locks.clear m.cpu.cpuSlot }) hok
        -- a failed store-conditional never reaches the bus
        · exact ⟨rfl, 0, rfl⟩
      · exact performStore_settled D hok
    · split
      · rename_i hlk
        split
        · rename_i hck
          have h := FaultLatch.store (g := g) pa hr hs hpa hst (fun _ => hck) hok
          rw [if_pos hlk] at h
          rw [performStore_of_refused D (m := { m with locks := m.locks.clear m.cpu.cpuSlot }) hok]
          exact Or.inl h
        · exact Or.inr ⟨rfl, 0, rfl⟩
      · rename_i hlk
        have h := FaultLatch.store (g := g) pa hr hs hpa hst (fun h => absurd h hlk) hok
        rw [if_neg hlk] at h
        rw [performStore_of_refused D hok]
        exact Or.inl h
  · rename_i hst
    -- a load
    rw [applyLoadEffect]
    split
    · exact Or.inl (.load pa hr hs hpa hst ‹_›)
    · exact Or.inr ⟨rfl, _, rfl⟩

/-- **What the drain stage can do**: fault with only the latches touched, or commit the register
write, with the value of a load or of a store-conditional in place of the leaf's. -/
theorem drain_cases (m : Machine δ) (r : BoxResult) :
    FaultLatch D g m r (drain D silicon g m r).2.faultCode (drain D silicon g m r).1 ∨
      (r.faultCode = .noFault ∧ ∃ v, (r.memSize = 0 → v = r.regWriteValue) ∧
        (drain D silicon g m r).2 = { r with regWriteValue := v } ∧
        (drain D silicon g m r).1.cpu = commitRegWrite m.cpu { r with regWriteValue := v }) := by
  rw [drain]
  split
  · exact Or.inl (.leaf ‹_›)
  rename_i hr
  rw [ne_eq, not_not] at hr
  split
  -- no access: the leaf's own value is committed
  · rw [commit_of_noFault hr]
    exact Or.inr ⟨hr, r.regWriteValue, fun _ => rfl, rfl, rfl⟩
  rename_i hs
  rcases applyMemEffect_cases D silicon g m hr hs with hlatch | ⟨hcpu, v, hv⟩
  · rw [commit_of_fault hlatch.ne_noFault]
    exact Or.inl hlatch
  · rw [commit_of_noFault (by rw [hv]; exact hr)]
    refine Or.inr ⟨hr, v, fun h => absurd h hs, hv, ?_⟩
    -- the access left the CPU alone, so the commit starts from the leaf's
    rw [← hv, ← hcpu]

end

end MemDrainer

/-! ## The retire stage -/

/-- Entering PALmode touches the integer banks and the PC only. -/
theorem palModeEnter_frame (cpu : CpuState) : ∃ ir sh sl pc, cpu.palModeEnter =
    { cpu with intReg := ir, intShadow := sh, shadowLive := sl, pc := pc } := by
  rw [CpuState.palModeEnter]
  split
  · exact ⟨cpu.intReg, cpu.intShadow, cpu.shadowLive, cpu.pc, rfl⟩
  · split
    · exact ⟨_, _, _, _, rfl⟩
    · exact ⟨cpu.intReg, cpu.intShadow, cpu.shadowLive, _, rfl⟩

/-- A switch of PALmode in either direction changes the registers, the shadow bank and the PC
only. -/
theorem setPalMode_frame (cpu : CpuState) (target : Bool) : ∃ ir sh sl pc, cpu.setPalMode target =
    { cpu with intReg := ir, intShadow := sh, shadowLive := sl, pc := pc } := by
  rw [CpuState.setPalMode]
  split
  · exact ⟨cpu.intReg, cpu.intShadow, cpu.shadowLive, cpu.pc, rfl⟩
  · split
    · exact palModeEnter_frame cpu
    · simp only [CpuState.palModeLeave]
      split
      · exact ⟨cpu.intReg, cpu.intShadow, cpu.shadowLive, cpu.pc, rfl⟩
      · split
        · exact ⟨_, _, _, _, rfl⟩
        · exact ⟨cpu.intReg, cpu.intShadow, cpu.shadowLive, _, rfl⟩

/-- A staged divert touches EXC_ADDR and ISUM as well. -/
theorem stageInterruptDivert_frame (cpu : CpuState) (mask : Word) : ∃ ir sh sl pc,
    stageInterruptDivert cpu mask = { cpu with
      intReg := ir, intShadow := sh, shadowLive := sl, pc := pc, excAddr := cpu.pc, isum := mask } := by
  obtain ⟨ir, sh, sl, pc, h⟩ :=
    palModeEnter_frame { cpu with excAddr := cpu.pc, pc := cpu.palBase + 0x680 }
  refine ⟨ir, sh, sl, pc, ?_⟩
  simp only [stageInterruptDivert, h]

/-- Retiring a fault touches the integer banks and the control state only. -/
theorem retireFault_frame (pc : Word) (f : FaultCode) (cpu : CpuState) :
    ∃ ir sh sl pc' ea hl, retireFault pc f cpu = { cpu with
      intReg := ir, intShadow := sh, shadowLive := sl, pc := pc', excAddr := ea, halted := hl,
      lastFaultCode := f } := by
  -- the two ways to stop leave the banks and the PC where they are
  have hstay : ∀ ea hl, ∃ ir sh sl pc' ea' hl', ({ cpu with
      lastFaultCode := f, excAddr := ea, halted := hl } : CpuState) = { cpu with
      intReg := ir, intShadow := sh, shadowLive := sl, pc := pc', excAddr := ea', halted := hl',
      lastFaultCode := f } :=
    fun ea hl => ⟨cpu.intReg, cpu.intShadow, cpu.shadowLive, cpu.pc, ea, hl, rfl⟩
  simp only [retireFault]
  split
  · rename_i hf
    subst hf
    exact hstay cpu.excAddr true
  · split
    · split
      · exact hstay pc true
      · rename_i entry _ _
        -- a delivery: the switch moves the banks, the vector replaces the PC
        obtain ⟨ir, sh, sl, pc', h⟩ := palModeEnter_frame { cpu with
          lastFaultCode := f, excAddr := faultReturnPc pc f cpu.inPalMode }
        refine ⟨ir, sh, sl, computeHwExceptionEntry cpu.palBase entry ||| 1,
          faultReturnPc pc f cpu.inPalMode, cpu.halted, ?_⟩
        have hmode : ({ cpu with lastFaultCode := f } : CpuState).inPalMode = cpu.inPalMode := rfl
        simp only [deliverFault, hmode, h]
    · exact hstay pc true

/-- A fault that has an entry is delivered there when there is PALcode. -/
theorem pc_retireFault (pc : Word) {f : FaultCode} {entry : PalEntry} (cpu : CpuState)
    (he : entryForFault f = some entry) (hb : cpu.palBase ≠ 0) :
    (retireFault pc f cpu).pc = computeHwExceptionEntry cpu.palBase entry ||| 1 := by
  have hf : f ≠ .halt := by
    rintro rfl
    cases he
  obtain ⟨ir, sh, sl, pc', h⟩ := palModeEnter_frame { cpu with
    lastFaultCode := f, excAddr := faultReturnPc pc f cpu.inPalMode }
  have hmode : ({ cpu with lastFaultCode := f } : CpuState).inPalMode = cpu.inPalMode := rfl
  simp only [retireFault, if_neg hf, he, if_neg hb, deliverFault, hmode, h]

/-! ## The step -/

/-- The CPU with one more cycle on its counter. -/
def CpuState.tick (cpu : CpuState) : CpuState := { cpu with cycleCount := cpu.cycleCount + 1 }

section Step

variable {δ : Type} (cfg : Config δ)

/-- The machine with the bus as the fetch left it. -/
def afterFetch (m : Machine δ) : Machine δ := { m with bus := (fetchWord cfg m).1 }

/-- The word the next step executes; none if the fetch fails. -/
def fetched (m : Machine δ) : Option Encoded := (fetchWord cfg m).2.toOption

/-- What the leaf of the fetched word leaves behind. -/
def leafOut (m : Machine δ) (e : Encoded) : ExecOut := execWord cfg (afterFetch cfg m) e

/-- The grain of the fetched word. -/
def leafGrain (m : Machine δ) (e : Encoded) : InstructionGrain := makeGrain cfg m.cpu e

/-- A fetch touches neither guest memory nor the CPU. -/
theorem memory_fetchWord (m : Machine δ) : (fetchWord cfg m).1.memory = m.bus.memory := by
  rw [fetchWord]
  split
  · rfl
  · split
    · rfl
    · exact Chipset.memory_fetch cfg.devices m.bus _ 4

/-- The fault of a failed fetch: what the instruction translation reports, or a bus error. -/
theorem fetchWord_error {m : Machine δ} {f : FaultCode} (h : (fetchWord cfg m).2 = .error f) :
    ((Ev6Translator.translateInstruction m.cpu m.cpu.pc).pa? = none ∧
        f = (Ev6Translator.translateInstruction m.cpu m.cpu.pc).toFaultCode) ∨
      ((Ev6Translator.translateInstruction m.cpu m.cpu.pc).pa?.isSome ∧ f = .busError) := by
  rw [fetchWord] at h
  split at h
  · cases h
    exact Or.inl ⟨‹_›, rfl⟩
  · rename_i pa hpa
    refine Or.inr ⟨by rw [hpa]; rfl, ?_⟩
    -- a word from the payload is no error, so the word came over the bus
    split at h
    · cases h
    · simp only at h
      split at h
      · cases h; rfl
      · cases h

/-- A fetch fails with a fault. -/
theorem fetchWord_error_ne_noFault {m : Machine δ} {f : FaultCode}
    (h : (fetchWord cfg m).2 = .error f) : f ≠ .noFault := by
  rcases fetchWord_error cfg h with ⟨hpa, rfl⟩ | ⟨-, rfl⟩
  · refine MemDrainer.toFaultCode_ne_noFault hpa fun h => ?_
    -- `notKseg` again has no fault code and is no outcome of a fetch
    have hout := Ev6Translator.translateInstruction_isFetchOutcome m.cpu m.cpu.pc
    rw [h] at hout
    exact hout
  · decide

/-- The operands of the fetched word. -/
def leafCtx (m : Machine δ) (e : Encoded) : ExecCtx := buildCtx (leafGrain cfg m e) m.cpu

/-- Only S_PhysAddr is added to the flags of the row. -/
theorem contains_leafGrain (m : Machine δ) (e : Encoded) {f : SemFlag} (hf : f ≠ .physAddr) :
    (leafGrain cfg m e).semFlags.contains f = (decodeEntry cfg m.cpu e).semFlags.contains f := by
  simp only [leafGrain, makeGrain]
  split
  · rw [List.contains_eq_mem, List.contains_eq_mem, decide_eq_decide, List.mem_append,
      List.mem_singleton]
    exact or_iff_left hf
  · rfl

/-- The operands, by the flags of the row. -/
theorem leafCtx_eq (m : Machine δ) (e : Encoded) :
    leafCtx cfg m e = buildCtx
      { leafGrain cfg m e with semFlags := (decodeEntry cfg m.cpu e).semFlags } m.cpu := by
  -- the six flags that operand routing asks for
  simp only [leafCtx, buildCtx, contains_leafGrain cfg m e (by decide : SemFlag.readsRa ≠ _),
    contains_leafGrain cfg m e (by decide : SemFlag.readsRb ≠ _),
    contains_leafGrain cfg m e (by decide : SemFlag.readsFp ≠ _),
    contains_leafGrain cfg m e (by decide : SemFlag.memFormat ≠ _),
    contains_leafGrain cfg m e (by decide : SemFlag.opFormat ≠ _),
    contains_leafGrain cfg m e (by decide : SemFlag.fpFormat ≠ _)]

/-- The leaf is the one the word decodes to. -/
theorem leafOut_eq (m : Machine δ) (e : Encoded) :
    leafOut cfg m e = (decodeEntry cfg m.cpu e).leaf.exec cfg.fp (leafGrain cfg m e)
      (leafCtx cfg m e) m.cpu m.bus.memory := by
  rw [← memory_fetchWord cfg m]
  rfl

/-- The leaf of an ordinary row leaves FPCR and the RC/RS flag behind, and else the CPU. -/
theorem leafOut_cpu_of_ordinary {m : Machine δ} {e : Encoded} {l : OrdinaryLeaf}
    (hl : (decodeEntry cfg m.cpu e).leaf = .ordinary l) :
    ∃ f i, (leafOut cfg m e).cpu = { m.cpu with fpcr := f, intrFlag := i } := by
  obtain ⟨f, i, hcpu⟩ := l.exec_cpu cfg.fp (leafGrain cfg m e) (leafCtx cfg m e) m.cpu
  refine ⟨f, i, ?_⟩
  rw [leafOut_eq, hl]
  exact hcpu

/-- The grain of a word of a given table entry. -/
def grainOf (entry : GrainEntry) (pc : Word) (e : Encoded) : InstructionGrain :=
  { pc := pc
    semFlags :=
      if (e.primaryOp = 0x1B ∨ e.primaryOp = 0x1F) ∧ e.extractLsb' 14 2 = 0 then
        entry.semFlags ++ [.physAddr]
      else entry.semFlags
    encoded := e
    primaryOp := e.primaryOp }

/-- What the leaf of a given table entry leaves behind. -/
theorem leafOut_of_entry {m : Machine δ} {e : Encoded} {entry : GrainEntry}
    (h : decodeEntry cfg m.cpu e = entry) :
    leafOut cfg m e = entry.leaf.exec cfg.fp (grainOf entry m.cpu.pc e)
      (buildCtx (grainOf entry m.cpu.pc e) m.cpu) m.cpu m.bus.memory := by
  rw [leafOut_eq, ← h]
  rfl

/-- The machine the drain stage works on. -/
def preDrain (m : Machine δ) (e : Encoded) : Machine δ :=
  (afterFetch cfg m).afterLeaf (leafOut cfg m e)

/-- The drain of the fetched word faults with the code and leaves the machine. -/
def StepFault (m : Machine δ) (e : Encoded) (f : FaultCode) (m' : Machine δ) : Prop :=
  MemDrainer.FaultLatch cfg.devices (leafGrain cfg m e) (preDrain cfg m e)
    (leafOut cfg m e).result f m'

/-- A CPU with its fault latches replaced. -/
def CpuState.withLatches (cpu : CpuState) (mmStat va : Word) (cBox : CBoxState) : CpuState :=
  { cpu with mmStat := mmStat, va := va, cBox := cBox }

/-- A leaf that is interrupted has left the machine as the fetch did, except that a LDQP or STQP
that traps has written MM_STAT. -/
theorem preDrain_of_interrupted {m : Machine δ} {e : Encoded}
    (h : (leafOut cfg m e).result.faultCode ≠ .noFault ∨ (leafOut cfg m e).result.memSize ≠ 0) :
    preDrain cfg m e = { afterFetch cfg m with
      cpu := (decodeEntry cfg m.cpu e).leaf.interruptedCpu m.cpu } := by
  -- the leaf ran on the memory the fetch left, which is the machine's
  have hmem : (leafOut cfg m e).memory = (fetchWord cfg m).1.memory := by
    rw [memory_fetchWord]
    rw [leafOut_eq] at h ⊢
    exact (Leaf.exec_of_interrupted cfg.fp _ _ m.cpu _ m.bus.memory h).2
  have hcpu : (leafOut cfg m e).cpu = (decodeEntry cfg m.cpu e).leaf.interruptedCpu m.cpu := by
    rw [leafOut_eq] at h ⊢
    exact (Leaf.exec_of_interrupted cfg.fp _ _ m.cpu _ m.bus.memory h).1
  rw [preDrain, Machine.afterLeaf, hcpu, hmem]
  rfl

/-- A leaf that asks for a memory access has left the machine as the fetch did. -/
theorem preDrain_of_access {m : Machine δ} {e : Encoded}
    (hr : (leafOut cfg m e).result.faultCode = .noFault)
    (hs : (leafOut cfg m e).result.memSize ≠ 0) : preDrain cfg m e = afterFetch cfg m := by
  -- a trapping LDQP or STQP asks for no access
  have hq : ¬ (decodeEntry cfg m.cpu e).leaf.quadFaults m.cpu := by
    intro hq
    rw [leafOut_eq, Leaf.faultCode_of_quadFaults cfg.fp _ _ hq] at hr
    cases hr
  rw [preDrain_of_interrupted cfg (Or.inr hs), Leaf.interruptedCpu, if_neg hq]
  rfl

/-- **A step that faults has touched only the fault latches** when it comes to be retired, and not
guest memory. -/
theorem StepFault.frame {cfg : Config δ} {m m' : Machine δ} {e : Encoded} {f : FaultCode}
    (h : StepFault cfg m e f m') :
    (∃ ms va cb, m'.cpu = m.cpu.withLatches ms va cb) ∧ m'.bus.memory = m.bus.memory := by
  have hpre := preDrain_of_interrupted cfg h.interrupted
  have hmem : (preDrain cfg m e).bus.memory = m.bus.memory := by
    rw [hpre]
    exact memory_fetchWord cfg m
  obtain ⟨ms, va, cb, hcpu⟩ := h.cpu_eq
  refine ⟨⟨ms, va, cb, ?_⟩, h.memory_eq.trans hmem⟩
  rw [hcpu, hpre]
  -- MM_STAT is one of the latches, whether or not the leaf wrote it
  simp only [Leaf.interruptedCpu]
  split <;> rfl

/-- A step faults in its leaf, or in the drain of an access on the machine the fetch left. -/
theorem StepFault.leaf_or_access {cfg : Config δ} {m m' : Machine δ} {e : Encoded} {f : FaultCode}
    (h : StepFault cfg m e f m') :
    ((leafOut cfg m e).result.faultCode = f ∧ m' = { afterFetch cfg m with
        cpu := (decodeEntry cfg m.cpu e).leaf.interruptedCpu m.cpu }) ∨
      ((leafOut cfg m e).result.faultCode = .noFault ∧
        MemDrainer.FaultLatch cfg.devices (leafGrain cfg m e) (afterFetch cfg m)
          (leafOut cfg m e).result f m') := by
  by_cases hr : (leafOut cfg m e).result.faultCode = .noFault
  · refine Or.inr ⟨hr, ?_⟩
    rw [← preDrain_of_access cfg hr (h.interrupted.resolve_left (not_not.mpr hr))]
    exact h
  · rw [← preDrain_of_interrupted cfg (Or.inl hr)]
    -- only the first constructor is about a leaf that faulted
    cases h with
    | leaf _ => exact Or.inl ⟨rfl, rfl⟩
    | translation hr' _ _ => exact absurd hr' hr
    | load _ hr' _ _ _ _ => exact absurd hr' hr
    | store _ hr' _ _ _ _ _ => exact absurd hr' hr

/-- The CPU after an instruction that completed, with `v` as the value of its register write. -/
def doneCpu (m : Machine δ) (e : Encoded) (v : Word) : CpuState :=
  { MemDrainer.commitRegWrite (leafOut cfg m e).cpu
      { (leafOut cfg m e).result with regWriteValue := v } with
    pc := if (leafOut cfg m e).result.divert then (leafOut cfg m e).result.divertTarget
      else m.cpu.pc + 4 }

/-- The machine after a step, by what happened. -/
inductive StepOutcome (m : Machine δ) : Machine δ → Prop
  /-- A halted CPU does nothing. -/
  | halted (h : m.cpu.halted) : StepOutcome m m
  /-- The fetch failed. -/
  | fetchFault (f : FaultCode) (hh : ¬ m.cpu.halted) (h : (fetchWord cfg m).2 = .error f) :
      StepOutcome m { afterFetch cfg m with
        cpu := (retireFault m.cpu.pc f (latchFetchFault m.cpu)).tick }
  /-- The leaf or the drain faulted. -/
  | fault (e : Encoded) (f : FaultCode) (m' : Machine δ) (hh : ¬ m.cpu.halted)
      (he : fetched cfg m = some e) (h : StepFault cfg m e f m') :
      StepOutcome m { m' with cpu := (retireFault m.cpu.pc f m'.cpu).tick }
  /-- The instruction completed. -/
  | done (e : Encoded) (v : Word) (m' : Machine δ) (hh : ¬ m.cpu.halted)
      (he : fetched cfg m = some e) (h : (leafOut cfg m e).result.faultCode = .noFault) :
      StepOutcome m { m' with cpu := (doneCpu cfg m e v).tick }

/-- A fetch that fails is the instruction's fault. -/
theorem issue_of_error {m : Machine δ} {f : FaultCode} (h : (fetchWord cfg m).2 = .error f) :
    issue cfg m = ({ m with bus := (fetchWord cfg m).1, cpu := latchFetchFault m.cpu },
      { faultCode := f }) := by
  rw [issue, h]

/-- A fetched word is executed. -/
theorem issue_of_ok {m : Machine δ} {e : Encoded} (h : (fetchWord cfg m).2 = .ok e) :
    issue cfg m = executeWord cfg (afterFetch cfg m) e := by
  rw [issue, h]
  rfl

/-- The fetched word. -/
theorem fetched_eq_some {m : Machine δ} {e : Encoded} :
    fetched cfg m = some e ↔ (fetchWord cfg m).2 = .ok e := by
  rw [fetched]
  cases (fetchWord cfg m).2 with
  | error f => exact ⟨nofun, nofun⟩
  | ok e' => exact ⟨fun h => by cases h; rfl, fun h => by cases h; rfl⟩

/-- Executing a word drains what its leaf wants. -/
theorem executeWord_afterFetch (m : Machine δ) (e : Encoded) :
    executeWord cfg (afterFetch cfg m) e =
      MemDrainer.drain cfg.devices cfg.silicon (leafGrain cfg m e) (preDrain cfg m e)
        (leafOut cfg m e).result := rfl

/-- A cycle issues, retires and ticks. -/
theorem stepCpu_eq {m : Machine δ} (h : ¬ m.cpu.halted) :
    stepCpu cfg m = { (issue cfg m).1 with
      cpu := (retire m.cpu.pc (issue cfg m).2 (issue cfg m).1.cpu).tick } := by
  rw [stepCpu, if_neg h]
  rfl

/-- A step consults the entry of its own word only. -/
theorem stepCpu_of_entry {m : Machine δ} {e : Encoded} {entry : GrainEntry}
    (he : fetched cfg m = some e) (h : decodeEntry cfg m.cpu e = entry) :
    stepCpu cfg m = stepCpu { cfg with decode := fun _ _ => entry } m := by
  have hfetch : fetchWord { cfg with decode := fun _ _ => entry } m = fetchWord cfg m := rfl
  have hok := (fetched_eq_some cfg).mp he
  have hok' : (fetchWord { cfg with decode := fun _ _ => entry } m).2 = .ok e := hfetch ▸ hok
  have hentry : decodeEntry cfg (afterFetch cfg m).cpu e = entry := h
  have hissue : issue cfg m = issue { cfg with decode := fun _ _ => entry } m := by
    rw [issue_of_ok _ hok, issue_of_ok _ hok']
    simp only [executeWord, execWord, makeGrain, hentry]
    rfl
  rw [stepCpu, stepCpu, hissue]

/-- What the stages before the retire stage make of a fetched word. -/
theorem issue_cases {m : Machine δ} {e : Encoded} (he : fetched cfg m = some e) :
    StepFault cfg m e (issue cfg m).2.faultCode (issue cfg m).1 ∨
      ((leafOut cfg m e).result.faultCode = .noFault ∧
        ∃ v, ((leafOut cfg m e).result.memSize = 0 → v = (leafOut cfg m e).result.regWriteValue) ∧
          (issue cfg m).2 = { (leafOut cfg m e).result with regWriteValue := v } ∧
          retire m.cpu.pc (issue cfg m).2 (issue cfg m).1.cpu = doneCpu cfg m e v) := by
  rw [issue_of_ok cfg ((fetched_eq_some cfg).mp he), executeWord_afterFetch]
  refine (MemDrainer.drain_cases cfg.devices cfg.silicon (leafGrain cfg m e)
    (preDrain cfg m e) (leafOut cfg m e).result).imp_right ?_
  rintro ⟨hr, v, hv, hres, hcpu⟩
  refine ⟨hr, v, hv, hres, ?_⟩
  rw [hres, hcpu, retire, if_neg (not_not.mpr hr), doneCpu]
  rfl

/-- An instruction whose leaf faults ends in that fault. -/
theorem issue_of_leafFault {m : Machine δ} {e : Encoded} (he : fetched cfg m = some e)
    (h : (leafOut cfg m e).result.faultCode ≠ .noFault) :
    issue cfg m = (preDrain cfg m e, (leafOut cfg m e).result) := by
  rw [issue_of_ok cfg ((fetched_eq_some cfg).mp he), executeWord_afterFetch, MemDrainer.drain,
    if_pos h]

/-- A leaf's fault is the instruction's. -/
theorem faultCode_of_leafFault {m : Machine δ} {e : Encoded} {f : FaultCode}
    (he : fetched cfg m = some e) (h : (leafOut cfg m e).result.faultCode = f)
    (hf : f ≠ .noFault) : (issue cfg m).2.faultCode = f := by
  rw [issue_of_leafFault cfg he (by rw [h]; exact hf)]
  exact h

/-- An instruction whose access the bus refuses ends in a bus error. -/
theorem issue_of_refuses {m : Machine δ} {e : Encoded} (he : fetched cfg m = some e)
    (h : MemDrainer.Refuses cfg.devices (afterFetch cfg m) (leafOut cfg m e).result) :
    (issue cfg m).2.faultCode = .busError := by
  have happly := MemDrainer.faultCode_of_refuses cfg.devices cfg.silicon (leafGrain cfg m e) h
  obtain ⟨hr, hs, -⟩ := h
  rw [issue_of_ok cfg ((fetched_eq_some cfg).mp he), executeWord_afterFetch,
    preDrain_of_access cfg hr hs, MemDrainer.drain, if_neg (not_not.mpr hr), if_neg hs,
    MemDrainer.commit_of_fault (by rw [happly]; decide)]
  exact happly

/-- **What a step can do.** -/
theorem stepCpu_cases (m : Machine δ) : StepOutcome cfg m (stepCpu cfg m) := by
  by_cases hh : m.cpu.halted
  · rw [stepCpu, if_pos hh]
    exact .halted hh
  rw [stepCpu_eq cfg hh]
  -- fetch, then drain: the two places where a step can fail
  cases hf : (fetchWord cfg m).2 with
  | error f =>
    rw [issue_of_error cfg hf, retire, if_pos (fetchWord_error_ne_noFault cfg hf)]
    exact .fetchFault f hh hf
  | ok e =>
    have he := (fetched_eq_some cfg).mpr hf
    rcases issue_cases cfg he with hlatch | ⟨hr, v, -, -, hcpu⟩
    · rw [retire, if_pos hlatch.ne_noFault]
      exact .fault e _ _ hh he hlatch
    · rw [hcpu]
      exact .done e v _ hh he hr

/-- A step that does not fault. -/
theorem stepCpu_of_noFault {m : Machine δ} {e : Encoded} (hh : ¬ m.cpu.halted)
    (he : fetched cfg m = some e) (hn : (issue cfg m).2.faultCode = .noFault) :
    (leafOut cfg m e).result.faultCode = .noFault ∧
      ∃ v, ((leafOut cfg m e).result.memSize = 0 → v = (leafOut cfg m e).result.regWriteValue) ∧
        (stepCpu cfg m).cpu = (doneCpu cfg m e v).tick := by
  rw [stepCpu_eq cfg hh]
  rcases issue_cases cfg he with hlatch | ⟨hr, v, hv, -, hcpu⟩
  · exact absurd hn hlatch.ne_noFault
  · exact ⟨hr, v, hv, by rw [hcpu]⟩

/-- A leaf that neither faults nor accesses memory always completes. -/
theorem stepCpu_of_plain {m : Machine δ} {e : Encoded} (hh : ¬ m.cpu.halted)
    (he : fetched cfg m = some e) (hr : (leafOut cfg m e).result.faultCode = .noFault)
    (hs : (leafOut cfg m e).result.memSize = 0) :
    (stepCpu cfg m).cpu = (doneCpu cfg m e (leafOut cfg m e).result.regWriteValue).tick := by
  rw [stepCpu_eq cfg hh]
  rcases issue_cases cfg he with hlatch | ⟨-, v, hv, -, hcpu⟩
  -- nothing to fault: no fault in the leaf and no access to drain
  · exact absurd hlatch.interrupted (by simp [hr, hs])
  · rw [hcpu, hv hs]

end Step

end EmulatR
