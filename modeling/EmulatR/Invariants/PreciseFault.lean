import EmulatR.Invariants.ShadowBank
import EmulatR.Library.BitFields

/-! # Precise faults

A step that ends in a fault leaves the registers, guest memory and the reservation as they were, and
EXC_ADDR names the instruction to resume at: HW_REI through EXC_ADDR undoes the exchange of the
shadowed registers that the entry into PALmode made, and goes there. Three things are done
differently on purpose (pipelineLib/PipelineDriver.h, pipelineLib/MemDrainer.h): HALT is a signal
and leaves EXC_ADDR alone; without PALcode a fault stops the CPU with the PC in EXC_ADDR; and a
store-conditional drops its reservation before the bus answers.

`preciseFault_stepCpu` is the result for every fault of a step; `halt_leaves_excAddr` is the fault
that is not delivered. -/

namespace EmulatR

/-! ## The retire stage -/

/-- The fault is delivered to PALcode; otherwise it stops the CPU. -/
def Delivered (f : FaultCode) (cpu : CpuState) : Prop := cpu.palBase ≠ 0 ∧ (entryForFault f).isSome

instance (f : FaultCode) (cpu : CpuState) : Decidable (Delivered f cpu) :=
  inferInstanceAs (Decidable (_ ∧ _))

/-- Where execution resumes after a fault that is delivered. -/
def resumePc (pc : Word) (f : FaultCode) : Word := if f = .busError then pc + 4 else pc

/-- The PALmode bit of a PC, as `faultReturnPc` puts it back. -/
theorem palBit_eq (x : Word) : (if x.getLsbD 0 then 1 else 0) = x &&& 1#64 := by
  rw [BitVec.and_one_eq_setWidth_ofBool_getLsbD]
  cases x.getLsbD 0 <;> rfl

/-- Setting the PALmode bit of an address that has it clear adds it. -/
theorem or_palBit {y : Word} (x : Word) (hy : y &&& 1#64 = 0#64) :
    y ||| (x &&& 1#64) = y + (x &&& 1#64) := by
  refine (BitVec.add_eq_or_of_and_eq_zero _ _ ?_).symm
  rw [BitVec.and_comm x, ← BitVec.and_assoc, hy, BitVec.zero_and]

/-- The return address is the one to resume at. -/
theorem faultReturnPc_eq (pc : Word) (f : FaultCode) :
    faultReturnPc pc f (pc.getLsbD 0) = resumePc pc f := by
  -- split the PC into address and PALmode bit; neither step of the source carries over
  have hclear : (pc &&& ~~~1) &&& 1#64 = 0#64 := by
    rw [BitVec.and_assoc, show ~~~(1 : Word) &&& 1#64 = 0#64 by decide, BitVec.and_zero]
  have hpc : (pc &&& ~~~1) + (pc &&& 1#64) = pc := Library.and_not_add_and pc 1#64
  have hfour : ((pc &&& ~~~1) + 4) &&& 1#64 = 0#64 := by
    rw [← palBit_eq, getLsbD_add_four, getLsbD_and_not_one]
    rfl
  rw [faultReturnPc, palBit_eq, resumePc]
  split
  -- a bus error resumes after the instruction
  · rw [or_palBit pc hfour, BitVec.add_assoc, BitVec.add_comm 4, ← BitVec.add_assoc, hpc]
  · rw [show (pc &&& ~~~1) + (0 : Word) = pc &&& ~~~1 from BitVec.add_zero _, or_palBit pc hclear, hpc]

/-- The CPU after a fault that is delivered. -/
theorem retireFault_of_delivered {f : FaultCode} {cpu : CpuState} (pc : Word)
    (h : Delivered f cpu) :
    ∃ entry, retireFault pc f cpu = deliverFault pc f entry { cpu with lastFaultCode := f } := by
  obtain ⟨hb, hs⟩ := h
  obtain ⟨entry, he⟩ := Option.isSome_iff_exists.mp hs
  have hf : f ≠ .halt := by
    rintro rfl
    cases he
  refine ⟨entry, ?_⟩
  simp only [retireFault, if_neg hf, he, if_neg hb]

/-- The CPU after a fault that stops it; HALT leaves EXC_ADDR alone. -/
theorem retireFault_of_not_delivered {f : FaultCode} {cpu : CpuState} (pc : Word)
    (h : ¬ Delivered f cpu) :
    retireFault pc f cpu = { cpu with
      halted := true
      lastFaultCode := f
      excAddr := if f = .halt then cpu.excAddr else pc } := by
  simp only [retireFault]
  split
  · rename_i hf
    rw [hf]
  · split
    · rename_i entry he
      -- an entry without PALcode to deliver it to
      rw [if_pos (by_contra fun hb => h ⟨hb, by rw [he]; rfl⟩)]
    · rfl

/-- Entering PALmode from native mode. -/
theorem palModeEnter_of_native {cpu : CpuState} (h : cpu.inPalMode = false) :
    cpu.palModeEnter = { (if cpu.sdeEnabled then cpu.swapPalShadowRegs else cpu) with
      pc := cpu.pc ||| 1 } := by
  rw [CpuState.palModeEnter, if_neg (by rw [h]; decide)]
  split <;> rfl

/-- Leaving it again. -/
theorem setPalMode_false_of_pal {cpu : CpuState} (h : cpu.inPalMode = true) :
    cpu.setPalMode false = { (if cpu.sdeEnabled then cpu.swapPalShadowRegs else cpu) with
      pc := cpu.pc &&& ~~~1 } := by
  rw [CpuState.setPalMode, h, if_neg (by decide), if_neg (by decide), CpuState.palModeLeave, h,
    if_neg (by decide)]
  have hs : ({ cpu with pc := cpu.pc &&& ~~~1 } : CpuState).sdeEnabled = cpu.sdeEnabled := rfl
  simp only [hs]
  split <;> rfl

/-- HW_REI back to the mode a fault came from undoes the exchange its delivery made. -/
theorem setPalMode_palModeEnter (cpu : CpuState) {t : Word} (ht : t.getLsbD 0 = true) :
    ∃ pc, CpuState.setPalMode { cpu.palModeEnter with pc := t } cpu.inPalMode =
      { cpu with pc := pc } := by
  have hmode : ({ cpu.palModeEnter with pc := t } : CpuState).inPalMode = true := ht
  -- a fault taken in PALmode exchanged nothing, and nothing is exchanged on the way back
  cases hp : cpu.inPalMode with
  | true =>
    refine ⟨t, ?_⟩
    rw [CpuState.setPalMode, hmode, if_pos rfl, CpuState.palModeEnter, if_pos hp]
  | false =>
    refine ⟨t &&& ~~~1, ?_⟩
    rw [setPalMode_false_of_pal hmode, palModeEnter_of_native hp]
    cases hs : cpu.sdeEnabled with
    -- both ways with shadowing on: two exchanges
    | true =>
      have hs' : ({ cpu.swapPalShadowRegs with pc := t } : CpuState).sdeEnabled = true := hs
      simp only [if_true, hs']
      exact congrArg (fun c : CpuState => { c with pc := t &&& ~~~1 })
        cpu.swapPalShadowRegs_swapPalShadowRegs
    | false =>
      have hs' : ({ cpu with pc := t } : CpuState).sdeEnabled = false := hs
      simp only [Bool.false_eq_true, if_false, hs']

/-- The registers after entering PALmode. -/
theorem intReg_palModeEnter (cpu : CpuState) : cpu.palModeEnter.intReg =
    if !cpu.inPalMode && cpu.sdeEnabled then cpu.swapPalShadowRegs.intReg else cpu.intReg := by
  cases hp : cpu.inPalMode with
  | true => rw [CpuState.palModeEnter, if_pos hp]; rfl
  | false =>
    rw [palModeEnter_of_native hp]
    cases cpu.sdeEnabled <;> rfl

/-- The tick and the entry to PALmode may change places. -/
theorem palModeEnter_tick (cpu : CpuState) : cpu.tick.palModeEnter = cpu.palModeEnter.tick := by
  rw [CpuState.palModeEnter, CpuState.palModeEnter, show cpu.tick.inPalMode = cpu.inPalMode from rfl,
    show cpu.tick.sdeEnabled = cpu.sdeEnabled from rfl]
  split
  · rfl
  · split <;> rfl

/-- The resumed address is in the mode of the PC. -/
theorem getLsbD_resumePc (pc : Word) (f : FaultCode) :
    (resumePc pc f).getLsbD 0 = pc.getLsbD 0 := by
  rw [resumePc]
  split
  · exact getLsbD_add_four pc
  · rfl

/-- What retiring a fault makes of a CPU: `cpu` is the one before the instruction. -/
structure RetiresPrecisely (cpu cpu' : CpuState) (f : FaultCode) : Prop where
  /-- The floating registers are the old ones. -/
  fpReg : cpu'.fpReg = cpu.fpReg
  /-- The integer registers are the old ones, exchanged if the fault entered PALmode. -/
  intReg : cpu'.intReg = (if Delivered f cpu then cpu.palModeEnter else cpu).intReg
  /-- A delivered fault resumes at the instruction, or after it for a bus error. -/
  excAddr : Delivered f cpu → cpu'.excAddr = resumePc cpu.pc f
  /-- A fault that is not delivered stops the CPU; HALT leaves EXC_ADDR alone. -/
  stopped : ¬ Delivered f cpu →
    cpu'.halted = true ∧ cpu'.excAddr = if f = .halt then cpu.excAddr else cpu.pc
  /-- HW_REI through EXC_ADDR restores the registers and PALmode and goes where execution
  resumes. -/
  resume : Delivered f cpu → ∀ g : InstructionGrain, g.encoded.litFlag →
    (execHwRei g cpu').1.intReg = cpu.intReg ∧ (execHwRei g cpu').1.intShadow = cpu.intShadow ∧
      (execHwRei g cpu').1.fpReg = cpu.fpReg ∧
      nextPc cpu'.pc (execHwRei g cpu').2 = resumePc cpu.pc f ∧
      (resumePc cpu.pc f).getLsbD 0 = cpu.inPalMode

/-- The CPU as a delivered fault enters PALmode. -/
def CpuState.faulting (cpu : CpuState) (ms va : Word) (cb : CBoxState) (f : FaultCode) : CpuState :=
  { cpu.withLatches ms va cb with lastFaultCode := f, excAddr := resumePc cpu.pc f }

/-- A delivery after the latches is an entry to PALmode with the latches made. -/
theorem retireFault_withLatches (cpu : CpuState) (ms va : Word) (cb : CBoxState) {f : FaultCode}
    (h : Delivered f cpu) : ∃ t : Word, t.getLsbD 0 = true ∧
      (retireFault cpu.pc f (cpu.withLatches ms va cb)).tick =
        { (cpu.faulting ms va cb f).tick.palModeEnter with pc := t } := by
  obtain ⟨entry, hret⟩ := retireFault_of_delivered cpu.pc
    (show Delivered f (cpu.withLatches ms va cb) from h)
  -- the latches are not read by the delivery
  have hfault : ({ cpu.withLatches ms va cb with
      lastFaultCode := f
      excAddr := faultReturnPc cpu.pc f (cpu.pc.getLsbD 0) } : CpuState) =
        cpu.faulting ms va cb f := by
    rw [faultReturnPc_eq]
    rfl
  have hdel : deliverFault cpu.pc f entry { cpu.withLatches ms va cb with lastFaultCode := f } =
      { (cpu.faulting ms va cb f).palModeEnter with
        pc := computeHwExceptionEntry (cpu.faulting ms va cb f).palModeEnter.palBase entry ||| 1 } := by
    rw [← hfault]
    rfl
  refine ⟨_, getLsbD_or_one (computeHwExceptionEntry
    (cpu.faulting ms va cb f).palModeEnter.palBase entry), ?_⟩
  rw [hret, hdel, palModeEnter_tick]
  rfl

/-- **The retire stage is precise**, whatever the fault latches hold by then. -/
theorem retiresPrecisely (cpu : CpuState) (ms va : Word) (cb : CBoxState) (f : FaultCode) :
    RetiresPrecisely cpu (retireFault cpu.pc f (cpu.withLatches ms va cb)).tick f := by
  by_cases hd : Delivered f cpu
  · obtain ⟨t, ht, hcpu⟩ := retireFault_withLatches cpu ms va cb hd
    -- the banks and the PC are all that the switch touches
    obtain ⟨ir, sh, sl, pc, hframe⟩ := palModeEnter_frame (cpu.faulting ms va cb f).tick
    have hexc : (retireFault cpu.pc f (cpu.withLatches ms va cb)).tick.excAddr =
        resumePc cpu.pc f := by
      rw [hcpu, hframe]
      rfl
    refine ⟨?_, ?_, fun _ => hexc, fun h => absurd hd h, fun _ g hlit => ?_⟩
    · rw [hcpu, hframe]
      rfl
    · rw [hcpu, if_pos hd, intReg_palModeEnter cpu]
      exact intReg_palModeEnter (cpu.faulting ms va cb f).tick
    -- EXC_ADDR carries the mode the fault came from, so HW_REI switches back to it
    · have hback : (retireFault cpu.pc f (cpu.withLatches ms va cb)).tick.excAddr.getLsbD 0 =
          (cpu.faulting ms va cb f).tick.inPalMode := by
        rw [hexc, getLsbD_resumePc]
        rfl
      obtain ⟨pc', hset⟩ := setPalMode_palModeEnter (cpu.faulting ms va cb f).tick ht
      simp only [execHwRei, hwReiTarget, if_pos hlit, hback]
      rw [hcpu, hset, ← hcpu, hexc]
      exact ⟨rfl, rfl, rfl, rfl, getLsbD_resumePc cpu.pc f⟩
  · rw [retireFault_of_not_delivered cpu.pc (show ¬ Delivered f (cpu.withLatches ms va cb) from hd)]
    exact ⟨rfl, by rw [if_neg hd]; rfl, fun h => absurd h hd, fun _ => ⟨rfl, rfl⟩,
      fun h => absurd h hd⟩

/-! ## The step -/

section Step

variable {δ : Type} (cfg : Config δ) {m : Machine δ}

/-- The next instruction is a store-conditional that holds its reservation, and the bus refuses its
write. -/
def DropsReservation (m : Machine δ) : Prop :=
  ∃ e, fetched cfg m = some e ∧ (leafOut cfg m e).result.memIsStore ∧
    (leafOut cfg m e).result.isLocked ∧
    MemDrainer.Refuses cfg.devices (afterFetch cfg m) (leafOut cfg m e).result

/-- A step that ended in the fault `f` has done nothing else. -/
structure PreciseFault (m : Machine δ) (f : FaultCode) : Prop where
  /-- The CPU. -/
  cpu : RetiresPrecisely m.cpu (stepCpu cfg m).cpu f
  /-- Guest memory is the old one. -/
  memory : (stepCpu cfg m).bus.memory = m.bus.memory
  /-- The reservations are the old ones. -/
  locks : ¬ DropsReservation cfg m → (stepCpu cfg m).locks = m.locks
  /-- Except that a store-conditional drops its own before the bus refuses the write. -/
  dropped : DropsReservation cfg m → (stepCpu cfg m).locks = m.locks.clear m.cpu.cpuSlot

variable {cfg}

/-- The reservations after a step that faults. -/
theorem StepFault.locks {e : Encoded} {f : FaultCode} {m' : Machine δ}
    (he : fetched cfg m = some e) (h : StepFault cfg m e f m') :
    (¬ DropsReservation cfg m → m'.locks = m.locks) ∧
      (DropsReservation cfg m → m'.locks = m.locks.clear m.cpu.cpuSlot) := by
  -- the fetched word is one word, so the condition speaks of this one
  have hdrop : ∀ {x : Encoded}, fetched cfg m = some x → x = e := by
    intro x hx
    rw [he] at hx
    cases hx
    rfl
  rcases h.leaf_or_access with ⟨hf, rfl⟩ | ⟨hr, hlatch⟩
  · refine ⟨fun _ => rfl, ?_⟩
    rintro ⟨x, hx, -, -, hr, -⟩
    rw [hdrop hx, hf] at hr
    exact absurd hr h.ne_noFault
  · cases hlatch with
    | leaf hleaf => exact absurd hr hleaf
    | translation _ _ hpa =>
      refine ⟨fun _ => rfl, ?_⟩
      rintro ⟨x, hx, -, -, -, -, pa, hpa', -⟩
      rw [hdrop hx, hpa] at hpa'
      cases hpa'
    | load pa _ _ _ hst _ =>
      refine ⟨fun _ => rfl, ?_⟩
      rintro ⟨x, hx, hst', -, -⟩
      rw [hdrop hx] at hst'
      exact absurd hst' hst
    | store pa _ hs hpa hst hlk hbus =>
      -- the only fault that reaches the monitor
      refine ⟨fun hn => if_neg fun hl => hn ⟨e, he, hst, hl, hr, hs, pa, hpa, ?_⟩, ?_⟩
      · rw [if_pos hst]
        exact ⟨hlk, hbus⟩
      · rintro ⟨x, hx, -, hl, -⟩
        rw [hdrop hx] at hl
        exact if_pos hl

/-- A step whose fetch fails. -/
theorem preciseFault_of_fetch {f : FaultCode} (hh : ¬ m.cpu.halted)
    (h : (fetchWord cfg m).2 = .error f) : PreciseFault cfg m f := by
  have hdrop : ¬ DropsReservation cfg m := by
    rintro ⟨e, he, -⟩
    rw [fetched, h] at he
    cases he
  have hstep : stepCpu cfg m = { afterFetch cfg m with
      cpu := (retireFault m.cpu.pc f (latchFetchFault m.cpu)).tick } := by
    rw [stepCpu_eq cfg hh, issue_of_error cfg h, retire,
      if_pos (fetchWord_error_ne_noFault cfg h)]
    rfl
  refine ⟨?_, ?_, fun _ => ?_, fun h => absurd h hdrop⟩
  · rw [hstep]
    exact retiresPrecisely m.cpu m.cpu.pc m.cpu.pc m.cpu.cBox f
  · rw [hstep]
    exact memory_fetchWord cfg m
  · rw [hstep]
    rfl

/-- A step whose leaf or drain faults. -/
theorem preciseFault_of_issue {e : Encoded} (hh : ¬ m.cpu.halted) (he : fetched cfg m = some e)
    (hf : (issue cfg m).2.faultCode ≠ .noFault) :
    PreciseFault cfg m (issue cfg m).2.faultCode := by
  -- a fault cannot have completed, so the second case is absurd
  rcases issue_cases cfg he with hfault | ⟨hr, v, -, hres, -⟩
  · obtain ⟨⟨ms, va, cb, hcpu⟩, hmem⟩ := hfault.frame
    obtain ⟨hlocks, hdropped⟩ := hfault.locks he
    have hstep : stepCpu cfg m = { (issue cfg m).1 with
        cpu := (retireFault m.cpu.pc (issue cfg m).2.faultCode
          (m.cpu.withLatches ms va cb)).tick } := by
      rw [stepCpu_eq cfg hh, retire, if_pos hf, hcpu]
    refine ⟨?_, ?_, fun h => ?_, fun h => ?_⟩
    · rw [hstep]
      exact retiresPrecisely m.cpu ms va cb _
    · rw [hstep]
      exact hmem
    · rw [hstep]
      exact hlocks h
    · rw [hstep]
      exact hdropped h
  · rw [hres] at hf
    exact absurd hr hf

/-- **Faults are precise.** Whatever the state, the table, the devices and the outcome of the fetch,
a step that ends in a fault leaves the registers, guest memory and the reservations as they were,
and HW_REI through EXC_ADDR resumes at the instruction, or after it for a bus error. -/
theorem preciseFault_stepCpu (hh : ¬ m.cpu.halted)
    (hf : (issue cfg m).2.faultCode ≠ .noFault) :
    PreciseFault cfg m (issue cfg m).2.faultCode := by
  cases hfetch : (fetchWord cfg m).2 with
  | error f =>
    rw [issue_of_error cfg hfetch]
    exact preciseFault_of_fetch hh hfetch
  | ok e => exact preciseFault_of_issue hh ((fetched_eq_some cfg).mpr hfetch) hf

end Step

/-! ## Where the code differs on purpose -/

/-- A platform that fetches one word wherever it is, and whose bus refuses every write. -/
def refusing (e : Encoded) : Platform Unit :=
  { fetchOnly e with
    devices := { dramClaims := fun _ _ => false, read := fun _ _ _ => ((), {}),
                 write := fun _ _ _ _ => ((), ⟨.busError, 0⟩) } }

/-- STQ_C R1, 0(R2). -/
def stqcWord : Encoded := 0xBC220000

/-- The STQ_C row of the table. -/
def stqcRow : GrainRow :=
  ⟨"STQ_C", 0x2F, some 0, .direct,
    [.memFormat, .readsRa, .readsRb, .readsInt, .writesRa, .writesInt, .store, .locked, .cacheable],
    .ordinary (.storeC 8)⟩

/-- A machine in native kernel mode with shadowing enabled, with or without PALcode, that holds a
reservation of line 0 and is about to store-conditional to it through the superpage. -/
def stqcMachine (palCode : Bool) : Machine Unit :=
  ⟨{ pc := 0xFFFF800000000000, palBase := if palCode then 0x600000 else 0, vaCtl := 2, iSpe := 4,
     mSpe := 4, iCtl := 0x80, intReg := Function.update (fun _ => 0) 2 0xFFFF800000000000,
     intShadow := fun _ => 7 }, ⟨.empty 16, ()⟩, LockMonitor.empty.set 0 0⟩

/-- The machine fetches STQ_C. -/
theorem fetched_stqcMachine (palCode : Bool) :
    fetched (refusing stqcWord).config (stqcMachine palCode) = some stqcWord := by
  have htr : Ev6Translator.translateInstruction (stqcMachine palCode).cpu
      (stqcMachine palCode).cpu.pc = .success 0 := by cases palCode <;> decide
  exact fetched_of_tryFetch (congrArg TranslationResult.pa? htr) rfl

/-- The word decodes to STQ_C. -/
theorem decodeEntry_stqc (cpu : CpuState) :
    decodeEntry (refusing stqcWord).config cpu stqcWord = stqcRow.entry := by
  have hrow : stqcRow ∈ GrainMaster.rows :=
    GrainMaster.mem_rows_of_family GrainMaster.memoryRows (by simp [GrainMaster.families])
      (by decide +kernel)
  exact (refusing stqcWord).decodeEntry_eq _ cpu hrow
    (GrainRow.selected_of_isDirect (by decide) (by decide) (by decide)) (by decide)

/-- The result of the leaf of STQ_C on this machine. -/
def stqcResult : BoxResult :=
  execStoreC 8 (grainOf stqcRow.entry 0xFFFF800000000000 stqcWord) ⟨0, 0xFFFF800000000000⟩

/-- The leaf of STQ_C asks for a conditional store. -/
theorem result_stqcMachine (palCode : Bool) :
    (leafOut (refusing stqcWord).config (stqcMachine palCode) stqcWord).result = stqcResult := by
  have hctx : buildCtx (grainOf stqcRow.entry 0xFFFF800000000000 stqcWord)
      (stqcMachine palCode).cpu = ⟨0, 0xFFFF800000000000⟩ := by cases palCode <;> decide
  rw [leafOut_of_entry _ (decodeEntry_stqc _)]
  exact congrArg (execStoreC 8 (grainOf stqcRow.entry 0xFFFF800000000000 stqcWord)) hctx

/-- The bus refuses the STQ_C after the reservation is gone. -/
theorem dropsReservation_stqcMachine (palCode : Bool) :
    DropsReservation (refusing stqcWord).config (stqcMachine palCode) := by
  have htr : MemDrainer.translate (stqcMachine palCode).cpu stqcResult = .success 0 := by
    cases palCode <;> decide
  refine ⟨stqcWord, fetched_stqcMachine palCode, ?_⟩
  rw [result_stqcMachine]
  refine ⟨by decide, by decide, by decide, by decide, 0, congrArg TranslationResult.pa? htr, ?_⟩
  rw [if_pos (by decide)]
  cases palCode <;> exact ⟨fun _ => rfl, nofun⟩

/-- The refused STQ_C ends in a bus error. -/
theorem faultCode_stqcMachine (palCode : Bool) :
    (issue (refusing stqcWord).config (stqcMachine palCode)).2.faultCode = .busError := by
  obtain ⟨e, he, -, -, href⟩ := dropsReservation_stqcMachine palCode
  exact issue_of_refuses _ he href

/-- A store-conditional that the bus refuses, with PALcode. -/
theorem preciseFault_stepCpu_stqc :
    PreciseFault (refusing stqcWord).config (stqcMachine true) .busError := by
  have hf := faultCode_stqcMachine true
  have h := preciseFault_stepCpu (m := stqcMachine true) (by nofun)
    (show (issue (refusing stqcWord).config (stqcMachine true)).2.faultCode ≠ .noFault by
      rw [hf]; decide)
  rwa [hf] at h

/-- CALL_PAL HALT. -/
def haltWord : Encoded := 0

/-- The HALT row of the table. -/
def haltRow : GrainRow :=
  ⟨"HALT", 0x00, some 0, .pal, GrainMaster.palEntryFlags ++ [.palTru64, .palVms, .palLinux],
    .pal .halt⟩

/-- A machine in PALmode at reset. -/
def haltMachine : Machine Unit := ⟨resetCpu 1 0x600000, ⟨.empty 16, ()⟩, .empty⟩

/-- HALT ends in its own fault. -/
theorem faultCode_haltMachine :
    fetched (fetchOnly haltWord).config haltMachine = some haltWord ∧
      (issue (fetchOnly haltWord).config haltMachine).2.faultCode = .halt := by
  have he : fetched (fetchOnly haltWord).config haltMachine = some haltWord :=
    fetched_fetchOnly_of_pal (show haltMachine.cpu.pc = 1 from rfl) (by decide) (by decide)
  have hrow : haltRow ∈ GrainMaster.rows :=
    GrainMaster.mem_rows_of_family GrainMaster.palIntrinsicRows (by simp [GrainMaster.families])
      (by decide +kernel)
  have hdec : decodeEntry (fetchOnly haltWord).config haltMachine.cpu haltWord = haltRow.entry :=
    (fetchOnly haltWord).decodeEntry_eq _ _ hrow
      (show haltRow.Selected haltWord 1 by unfold GrainRow.Selected; decide) (by decide)
  have hout : (leafOut (fetchOnly haltWord).config haltMachine haltWord).result.faultCode =
      .halt := by
    rw [leafOut_of_entry _ hdec]
    rfl
  exact ⟨he, faultCode_of_leafFault _ he hout (by decide)⟩

/-- HALT leaves EXC_ADDR alone. A refused store-conditional has dropped its reservation, its
delivery has exchanged R4, and without PALcode EXC_ADDR is the PC and not the one after it. -/
theorem halt_leaves_excAddr :
    ((issue (fetchOnly haltWord).config haltMachine).2.faultCode = .halt ∧
        haltMachine.cpu.pc = 1 ∧
        (stepCpu (fetchOnly haltWord).config haltMachine).cpu.excAddr = 0) ∧
      ((issue (refusing stqcWord).config (stqcMachine true)).2.faultCode = .busError ∧
        (stqcMachine true).locks.check 0 0 = true ∧
        (stepCpu (refusing stqcWord).config (stqcMachine true)).locks.check 0 0 = false ∧
        (stqcMachine true).cpu.intReg 4 = 0 ∧
        (stepCpu (refusing stqcWord).config (stqcMachine true)).cpu.intReg 4 = 7) ∧
      ((issue (refusing stqcWord).config (stqcMachine false)).2.faultCode = .busError ∧
        (stepCpu (refusing stqcWord).config (stqcMachine false)).cpu.excAddr =
          (stqcMachine false).cpu.pc) := by
  have hstqc : ∀ b, PreciseFault (refusing stqcWord).config (stqcMachine b) .busError := by
    intro b
    have hf := faultCode_stqcMachine b
    have h := preciseFault_of_issue (m := stqcMachine b) (by cases b <;> nofun)
      (fetched_stqcMachine b) (by rw [hf]; decide)
    rwa [hf] at h
  obtain ⟨hhe, hhf⟩ := faultCode_haltMachine
  refine ⟨⟨hhf, rfl, ?_⟩, ⟨faultCode_stqcMachine true, by decide, ?_, by decide, ?_⟩,
    ⟨faultCode_stqcMachine false, ?_⟩⟩
  · have h := preciseFault_of_issue (m := haltMachine) (by nofun) hhe (by rw [hhf]; decide)
    rw [hhf] at h
    exact (h.cpu.stopped (by decide)).2
  · rw [(hstqc true).dropped (dropsReservation_stqcMachine true)]
    decide
  · rw [(hstqc true).cpu.intReg]
    rfl
  · exact ((hstqc false).cpu.stopped (by decide)).2

end EmulatR
