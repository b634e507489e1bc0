import EmulatR.System.Step

/-! # The zero registers

R31 and F31 read as zero. The pipeline has no special case for reading them; they hold zero because
nothing ever writes anything else there. The drain stage suppresses a write to index 31 of either
file, and every leaf that writes a register array directly (the link of CALL_PAL, the exchange of
the shadowed registers, the stack pointer of a context switch) writes another index.

`zeroRegs_machineRun` is the result over runs. -/

namespace EmulatR

/-- R31 and F31 hold zero. -/
def ZeroRegs (cpu : CpuState) : Prop := cpu.intReg 31 = 0 ∧ cpu.fpReg 31 = 0

/-! ## The leaves -/

section Leaves

variable {cpu : CpuState}

/-- The exchange of the banks keeps the zero registers: R31 is not shadowed. -/
theorem ZeroRegs.swapPalShadowRegs (h : ZeroRegs cpu) : ZeroRegs cpu.swapPalShadowRegs :=
  ⟨(cpu.intReg_swapPalShadowRegs_of_none (by decide)).trans h.1, h.2⟩

/-- Entering PALmode keeps the zero registers. -/
theorem ZeroRegs.palModeEnter (h : ZeroRegs cpu) : ZeroRegs cpu.palModeEnter := by
  rw [CpuState.palModeEnter]
  split
  · exact h
  · split
    · exact h.swapPalShadowRegs
    · exact h

/-- Leaving PALmode keeps the zero registers. -/
theorem ZeroRegs.palModeLeave (h : ZeroRegs cpu) : ZeroRegs cpu.palModeLeave := by
  have h' : ZeroRegs { cpu with pc := cpu.pc &&& ~~~1 } := h
  simp only [CpuState.palModeLeave]
  split
  · exact h
  · split
    · exact h'.swapPalShadowRegs
    · exact h'

/-- Switching PALmode in either direction keeps the zero registers. -/
theorem ZeroRegs.setPalMode (h : ZeroRegs cpu) (target : Bool) :
    ZeroRegs (cpu.setPalMode target) := by
  rw [CpuState.setPalMode]
  split
  · exact h
  · split
    · exact h.palModeEnter
    · exact h.palModeLeave

/-- A new PC keeps the zero registers. -/
theorem ZeroRegs.withPc (h : ZeroRegs cpu) (pc : Word) : ZeroRegs { cpu with pc := pc } := h

/-- A new EXC_ADDR keeps the zero registers. -/
theorem ZeroRegs.withExcAddr (h : ZeroRegs cpu) (v : Word) :
    ZeroRegs { cpu with excAddr := v } := h

/-- A new fault code keeps the zero registers. -/
theorem ZeroRegs.withLastFault (h : ZeroRegs cpu) (f : FaultCode) :
    ZeroRegs { cpu with lastFaultCode := f } := h

/-- A new interrupt summary keeps the zero registers. -/
theorem ZeroRegs.withIsum (h : ZeroRegs cpu) (mask : Word) :
    ZeroRegs { cpu with isum := mask } := h

/-- Writing another integer register keeps the zero registers. -/
theorem ZeroRegs.updateInt (h : ZeroRegs cpu) {r : BitVec 5} (hr : r ≠ 31) (v : Word) :
    ZeroRegs { cpu with intReg := Function.update cpu.intReg r v } :=
  ⟨(Function.update_of_ne (Ne.symm hr) v cpu.intReg).trans h.1, h.2⟩

/-- Writing another floating register keeps the zero registers. -/
theorem ZeroRegs.updateFp (h : ZeroRegs cpu) {r : BitVec 5} (hr : r ≠ 31) (v : Word) :
    ZeroRegs { cpu with fpReg := Function.update cpu.fpReg r v } :=
  ⟨h.1, (Function.update_of_ne (Ne.symm hr) v cpu.fpReg).trans h.2⟩

/-- A write of I_CTL, which may exchange the banks, keeps the zero registers. -/
theorem ZeroRegs.writeICtl (h : ZeroRegs cpu) (v : Word) : ZeroRegs (writeICtl cpu v) := by
  have h' : ZeroRegs { cpu with iCtl := v, iSpe := v.extractLsb' 3 3 } := h
  rw [EmulatR.writeICtl]
  split
  · exact h'.swapPalShadowRegs
  · exact h'

/-- A write of an internal register keeps the zero registers. -/
theorem ZeroRegs.writeIpr (h : ZeroRegs cpu) {v : Word} {ipr : HwIpr} {cpu' : CpuState}
    (hw : writeIpr cpu v ipr = some cpu') : ZeroRegs cpu' := by
  cases ipr with
  -- I_CTL is the one register whose write can move integer registers
  | iCtl => obtain rfl := Option.some.inj hw; exact h.writeICtl v
  | unknown => cases hw
  | _ => obtain rfl := Option.some.inj hw; exact h

/-- CALL_PAL links through R23 or R27. -/
theorem callPalLinkageReg_ne (cpu : CpuState) : cpu.callPalLinkageReg ≠ 31 := by
  rw [CpuState.callPalLinkageReg]; split <;> decide

/-- CALL_PAL keeps the zero registers. -/
theorem ZeroRegs.execCallPalDispatch (h : ZeroRegs cpu) (g : InstructionGrain) :
    ZeroRegs (execCallPalDispatch g cpu).1 := by
  exact (h.withExcAddr _).palModeEnter.updateInt (callPalLinkageReg_ne _) _

/-- CSERVE writes internal registers at most. -/
theorem ZeroRegs.execCserve (h : ZeroRegs cpu) (g : InstructionGrain) (mem : GuestMemory) :
    ZeroRegs (execCserve g cpu mem).cpu := by
  simp only [EmulatR.execCserve]
  split <;> exact h

/-- SWPCTX loads R30 and no other register. -/
theorem ZeroRegs.enterContext (h : ZeroRegs cpu) (pcbb : Word) (ctx : Hwpcb) :
    ZeroRegs (enterContext cpu pcbb ctx) :=
  ⟨(h.updateInt (r := 30) (by decide) ctx.ksp).1, h.2⟩

/-- HW_MTPR keeps the zero registers. -/
theorem ZeroRegs.execHwMtpr (h : ZeroRegs cpu) (g : InstructionGrain) (c : ExecCtx) :
    ZeroRegs (execHwMtpr g c cpu).1 := by
  rw [EmulatR.execHwMtpr]
  split
  · exact h.writeIpr ‹_›
  · exact h

/-- Every PAL leaf keeps the zero registers. -/
theorem ZeroRegs.palLeaf (h : ZeroRegs cpu) (l : PalLeaf) (g : InstructionGrain) (c : ExecCtx)
    (mem : GuestMemory) : ZeroRegs (l.exec g c cpu mem).cpu := by
  cases l with
  -- the leaves that write integer registers: the linkage register, R30, or a whole bank
  | callPalDispatch => exact h.execCallPalDispatch g
  | cserve => exact h.execCserve g mem
  | ldqpVms => simp only [PalLeaf.exec, execLdqpVms]; split <;> exact h
  | stqpVms => simp only [PalLeaf.exec, execStqpVms]; split <;> exact h
  | swpctxVms => exact h.enterContext _ _
  | hwMtpr => exact h.execHwMtpr g c
  | hwRei => exact h.setPalMode _
  | _ => exact h

/-- **Every leaf keeps the zero registers.** -/
theorem ZeroRegs.leaf (h : ZeroRegs cpu) (fp : FpBackend) (l : Leaf) (g : InstructionGrain)
    (c : ExecCtx) (mem : GuestMemory) : ZeroRegs (l.exec fp g c cpu mem).cpu := by
  cases l with
  | ordinary l =>
    obtain ⟨f, i, hcpu⟩ := l.exec_cpu fp g c cpu
    show ZeroRegs (l.exec fp g c cpu).1
    rw [hcpu]
    exact h
  | pal l => exact h.palLeaf l g c mem

end Leaves

/-! ## The stages -/

section Stages

variable {δ : Type} {cpu : CpuState}

/-- The commit refuses R31 and F31. -/
theorem ZeroRegs.commitRegWrite (h : ZeroRegs cpu) (r : BoxResult) :
    ZeroRegs (MemDrainer.commitRegWrite cpu r) := by
  -- the write goes to another index, so the clean-up of R31 finds it zero already
  have hwrite : ZeroRegs (if r.regWriteIdx = 31 then cpu
      else if r.regWriteIsFp then
        { cpu with fpReg := Function.update cpu.fpReg r.regWriteIdx r.regWriteValue }
      else { cpu with intReg := Function.update cpu.intReg r.regWriteIdx r.regWriteValue }) := by
    split
    · exact h
    · split
      · exact h.updateFp ‹_› _
      · exact h.updateInt ‹_› _
  rw [MemDrainer.commitRegWrite]
  simp only [hwrite.1, ne_eq, not_true_eq_false, if_false]
  exact hwrite

/-- The latch of a fault keeps the zero registers. -/
theorem ZeroRegs.deliverFault (h : ZeroRegs cpu) (pc : Word) (f : FaultCode) (e : PalEntry) :
    ZeroRegs (deliverFault pc f e cpu) := by
  exact (h.withExcAddr _).palModeEnter.withPc _

/-- A whole fault delivery keeps the zero registers. -/
theorem ZeroRegs.retireFault (h : ZeroRegs cpu) (pc : Word) (f : FaultCode) :
    ZeroRegs (retireFault pc f cpu) := by
  simp only [EmulatR.retireFault]
  split
  · exact h
  · split
    · split
      · exact h
      · exact (h.withLastFault f).deliverFault pc f _
    · exact h

/-- Every leaf, before its result is committed, keeps the zero registers. -/
theorem ZeroRegs.leafOut {m : Machine δ} (h : ZeroRegs m.cpu) (cfg : Config δ) (e : Encoded) :
    ZeroRegs (leafOut cfg m e).cpu :=
  h.leaf cfg.fp _ _ _ _

/-- One instruction keeps the zero registers. -/
theorem ZeroRegs.stepCpu {m : Machine δ} (h : ZeroRegs m.cpu) (cfg : Config δ) :
    ZeroRegs (stepCpu cfg m).cpu := by
  have hout := stepCpu_cases cfg m
  generalize EmulatR.stepCpu cfg m = m' at hout ⊢
  cases hout with
  | halted _ => exact h
  | fetchFault f _ _ =>
    -- the latches are no registers
    have h' : ZeroRegs (latchFetchFault m.cpu) := h
    exact h'.retireFault m.cpu.pc f
  | fault e f x _ _ hl =>
    obtain ⟨⟨ms, va, cb, hcpu⟩, -⟩ := hl.frame
    have h' : ZeroRegs x.cpu := by rw [hcpu]; exact h
    exact h'.retireFault m.cpu.pc f
  -- the leaf keeps them, then the commit
  | done e v x _ _ _ => exact (h.leafOut cfg e).commitRegWrite _

/-- An interrupt divert keeps the zero registers. -/
theorem ZeroRegs.stageInterruptDivert (h : ZeroRegs cpu) (mask : Word) :
    ZeroRegs (stageInterruptDivert cpu mask) := by
  exact ((h.withExcAddr cpu.pc).withPc (cpu.palBase + 0x680)).palModeEnter.withIsum mask

/-- **One event keeps the zero registers.** -/
theorem ZeroRegs.machineStep {m : Machine δ} (h : ZeroRegs m.cpu) (cfg : Config δ) (e : Event δ) :
    ZeroRegs (machineStep cfg m e).cpu := by
  cases e with
  | step => exact h.stepCpu cfg
  | interrupt line relocated =>
    rw [EmulatR.machineStep]
    split
    · exact h.stageInterruptDivert _
    · exact h
  | inject =>
    rw [EmulatR.machineStep]
    split
    · exact h.stageInterruptDivert _
    · exact h
  | environment devices cycleCount => exact h

end Stages

/-! ## Runs -/

/-- Every operand that a word executed on this CPU reads from index 31 of a register file is zero:
operand A, operand B when it is not a literal, and the register target of HW_REI. -/
def ReadsZero {δ : Type} (cfg : Config δ) (cpu : CpuState) : Prop :=
  ∀ e : Encoded,
    let g := makeGrain cfg cpu e
    (e.ra = 31 → (buildCtx g cpu).opA = 0) ∧
      (e.rb = 31 → ¬ (e.litFlag ∧ (.opFormat ∈ g.semFlags ∨ .fpFormat ∈ g.semFlags)) →
        (buildCtx g cpu).opB = 0) ∧
      (e.rb = 31 → ¬ e.litFlag → hwReiTarget e cpu = 0)

/-- With both registers zero every operand read of 31 is zero. -/
theorem ZeroRegs.readsZero {δ : Type} {cpu : CpuState} (h : ZeroRegs cpu) (cfg : Config δ) :
    ReadsZero cfg cpu := by
  intro e
  refine ⟨fun ha => ?_, fun hb hlit => ?_, fun hb hlit => ?_⟩
  -- both register files are zero at 31, whichever the flags select
  · have henc : (makeGrain cfg cpu e).encoded = e := rfl
    simp only [buildCtx, henc, ha, h.1, h.2, ite_self]
  · have hlit' : ¬ (((makeGrain cfg cpu e).semFlags.contains .opFormat ||
        (makeGrain cfg cpu e).semFlags.contains .fpFormat) && e.litFlag) = true := by
      simpa [and_comm] using hlit
    have henc : (makeGrain cfg cpu e).encoded = e := rfl
    simp only [buildCtx, henc, hb, h.1, h.2, if_neg hlit', ite_self]
  · rw [hwReiTarget, if_neg hlit, hb, h.1]

/-- A reset processor has zero registers. -/
theorem zeroRegs_resetCpu (pc palBase : Word) : ZeroRegs (resetCpu pc palBase) := ⟨rfl, rfl⟩

/-- **The zero registers.** Over every run, whatever the instruction table, the devices, the
floating backend and the interrupts, R31 and F31 hold zero in every state reached, so every operand
read from them is zero. -/
theorem zeroRegs_machineRun {δ : Type} (cfg : Config δ) {m : Machine δ} (h : ZeroRegs m.cpu)
    (es : List (Event δ)) :
    ZeroRegs (machineRun cfg m es).cpu ∧ ReadsZero cfg (machineRun cfg m es).cpu := by
  -- the devices may do anything between the steps: the invariant is about the CPU alone
  have hrun : ZeroRegs (machineRun cfg m es).cpu :=
    Library.runFrom_invariant (fun m : Machine δ => ZeroRegs m.cpu)
      (fun _ e hm => ZeroRegs.machineStep hm cfg e) es h
  exact ⟨hrun, hrun.readsZero cfg⟩

/-- A machine whose bus has no device, whose memory is empty and whose every word is a load of Ra
from the address in Rb. -/
def loadOnlyConfig : Config Unit :=
  { devices := .allDram
    fp := { bin := fun _ _ _ _ _ => ⟨0, {}⟩, un := fun _ _ _ _ => ⟨0, {}⟩ }
    silicon := true
    tryFetch := fun _ _ => some 0xA7FF0000
    decode := fun _ _ => ⟨.ordinary (.load 8), [.memFormat, .readsRb, .writesRa, .readsInt]⟩ }

/-- From reset, after a run of a load into R31, an interrupt and an injection. -/
theorem zeroRegs_machineRun_reset :
    ZeroRegs (resetCpu 1 0x600000) ∧
      ZeroRegs (machineRun loadOnlyConfig
        ⟨resetCpu 1 0x600000, ⟨.empty 16, ()⟩, .empty⟩
        [.step, .interrupt .timer true, .inject, .step]).cpu :=
  ⟨zeroRegs_resetCpu _ _, (zeroRegs_machineRun loadOnlyConfig (zeroRegs_resetCpu _ _) _).1⟩

end EmulatR
