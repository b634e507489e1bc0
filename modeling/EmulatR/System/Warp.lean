import Mathlib.Data.BitVec
import EmulatR.System.Step

/-! # The pipeline step with its warps

Between the fetch and the decode of an instruction the pipeline driver (pipelineLib/
PipelineDriver.h) may skip a wait of the firmware, when it is armed by `EMULATR_RSCCWARP`: it adds
the skipped cycles to the cycle counter and rewrites the console's tick counter in guest memory.
There are three such warps, each tied to an address of the console code. Two of them also add the
skipped cycles to `warpCycles`, the CPU's count of cycles that were not executed; the spin-loop warp
does not.

`warpedStep` is the step with the warps, `stepCpu` the step without them. -/

namespace EmulatR

/-- What the spin-loop warp remembers between steps: the caller's page and how often in a row it has
come back. -/
structure SpinDetector where
  /-- The 4 KiB page of the last caller. -/
  lastPage : Word := ~~~0
  /-- How often it has called again. -/
  spinCnt : Word := 0
  deriving DecidableEq

/-- A machine with what the warps read and write beside it. -/
structure WarpMachine (δ : Type) where
  /-- The machine. -/
  machine : Machine δ
  /-- The CPU's count of cycles that were skipped. -/
  warpCycles : Word := 0
  /-- The spin-loop detector. -/
  spin : SpinDetector := {}

namespace WarpMachine

variable {δ : Type} (D : Devices δ) (w : WarpMachine δ)

/-- The address of the instruction, without the PALmode bit. -/
def pcAddr : Word := w.machine.cpu.pc &&& ~~~1

/-- Add cycles to the cycle counter. -/
def addCycles (d : Word) : WarpMachine δ :=
  { w with machine :=
      { w.machine with cpu := { w.machine.cpu with cycleCount := w.machine.cpu.cycleCount + d } } }

/-- Write a longword over the bus, whatever comes of it. -/
def poke4 (pa value : Word) : WarpMachine δ :=
  { w with machine := { w.machine with bus := (w.machine.bus.write D pa value 4).1 } }

/-- Add to the console's tick counter at 0x3c970: read it, then write it back. -/
def bumpTicks (n : Word) : WarpMachine δ :=
  let rd := w.machine.bus.read D 0x3c970 4
  { w with machine := { w.machine with bus := rd.1 } }.poke4 D 0x3c970 (rd.2.data + n)

/-- The cycles of one console tick. -/
def tickInterval : Word := 1 <<< 20

/-- The tick-delay warp at 0x7c314: R6 is the target and R0 the count of ticks. -/
def tickWarp : WarpMachine δ :=
  let cur := w.machine.cpu.intReg 0
  let cntAddr := w.machine.cpu.intReg 5
  let target := w.machine.cpu.intReg 6
  if w.pcAddr = 0x7c314 ∧ cur < target ∧ 8 < target - cur then
    let d := (target - cur) * tickInterval
    let w := (w.poke4 D cntAddr target).addCycles d
    { w with warpCycles := w.warpCycles + d }
  else w

/-- The deadline warp at 0x7c304: R7 is the duration and R19 what has elapsed of it. -/
def rsccWarp : WarpMachine δ :=
  let duration := w.machine.cpu.intReg 7
  let elapsed := w.machine.cpu.intReg 19
  if w.pcAddr = 0x7c304 ∧ elapsed < duration ∧ tickInterval < duration - elapsed then
    let d := duration - elapsed
    let w := w.addCycles d
    { w with warpCycles := w.warpCycles + d }.bumpTicks D (d >>> 20)
  else w

/-- The page of the caller of the RSCC wrapper, R26. -/
def callerPage : Word := w.machine.cpu.intReg 26 &&& ~~~0xFFF

/-- The detector after a call of the wrapper. -/
def spinAfter : SpinDetector :=
  if w.callerPage = w.spin.lastPage then { w.spin with spinCnt := w.spin.spinCnt + 1 }
  else { lastPage := w.callerPage, spinCnt := 0 }

/-- The spin-loop warp injects a tick at this call. -/
def spinInjects : Bool := w.pcAddr == 0x1c655c && decide (256 < w.spinAfter.spinCnt)

/-- The spin-loop warp at 0x1c655c: one tick of cycles for each call of a confirmed spin. -/
def spinWarp : WarpMachine δ :=
  if w.pcAddr = 0x1c655c then
    let w' := { w with spin := w.spinAfter }
    if 256 < w.spinAfter.spinCnt then (w'.addCycles tickInterval).bumpTicks D 1 else w'
  else w

/-- The warps of one instruction, in their order. -/
def warp (armed : Bool) : WarpMachine δ :=
  if armed then (((w.tickWarp D).rsccWarp D).spinWarp D) else w

end WarpMachine

/-! ## What a warp skips -/

namespace WarpMachine

variable {δ : Type} (D : Devices δ) (w : WarpMachine δ)

/-- The cycles the tick-delay warp skips. -/
def tickSkip : Word :=
  let cur := w.machine.cpu.intReg 0
  let target := w.machine.cpu.intReg 6
  if w.pcAddr = 0x7c314 ∧ cur < target ∧ 8 < target - cur then (target - cur) * tickInterval else 0

/-- The cycles the deadline warp skips. -/
def rsccSkip : Word :=
  let duration := w.machine.cpu.intReg 7
  let elapsed := w.machine.cpu.intReg 19
  if w.pcAddr = 0x7c304 ∧ elapsed < duration ∧ tickInterval < duration - elapsed then
    duration - elapsed
  else 0

/-- The cycles the spin-loop warp skips. -/
def spinSkip : Word := if w.spinInjects then tickInterval else 0

/-- The cycles the warps of an instruction skip and count as skipped. -/
def countedSkip (armed : Bool) : Word := if armed then w.tickSkip + w.rsccSkip else 0

/-- The cycles the warps of an instruction skip without counting them. -/
def uncountedSkip (armed : Bool) : Word := if armed then w.spinSkip else 0

/-- What a warp does: it leaves the PC and the registers alone and adds to the two counters. -/
structure Skips (counted uncounted : Word) (w w' : WarpMachine δ) : Prop where
  /-- The PC stays. -/
  pc : w'.machine.cpu.pc = w.machine.cpu.pc
  /-- The registers stay. -/
  intReg : w'.machine.cpu.intReg = w.machine.cpu.intReg
  /-- All that is skipped goes to the cycle counter. -/
  cycleCount : w'.machine.cpu.cycleCount = w.machine.cpu.cycleCount + counted + uncounted
  /-- What is counted goes to the skip counter. -/
  warpCycles : w'.warpCycles = w.warpCycles + counted

/-- What leaves CPU and warp count alone skips nothing. -/
theorem skips_of_eq {w w' : WarpMachine δ} (hcpu : w'.machine.cpu = w.machine.cpu)
    (hwarp : w'.warpCycles = w.warpCycles) : Skips 0 0 w w' :=
  ⟨by rw [hcpu], by rw [hcpu], by rw [hcpu]; simp, by rw [hwarp]; simp⟩

/-- Moving the counter by `d` skips `d`. -/
theorem addCycles_skips (d : Word) : Skips 0 d w (w.addCycles d) :=
  ⟨rfl, rfl, by simp [addCycles], by simp [addCycles]⟩

/-- A store to memory skips no cycle. -/
theorem poke4_skips (pa value : Word) : Skips 0 0 w (w.poke4 D pa value) := skips_of_eq rfl rfl

/-- Counting ticks skips no cycle. -/
theorem bumpTicks_skips (n : Word) : Skips 0 0 w (w.bumpTicks D n) := skips_of_eq rfl rfl

/-- Counting cycles that were skipped before. -/
theorem Skips.count {d : Word} {w w' : WarpMachine δ} (h : Skips 0 d w w') :
    Skips d 0 w { w' with warpCycles := w'.warpCycles + d } :=
  ⟨h.pc, h.intReg, by simpa using h.cycleCount, by simp [h.warpCycles]⟩

/-- One warp after another. -/
theorem Skips.trans {c u c' u' : Word} {w w' w'' : WarpMachine δ} (h : Skips c u w w')
    (h' : Skips c' u' w' w'') : Skips (c + c') (u + u') w w'' where
  pc := h'.pc.trans h.pc
  intReg := h'.intReg.trans h.intReg
  cycleCount := by
    rw [h'.cycleCount, h.cycleCount]
    ac_rfl
  warpCycles := by rw [h'.warpCycles, h.warpCycles, BitVec.add_assoc]

/-- The tick loop skips what it says. -/
theorem tickWarp_skips : Skips w.tickSkip 0 w (w.tickWarp D) := by
  simp only [tickWarp, tickSkip]
  split
  · have h := ((w.poke4_skips D (w.machine.cpu.intReg 5) (w.machine.cpu.intReg 6)).trans
      (addCycles_skips _ ((w.machine.cpu.intReg 6 - w.machine.cpu.intReg 0) * tickInterval)))
    rw [zero_add, zero_add] at h
    exact h.count
  · exact skips_of_eq rfl rfl

/-- The RSCC loop skips what it says. -/
theorem rsccWarp_skips : Skips w.rsccSkip 0 w (w.rsccWarp D) := by
  simp only [rsccWarp, rsccSkip]
  split
  · have h := (addCycles_skips w (w.machine.cpu.intReg 7 - w.machine.cpu.intReg 19)).count.trans
      (bumpTicks_skips D _ ((w.machine.cpu.intReg 7 - w.machine.cpu.intReg 19) >>> 20))
    rw [add_zero, add_zero] at h
    exact h
  · exact skips_of_eq rfl rfl

/-- The spin loop skips what it says. -/
theorem spinWarp_skips : Skips 0 w.spinSkip w (w.spinWarp D) := by
  rw [spinWarp, spinSkip, spinInjects]
  by_cases hpc : w.pcAddr = 0x1c655c
  · rw [if_pos hpc, hpc, BEq.rfl, Bool.true_and]
    by_cases hcnt : 256 < w.spinAfter.spinCnt
    · rw [if_pos (decide_eq_true hcnt)]
      simp only [if_pos hcnt]
      have h := (skips_of_eq rfl rfl : Skips 0 0 w { w with spin := w.spinAfter }).trans
        ((addCycles_skips _ tickInterval).trans (bumpTicks_skips D _ 1))
      rw [add_zero, add_zero, add_zero, zero_add] at h
      exact h
    · rw [if_neg (by simpa using hcnt)]
      simp only [if_neg hcnt]
      exact skips_of_eq rfl rfl
  · have hne : (w.pcAddr == 0x1c655c) = false := by simpa using hpc
    rw [if_neg hpc, hne, Bool.false_and, if_neg Bool.false_ne_true]
    exact skips_of_eq rfl rfl

/-- The spin detector does not see the counter. -/
theorem spin_addCycles (d : Word) : (w.addCycles d).spin = w.spin := rfl

/-- The spin detector does not see a store. -/
theorem spin_poke4 (pa value : Word) : (w.poke4 D pa value).spin = w.spin := rfl

/-- The spin detector does not see the ticks. -/
theorem spin_bumpTicks (n : Word) : (w.bumpTicks D n).spin = w.spin := rfl

/-- The spin detector does not see the tick warp. -/
theorem spin_tickWarp : (w.tickWarp D).spin = w.spin := by
  simp only [tickWarp]
  split
  · rw [spin_addCycles, spin_poke4]
  · rfl

/-- The spin detector does not see the RSCC warp. -/
theorem spin_rsccWarp : (w.rsccWarp D).spin = w.spin := by
  simp only [rsccWarp]
  split
  · rw [spin_bumpTicks, spin_addCycles]
  · rfl

variable {w} {w' : WarpMachine δ}

/-- What the deadline warp skips depends on the PC and the registers only. -/
theorem rsccSkip_congr (hpc : w'.machine.cpu.pc = w.machine.cpu.pc)
    (hreg : w'.machine.cpu.intReg = w.machine.cpu.intReg) : w'.rsccSkip = w.rsccSkip := by
  rw [rsccSkip, rsccSkip, pcAddr, pcAddr, hpc, hreg]

/-- What the spin-loop warp skips depends on the PC, the registers and the detector only. -/
theorem spinSkip_congr (hpc : w'.machine.cpu.pc = w.machine.cpu.pc)
    (hreg : w'.machine.cpu.intReg = w.machine.cpu.intReg) (hspin : w'.spin = w.spin) :
    w'.spinSkip = w.spinSkip := by
  rw [spinSkip, spinSkip, spinInjects, spinInjects, spinAfter, spinAfter, callerPage, callerPage,
    pcAddr, pcAddr, hpc, hreg, hspin]

variable (w)

/-- **What the warps of an instruction do to the counters.** -/
theorem warp_skips (armed : Bool) :
    Skips (w.countedSkip armed) (w.uncountedSkip armed) w (w.warp D armed) := by
  cases armed with
  | false => exact skips_of_eq rfl rfl
  | true =>
    have h1 := w.tickWarp_skips D
    have h2 := (w.tickWarp D).rsccWarp_skips D
    have h3 := ((w.tickWarp D).rsccWarp D).spinWarp_skips D
    -- no warp moves the PC or a register, and the first two leave the detector alone
    rw [spinSkip_congr (h2.pc.trans h1.pc) (h2.intReg.trans h1.intReg)
      ((spin_rsccWarp D _).trans (w.spin_tickWarp D))] at h3
    rw [rsccSkip_congr h1.pc h1.intReg] at h2
    have h := (h1.trans h2).trans h3
    rw [add_zero, add_zero, zero_add] at h
    rw [countedSkip, uncountedSkip, warp, if_pos rfl, if_pos rfl, if_pos rfl]
    exact h

end WarpMachine

/-! ## The step -/

section Step

variable {δ : Type} (cfg : Config δ)

/-- Execute, drain and retire a word. -/
def retireWord (m : Machine δ) (e : Encoded) : Machine δ :=
  let x := executeWord cfg m e
  { x.1 with cpu := (retire m.cpu.pc x.2 x.1.cpu).tick }

/-- **One instruction with its warps.** They come after a successful fetch only. -/
def warpedStep (armed : Bool) (w : WarpMachine δ) : WarpMachine δ :=
  if w.machine.cpu.halted then w
  else
    match fetched cfg w.machine with
    | none => { w with machine := stepCpu cfg w.machine }
    | some e =>
      let w := { w with machine := afterFetch cfg w.machine }.warp cfg.devices armed
      { w with machine := retireWord cfg w.machine e }

/-- Without the warps the step is the plain one. -/
theorem warpedStep_unarmed (w : WarpMachine δ) :
    warpedStep cfg false w = { w with machine := stepCpu cfg w.machine } := by
  unfold warpedStep
  by_cases hh : w.machine.cpu.halted
  · rw [if_pos hh, stepCpu, if_pos hh]
  · rw [if_neg hh]
    cases he : fetched cfg w.machine with
    | none => rfl
    | some e =>
      have hstep : stepCpu cfg w.machine = retireWord cfg (afterFetch cfg w.machine) e := by
        rw [stepCpu_eq cfg hh, issue_of_ok cfg ((fetched_eq_some cfg).mp he)]
        rfl
      rw [hstep]
      rfl

/-! ## The cycle counter -/

/-- No leaf writes the cycle counter: HW_MTPR CC and SWPCTX move the offset. -/
theorem cycleCount_exec (fp : FpBackend) (g : InstructionGrain) (c : ExecCtx) (cpu : CpuState)
    (mem : GuestMemory) (l : Leaf) :
    (l.exec fp g c cpu mem).cpu.cycleCount = cpu.cycleCount := by
  cases l with
  | ordinary l =>
    obtain ⟨f, i, h⟩ := l.exec_cpu fp g c cpu
    rw [Leaf.exec, h]
  | pal l =>
    cases l with
    | callPalDispatch =>
      -- the switch to PALmode moves the banks and the PC only
      obtain ⟨ir, sh, sl, pc, h⟩ :=
        palModeEnter_frame { cpu with excAddr := callPalLinkage g cpu }
      simp only [Leaf.exec, PalLeaf.exec, execCallPalDispatch, h]
    | cserve => simp only [Leaf.exec, PalLeaf.exec, execCserve]; split <;> rfl
    | ldqpVms => simp only [Leaf.exec, PalLeaf.exec, execLdqpVms]; split <;> rfl
    | stqpVms => simp only [Leaf.exec, PalLeaf.exec, execStqpVms]; split <;> rfl
    | hwMtpr =>
      simp only [Leaf.exec, PalLeaf.exec, execHwMtpr]
      generalize iprSelector g.encoded = ipr
      cases ipr with
      | iCtl => simp only [writeIpr, writeICtl]; split <;> rfl
      | _ => rfl
    | hwRei =>
      obtain ⟨ir, sh, sl, pc, h⟩ :=
        setPalMode_frame cpu ((hwReiTarget g.encoded cpu).getLsbD 0)
      simp only [Leaf.exec, PalLeaf.exec, execHwRei, h]
    | _ => rfl

/-- A delivery does not count a cycle. -/
theorem cycleCount_retire (pc : Word) (r : BoxResult) (cpu : CpuState) :
    (retire pc r cpu).cycleCount = cpu.cycleCount := by
  rw [retire]
  split
  · obtain ⟨ir, sh, sl, pc', ea, hl, h⟩ := retireFault_frame pc r.faultCode cpu
    rw [h]
  · rfl

/-- An instruction does not either: the tick does. -/
theorem cycleCount_executeWord (m : Machine δ) (e : Encoded) :
    (executeWord cfg m e).1.cpu.cycleCount = m.cpu.cycleCount := by
  have hleaf : (m.afterLeaf (execWord cfg m e)).cpu.cycleCount = m.cpu.cycleCount :=
    cycleCount_exec cfg.fp _ _ m.cpu m.bus.memory _
  rw [executeWord, ← hleaf]
  -- a drain that faults writes the latches, and one that commits writes the registers
  rcases MemDrainer.drain_cases cfg.devices cfg.silicon (makeGrain cfg m.cpu e)
    (m.afterLeaf (execWord cfg m e)) (execWord cfg m e).result with h | ⟨-, v, -, -, h⟩
  · obtain ⟨ms, va, cb, hcpu⟩ := h.cpu_eq
    rw [hcpu]
  · obtain ⟨ir, fr, hcommit⟩ := MemDrainer.commitRegWrite_frame
      (m.afterLeaf (execWord cfg m e)).cpu { (execWord cfg m e).result with regWriteValue := v }
    rw [h, hcommit]

/-- An instruction costs one cycle. -/
theorem cycleCount_retireWord (m : Machine δ) (e : Encoded) :
    (retireWord cfg m e).cpu.cycleCount = m.cpu.cycleCount + 1 := by
  rw [retireWord, CpuState.tick, cycleCount_retire, cycleCount_executeWord]

/-- A step that fails to fetch costs one cycle too. -/
theorem cycleCount_stepCpu {m : Machine δ} (hh : ¬ m.cpu.halted) :
    (stepCpu cfg m).cpu.cycleCount = m.cpu.cycleCount + 1 := by
  rw [stepCpu_eq cfg hh]
  cases hf : (fetchWord cfg m).2 with
  | error f =>
    rw [issue_of_error cfg hf, CpuState.tick, cycleCount_retire]
    rfl
  | ok e =>
    rw [issue_of_ok cfg hf, CpuState.tick, cycleCount_retire, cycleCount_executeWord]
    rfl

/-- The cycles a step skips and counts: those of its warps if it fetches an instruction. -/
def stepCounted (armed : Bool) (w : WarpMachine δ) : Word :=
  if w.machine.cpu.halted ∨ fetched cfg w.machine = none then 0 else w.countedSkip armed

/-- The cycles a step skips without counting them. -/
def stepUncounted (armed : Bool) (w : WarpMachine δ) : Word :=
  if w.machine.cpu.halted ∨ fetched cfg w.machine = none then 0 else w.uncountedSkip armed

/-- **What a step does to the counters**: a halted CPU leaves them, and any other adds one executed
cycle to what its warps skip. -/
theorem warpedStep_counters (armed : Bool) (w : WarpMachine δ) :
    (warpedStep cfg armed w).machine.cpu.cycleCount =
        w.machine.cpu.cycleCount + stepCounted cfg armed w + stepUncounted cfg armed w +
          (if w.machine.cpu.halted then 0 else 1) ∧
      (warpedStep cfg armed w).warpCycles = w.warpCycles + stepCounted cfg armed w := by
  unfold warpedStep stepCounted stepUncounted
  by_cases hh : w.machine.cpu.halted = true
  · simp [hh]
  · rw [if_neg hh, if_neg hh]
    cases he : fetched cfg w.machine with
    | none => simp [hh, cycleCount_stepCpu cfg hh]
    | some e =>
      have hskip := { w with machine := afterFetch cfg w.machine }.warp_skips cfg.devices armed
      simp only [hh, Bool.false_eq_true, reduceCtorEq, or_self, if_false, cycleCount_retireWord,
        hskip.cycleCount, hskip.warpCycles]
      exact ⟨rfl, rfl⟩

end Step

end EmulatR
