import EmulatR.System.Warp
import EmulatR.System.Platform
import EmulatR.System.SystemTick

/-! # The system clock and the cycle counters

The machine keeps three counters (systemLib/Machine.cpp, coreLib/CpuState.h): the system clock, the
CPU's `cycleCount`, and its `warpCycles`, the part of `cycleCount` that was skipped and not
executed. `stepCycle` runs one instruction with its warps, adds what the CPU's counter gained to the
clock, and runs the system tick, which may skip to the next timer edge. A reset, a reset to the
loaded entry and a snapshot restore set the counters.

`ClockInv` is what the counters are meant to satisfy: the clock is the CPU's counter, and that is
what was executed plus what was skipped. The count of executed cycles is no variable of the program;
it is kept beside the machine and travels with a snapshot.

`clockInv_run_iff` is the condition over runs; `reset_leaves_clock_behind` is the reset that breaks
it. -/

namespace EmulatR

open Library

/-! ## The tick and the counters -/

namespace TickState

variable (s : TickState)

/-- The tick skips the console's idle loop. -/
def IdleWarps : Prop :=
  s.idleTickWarp = true ∧ 0x7bad0 ≤ s.cpu.pc &&& ~~~1 ∧ s.cpu.pc &&& ~~~1 < 0x7bb10 ∧
    s.accepts 22 = true ∧ intervalTimerShouldFire s.systemClock = false

instance : Decidable s.IdleWarps := inferInstanceAs (Decidable (_ ∧ _))

/-- The clock after the idle warp, if any. -/
def clockAfter : Word :=
  if s.IdleWarps then (s.systemClock ||| cchipTimerMask) + 1 else s.systemClock

/-- The idle warp sets the system clock to the end of the step. -/
theorem warpIdle_systemClock : s.warpIdle.systemClock = s.clockAfter := by
  rw [warpIdle, clockAfter]
  by_cases h : s.IdleWarps
  · rw [if_pos h]
    exact congrArg TickState.systemClock (if_pos h)
  · rw [if_neg h]
    exact congrArg TickState.systemClock (if_neg h)

/-- The cycle counter follows it when the warp applies. -/
theorem warpIdle_cycleCount :
    s.warpIdle.cpu.cycleCount = if s.IdleWarps then s.clockAfter else s.cpu.cycleCount := by
  rw [warpIdle, clockAfter]
  by_cases h : s.IdleWarps
  · rw [if_pos h, if_pos h]
    exact congrArg (fun t : TickState => t.cpu.cycleCount) (if_pos h)
  · rw [if_neg h]
    exact congrArg (fun t : TickState => t.cpu.cycleCount) (if_neg h)

end TickState

/-- An interrupt counts no cycle. -/
theorem cycleCount_stageInterruptDivert (cpu : CpuState) (isumMask : Word) :
    (stageInterruptDivert cpu isumMask).cycleCount = cpu.cycleCount := by
  obtain ⟨ir, sh, sl, pc, h⟩ := stageInterruptDivert_frame cpu isumMask
  rw [h]

/-- Delivery moves neither the clock nor the cycle counter. -/
theorem systemTick_counters (s : TickState) (lv : DeviceLevels) :
    (systemTick s lv).machine.systemClock = (s.arm lv).systemClock ∧
      (systemTick s lv).machine.cpu.cycleCount = (s.arm lv).cpu.cycleCount := by
  rw [systemTick_eq]
  generalize s.arm lv = d
  cases d.firstDeliverable with
  | some line => exact ⟨rfl, cycleCount_stageInterruptDivert d.cpu line.isumMask⟩
  | none =>
    rw [Option.elim_none, Tick.inject]
    split
    · simp only
      split
      · exact ⟨rfl, cycleCount_stageInterruptDivert d.cpu _⟩
      · exact ⟨rfl, rfl⟩
    · exact ⟨rfl, rfl⟩

/-- The part of the tick before delivery moves them by the idle warp only. -/
theorem arm_counters (s : TickState) (lv : DeviceLevels) :
    (s.arm lv).systemClock = s.clockAfter ∧
      (s.arm lv).cpu.cycleCount = if s.IdleWarps then s.clockAfter else s.cpu.cycleCount := by
  have hclock := { s with chipset := s.chipset.evalDeviceIrqs lv }.warpIdle_systemClock
  have hcycle := { s with chipset := s.chipset.evalDeviceIrqs lv }.warpIdle_cycleCount
  rw [TickState.arm, TickState.fireTimer]
  -- the device lines are no input of the warp
  split
  · exact ⟨hclock, hcycle⟩
  · exact ⟨hclock, hcycle⟩

/-! ## The machine -/

/-- The switches a process is started with. -/
structure WarpSwitches where
  /-- `EMULATR_IDLEWARP`: the idle warp of the tick. -/
  idle : Bool := false
  /-- `EMULATR_RSCCWARP`: the warps of the pipeline step. -/
  rscc : Bool := false

/-- What a snapshot holds of the CPU, with the executed cycles of the run it was taken from. -/
structure CpuImage where
  /-- The CPU. -/
  cpu : CpuState
  /-- Its skipped cycles. -/
  warpCycles : Word
  /-- Its executed cycles. -/
  executed : Nat

/-- The machine with its clock, and what is remembered of its run. -/
structure ClockMachine (δ : Type) where
  /-- The machine and its warp state. -/
  warp : WarpMachine δ
  /-- The system clock. -/
  systemClock : Word := 0
  /-- The interrupt side of the chipset. -/
  chipset : TsunamiChipset
  /-- The cycle the synthetic injection is armed for. -/
  injectInterruptCycle : Word := 0
  /-- The injection has fired. -/
  injectInterruptFired : Bool := false
  /-- The entry the loader chose. -/
  loadedStartPc : Word := 0
  /-- Its mode. -/
  loadedPalMode : Bool := false
  /-- Its PAL_BASE. -/
  loadedPalBase : Word := 0
  /-- The snapshots written so far, the newest first. -/
  disk : List CpuImage := []
  /-- How many cycles the CPU has executed since its last reset. -/
  executed : Nat := 0

namespace ClockMachine

variable {δ : Type} (cfg : Config δ) (sw : WarpSwitches) (s : ClockMachine δ)

/-- The CPU. -/
def cpu : CpuState := s.warp.machine.cpu

/-- What the rest of the world contributes to one cycle. -/
structure CycleInput where
  /-- The levels the devices drive at the tick. -/
  levels : DeviceLevels
  /-- PALcode is at its final address by then. -/
  relocated : Bool
  /-- A stop has been requested, by a signal or by the sentinel file. -/
  stop : Bool
  /-- What the device accesses of the instruction do to the interrupt side of the chipset. -/
  mmio : TsunamiChipset → TsunamiChipset

variable (i : CycleInput)

/-- The machine after the instruction. -/
def afterStep : WarpMachine δ := warpedStep cfg sw.rscc s.warp

/-- The clock after the instruction: it gains what the CPU's counter gained. -/
def stepClock : Word :=
  s.systemClock + ((s.afterStep cfg sw).machine.cpu.cycleCount - s.cpu.cycleCount)

/-- The tick runs: the CPU has not halted and no stop is requested. -/
def TickRuns : Prop := (s.afterStep cfg sw).machine.cpu.halted = false ∧ i.stop = false

instance : Decidable (s.TickRuns cfg sw i) := inferInstanceAs (Decidable (_ ∧ _))

/-- What the tick finds. -/
def tickState : TickState where
  cpu := (s.afterStep cfg sw).machine.cpu
  chipset := i.mmio s.chipset
  palImageRelocated := i.relocated
  systemClock := s.stepClock cfg sw
  injectInterruptCycle := s.injectInterruptCycle
  injectInterruptFired := s.injectInterruptFired
  idleTickWarp := sw.idle

/-- One cycle up to the tick. -/
def beforeTick : ClockMachine δ :=
  { s with
    warp := s.afterStep cfg sw
    systemClock := s.stepClock cfg sw
    chipset := i.mmio s.chipset
    executed := s.executed + if s.cpu.halted then 0 else 1 }

/-- **One cycle**: the instruction, the clock, and the tick unless the run breaks off. -/
def stepCycle : ClockMachine δ :=
  let s' := s.beforeTick cfg sw i
  if s.TickRuns cfg sw i then
    let t := (systemTick (s.tickState cfg sw i) i.levels).machine
    { s' with
      warp := { s'.warp with
        machine := { s'.warp.machine with cpu := t.cpu }
        -- the tick moves the clock by the idle warp only
        warpCycles := s'.warp.warpCycles + (t.systemClock - s'.systemClock) }
      systemClock := t.systemClock
      chipset := t.chipset
      injectInterruptFired := t.injectInterruptFired }
  else s'

/-- Reset: the CPU is built anew, and nothing else is touched. -/
def reset (pc : Word) (palMode : Bool) : ClockMachine δ :=
  { s with
    warp := { s.warp with
      machine := { s.warp.machine with
        cpu := resetCpu (if palMode then pc ||| 1 else pc &&& ~~~1) 0 }
      warpCycles := 0 }
    executed := 0 }

/-- Reset to what the loader left: PAL_BASE is seeded again and the clock is synchronised. -/
def resetToLoadedEntry : ClockMachine δ :=
  let s := s.reset s.loadedStartPc s.loadedPalMode
  let cpu := { s.warp.machine.cpu with palBase := s.loadedPalBase }
  { s with
    warp := { s.warp with machine := { s.warp.machine with cpu := cpu } }
    systemClock := cpu.cycleCount }

/-- Write a snapshot. -/
def save : ClockMachine δ := { s with disk := ⟨s.cpu, s.warp.warpCycles, s.executed⟩ :: s.disk }

/-- Restore a snapshot: the CPU, then the clock from it. Bus and chipset are as their own restore
leaves them. -/
def restore (image : CpuImage) (bus : Chipset δ) (chipset : TsunamiChipset) : ClockMachine δ :=
  { s with
    warp := { s.warp with
      machine := { s.warp.machine with cpu := image.cpu, bus := bus }
      warpCycles := image.warpCycles }
    systemClock := image.cpu.cycleCount
    chipset := chipset
    executed := image.executed }

/-- What moves the counters. -/
inductive Event (δ : Type)
  /-- One cycle. -/
  | cycle (i : CycleInput)
  /-- A reset to a given PC. -/
  | reset (pc : Word) (palMode : Bool)
  /-- A reset to the entry of the loaded firmware. -/
  | resetToLoadedEntry
  /-- A snapshot is written. -/
  | save
  /-- Load the n-th newest snapshot, if there is one. -/
  | load (n : Nat) (bus : Chipset δ) (chipset : TsunamiChipset)

/-- One event. -/
def step (s : ClockMachine δ) : Event δ → ClockMachine δ
  | .cycle i => s.stepCycle cfg sw i
  | .reset pc palMode => s.reset pc palMode
  | .resetToLoadedEntry => s.resetToLoadedEntry
  | .save => s.save
  | .load n bus chipset => (s.disk[n]?).elim s fun image => s.restore image bus chipset

/-- The machine as it is constructed, with the loader's choices. -/
def powerOn (bus : Chipset δ) (chipset : TsunamiChipset) (startPc : Word) (palMode : Bool)
    (palBase : Word) : ClockMachine δ where
  warp := { machine := { cpu := { palBase := palBase }, bus := bus, locks := LockMonitor.empty } }
  chipset := chipset
  loadedStartPc := startPc
  loadedPalMode := palMode
  loadedPalBase := palBase

/-! ## The invariant -/

/-- **What the counters are meant to satisfy.** -/
structure ClockInv : Prop where
  /-- The clock is the CPU's cycle counter. -/
  clock : s.systemClock = s.cpu.cycleCount
  /-- The counter is what was executed and what was skipped. -/
  cycles : s.cpu.cycleCount = BitVec.ofNat 64 s.executed + s.warp.warpCycles

/-- The snapshots on disk satisfy the second half. -/
def DiskOk : Prop :=
  ∀ image ∈ s.disk, image.cpu.cycleCount = BitVec.ofNat 64 image.executed + image.warpCycles

/-- The spin-loop warp injects a tick into the next instruction. -/
def SpinInjects : Prop :=
  sw.rscc = true ∧ s.cpu.halted = false ∧ fetched cfg s.warp.machine ≠ none ∧
    s.warp.spinInjects = true

/-- What keeps the counters in step: no injection by the spin-loop warp, and no bare reset but at
clock zero. -/
def CountersKept (s : ClockMachine δ) : Event δ → Prop
  | .cycle _ => ¬ s.SpinInjects cfg sw
  | .reset _ _ => s.systemClock = 0
  | .resetToLoadedEntry => True
  | .save => True
  | .load _ _ _ => True

variable {cfg sw s}

/-- The counters after the instruction, before the tick. -/
theorem ClockInv.beforeTick_iff (h : s.ClockInv) :
    (s.beforeTick cfg sw i).ClockInv ↔ stepUncounted cfg sw.rscc s.warp = 0 := by
  obtain ⟨hcycle, hwarp⟩ := warpedStep_counters cfg sw.rscc s.warp
  have hclock : (s.beforeTick cfg sw i).systemClock = (s.beforeTick cfg sw i).cpu.cycleCount := by
    change s.systemClock + ((s.afterStep cfg sw).machine.cpu.cycleCount - s.cpu.cycleCount) =
      (s.afterStep cfg sw).machine.cpu.cycleCount
    rw [h.clock, add_sub_cancel]
  have hexec : BitVec.ofNat 64 (s.executed + if s.cpu.halted then 0 else 1) =
      BitVec.ofNat 64 s.executed + if s.warp.machine.cpu.halted then 0 else 1 := by
    rw [BitVec.ofNat_add, cpu]
    split <;> rfl
  have hcycles : (s.beforeTick cfg sw i).cpu.cycleCount =
      BitVec.ofNat 64 (s.beforeTick cfg sw i).executed + (s.beforeTick cfg sw i).warp.warpCycles ↔
        stepUncounted cfg sw.rscc s.warp = 0 := by
    change (warpedStep cfg sw.rscc s.warp).machine.cpu.cycleCount =
      BitVec.ofNat 64 (s.executed + if s.cpu.halted then 0 else 1) +
        (warpedStep cfg sw.rscc s.warp).warpCycles ↔ _
    rw [hcycle, hwarp, hexec, show s.warp.machine.cpu.cycleCount = s.cpu.cycleCount from rfl,
      h.cycles]
    generalize stepUncounted cfg sw.rscc s.warp = u
    generalize stepCounted cfg sw.rscc s.warp = c
    generalize (if s.warp.machine.cpu.halted then 0 else 1 : Word) = one
    -- both sides are the same sum, but for what was not counted
    have hsum : BitVec.ofNat 64 s.executed + s.warp.warpCycles + c + u + one =
        BitVec.ofNat 64 s.executed + one + (s.warp.warpCycles + c) + u := by ac_rfl
    rw [hsum]
    exact add_eq_left
  exact ⟨fun h' => hcycles.mp h'.cycles, fun hu => ⟨hclock, hcycles.mpr hu⟩⟩

/-- The tick keeps the counters in step, and does not bring them into step either. -/
theorem stepCycle_clockInv_iff (h : (s.beforeTick cfg sw i).systemClock =
    (s.beforeTick cfg sw i).cpu.cycleCount) :
    (s.stepCycle cfg sw i).ClockInv ↔ (s.beforeTick cfg sw i).ClockInv := by
  rw [stepCycle]
  by_cases hrun : s.TickRuns cfg sw i
  · simp only [if_pos hrun]
    obtain ⟨hclock, hcycle⟩ := systemTick_counters (s.tickState cfg sw i) i.levels
    obtain ⟨hclock', hcycle'⟩ := arm_counters (s.tickState cfg sw i) i.levels
    rw [hclock'] at hclock
    -- clock and counter are in step before the tick, so it leaves both at the same value
    have hcpu : (systemTick (s.tickState cfg sw i) i.levels).machine.cpu.cycleCount =
        (s.tickState cfg sw i).clockAfter := by
      rw [hcycle, hcycle', TickState.clockAfter]
      split
      · rfl
      · exact h.symm
    generalize (systemTick (s.tickState cfg sw i) i.levels).machine = t at hclock hcpu ⊢
    have hbefore : (s.beforeTick cfg sw i).ClockInv ↔ (s.beforeTick cfg sw i).systemClock =
        BitVec.ofNat 64 (s.beforeTick cfg sw i).executed +
          (s.beforeTick cfg sw i).warp.warpCycles :=
      ⟨fun hb => hb.clock.trans hb.cycles, fun hb => ⟨h, h.symm.trans hb⟩⟩
    rw [hbefore]
    generalize s.beforeTick cfg sw i = b
    constructor
    · intro ha
      have hcycles : t.cpu.cycleCount = BitVec.ofNat 64 b.executed +
          (b.warp.warpCycles + (t.systemClock - b.systemClock)) := ha.cycles
      rw [hcpu, hclock, ← add_assoc] at hcycles
      have hsum := eq_sub_of_add_eq hcycles.symm
      rw [sub_sub_cancel] at hsum
      exact hsum.symm
    · intro hb
      refine ⟨hclock.trans hcpu.symm, ?_⟩
      change t.cpu.cycleCount = BitVec.ofNat 64 b.executed +
          (b.warp.warpCycles + (t.systemClock - b.systemClock))
      rw [hcpu, hclock, ← add_assoc, ← hb, add_sub_cancel]
  · simp only [if_neg hrun]

/-- The warps of the next instruction skip cycles they do not count iff the spin-loop warp
injects. -/
theorem stepUncounted_eq_zero_iff :
    stepUncounted cfg sw.rscc s.warp = 0 ↔ ¬ s.SpinInjects cfg sw := by
  have hinterval : WarpMachine.tickInterval ≠ 0#64 := by decide
  rw [stepUncounted, WarpMachine.uncountedSkip, WarpMachine.spinSkip, SpinInjects, cpu]
  cases s.warp.machine.cpu.halted with
  | true => simp
  | false =>
    by_cases hf : fetched cfg s.warp.machine = none
    · simp [hf]
    · rw [if_neg (by simp [hf])]
      cases sw.rscc with
      | false => simp
      | true => cases s.warp.spinInjects <;> simp [hf, hinterval]

/-- A bare reset keeps the counters in step at clock zero only. -/
theorem clock_of_reset {pc : Word} {palMode : Bool}
    (h : (s.reset pc palMode).ClockInv) : s.systemClock = 0 := h.clock

/-- **One event keeps the counters in step iff it is neither an injection of the spin-loop warp nor
a bare reset off clock zero.** -/
theorem ClockInv.step_iff (h : s.ClockInv) (hdisk : s.DiskOk) (e : Event δ) :
    (s.step cfg sw e).ClockInv ↔ s.CountersKept cfg sw e := by
  cases e with
  | cycle i =>
    rw [CountersKept, ← stepUncounted_eq_zero_iff, ← h.beforeTick_iff i]
    refine stepCycle_clockInv_iff i ?_
    change s.systemClock + ((s.afterStep cfg sw).machine.cpu.cycleCount - s.cpu.cycleCount) =
      (s.afterStep cfg sw).machine.cpu.cycleCount
    rw [h.clock, add_sub_cancel]
  | reset pc palMode =>
    -- the new CPU starts at zero, the clock stays where it is
    refine ⟨clock_of_reset, fun h' => ⟨h', ?_⟩⟩
    simp [ClockMachine.step, reset, cpu, resetCpu]
  | resetToLoadedEntry =>
    refine iff_of_true ⟨rfl, ?_⟩ trivial
    simp [ClockMachine.step, resetToLoadedEntry, reset, cpu, resetCpu]
  | save => exact iff_of_true ⟨h.clock, h.cycles⟩ trivial
  | load n bus chipset =>
    refine iff_of_true ?_ trivial
    rw [ClockMachine.step]
    cases himage : s.disk[n]? with
    | none => exact h
    | some image => exact ⟨rfl, hdisk image (List.mem_of_getElem? himage)⟩

/-- A snapshot written in step is on disk in step. -/
theorem ClockInv.diskOk_step (h : s.ClockInv) (hdisk : s.DiskOk) (e : Event δ) :
    (s.step cfg sw e).DiskOk := by
  cases e with
  | cycle i =>
    have hsame : (s.stepCycle cfg sw i).disk = s.disk := by
      rw [stepCycle]
      split <;> rfl
    rw [ClockMachine.step, DiskOk, hsame]
    exact hdisk
  | reset pc palMode => exact hdisk
  | resetToLoadedEntry => exact hdisk
  | save =>
    intro image himage
    rcases List.mem_cons.mp himage with rfl | hold
    · exact h.cycles
    · exact hdisk image hold
  | load n bus chipset =>
    rw [ClockMachine.step]
    cases s.disk[n]? with
    | none => exact hdisk
    | some image => exact hdisk

variable (cfg sw)

/-- **The counters stay in step along a run from power-on iff no instruction of it takes a spin-loop
injection and no bare reset comes off clock zero.** -/
theorem clockInv_run_iff (bus : Chipset δ) (chipset : TsunamiChipset) (startPc : Word)
    (palMode : Bool) (palBase : Word) (es : List (Event δ)) :
    (∀ done, done <+: es →
        (runFrom (step cfg sw) (powerOn bus chipset startPc palMode palBase) done).ClockInv) ↔
      RunMeets (step cfg sw) (fun s e => s.CountersKept cfg sw e)
        (powerOn bus chipset startPc palMode palBase) es := by
  have hstart : (powerOn bus chipset startPc palMode palBase).ClockInv := ⟨rfl, rfl⟩
  have hdisk : (powerOn bus chipset startPc palMode palBase).DiskOk :=
    fun image himage => absurd himage List.not_mem_nil
  exact forall_prefix_iff_runMeets (fun s e h ha => h.step_iff ha e)
    (fun s e h ha => h.diskOk_step ha e) hstart hdisk es

/-- A cycle that is the last before the run is stopped. -/
def lastInput : CycleInput := ⟨⟨false, false, false, false⟩, false, true, id⟩

/-- The clock after such a cycle, with no warp armed: one more. -/
theorem systemClock_lastCycle (idle : Bool) (hh : ¬ s.cpu.halted) :
    (s.stepCycle cfg ⟨idle, false⟩ lastInput).systemClock = s.systemClock + 1 := by
  have hstop : ¬ s.TickRuns cfg ⟨idle, false⟩ lastInput := fun h => absurd h.2 (by decide)
  rw [stepCycle, if_neg hstop]
  change s.systemClock + ((warpedStep cfg false s.warp).machine.cpu.cycleCount -
    s.warp.machine.cpu.cycleCount) = _
  rw [warpedStep_unarmed, cycleCount_stepCpu cfg hh, add_sub_cancel_left]

/-- **A bare reset leaves the clock behind.** A machine that has executed one instruction and is
then reset has a clock of one and a cycle counter of zero. -/
theorem reset_leaves_clock_behind :
    ¬ ∀ (p : Platform Unit) (sw : WarpSwitches) (bus : Chipset Unit) (chipset : TsunamiChipset)
      (startPc : Word) (palMode : Bool) (palBase : Word) (es : List (Event Unit)),
      (runFrom (step p.config sw) (powerOn bus chipset startPc palMode palBase) es).ClockInv := by
  intro h
  have hinv := h (fetchOnly 0x47FF041F) {} ⟨GuestMemory.empty 1, ()⟩ { cchip := .make 1 1 } 0 true
    0x8000 [.resetToLoadedEntry, .cycle lastInput, .reset 0 true]
  simp only [runFrom_cons, runFrom_nil, step] at hinv
  -- the reset CPU counts from zero, the clock has kept the cycle
  have hzero := clock_of_reset hinv
  rw [systemClock_lastCycle] at hzero
  · have hone : (0 : Word) + 1 = 0 := hzero
    exact absurd hone (by decide)
  · exact Bool.false_ne_true

end ClockMachine

end EmulatR
