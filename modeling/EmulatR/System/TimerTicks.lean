import EmulatR.Library.BitFields
import EmulatR.Library.Multiples
import EmulatR.System.Clock

/-! # The interval timer along a run

The tick fires the interval timer when the system clock is exactly on a multiple of the timer's
period (chipsetLib/CchipIntervalTimer.h), and the clock moves by whatever an instruction and its
warps cost. A clock that jumps over a multiple loses its tick. The idle warp jumps to the next
multiple and no further; the warps of the pipeline step jump by what the firmware waits for.

`TimedRun` keeps beside the machine the emulated time, which is the clock without its wrap at 64
bits, and the times at which the interrupt was raised. `ticksAccurate_iff` says for which runs
these are the multiples of the period, each once. -/

namespace EmulatR

open Library

/-! ## Clock edges -/

/-- The period of the interval timer, in cycles. -/
def timerPeriod : Nat := 2 ^ 18

namespace TickState

/-- The timer has a period. -/
theorem timerPeriod_pos : 0 < timerPeriod := by decide

/-- The mask takes the remainder by the period. -/
theorem toNat_and_cchipTimerMask (w : Word) :
    (w &&& cchipTimerMask).toNat = w.toNat % timerPeriod :=
  toNat_and_lowMask 18 (by decide)

/-- The timer fires on the multiples of its period other than zero. -/
theorem intervalTimerShouldFire_iff (w : Word) :
    intervalTimerShouldFire w = true ↔ w ≠ 0 ∧ timerPeriod ∣ w.toNat := by
  have hlow : w &&& cchipTimerMask = 0 ↔ timerPeriod ∣ w.toNat := by
    rw [Nat.dvd_iff_mod_eq_zero, ← toNat_and_cchipTimerMask]
    exact BitVec.toNat_inj.symm
  rw [intervalTimerShouldFire, Bool.and_eq_true, bne_iff_ne, beq_iff_eq, hlow]

/-- The idle warp goes to the next edge. -/
theorem or_cchipTimerMask_add_one (w : Word) :
    (w ||| cchipTimerMask) + 1 = w + BitVec.ofNat 64 (toNext timerPeriod w.toNat) := by
  generalize hm : cchipTimerMask = m
  -- the bits of the word above the mask, and those under it
  have hlow : (w &&& ~~~m) + (w &&& m) = w := and_not_add_and w m
  have hhigh : (w &&& ~~~m) + m = w ||| m := by
    rw [BitVec.add_eq_or_of_and_eq_zero]
    · ext i hi
      cases h : w[i] <;> cases h' : m[i] <;> simp [h, h']
    · ext i hi
      cases h : w[i] <;> cases h' : m[i] <;> simp [h, h']
  have hnext : (w &&& m) + BitVec.ofNat 64 (toNext timerPeriod w.toNat) = m + 1 := by
    have hand : (w &&& m).toNat = w.toNat % timerPeriod := hm ▸ toNat_and_cchipTimerMask w
    have hlt := Nat.mod_lt w.toNat timerPeriod_pos
    apply BitVec.eq_of_toNat_eq
    rw [BitVec.toNat_add, hand, BitVec.toNat_ofNat, Nat.add_mod_mod, toNext,
      Nat.add_sub_cancel' (by omega), ← hm]
    decide
  calc (w ||| m) + 1 = (w &&& ~~~m) + (m + 1) := by rw [← hhigh, add_assoc]
    _ = (w &&& ~~~m) + (w &&& m) + BitVec.ofNat 64 (toNext timerPeriod w.toNat) := by
      rw [← hnext, add_assoc]
    _ = w + BitVec.ofNat 64 (toNext timerPeriod w.toNat) := by rw [hlow]

/-- When the timer fires, for a clock given by its time. -/
theorem intervalTimerShouldFire_ofNat (t : Nat) :
    intervalTimerShouldFire (BitVec.ofNat 64 t) = true ↔ timerPeriod ∣ t ∧ ¬ 2 ^ 64 ∣ t := by
  have hzero : BitVec.ofNat 64 t = 0 ↔ 2 ^ 64 ∣ t := by
    rw [Nat.dvd_iff_mod_eq_zero, ← BitVec.toNat_ofNat]
    exact BitVec.toNat_inj.symm
  rw [intervalTimerShouldFire_iff, BitVec.toNat_ofNat, Nat.dvd_mod_iff (by decide), Ne, hzero,
    and_comm]

end TickState

/-! ## What a cycle does to the clock -/

namespace ClockMachine

open TickState

variable {δ : Type} (cfg : Config δ) (sw : WarpSwitches) (s : ClockMachine δ) (i : CycleInput)

/-- The cycles the next instruction takes the clock forward, its warps included. -/
def advance : Word :=
  stepCounted cfg sw.rscc s.warp + stepUncounted cfg sw.rscc s.warp +
    if s.cpu.halted then 0 else 1

/-- A step moves the clock by its advance. -/
theorem stepClock_eq : s.stepClock cfg sw = s.systemClock + s.advance cfg sw := by
  obtain ⟨hcycle, -⟩ := warpedStep_counters cfg sw.rscc s.warp
  rw [stepClock, afterStep, hcycle, advance, add_assoc, add_assoc, ← add_assoc (stepCounted _ _ _),
    cpu, add_sub_cancel_left]

/-- The tick after the instruction skips the idle loop. -/
def TickWarps : Prop := s.TickRuns cfg sw i ∧ (s.tickState cfg sw i).IdleWarps

instance : Decidable (s.TickWarps cfg sw i) := inferInstanceAs (Decidable (_ ∧ _))

/-- The cycle raises the interval interrupt. -/
def RaisesTimer : Prop :=
  s.TickRuns cfg sw i ∧ intervalTimerShouldFire (s.tickState cfg sw i).clockAfter = true

instance : Decidable (s.RaisesTimer cfg sw i) := inferInstanceAs (Decidable (_ ∧ _))

variable {cfg sw s i}

/-- A cycle with a tick leaves the clock where the tick looks at it. -/
theorem stepCycle_systemClock_of_tickRuns (h : s.TickRuns cfg sw i) :
    (s.stepCycle cfg sw i).systemClock = (s.tickState cfg sw i).clockAfter := by
  obtain ⟨hclock, -⟩ := systemTick_counters (s.tickState cfg sw i) i.levels
  rw [stepCycle, if_pos h, ← (arm_counters (s.tickState cfg sw i) i.levels).1, ← hclock]

/-- **What a cycle does to the clock**: the instruction's advance, and the idle warp to the next
edge. -/
theorem stepCycle_systemClock :
    (s.stepCycle cfg sw i).systemClock = s.stepClock cfg sw +
      if s.TickWarps cfg sw i then
        BitVec.ofNat 64 (toNext timerPeriod (s.stepClock cfg sw).toNat)
      else 0 := by
  by_cases hrun : s.TickRuns cfg sw i
  · rw [stepCycle_systemClock_of_tickRuns hrun, clockAfter]
    by_cases hidle : (s.tickState cfg sw i).IdleWarps
    · rw [if_pos hidle, if_pos ⟨hrun, hidle⟩]
      exact or_cchipTimerMask_add_one _
    · rw [if_neg hidle, if_neg fun h => hidle h.2, add_zero]
      rfl
  · rw [stepCycle, if_neg hrun, if_neg fun h => hrun h.1, add_zero]
    rfl

/-! ## Time and ticks of a run -/

/-- A machine with its emulated time and the times at which it raised the interval interrupt. -/
structure TimedRun (δ : Type) where
  /-- The machine. -/
  machine : ClockMachine δ
  /-- The time: the clock, were it not to wrap. -/
  time : Nat
  /-- The ticks, the latest last. -/
  ticks : List Nat := []

namespace TimedRun

/-- A run at its start. -/
def start (s : ClockMachine δ) : TimedRun δ := { machine := s, time := s.systemClock.toNat }

variable (cfg sw) (r : TimedRun δ)

/-- One cycle: time goes on by what the clock gains at the instruction and then at the tick. -/
def step (i : CycleInput) : TimedRun δ :=
  let clock := r.machine.stepClock cfg sw
  let machine := r.machine.stepCycle cfg sw i
  let time := r.time + (clock - r.machine.systemClock).toNat + (machine.systemClock - clock).toNat
  { machine := machine
    time := time
    ticks := r.ticks ++ if r.machine.RaisesTimer cfg sw i then [time] else [] }

/-- The clock shows the time. -/
def InStep : Prop := r.machine.systemClock = BitVec.ofNat 64 r.time

variable {cfg sw r}

/-- The timed run starts in step with the machine. -/
theorem start_inStep : (start s).InStep := by
  rw [InStep, start, BitVec.ofNat_toNat, BitVec.setWidth_eq]

/-- In step, the clock is the time modulo 2^64. -/
theorem InStep.stepClock_eq (h : r.InStep) :
    r.machine.stepClock cfg sw =
      BitVec.ofNat 64 (r.time + (r.machine.advance cfg sw).toNat) := by
  rw [ClockMachine.stepClock_eq, h, BitVec.ofNat_add, BitVec.ofNat_toNat, BitVec.setWidth_eq]

/-- The next edge is as far from the time as from the clock. -/
theorem toNext_ofNat (t : Nat) :
    toNext timerPeriod (BitVec.ofNat 64 t).toNat = toNext timerPeriod t := by
  rw [BitVec.toNat_ofNat, toNext, toNext, Nat.mod_mod_of_dvd _ (by decide)]

/-- Where a cycle takes the time. -/
theorem InStep.step_time (h : r.InStep) :
    (r.step cfg sw i).time = landing timerPeriod r.time (r.machine.advance cfg sw).toNat
      (r.machine.TickWarps cfg sw i) := by
  have hgain : (r.machine.stepClock cfg sw - r.machine.systemClock).toNat =
      (r.machine.advance cfg sw).toNat := by
    rw [ClockMachine.stepClock_eq, add_sub_cancel_left]
  simp only [step, hgain, landing, stepCycle_systemClock, add_sub_cancel_left]
  rw [h.stepClock_eq, toNext_ofNat]
  split
  · rw [BitVec.toNat_ofNat, Nat.mod_eq_of_lt]
    exact lt_of_le_of_lt toNext_le (by decide)
  · rfl

/-- A cycle keeps clock and time in step. -/
theorem InStep.step (h : r.InStep) : (r.step cfg sw i).InStep := by
  rw [InStep, h.step_time, landing, BitVec.ofNat_add, ← h.stepClock_eq, TimedRun.step,
    stepCycle_systemClock, h.stepClock_eq, toNext_ofNat]
  split <;> rfl

/-- The ticks a cycle adds. -/
theorem InStep.step_ticks (h : r.InStep) :
    (r.step cfg sw i).ticks = r.ticks ++ fired timerPeriod r.time
      (r.machine.advance cfg sw).toNat (r.machine.TickRuns cfg sw i)
      (r.machine.TickWarps cfg sw i) (2 ^ 64 ∣ ·) := by
  have hraise : r.machine.RaisesTimer cfg sw i ↔ r.machine.TickRuns cfg sw i ∧
      timerPeriod ∣ (r.step cfg sw i).time ∧ ¬ 2 ^ 64 ∣ (r.step cfg sw i).time := by
    refine and_congr_right fun hrun => ?_
    have hclock : (r.step cfg sw i).machine.systemClock = _ := h.step
    rw [← stepCycle_systemClock_of_tickRuns hrun, ← intervalTimerShouldFire_ofNat, ← hclock]
    rfl
  rw [fired, ← h.step_time]
  change r.ticks ++ (if r.machine.RaisesTimer cfg sw i then [(r.step cfg sw i).time] else []) = _
  simp only [hraise]

end TimedRun

/-! ## Accuracy -/

variable (cfg sw)

/-- The timed run of a machine. -/
def timedRun (s : ClockMachine δ) (is : List CycleInput) : TimedRun δ :=
  runFrom (TimedRun.step cfg sw) (TimedRun.start s) is

/-- The ticks are the multiples of the period crossed since the given time, each once. -/
def TimedRun.ExactSince (t : Nat) (r : TimedRun δ) : Prop :=
  r.ticks = multiplesIn timerPeriod t r.time

/-- The clock shows the time, and that is no earlier than the given one. -/
def TimedRun.InStepSince (t : Nat) (r : TimedRun δ) : Prop := r.InStep ∧ t ≤ r.time

/-- **What keeps a cycle on time.** The instruction with its warps does not take the clock past the
next edge; if it reaches the edge then the tick runs; the clock does not end on the edge at which
it wraps; and the tick does not see an edge from which the clock has not moved. -/
def OnTime (s : ClockMachine δ) (i : CycleInput) : Prop :=
  LandsOnTime timerPeriod s.systemClock.toNat (s.advance cfg sw).toNat (s.TickRuns cfg sw i)
    (s.TickWarps cfg sw i) (2 ^ 64 ∣ ·)

variable {cfg sw}

namespace TimedRun

variable {r : TimedRun δ} {t : Nat}

/-- Time does not go back. -/
theorem InStepSince.step (h : r.InStepSince t) : (r.step cfg sw i).InStepSince t := by
  refine ⟨h.1.step, le_trans h.2 ?_⟩
  rw [h.1.step_time]
  exact le_trans (Nat.le_add_right _ _) le_landing

/-- One cycle on a run that is exact so far. -/
theorem InStepSince.step_iff (h : r.InStepSince t) (hr : r.ExactSince t) :
    (r.step cfg sw i).ExactSince t ↔ OnTime cfg sw r.machine i := by
  obtain ⟨h, ht⟩ := h
  have hmod : r.time ≡ r.machine.systemClock.toNat [MOD 2 ^ 64] := by
    rw [h, BitVec.toNat_ofNat]
    exact (Nat.mod_modEq _ _).symm
  -- the ticks of this cycle are to be the multiples between the two times
  rw [ExactSince] at hr ⊢
  rw [h.step_ticks, h.step_time, OnTime, ← landsOnTime_congr (by decide) hmod,
    ← multiplesIn_append ht (le_trans (Nat.le_add_right _ _) le_landing), ← hr,
    List.append_cancel_left_eq, eq_comm]
  refine multiplesIn_landing_iff TickState.timerPeriod_pos (fun hw => hw.1) ?_
  -- the idle warp is not taken on an edge, unless it is the one the timer ignores
  rintro ⟨-, hidle⟩ hdvd
  by_contra hwrap
  have hfire := (intervalTimerShouldFire_ofNat _).mpr ⟨hdvd, hwrap⟩
  rw [← h.stepClock_eq] at hfire
  exact Bool.false_ne_true (hidle.2.2.2.2.symm.trans hfire)

end TimedRun

/-- **The ticks are exact all along a run iff every cycle of it is on time.** -/
theorem exactSince_iff (is : List CycleInput) :
    (∀ done, done <+: is → (timedRun cfg sw s done).ExactSince s.systemClock.toNat) ↔
      RunMeets (stepCycle cfg sw) (OnTime cfg sw) s is := by
  have hcomp : RunMeets (TimedRun.step cfg sw) (fun r i => OnTime cfg sw r.machine i)
      (TimedRun.start s) is ↔ RunMeets (stepCycle cfg sw) (OnTime cfg sw) s is :=
    RunMeets_comp fun _ _ => rfl
  have hstart : (TimedRun.start s).ExactSince s.systemClock.toNat := multiplesIn_self.symm
  have hclock : (TimedRun.start s).InStepSince s.systemClock.toNat :=
    ⟨TimedRun.start_inStep, le_rfl⟩
  rw [← hcomp]
  exact forall_prefix_iff_runMeets
    (fun r i hr (h : r.InStepSince s.systemClock.toNat) => h.step_iff hr)
    (fun r i _ h => TimedRun.InStepSince.step h) hstart hclock is

/-! ## The run that executes every cycle -/

variable (cfg)

/-- A run without warps in which every cycle executes an instruction and ticks, and the clock does
not wrap. -/
def ExecutesEvery (s : ClockMachine δ) (is : List CycleInput) : Prop :=
  RunMeets (stepCycle cfg {})
    (fun s i => s.cpu.halted = false ∧ s.TickRuns cfg {} i ∧ s.systemClock + 1 ≠ 0) s is

variable {cfg}

/-- Without warps a step is one cycle. -/
theorem advance_unwarped (h : s.cpu.halted = false) : s.advance cfg {} = 1 := by
  rw [advance, h, stepCounted, stepUncounted, WarpMachine.countedSkip, WarpMachine.uncountedSkip]
  simp

/-- Cycles without warps are on time. -/
theorem onTime_unwarped (hh : s.cpu.halted = false) (hrun : s.TickRuns cfg {} i)
    (hwrap : s.systemClock + 1 ≠ 0) : OnTime cfg {} s i := by
  have hadv : (s.advance cfg {}).toNat = 1 := by rw [advance_unwarped hh]; rfl
  rw [OnTime, hadv]
  refine ⟨toNext_pos TickState.timerPeriod_pos, fun _ => hrun, ?_, fun h => absurd h (by decide)⟩
  rintro (hone | ⟨-, hidle⟩) hdvd
  · rw [← hone] at hdvd
    apply hwrap
    apply BitVec.eq_of_toNat_eq
    rw [BitVec.toNat_add]
    exact Nat.mod_eq_zero_of_dvd hdvd
  · exact Bool.false_ne_true hidle.1

/-- A run that executes every cycle has exact ticks. -/
theorem ExecutesEvery.exactSince {is : List CycleInput} (h : ExecutesEvery cfg s is) :
    (timedRun cfg {} s is).ExactSince s.systemClock.toNat := by
  have hrun : RunMeets (stepCycle cfg {}) (OnTime cfg {}) s is :=
    RunMeets.mono (fun s i hs => onTime_unwarped hs.1 hs.2.1 hs.2.2) h
  exact (exactSince_iff is).mpr hrun is (List.prefix_refl is)

variable (cfg sw)

/-- **What the ticks of a run are meant to be**: the multiples of the period, each once, and so
those of any run that executes every cycle of the same stretch of time. -/
structure TicksAccurate (s : ClockMachine δ) (is : List CycleInput) : Prop where
  /-- The ticks are exact. -/
  exact : (timedRun cfg sw s is).ExactSince s.systemClock.toNat
  /-- They are those of the run that skips nothing. -/
  sameTicks : ∀ (s' : ClockMachine δ) (is' : List CycleInput), s'.systemClock = s.systemClock →
    ExecutesEvery cfg s' is' → (timedRun cfg {} s' is').time = (timedRun cfg sw s is).time →
      (timedRun cfg sw s is).ticks = (timedRun cfg {} s' is').ticks

variable {cfg sw} in
/-- The ticks are accurate when they are the multiples passed since the start. -/
theorem ticksAccurate_iff_exactSince {is : List CycleInput} :
    TicksAccurate cfg sw s is ↔ (timedRun cfg sw s is).ExactSince s.systemClock.toNat := by
  refine ⟨TicksAccurate.exact, fun h => ⟨h, ?_⟩⟩
  intro s' is' hclock hevery htime
  have h' := hevery.exactSince
  rw [TimedRun.ExactSince, hclock, htime] at h'
  exact Eq.trans h h'.symm

/-- **The ticks are accurate all along a run iff every cycle of it is on time.** -/
theorem ticksAccurate_iff (s : ClockMachine δ) (is : List CycleInput) :
    (∀ done, done <+: is → TicksAccurate cfg sw s done) ↔
      RunMeets (stepCycle cfg sw) (OnTime cfg sw) s is := by
  simp only [ticksAccurate_iff_exactSince]
  exact exactSince_iff is

/-- A cycle in which nothing happens but the instruction and its tick. -/
def quietInput : CycleInput := { lastInput with stop := false }

/-- A machine at the console's deadline loop, with a wait of 2^21 cycles before it. -/
def atDeadlineLoop : ClockMachine Unit where
  warp := { machine := {
    cpu := { pc := 0x7c305, intReg := fun r => if r = 7 then 0x200000 else 0 }
    bus := ⟨GuestMemory.empty 1, ()⟩
    locks := LockMonitor.empty } }
  chipset := { cchip := .make 1 1 }

/-- The loop at the deadline skips past it. -/
theorem advance_atDeadlineLoop (e : Encoded) :
    atDeadlineLoop.advance (fetchOnly e).config ⟨false, true⟩ = 0x200001 := by
  have hfetch : fetched (fetchOnly e).config atDeadlineLoop.warp.machine = some e :=
    fetched_fetchOnly_of_pal rfl (by decide) (by decide)
  have hno : ¬ (atDeadlineLoop.warp.machine.cpu.halted = true ∨ some e = none) := by
    simp [atDeadlineLoop]
  rw [advance, stepCounted, stepUncounted, hfetch, if_neg hno, if_neg hno]
  decide

/-- **The deadline warp jumps over ticks.** It takes the clock from zero to 2^21 + 1 in one cycle;
eight edges are crossed and no interrupt is raised. -/
theorem rsccWarp_loses_ticks :
    ¬ ∀ (p : Platform Unit) (sw : WarpSwitches) (s : ClockMachine Unit) (is : List CycleInput),
      TicksAccurate p.config sw s is := by
  intro h
  have hacc := h (fetchOnly 0x47FF041F) ⟨false, true⟩ atDeadlineLoop
  have htime : OnTime (fetchOnly 0x47FF041F).config ⟨false, true⟩ atDeadlineLoop quietInput :=
    ((exactSince_iff [quietInput]).mp fun done _ => (hacc done).exact).1
  have hpast := htime.notPast
  rw [advance_atDeadlineLoop] at hpast
  exact absurd hpast (by decide)

end ClockMachine

end EmulatR
