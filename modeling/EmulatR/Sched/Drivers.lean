import EmulatR.Library.Barrier
import EmulatR.Sched.Harness

/-! # The sequential and the threaded driver

The two execution drivers (schedLib/SmpDrivers.h). `SequentialDriver` steps the agents in index
order on one thread: it tests the clock, steps, gives up if nobody was runnable, and otherwise runs
the sync phase and advances. `ThreadedDriver` gives every agent a thread; the threads meet at a
barrier whose completion runs the sync phase, advances, and tests the clock and the agents.

The threaded driver is an instance of the barrier system of `Library.Barrier`, with the agents'
actions interleaving freely, and the sequential driver is its loop. But the sequential loop tests
before its first quantum and the threaded one only after it: from a dispatcher whose clock has
already reached `untilTick`, or in which nobody can run, the threaded driver still runs one quantum.
Everywhere else the two agree, on every interleaving.

`driversAgree_iff_hasWork` is the exact condition. -/

namespace EmulatR.Smp

open Library Library.Barrier

variable {σ κ : Type}

/-! ## The sequential driver -/

namespace SequentialDriver

/-- Step every runnable agent in index order, and tell whether there was one. -/
def stepAll (q : Quantum) : List (Agent σ κ) → Bool × List (Agent σ κ)
  | [] => (false, [])
  | a :: as =>
    let rest := stepAll q as
    if a.runnable then (true, a.step q :: rest.2) else (rest.1, a :: rest.2)

/-- The driver's loop; `none` when the fuel runs out before the loop ends. -/
def run : Nat → Dispatcher σ κ → Tick → Option (Dispatcher σ κ)
  | 0, _, _ => none
  | fuel + 1, d, untilTick =>
    if d.clock < untilTick then
      let stepped := stepAll d.quantum d.agents
      let d := { d with agents := stepped.2 }
      -- nobody could run: stop without a sync phase
      if stepped.1 then run fuel d.syncPhase.advance untilTick else some d
    else some d

end SequentialDriver

/-! ## The threaded driver -/

namespace Dispatcher

/-- What the threads share, and the agents. -/
def parts (d : Dispatcher σ κ) : (Tick × LockArbiter × Quantum) × List (Agent σ κ) :=
  ((d.clock, d.locks, d.quantum), d.agents)

/-- The dispatcher of its parts. -/
def ofParts (p : (Tick × LockArbiter × Quantum) × List (Agent σ κ)) : Dispatcher σ κ :=
  ⟨p.2, p.1.1, p.1.2.1, p.1.2.2⟩

/-- A dispatcher is its parts. -/
@[simp] theorem parts_ofParts (p : (Tick × LockArbiter × Quantum) × List (Agent σ κ)) :
    (ofParts p).parts = p := rfl

end Dispatcher

namespace ThreadedDriver

/-- The threads: one per agent, each performing its agent's actions and then arriving; `onBarrier`
is the completion. -/
def system (untilTick : Tick) :
    Barrier.System (Agent σ κ) (Tick × LockArbiter × Quantum) where
  plan shared a := a.actions shared.2.2
  complete p := (Dispatcher.ofParts p).syncPhase.advance.parts
  stop p :=
    let d := Dispatcher.ofParts p
    decide (untilTick ≤ d.clock) || !d.anyRunnable
  complete_length p := Dispatcher.syncPhase_length (Dispatcher.ofParts p)

end ThreadedDriver

namespace Dispatcher

/-- `Dispatcher::run` under the sequential driver returns with `d'`. -/
def RunsSequential (d : Dispatcher σ κ) (untilTick : Tick) (d' : Dispatcher σ κ) : Prop :=
  if d.agents = [] then d' = d else ∃ fuel, SequentialDriver.run fuel d untilTick = some d'

/-- `Dispatcher::run` under the threaded driver returns with `d'`, whatever the interleaving. -/
def RunsThreaded (d : Dispatcher σ κ) (untilTick : Tick) (d' : Dispatcher σ κ) : Prop :=
  if d.agents = [] then d' = d
  else (ThreadedDriver.system untilTick).EndsAs (.released d.parts false) d'.parts

/-- The two drivers end alike: the same agents, clock and arbiter, or neither ends. -/
def DriversAgree (d : Dispatcher σ κ) (untilTick : Tick) : Prop :=
  ∀ d', d.RunsSequential untilTick d' ↔ d.RunsThreaded untilTick d'

end Dispatcher

/-! ## A round is a quantum -/

variable {d d' : Dispatcher σ κ} {untilTick : Tick}

/-- The actions of one quantum, performed in order, are the call of `step`. -/
theorem perform_actions (q : Quantum) (a : Agent σ κ) :
    System.perform (a.actions q) a = if a.runnable then a.step q else a := by
  -- each action touches the body only, so the fold can be done on the body
  have hfold : ∀ (fs : List (Body σ κ → Body σ κ)) (a : Agent σ κ),
      System.perform (fs.map Agent.lift) a
        = { a with body := fs.foldl (fun b f => f b) a.body } := by
    intro fs
    induction fs with
    | nil => intro a; rfl
    | cons f fs ih => intro a; exact ih (a.lift f)
  unfold Agent.actions
  split
  · exact hfold _ a
  · rfl

/-- The sequential driver performs every agent's actions in turn. -/
theorem stepAll_eq (q : Quantum) (as : List (Agent σ κ)) :
    SequentialDriver.stepAll q as
      = (as.any Agent.runnable, as.map fun a => System.perform (a.actions q) a) := by
  induction as with
  | nil => rfl
  | cons a as ih =>
    rw [SequentialDriver.stepAll, ih, List.any_cons, List.map_cons, perform_actions]
    cases a.runnable <;> rfl

/-- The sequential loop in terms of rounds: stop, or run a round and repeat. -/
theorem run_succ (fuel : Nat) (d : Dispatcher σ κ) (untilTick : Tick) :
    SequentialDriver.run (fuel + 1) d untilTick =
      if (ThreadedDriver.system untilTick).stop d.parts then some d
      else SequentialDriver.run fuel
        (.ofParts ((ThreadedDriver.system untilTick).round d.parts)) untilTick := by
  rw [SequentialDriver.run, stepAll_eq]
  change (if d.clock < untilTick then
      if d.anyRunnable then _ else some { d with agents := _ } else some d) =
    if (decide (untilTick ≤ d.clock) || !d.anyRunnable) = true then some d else _
  by_cases hclock : d.clock < untilTick
  · have hle : ¬ untilTick ≤ d.clock := BitVec.not_le.mpr hclock
    cases hany : d.anyRunnable with
    | false =>
      -- no agent is runnable, so the pass left every agent as it was
      have hsame : (d.agents.map fun a => System.perform (a.actions d.quantum) a) = d.agents := by
        refine (List.map_congr_left fun a ha => ?_).trans (List.map_id _)
        rw [perform_actions]
        have hoff := List.any_eq_false.mp hany a ha
        rw [if_neg hoff]
        rfl
      simp [hclock, hsame]
    | true => simp [hclock, hle]; rfl
  · have hle : untilTick ≤ d.clock := BitVec.not_lt.mp hclock
    simp [hclock, hle]

/-- The sequential driver returns iff the loop over rounds does, with the same result. -/
theorem exists_run_iff_runsTo :
    (∃ fuel, SequentialDriver.run fuel d untilTick = some d') ↔
      (ThreadedDriver.system untilTick).RunsTo d.parts d'.parts := by
  constructor
  · rintro ⟨fuel, h⟩
    -- on the fuel: every pass of the loop that goes on is one round
    induction fuel generalizing d with
    | zero => exact absurd h (by simp [SequentialDriver.run])
    | succ fuel ih =>
      rw [run_succ] at h
      cases hstop : (ThreadedDriver.system untilTick).stop d.parts with
      | true =>
        rw [hstop, if_pos rfl, Option.some.injEq] at h
        exact h ▸ .stop hstop
      | false =>
        rw [hstop, if_neg Bool.false_ne_true] at h
        exact .next hstop (ih h)
  · intro h
    have hrun : ∀ p p', (ThreadedDriver.system untilTick).RunsTo p p' →
        ∃ fuel, SequentialDriver.run fuel (.ofParts p) untilTick
          = some (Dispatcher.ofParts (σ := σ) (κ := κ) p') := by
      intro p p' h
      -- on the loop: one unit of fuel for every round and one for the last test
      induction h with
      | @stop p hstop =>
        refine ⟨1, ?_⟩
        rw [run_succ, Dispatcher.parts_ofParts, if_pos hstop]
      | @next p p' hgo _ ih =>
        obtain ⟨fuel, hfuel⟩ := ih
        refine ⟨fuel + 1, ?_⟩
        rw [run_succ, Dispatcher.parts_ofParts, if_neg (by rw [hgo]; exact Bool.false_ne_true)]
        exact hfuel
    exact hrun _ _ h

/-! ## When the drivers agree -/

/-- The run has something to do: the clock is before `untilTick` and some agent can run. -/
def Dispatcher.HasWork (d : Dispatcher σ κ) (untilTick : Tick) : Prop :=
  d.clock < untilTick ∧ d.anyRunnable = true

/-- The threads go on while there is work. -/
theorem stop_eq_false_iff :
    (ThreadedDriver.system untilTick).stop d.parts = false ↔ d.HasWork untilTick := by
  change (decide (untilTick ≤ d.clock) || !d.anyRunnable) = false ↔ _
  rw [Bool.or_eq_false_iff, decide_eq_false_iff_not, BitVec.not_le, Bool.not_eq_false']
  rfl

/-- The threads stop when there is no work. -/
theorem stop_eq_true (h : ¬ d.HasWork untilTick) :
    (ThreadedDriver.system untilTick).stop d.parts = true := by
  rw [← Bool.not_eq_false, stop_eq_false_iff]
  exact h

/-- With work to do, every interleaving of the threads ends where the sequential loop ends. -/
theorem driversAgree_of_hasWork (h : d.agents = [] ∨ d.HasWork untilTick) :
    d.DriversAgree untilTick := by
  intro d'
  unfold Dispatcher.RunsSequential Dispatcher.RunsThreaded
  by_cases hnil : d.agents = []
  · rw [if_pos hnil, if_pos hnil]
  · have hgo := stop_eq_false_iff.mpr (h.resolve_left hnil)
    rw [if_neg hnil, if_neg hnil, exists_run_iff_runsTo, System.RunsTo.iff_round hgo]
    exact ⟨System.endsAs_of_runsTo hnil, fun hends => (System.runsTo_of_endsAs hnil hends).2⟩

/-- The clock cannot wrap on the way: one quantum fits above the clock and above every tick before
`untilTick`. -/
structure Dispatcher.ClockFits (d : Dispatcher σ κ) (untilTick : Tick) : Prop where
  /-- The clock moves. -/
  pos : 0 < d.quantum.toNat
  /-- The first quantum fits. -/
  first : d.clock.toNat + d.quantum.toNat < 2 ^ 64
  /-- So does every quantum that starts before `untilTick`. -/
  rest : untilTick.toNat + d.quantum.toNat ≤ 2 ^ 64

/-- One round advances the clock by the quantum. -/
theorem round_clock (untilTick : Tick) (p : (Tick × LockArbiter × Quantum) × List (Agent σ κ)) :
    ((ThreadedDriver.system untilTick).round p).1.1 = p.1.1 + p.1.2.2.setWidth 64 ∧
      ((ThreadedDriver.system untilTick).round p).1.2.2 = p.1.2.2 := by
  obtain ⟨hclock, hquantum⟩ := Prod.mk.inj (Dispatcher.syncPhase_timing (Dispatcher.ofParts
    (p.1, p.2.map ((ThreadedDriver.system untilTick).stepped p.1))))
  constructor
  -- the sync phase keeps the clock and the quantum, then `advance` adds them
  · change _ + BitVec.setWidth 64 _ = _
    rw [hclock, hquantum]
    rfl
  · exact hquantum

/-- After one or more rounds the clock is strictly later, as long as it does not wrap. -/
theorem lt_clock_of_rounds (hfit : d.ClockFits untilTick)
    {p : (Tick × LockArbiter × Quantum) × List (Agent σ κ)}
    (h : System.Rounds (ThreadedDriver.system untilTick) d.parts p) :
    d.clock.toNat < p.1.1.toNat ∧ p.1.2.2 = d.quantum := by
  have hadd : ∀ c : Tick, c.toNat + d.quantum.toNat < 2 ^ 64 →
      (c + d.quantum.setWidth 64).toNat = c.toNat + d.quantum.toNat := by
    intro c hc
    have hq : d.quantum.toNat < 2 ^ 64 := lt_of_lt_of_le d.quantum.isLt (by decide)
    rw [BitVec.toNat_add, BitVec.toNat_setWidth, Nat.mod_eq_of_lt hq, Nat.mod_eq_of_lt hc]
  have hpos := hfit.pos
  induction h with
  | first =>
    obtain ⟨hclock, hquantum⟩ := round_clock untilTick d.parts
    refine ⟨?_, hquantum⟩
    rw [hclock]
    have := hadd d.clock hfit.first
    change _ < (d.clock + d.quantum.setWidth 64).toNat
    omega
  | @next p _ hgo ih =>
    obtain ⟨hlt, hq⟩ := ih
    obtain ⟨hclock, hquantum⟩ := round_clock untilTick p
    refine ⟨?_, hquantum.trans hq⟩
    -- the round ran because the clock was before `untilTick`
    have hbefore : p.1.1 < untilTick :=
      ((stop_eq_false_iff (d := Dispatcher.ofParts p)).mp hgo).1
    have hbefore' : p.1.1.toNat < untilTick.toNat := hbefore
    have := hadd p.1.1 (by have := hfit.rest; omega)
    rw [hclock, hq]
    omega

/-- Without work the sequential driver returns at once. -/
theorem runsSequential_self (hnil : d.agents ≠ []) (h : ¬ d.HasWork untilTick) :
    d.RunsSequential untilTick d := by
  rw [Dispatcher.RunsSequential, if_neg hnil, exists_run_iff_runsTo]
  exact .stop (stop_eq_true h)

/-- Without work the drivers disagree: the threaded one has moved the clock. -/
theorem hasWork_of_driversAgree (hfit : d.ClockFits untilTick) (h : d.DriversAgree untilTick) :
    d.agents = [] ∨ d.HasWork untilTick := by
  by_contra hcon
  rw [not_or] at hcon
  obtain ⟨hnil, hwork⟩ := hcon
  -- the sequential driver returns `d` itself, so the threads would have to end there
  have hthreaded := (h d).mp (runsSequential_self hnil hwork)
  rw [Dispatcher.RunsThreaded, if_neg hnil] at hthreaded
  -- but they only test the flag after a round, which has moved the clock
  have hrounds := (System.runsTo_of_endsAs hnil hthreaded).1
  exact absurd (lt_clock_of_rounds hfit hrounds).1 (lt_irrefl _)

/-- **When the drivers agree.** With no agents, or with the clock before `untilTick` and some agent
runnable, every interleaving of the threads ends with the agents, clock and arbiter of the
sequential run; and unless the clock wraps, only then. -/
theorem driversAgree_iff_hasWork (d : Dispatcher σ κ) (untilTick : Tick) :
    ((d.agents = [] ∨ d.HasWork untilTick) → d.DriversAgree untilTick) ∧
    (d.ClockFits untilTick →
      (d.DriversAgree untilTick ↔ d.agents = [] ∨ d.HasWork untilTick)) :=
  ⟨driversAgree_of_hasWork,
    fun hfit => ⟨hasWork_of_driversAgree hfit, driversAgree_of_hasWork⟩⟩

end EmulatR.Smp
