import Mathlib.Data.Set.Basic
import Mathlib.Data.List.Induction

/-! # Runs of an event-driven system, and ledgers of facts

Notions that the state machines of the development share, over arbitrary types.

* **Runs.** A system is a total step function `σ → ε → σ`; a run is the left fold of a list of
  events. `RunMeets ok` says that every step of a run is taken under a condition on the state
  before the step and on its event, and `RunMeets.invariant` is the induction rule that carries an
  invariant along such a run. `forall_prefix_iff_runMeets` is its converse for a condition that is
  exact at every step.
* **Outputs.** A system that answers its inputs is compared with another by its answers;
  `outputs_eq_of_simulation` derives equal answers along a run from a simulation relation.
* **Ledgers.** A `Ledger` says which facts an operation establishes and which it revokes.
  `Ledger.live` is the set of facts that hold after a history, and `Ledger.mem_live_iff` reads it
  off the history itself: some operation established the fact and no later one revoked it. -/

namespace EmulatR.Library

universe u v w

section Run

variable {σ : Type u} {ε : Type v}

/-- The state a run of `events` ends in. -/
def runFrom (step : σ → ε → σ) (s : σ) (events : List ε) : σ := events.foldl step s

/-- Nothing happens. -/
@[simp] theorem runFrom_nil (step : σ → ε → σ) (s : σ) : runFrom step s [] = s := rfl

/-- One event, then the rest. -/
@[simp] theorem runFrom_cons (step : σ → ε → σ) (s : σ) (e : ε) (es : List ε) :
    runFrom step s (e :: es) = runFrom step (step s e) es := rfl

/-- Two runs in a row. -/
@[simp] theorem runFrom_append (step : σ → ε → σ) (s : σ) (es fs : List ε) :
    runFrom step s (es ++ fs) = runFrom step (runFrom step s es) fs := by
  simp [runFrom, List.foldl_append]

/-- Every step of the run from `s` is taken in a state and on an event that meet `ok`. -/
def RunMeets (step : σ → ε → σ) (ok : σ → ε → Prop) : σ → List ε → Prop
  | _, [] => True
  | s, e :: es => ok s e ∧ RunMeets step ok (step s e) es

/-- An empty run meets every condition. -/
@[simp] theorem RunMeets_nil (step : σ → ε → σ) (ok : σ → ε → Prop) (s : σ) :
    RunMeets step ok s [] := trivial

instance decidableRunMeets (step : σ → ε → σ) (ok : σ → ε → Prop)
    [∀ s e, Decidable (ok s e)] (s : σ) (es : List ε) : Decidable (RunMeets step ok s es) :=
  match es with
  | [] => isTrue trivial
  | e :: es =>
    match (inferInstance : Decidable (ok s e)), decidableRunMeets step ok (step s e) es with
    | isTrue h, isTrue h' => isTrue ⟨h, h'⟩
    | isFalse h, _ => isFalse fun p => h p.1
    | _, isFalse h => isFalse fun p => h p.2

/-- A run in two parts meets a condition iff both parts do. -/
theorem RunMeets_append {step : σ → ε → σ} {ok : σ → ε → Prop} {s : σ} {es fs : List ε} :
    RunMeets step ok s (es ++ fs) ↔
      RunMeets step ok s es ∧ RunMeets step ok (runFrom step s es) fs := by
  induction es generalizing s with
  | nil => simp
  | cons e es ih => rw [List.cons_append, RunMeets, RunMeets, ih, runFrom_cons, and_assoc]

/-- A condition on what a projection keeps is one on the projected run. -/
theorem RunMeets_comp {τ : Type w} {step : σ → ε → σ} {step' : τ → ε → τ} {ok : τ → ε → Prop}
    {f : σ → τ} (hf : ∀ s e, f (step s e) = step' (f s) e) {s : σ} {es : List ε} :
    RunMeets step (fun s e => ok (f s) e) s es ↔ RunMeets step' ok (f s) es := by
  induction es generalizing s with
  | nil => exact Iff.rfl
  | cons e es ih => rw [RunMeets, RunMeets, ih, hf]

/-- A run meets what its condition implies. -/
theorem RunMeets.mono {step : σ → ε → σ} {ok ok' : σ → ε → Prop}
    (himp : ∀ s e, ok s e → ok' s e) {s : σ} {es : List ε} (h : RunMeets step ok s es) :
    RunMeets step ok' s es := by
  induction es generalizing s with
  | nil => trivial
  | cons e es ih => exact ⟨himp s e h.1, ih h.2⟩

/-- Two conditions a run meets, it meets together. -/
theorem RunMeets.and {step : σ → ε → σ} {ok ok' : σ → ε → Prop} {s : σ} {es : List ε}
    (h : RunMeets step ok s es) (h' : RunMeets step ok' s es) :
    RunMeets step (fun s e => ok s e ∧ ok' s e) s es := by
  induction es generalizing s with
  | nil => trivial
  | cons e es ih => exact ⟨⟨h.1, h'.1⟩, ih h.2 h'.2⟩

/-- **The invariant rule.** What every permitted step preserves holds after every permitted run. -/
theorem RunMeets.invariant {step : σ → ε → σ} {ok : σ → ε → Prop} (Inv : σ → Prop)
    (hstep : ∀ s e, Inv s → ok s e → Inv (step s e)) {s : σ} {es : List ε}
    (hrun : RunMeets step ok s es) (h : Inv s) : Inv (runFrom step s es) := by
  induction es generalizing s with
  | nil => exact h
  | cons e es ih => exact ih hrun.2 (hstep s e h hrun.1)

/-- **The exact condition of an invariant.** If, where the invariant and an auxiliary one hold, a
step keeps the invariant iff it meets `ok`, and always keeps the auxiliary one, then the invariant
holds all along a run iff every step of the run meets `ok`. -/
theorem forall_prefix_iff_runMeets {step : σ → ε → σ} {ok : σ → ε → Prop} {Inv Aux : σ → Prop}
    (hstep : ∀ s e, Inv s → Aux s → (Inv (step s e) ↔ ok s e))
    (haux : ∀ s e, Inv s → Aux s → Aux (step s e)) {s : σ} (h : Inv s) (ha : Aux s)
    (es : List ε) :
    (∀ done, done <+: es → Inv (runFrom step s done)) ↔ RunMeets step ok s es := by
  induction es generalizing s with
  | nil =>
    refine iff_of_true ?_ trivial
    intro done hdone
    rw [List.prefix_nil.mp hdone]
    exact h
  | cons e es ih =>
    constructor
    · intro hall
      have hfirst : Inv (step s e) := hall [e] ⟨es, rfl⟩
      refine ⟨(hstep s e h ha).mp hfirst, (ih hfirst (haux s e h ha)).mp ?_⟩
      intro done hdone
      exact hall (e :: done) ((List.prefix_cons_inj e).mpr hdone)
    · rintro ⟨hok, hrest⟩ done hdone
      have hfirst : Inv (step s e) := (hstep s e h ha).mpr hok
      -- the empty prefix is the start, any other has taken the first step
      rcases done with - | ⟨e', done⟩
      · exact h
      · obtain ⟨rfl, hdone'⟩ := List.cons_prefix_cons.mp hdone
        exact (ih hfirst (haux s e' h ha)).mpr hrest done hdone'

/-- **The exact condition of a law of the steps.** If under an invariant a step obeys `law` iff it
meets `ok`, and a step that does keeps the invariant, then all steps of a run obey the law iff all
meet `ok`. -/
theorem runMeets_iff_runMeets {step : σ → ε → σ} {law ok : σ → ε → Prop} (Inv : σ → Prop)
    (hstep : ∀ s e, Inv s → (law s e ↔ ok s e))
    (hkeep : ∀ s e, Inv s → ok s e → Inv (step s e)) {s : σ} (h : Inv s) (es : List ε) :
    RunMeets step law s es ↔ RunMeets step ok s es := by
  induction es generalizing s with
  | nil => exact Iff.rfl
  | cons e es ih =>
    rw [RunMeets, RunMeets, hstep s e h]
    exact and_congr_right fun hok => ih (hkeep s e h hok)

/-- The unconditional invariant rule: what every step preserves holds after every run. -/
theorem runFrom_invariant {step : σ → ε → σ} (Inv : σ → Prop)
    (hstep : ∀ s e, Inv s → Inv (step s e)) {s : σ} (es : List ε) (h : Inv s) :
    Inv (runFrom step s es) := by
  induction es generalizing s with
  | nil => exact h
  | cons e es ih => exact ih (hstep s e h)

/-- **The rule for two systems.** What the steps of both keep between them holds between them after
every run of both. -/
theorem runFrom_rel {τ : Type w} {step : σ → ε → σ} {step' : τ → ε → τ} (R : σ → τ → Prop)
    (hstep : ∀ s t e, R s t → R (step s e) (step' t e)) {s : σ} {t : τ} (h : R s t) (es : List ε) :
    R (runFrom step s es) (runFrom step' t es) := by
  induction es generalizing s t with
  | nil => exact h
  | cons e es ih => exact ih (hstep s t e h)

/-- What no step changes is after every run what it was at the start. -/
theorem runFrom_frame {γ : Type w} {step : σ → ε → σ} (f : σ → γ)
    (hstep : ∀ s e, f (step s e) = f s) (s : σ) (es : List ε) : f (runFrom step s es) = f s :=
  runFrom_invariant (fun x => f x = f s) (fun x e hx => (hstep x e).trans hx) es rfl

end Run

section Outputs

variable {σ : Type u} {τ : Type w} {ε : Type v} {ο : Type*}

/-- What a system that answers each of its inputs answers along a run. -/
def outputs (step : σ → ε → σ × ο) : σ → List ε → List ο
  | _, [] => []
  | s, e :: es => (step s e).2 :: outputs step (step s e).1 es

/-- Two systems answer alike: in related states, and with the same output. -/
def Answers (R : σ → τ → Prop) (x : σ × ο) (y : τ × ο) : Prop := R x.1 y.1 ∧ x.2 = y.2

/-- Branches under one condition are related if both are. -/
theorem rel_ite {R : σ → τ → Prop} {p q : Prop} [Decidable p] [Decidable q] (h : p ↔ q)
    {s s' : σ} {t t' : τ} (hpos : R s t) (hneg : R s' t') :
    R (if p then s else s') (if q then t else t') := by
  by_cases hp : p
  · rw [if_pos hp, if_pos (h.mp hp)]
    exact hpos
  · rw [if_neg hp, if_neg (mt h.mpr hp)]
    exact hneg

/-- **The simulation rule.** Two systems whose permitted steps keep a relation and answer alike
answer alike along every permitted run. -/
theorem outputs_eq_of_simulation {step : σ → ε → σ × ο} {step' : τ → ε → τ × ο}
    (R : σ → τ → Prop) {ok : ε → Prop}
    (hstep : ∀ s t e, R s t → ok e → Answers R (step s e) (step' t e))
    {s : σ} {t : τ} (h : R s t) {es : List ε} (hok : ∀ e ∈ es, ok e) :
    outputs step s es = outputs step' t es := by
  induction es generalizing s t with
  | nil => rfl
  | cons e es ih =>
    obtain ⟨hR, hout⟩ := hstep s t e h (hok e List.mem_cons_self)
    rw [outputs, outputs, hout, ih hR fun e' he => hok e' (List.mem_cons_of_mem _ he)]

end Outputs

section Ledger

variable {Op : Type u} {Fact : Type v}

/-- Which facts an operation establishes and which it revokes. -/
structure Ledger (Op : Type u) (Fact : Type v) where
  /-- The operation establishes the fact. -/
  adds : Op → Fact → Prop
  /-- The operation revokes the fact, if it held before. -/
  revokes : Op → Fact → Prop

namespace Ledger

variable (L : Ledger Op Fact)

/-- The facts after one operation: those it establishes, and those it does not revoke. -/
def step (A : Set Fact) (op : Op) : Set Fact :=
  {x | L.adds op x ∨ (x ∈ A ∧ ¬ L.revokes op x)}

/-- The facts that hold after a history, starting from none. -/
def live (ops : List Op) : Set Fact := runFrom L.step ∅ ops

/-- Nothing is live before the first event. -/
@[simp] theorem live_nil : L.live [] = ∅ := rfl

/-- One more operation at the end of a history is one more ledger step. -/
theorem mem_live_concat {ops : List Op} {op : Op} {x : Fact} :
    x ∈ L.live (ops ++ [op]) ↔ L.adds op x ∨ (x ∈ L.live ops ∧ ¬ L.revokes op x) := by
  simp [live, step]

/-- **A ledger is its history.** A fact is live iff some operation of the history established it
and no operation after that one revoked it. -/
theorem mem_live_iff {ops : List Op} {x : Fact} :
    x ∈ L.live ops ↔
      ∃ before op after, ops = before ++ op :: after ∧ L.adds op x ∧
        ∀ k ∈ after, ¬ L.revokes k x := by
  -- on the history from the end, where one more operation is one ledger step
  induction ops using List.reverseRecOn with
  | nil => simp
  | append_singleton ops op ih =>
    rw [mem_live_concat, ih]
    constructor
    · rintro (hadd | ⟨⟨before, o, after, rfl, hadd, hkeep⟩, hrev⟩)
      · exact ⟨ops, op, [], rfl, hadd, by simp⟩
      · refine ⟨before, o, after ++ [op], by simp, hadd, ?_⟩
        intro k hk
        rcases List.mem_append.mp hk with hk | hk
        · exact hkeep k hk
        · rw [List.mem_singleton.mp hk]; exact hrev
    · rintro ⟨before, o, after, heq, hadd, hkeep⟩
      -- the establishing operation is either the last one or already in `ops`
      rcases List.eq_nil_or_concat after with rfl | ⟨after', last, rfl⟩
      · obtain ⟨-, hlast⟩ := List.append_inj' heq rfl
        rw [List.cons.injEq] at hlast
        exact Or.inl (hlast.1 ▸ hadd)
      · rw [List.concat_eq_append] at heq hkeep
        have heq' : ops ++ [op] = (before ++ o :: after') ++ [last] := by simpa using heq
        obtain ⟨hops, hlast⟩ := List.append_inj' heq' rfl
        rw [List.cons.injEq] at hlast
        refine Or.inr ⟨⟨before, o, after', hops, hadd, ?_⟩, ?_⟩
        · intro k hk; exact hkeep k (List.mem_append_left _ hk)
        · rw [hlast.1]; exact hkeep last (by simp)

end Ledger

end Ledger

end EmulatR.Library
