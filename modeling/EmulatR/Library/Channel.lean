import EmulatR.Library.Run

/-! # What passes through a queue, and what sets a flag

Two rules for systems that take step after step, each from a law of one step.

* A queue from whose front each step takes something, and to whose end it adds something, loses and
  repeats nothing over a run, and keeps the order (`collect_queue`).
* A flag that some steps set and some inputs clear is set iff one of them has set it and none has
  cleared it since (`flag_iff`). -/

namespace EmulatR.Library

universe u v w

variable {σ : Type u} {ε : Type v} {ο : Type w} {step : σ → ε → σ}

/-- What the steps of a run contribute, one after the other. -/
def collect (step : σ → ε → σ) (f : σ → ε → List ο) : σ → List ε → List ο
  | _, [] => []
  | s, e :: es => f s e ++ collect step f (step s e) es

/-- **A queue is conserved.** What was in it and what has been added is what has been taken and what
is still in it, in this order. -/
theorem collect_queue {queue : σ → List ο} {added taken : σ → ε → List ο}
    (hstep : ∀ s e, queue s ++ added s e = taken s e ++ queue (step s e)) (s : σ) (es : List ε) :
    queue s ++ collect step added s es = collect step taken s es ++ queue (runFrom step s es) := by
  induction es generalizing s with
  | nil => exact List.append_nil _
  | cons e es ih =>
    rw [collect, collect, runFrom_cons, ← List.append_assoc, hstep, List.append_assoc, ih,
      List.append_assoc]

/-- **A flag is the history since it was cleared.** -/
theorem flag_iff {flag : σ → Prop} {sets : σ → ε → Prop} {clears : ε → Prop}
    (hstep : ∀ s e, flag (step s e) ↔ sets s e ∨ (flag s ∧ ¬ clears e)) (s : σ) (es : List ε) :
    flag (runFrom step s es) ↔
      (∃ before e after, es = before ++ e :: after ∧ sets (runFrom step s before) e ∧
          ∀ k ∈ after, ¬ clears k) ∨
        (flag s ∧ ∀ k ∈ es, ¬ clears k) := by
  induction es generalizing s with
  | nil => simp
  | cons e es ih =>
    rw [runFrom_cons, ih, hstep]
    constructor
    · rintro (⟨before, k, after, rfl, hset, hkeep⟩ | ⟨hset | ⟨hflag, hclear⟩, hkeep⟩)
      · exact Or.inl ⟨e :: before, k, after, rfl, hset, hkeep⟩
      · exact Or.inl ⟨[], e, es, rfl, hset, hkeep⟩
      · refine Or.inr ⟨hflag, fun k hk => ?_⟩
        obtain rfl | hk := List.mem_cons.1 hk
        · exact hclear
        · exact hkeep k hk
    · rintro (⟨before, k, after, heq, hset, hkeep⟩ | ⟨hflag, hkeep⟩)
      · -- the step that has set it is the first one, or one of the rest
        cases before with
        | nil =>
          obtain ⟨rfl, rfl⟩ := List.cons.inj heq
          exact Or.inr ⟨Or.inl hset, hkeep⟩
        | cons e' before =>
          obtain ⟨rfl, rfl⟩ := List.cons.inj heq
          exact Or.inl ⟨before, k, after, rfl, hset, hkeep⟩
      · exact Or.inr ⟨Or.inr ⟨hflag, hkeep e List.mem_cons_self⟩,
          fun k hk => hkeep k (List.mem_cons_of_mem _ hk)⟩

end EmulatR.Library
