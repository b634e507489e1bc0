import EmulatR.Library.Run

/-! # Rewriting a stream online

A rewriting of a stream says, for each input so far, what has been put out and which end of the
input is held back until more of it is known. `Rewriting` states the one law of such a description:
what has been put out is final, and the rest depends on what is held back only.

A machine that keeps what is held back as its state rewrites the stream if each of its steps does
(`Rewriting.run_eq`). -/

namespace EmulatR.Library

universe u v w

/-- What has been put out for an input, and what is held back of it. -/
structure Rewriting (ι : Type u) (ο : Type v) where
  /-- What the whole input becomes. -/
  out : List ι → List ο
  /-- How much of the input is still undecided. -/
  held : List ι → List ι
  /-- Nothing of an empty input. -/
  held_nil : held [] = []
  /-- An empty input becomes nothing. -/
  out_nil : out [] = []
  /-- What has been put out is final. -/
  out_append : ∀ xs ys, out (xs ++ ys) = out xs ++ out (held xs ++ ys)
  /-- The rest depends on what is held back only. -/
  held_append : ∀ xs ys, held (xs ++ ys) = held (held xs ++ ys)

namespace Rewriting

variable {ι : Type u} {ο : Type v} (R : Rewriting ι ο)

/-- What is held back is held back as a whole. -/
theorem held_held (xs : List ι) : R.held (R.held xs) = R.held xs := by
  have h := R.held_append xs []
  rwa [List.append_nil, List.append_nil, eq_comm] at h

section Machine

variable {σ : Type w} (step : σ → ι → σ × List ο)

/-- A machine over a stream: its state, and all it has put out. -/
def transduce (s : σ) (xs : List ι) : σ × List ο :=
  (runFrom (fun s x => (step s x).1) s xs, (outputs step s xs).flatten)

/-- No input, no output. -/
@[simp] theorem transduce_nil (s : σ) : transduce step s [] = (s, []) := rfl

/-- One step, then the rest. -/
theorem transduce_cons (s : σ) (x : ι) (xs : List ι) :
    transduce step s (x :: xs) =
      ((transduce step (step s x).1 xs).1, (step s x).2 ++ (transduce step (step s x).1 xs).2) :=
  rfl

/-- Two inputs in a row. -/
theorem transduce_append (s : σ) (xs ys : List ι) :
    transduce step s (xs ++ ys) =
      ((transduce step (transduce step s xs).1 ys).1,
        (transduce step s xs).2 ++ (transduce step (transduce step s xs).1 ys).2) := by
  induction xs generalizing s with
  | nil => rfl
  | cons x xs ih => simp only [List.cons_append, transduce_cons, ih, List.append_assoc]

/-- **Step by step.** A machine rewrites the stream if, from a state that stands for what is held
back, each step puts out what the next input lets go and keeps the rest. -/
theorem run_eq {step : σ → ι → σ × List ο} {state : List ι → σ}
    (hstep : ∀ w x, R.held w = w →
      step (state w) x = (state (R.held (w ++ [x])), R.out (w ++ [x])))
    (xs : List ι) : transduce step (state []) xs = (state (R.held xs), R.out xs) := by
  induction xs using List.reverseRecOn with
  | nil => rw [transduce_nil, R.held_nil, R.out_nil]
  | append_singleton xs x ih =>
    rw [R.held_append xs [x], R.out_append xs [x], transduce_append, ih]
    simp only [transduce_cons, transduce_nil, hstep _ x (R.held_held xs), List.append_nil]

end Machine

end Rewriting

end EmulatR.Library
