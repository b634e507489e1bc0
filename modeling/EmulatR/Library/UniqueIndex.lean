import Mathlib.Data.List.Nodup
import Mathlib.Logic.Function.Basic

/-! # Unique indexes

A table of rows is indexed by keys; a row may have no key, one, or several, and a key that two
insertions share is an error. `buildIndex` is the loop that fills such an index row by row, and
`mem_of_buildIndex` says what a finished index is: exactly the rows under their own keys.
`buildIndex_isOk_of_distinct` is a test that the keys are distinct.

`scanSeen` is the other loop of this kind: it reports on each row from the keys of the rows before
it, and `nodup_of_scanSeen` concludes from what it never reports that no key occurs twice. -/

namespace EmulatR.Library

universe u v

variable {α : Type u} {κ : Type v} [DecidableEq κ]

/-- A finite map from keys to rows. -/
abbrev Index (κ : Type v) (α : Type u) := κ → Option α

/-- Insert a row under a key; a key already present is an error. -/
def insertNew (a : α) (d : Index κ α) (k : κ) : Except κ (Index κ α) :=
  if (d k).isSome then .error k else .ok (Function.update d k (some a))

/-- Insert a row under all its keys. -/
def insertRow (keys : α → List κ) (d : Index κ α) (a : α) : Except κ (Index κ α) :=
  (keys a).foldlM (insertNew a) d

/-- Index a table. -/
def buildIndex (keys : α → List κ) (rows : List α) : Except κ (Index κ α) :=
  rows.foldlM (insertRow keys) fun _ => none

/-- The index of a table, empty if a key is used twice. -/
def indexOf (keys : α → List κ) (rows : List α) : Index κ α :=
  match buildIndex keys rows with
  | .ok d => d
  | .error _ => fun _ => none

/-! ## What a finished index holds -/

/-- A new key succeeds where there was none. -/
theorem insertNew_ok {a : α} {d d' : Index κ α} {k : κ} (h : insertNew a d k = .ok d') :
    d k = none ∧ d' = Function.update d k (some a) := by
  by_cases hk : (d k).isSome
  · rw [insertNew, if_pos hk] at h; cases h
  · rw [insertNew, if_neg hk] at h; cases h
    exact ⟨by simpa using hk, rfl⟩

/-- Inserting a row under a list of keys: what was there before, and the row under the new keys. -/
theorem foldlM_insertNew_ok {a : α} {ks : List κ} {d d' : Index κ α}
    (h : ks.foldlM (insertNew a) d = .ok d') {k : κ} {b : α} :
    d' k = some b ↔ d k = some b ∨ (b = a ∧ k ∈ ks) := by
  -- on the keys; the one just inserted was free, so nothing is overwritten
  induction ks generalizing d with
  | nil =>
    cases h
    simp
  | cons j ks ih =>
    rw [List.foldlM_cons] at h
    cases hj : insertNew a d j with
    | error e => rw [hj] at h; cases h
    | ok d₁ =>
      rw [hj] at h
      obtain ⟨hnone, rfl⟩ := insertNew_ok hj
      rw [ih h]
      by_cases hk : k = j
      · subst hk
        simp only [Function.update_self, hnone, List.mem_cons, true_or, and_true, reduceCtorEq,
          false_or, Option.some.injEq]
        constructor
        · rintro (rfl | ⟨rfl, -⟩) <;> rfl
        · rintro rfl; exact Or.inl rfl
      · simp [List.mem_cons, hk]

/-- An index that is built has what it had and the rows under their keys. -/
theorem foldlM_insertRow_ok {keys : α → List κ} {rows : List α} {d d' : Index κ α}
    (h : rows.foldlM (insertRow keys) d = .ok d') {k : κ} {b : α} :
    d' k = some b ↔ d k = some b ∨ (b ∈ rows ∧ k ∈ keys b) := by
  -- on the rows, with the index built so far as the start
  induction rows generalizing d with
  | nil =>
    cases h
    simp
  | cons a rows ih =>
    rw [List.foldlM_cons] at h
    cases ha : insertRow keys d a with
    | error e => rw [ha] at h; cases h
    | ok d₁ =>
      rw [ha] at h
      rw [ih h, foldlM_insertNew_ok ha, List.mem_cons]
      constructor
      · rintro ((hd | ⟨rfl, hk⟩) | ⟨hb, hk⟩)
        · exact Or.inl hd
        · exact Or.inr ⟨Or.inl rfl, hk⟩
        · exact Or.inr ⟨Or.inr hb, hk⟩
      · rintro (hd | ⟨rfl | hb, hk⟩)
        · exact Or.inl (Or.inl hd)
        · exact Or.inl (Or.inr ⟨rfl, hk⟩)
        · exact Or.inr ⟨hb, hk⟩

/-- **A finished index is its table.** A key finds a row iff the row is in the table and has the
key; in particular no two rows of an accepted table share a key. -/
theorem mem_of_buildIndex {keys : α → List κ} {rows : List α} {d : Index κ α}
    (h : buildIndex keys rows = .ok d) {k : κ} {b : α} :
    d k = some b ↔ b ∈ rows ∧ k ∈ keys b := by
  rw [foldlM_insertRow_ok h]
  simp

/-! ## When the keys are distinct -/

/-- Distinct new keys go in. -/
theorem foldlM_insertNew_isOk {a : α} {ks : List κ} {d : Index κ α} (hks : ks.Nodup)
    (hd : ∀ k ∈ ks, d k = none) : ∃ d', ks.foldlM (insertNew a) d = .ok d' := by
  induction ks generalizing d with
  | nil => exact ⟨d, rfl⟩
  | cons j ks ih =>
    obtain ⟨hj, hks⟩ := List.nodup_cons.mp hks
    have hnone : d j = none := hd j List.mem_cons_self
    rw [List.foldlM_cons, insertNew, if_neg (by rw [hnone]; exact Bool.false_ne_true)]
    refine ih hks fun k hk => ?_
    have hne : k ≠ j := fun h => hj (h ▸ hk)
    rw [Function.update_of_ne hne]
    exact hd k (List.mem_cons_of_mem _ hk)

/-- Rows with distinct new keys go in. -/
theorem foldlM_insertRow_isOk {keys : α → List κ} {rows : List α} {d : Index κ α}
    (hks : (rows.flatMap keys).Nodup) (hd : ∀ k ∈ rows.flatMap keys, d k = none) :
    ∃ d', rows.foldlM (insertRow keys) d = .ok d' := by
  induction rows generalizing d with
  | nil => exact ⟨d, rfl⟩
  | cons a rows ih =>
    rw [List.flatMap_cons] at hks hd
    obtain ⟨ha, hrest, hdisj⟩ := List.nodup_append.mp hks
    obtain ⟨d₁, hd₁⟩ := foldlM_insertNew_isOk (a := a) ha fun k hk =>
      hd k (List.mem_append_left _ hk)
    rw [List.foldlM_cons, insertRow, hd₁]
    refine ih hrest fun k hk => ?_
    -- A key of a later row is not among those just inserted.
    cases hk₁ : d₁ k with
    | none => rfl
    | some b =>
      rcases (foldlM_insertNew_ok hd₁).mp hk₁ with h | ⟨-, h⟩
      · rw [hd k (List.mem_append_right _ hk)] at h
        cases h
      · exact absurd rfl (hdisj k h k hk)

/-- A table whose keys are all distinct is accepted. -/
theorem buildIndex_isOk {keys : α → List κ} {rows : List α}
    (h : (rows.flatMap keys).Nodup) : ∃ d, buildIndex keys rows = .ok d :=
  foldlM_insertRow_isOk h fun _ _ => rfl

/-- An index that can be built is the specified one. -/
theorem buildIndex_eq_indexOf {keys : α → List κ} {rows : List α}
    (h : ∃ d, buildIndex keys rows = .ok d) : buildIndex keys rows = .ok (indexOf keys rows) := by
  obtain ⟨d, hd⟩ := h
  rw [indexOf, hd]

/-- The numbers are distinct and none of them is in the set `seen`, given as its bit mask. -/
def distinctFrom : Nat → List Nat → Bool
  | _, [] => true
  | seen, c :: cs => !seen.testBit c && distinctFrom (seen ||| 1 <<< c) cs

/-- The bit set scan finds every duplicate. -/
theorem nodup_of_distinctFrom {seen : Nat} {cs : List Nat} (h : distinctFrom seen cs) :
    cs.Nodup ∧ ∀ c ∈ cs, seen.testBit c = false := by
  induction cs generalizing seen with
  | nil => simp
  | cons c cs ih =>
    rw [distinctFrom, Bool.and_eq_true, Bool.not_eq_true'] at h
    obtain ⟨hnodup, hseen⟩ := ih h.2
    -- a number not in the larger mask is neither in the smaller one nor the new number
    have hbit : ∀ x ∈ cs, seen.testBit x = false ∧ c ≠ x := by
      intro x hx
      have hx' := hseen x hx
      rw [Nat.testBit_or, Nat.one_shiftLeft, Nat.testBit_two_pow, Bool.or_eq_false_iff,
        decide_eq_false_iff_not] at hx'
      exact hx'
    refine ⟨List.nodup_cons.mpr ⟨fun hc => (hbit c hc).2 rfl, hnodup⟩, ?_⟩
    rintro x (_ | ⟨_, hx⟩)
    · exact h.1
    · exact (hbit x hx).1

/-- A test for distinct keys that numbers the keys. -/
theorem buildIndex_isOk_of_distinct {keys : α → List κ} {rows : List α} (code : κ → Nat)
    (h : distinctFrom 0 ((rows.flatMap keys).map code)) : ∃ d, buildIndex keys rows = .ok d :=
  buildIndex_isOk (List.Nodup.of_map code (nodup_of_distinctFrom h).1)

/-! ## Reports on repeated keys -/

section Scan

variable {ι β : Type*} (key : α → ι) (report : List ι → Nat → α → List β)

/-- Report on each row, from the keys seen so far and the number of the row. -/
def scanSeen : List ι → Nat → List α → List β
  | _, _, [] => []
  | seen, n, a :: rows => report seen n a ++ scanSeen (key a :: seen) (n + 1) rows

/-- What a scan reports, row by row. -/
theorem mem_scanSeen_cons {seen : List ι} {n : Nat} {a : α} {rows : List α} {b : β} :
    b ∈ scanSeen key report seen n (a :: rows) ↔
      b ∈ report seen n a ∨ b ∈ scanSeen key report (key a :: seen) (n + 1) rows :=
  List.mem_append

variable {key report}

/-- If a repeated key would have been reported, and was not, the keys are distinct. -/
theorem nodup_of_scanSeen {bad : β → Prop}
    (hreport : ∀ seen n a, key a ∈ seen → ∃ b ∈ report seen n a, bad b) {seen : List ι} {n : Nat}
    {rows : List α} (h : ∀ b ∈ scanSeen key report seen n rows, ¬ bad b) :
    (rows.map key).Nodup ∧ ∀ k ∈ rows.map key, k ∉ seen := by
  -- on the rows; the keys of those before are among the seen ones
  induction rows generalizing seen n with
  | nil => simp
  | cons a rows ih =>
    have hhead : ∀ b ∈ report seen n a, ¬ bad b := fun b hb =>
      h b ((mem_scanSeen_cons key report).2 (Or.inl hb))
    obtain ⟨hnodup, hseen⟩ := ih fun b hb => h b ((mem_scanSeen_cons key report).2 (Or.inr hb))
    have hnew : key a ∉ seen := fun hk => by
      obtain ⟨b, hb, hbad⟩ := hreport seen n a hk
      exact hhead b hb hbad
    rw [List.map_cons, List.nodup_cons]
    refine ⟨⟨fun ha => hseen _ ha List.mem_cons_self, hnodup⟩, ?_⟩
    rintro k (_ | ⟨_, hk⟩)
    · exact hnew
    · exact fun hks => hseen k hk (List.mem_cons_of_mem _ hks)

/-- Every row is reported on. -/
theorem exists_subset_scanSeen {seen : List ι} {n : Nat} {rows : List α} {a : α} (ha : a ∈ rows) :
    ∃ seen' n', ∀ b ∈ report seen' n' a, b ∈ scanSeen key report seen n rows := by
  induction rows generalizing seen n with
  | nil => cases ha
  | cons a' rows ih =>
    rcases List.mem_cons.1 ha with rfl | ha
    · exact ⟨seen, n, fun b hb => (mem_scanSeen_cons key report).2 (Or.inl hb)⟩
    · obtain ⟨seen', n', h⟩ := ih ha
      exact ⟨seen', n', fun b hb => (mem_scanSeen_cons key report).2 (Or.inr (h b hb))⟩

end Scan

end EmulatR.Library
