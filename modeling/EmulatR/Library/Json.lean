import Mathlib.Data.Rat.Floor
import Mathlib.Tactic.Linarith

/-! # JSON documents

A JSON document as a program sees it through a library that reads it field by field, with a default
for what is not there or has another type.

* `Json` is the document. An object is the list of its fields, in no order that matters: the value
  of a key is its first one, and `undefined` where there is none.
* `toInt`, `toBool`, `toText` and `toArray` are the lenient readings.
* `Says denote default v x` is what a reading ought to do: `x` is the default where the document has
  no value, and otherwise what the value denotes. The `says_..._iff` lemmas tell when the lenient
  readings do that. -/

namespace EmulatR.Library

/-- A value of a document, or what is read where there is none. -/
inductive Json
  /-- No value: what an absent key has. -/
  | undefined
  /-- The null value. -/
  | null
  /-- A truth value. -/
  | bool (b : Bool)
  /-- A number. -/
  | num (x : ℚ)
  /-- A text. -/
  | str (s : String)
  /-- A list. -/
  | arr (elements : List Json)
  /-- An object. -/
  | obj (fields : List (String × Json))

namespace Json

/-- The value of an object under a key. -/
def value : Json → String → Json
  | obj fields, key => (fields.lookup key).getD undefined
  | _, _ => undefined

/-- The fields of an object. -/
def fields : Json → List (String × Json)
  | obj fields => fields
  | _ => []

/-- The document has a value here, if only null. -/
def isDefined : Json → Bool
  | undefined => false
  | _ => true

/-- The object has the key. -/
def contains (v : Json) (key : String) : Bool := (v.value key).isDefined

/-- The value is an object. -/
def isObject : Json → Bool
  | obj _ => true
  | _ => false

/-- The number, where it is an integer of 32 bits. -/
def toInt (v : Json) (default : ℤ) : ℤ :=
  match v with
  | num x => if x.den = 1 ∧ -2 ^ 31 ≤ x.num ∧ x.num < 2 ^ 31 then x.num else default
  | _ => default

/-- The truth value, or a default. -/
def toBool (v : Json) (default : Bool) : Bool :=
  match v with
  | bool b => b
  | _ => default

/-- The text, or the empty one. -/
def toText : Json → String
  | str s => s
  | _ => ""

/-- The list, or the empty one. -/
def toArray : Json → List Json
  | arr elements => elements
  | _ => []

/-! ## What a document says -/

/-- The document gives no value. -/
def IsAbsent : Json → Prop
  | undefined | null => True
  | _ => False

instance (v : Json) : Decidable v.IsAbsent :=
  match v with
  | undefined | null => isTrue trivial
  | bool _ | num _ | str _ | arr _ | obj _ => isFalse id

/-- The number that a value is. -/
def number : Json → Option ℚ
  | num x => some x
  | _ => none

/-- The truth value that it is. -/
def flag : Json → Option Bool
  | bool b => some b
  | _ => none

/-- The text that it is. -/
def text : Json → Option String
  | str s => some s
  | _ => none

/-- The list that it is. -/
def elements : Json → Option (List Json)
  | arr elements => some elements
  | _ => none

/-- `x` is what the document says, or the default where it says nothing. -/
def Says {α : Type*} (denote : Json → Option α) (default : α) (v : Json) (x : α) : Prop :=
  if v.IsAbsent then x = default else denote v = some x

/-- The document says something of the type that is read here, or nothing. -/
def Readable {α : Type*} (denote : Json → Option α) (v : Json) : Prop :=
  v.IsAbsent ∨ (denote v).isSome

/-- The document says a natural number below the bound, or nothing. -/
def Fits (denote : Json → Option ℚ) (bound : Nat) (v : Json) : Prop :=
  v.IsAbsent ∨ ∃ n : Nat, n < bound ∧ denote v = some (n : ℚ)

section Says

variable {α : Type*} {denote : Json → Option α} {default x : α} {v : Json}

/-- An absent value says the default. -/
theorem says_of_absent (h : v.IsAbsent) : Says denote default v x ↔ x = default := by
  rw [Says, if_pos h]

/-- Any other says what it denotes. -/
theorem says_of_present (h : ¬ v.IsAbsent) : Says denote default v x ↔ denote v = some x := by
  rw [Says, if_neg h]

/-- What says something can be read. -/
theorem Says.readable (h : Says denote default v x) : Readable denote v := by
  by_cases hv : v.IsAbsent
  · exact Or.inl hv
  · rw [says_of_present hv] at h
    exact Or.inr (Option.isSome_of_mem h)

/-- A document says one thing. -/
theorem Says.unique {y : α} (hx : Says denote default v x) (hy : Says denote default v y) :
    x = y := by
  by_cases hv : v.IsAbsent
  · rw [says_of_absent hv] at hx hy
    rw [hx, hy]
  · rw [says_of_present hv] at hx hy
    exact Option.some.inj (hx.symm.trans hy)

/-- A reading that gives the default where there is no value, and what the value denotes where it
has the right type, is right exactly there. -/
theorem says_iff_readable (habsent : v.IsAbsent → x = default)
    (hvalue : ∀ y, denote v = some y → x = y) : Says denote default v x ↔ Readable denote v := by
  by_cases h : v.IsAbsent
  · rw [says_of_absent h]
    exact iff_of_true (habsent h) (Or.inl h)
  · rw [says_of_present h, Readable, or_iff_right h, Option.isSome_iff_exists]
    constructor
    · exact fun hx => ⟨x, hx⟩
    · rintro ⟨y, hy⟩
      rw [hy, hvalue y hy]

/-- The conversion to a text gives what the value says iff it can be read as one. -/
theorem says_toText_iff (v : Json) : Says text "" v v.toText ↔ Readable text v :=
  says_iff_readable (by cases v <;> simp [IsAbsent, toText]) (by cases v <;> simp [text, toText])

/-- The reading of a truth value says what the value does exactly where it fits. -/
theorem says_toBool_iff (v : Json) (default : Bool) :
    Says flag default v (v.toBool default) ↔ Readable flag v :=
  says_iff_readable (by cases v <;> simp [IsAbsent, toBool]) (by cases v <;> simp [flag, toBool])

/-- The reading of a list says what the value does exactly where it fits. -/
theorem says_toArray_iff (v : Json) : Says elements [] v v.toArray ↔ Readable elements v :=
  says_iff_readable (by cases v <;> simp [IsAbsent, toArray])
    (by cases v <;> simp [elements, toArray])

end Says

/-! ## Numbers kept in a word -/

section Numbers

variable {w : Nat} {v : Json} {denote : Json → Option ℚ}

/-- A reading into a word that keeps the numbers below a bound, and makes no other look like one
above, is right exactly there. -/
theorem says_iff_fits {default x : BitVec w} {bound : Nat} (habsent : v.IsAbsent → x = default)
    (hvalue : ∀ n : Nat, n < bound → denote v = some (n : ℚ) → x.toNat = n)
    (hlarge : ∀ n : Nat, bound ≤ n → denote v = some (n : ℚ) → x.toNat ≠ n) :
    Says denote (default.toNat : ℚ) v (x.toNat : ℚ) ↔ Fits denote bound v := by
  by_cases h : v.IsAbsent
  · rw [says_of_absent h, habsent h]
    exact iff_of_true rfl (Or.inl h)
  · rw [says_of_present h, Fits, or_iff_right h]
    constructor
    · intro hx
      exact ⟨x.toNat, lt_of_not_ge fun hge => hlarge _ hge hx rfl, hx⟩
    · rintro ⟨n, hn, hd⟩
      rw [hd, hvalue n hn hd]

/-- A natural number below 2³¹ is converted to itself, and another to the default. -/
theorem toInt_of_number {n : Nat} (h : number v = some (n : ℚ)) (default : ℤ) :
    v.toInt default = if n < 2 ^ 31 then (n : ℤ) else default := by
  cases v with
  | num x =>
    cases Option.some.inj h
    have hlow : -2 ^ 31 ≤ (n : ℤ) := by omega
    have hcast : (n : ℤ) < 2 ^ 31 ↔ n < 2 ^ 31 := by omega
    simp only [toInt, Rat.den_natCast, Rat.num_natCast, true_and, hlow, hcast]
  | _ => cases h

/-- An integer is read where it has 32 bits. -/
theorem toInt_num_intCast (x default : ℤ) :
    (num (x : ℚ)).toInt default = if -2 ^ 31 ≤ x ∧ x < 2 ^ 31 then x else default := by
  simp only [toInt, Rat.den_intCast, Rat.num_intCast, true_and]

/-- The conversion to an `int` gives an `int`. -/
theorem toInt_bounds (v : Json) {default : ℤ} (h : -2 ^ 31 ≤ default ∧ default < 2 ^ 31) :
    -2 ^ 31 ≤ v.toInt default ∧ v.toInt default < 2 ^ 31 := by
  unfold toInt
  split
  · split
    next hx => exact hx.2
    next => exact h
  · exact h

/-- An absent value is converted to the default. -/
theorem toInt_of_absent (h : v.IsAbsent) (default : ℤ) : v.toInt default = default := by
  cases v <;> first | rfl | exact h.elim

/-- A word read from an integer of 32 bits keeps the numbers below both bounds. -/
theorem says_toInt_iff {default : BitVec w} (hdefault : default.toNat < 2 ^ 31) :
    Says number (default.toNat : ℚ) v ((BitVec.ofInt w (v.toInt default.toNat)).toNat : ℚ) ↔
      Fits number (min (2 ^ w) (2 ^ 31)) v := by
  refine says_iff_fits ?_ ?_ ?_
  · intro h
    rw [toInt_of_absent h, BitVec.ofInt_natCast, BitVec.ofNat_toNat, BitVec.setWidth_eq]
  · intro n hn hv
    obtain ⟨hw, h31⟩ := lt_min_iff.1 hn
    rw [toInt_of_number hv, if_pos h31, BitVec.ofInt_natCast, BitVec.toNat_ofNat,
      Nat.mod_eq_of_lt hw]
  · intro n hn hv
    rw [toInt_of_number hv]
    rcases min_le_iff.1 hn with hw | h31
    · exact (lt_of_lt_of_le (BitVec.isLt _) hw).ne
    · rw [if_neg (not_lt.2 h31), BitVec.ofInt_natCast, BitVec.ofNat_toNat, BitVec.setWidth_eq]
      omega

end Numbers

end Json

end EmulatR.Library
