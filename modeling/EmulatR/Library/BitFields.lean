import Mathlib.Algebra.Group.Nat.Defs
import Mathlib.Logic.Basic

/-! # Bit fields

Facts about masks and fields of bit vectors of any width, and about a bit vector as a row of lanes
of equal width. -/

namespace EmulatR.Library

/-- A value lies within a mask iff masking leaves it. -/
theorem and_eq_self_iff {w : Nat} (x m : BitVec w) : x &&& m = x ↔ x &&& ~~~m = 0#w := by
  constructor
  · intro h
    rw [← h, BitVec.and_assoc, BitVec.and_not_self]
    exact BitVec.and_zero
  · intro h
    apply BitVec.eq_of_getLsbD_eq
    intro i hi
    have hbit := congrArg (BitVec.getLsbD · i) h
    simp only [BitVec.getLsbD_and, BitVec.getLsbD_not, hi, decide_true, Bool.true_and,
      BitVec.getLsbD_zero] at hbit ⊢
    cases hx : x.getLsbD i with
    | false => rfl
    | true => simpa [hx] using hbit

/-- A base joined to the bits of a value inside a mask is their sum iff the value lies inside the
mask and shares no bit with the base. -/
theorem or_and_eq_add_iff {w : Nat} (v x m : BitVec w) :
    v ||| (x &&& m) = v + x ↔ x &&& (~~~m ||| v) = 0#w := by
  have hdisjoint : v &&& (x &&& m &&& ~~~v) = 0#w := by
    rw [BitVec.and_comm, BitVec.and_assoc, BitVec.not_and_self]
    exact BitVec.and_zero
  have hsum : v ||| (x &&& m) = v + (x &&& m &&& ~~~v) := by
    rw [BitVec.add_eq_or_of_and_eq_zero _ _ hdisjoint]
    apply BitVec.eq_of_getLsbD_eq
    intro i hi
    simp only [BitVec.getLsbD_or, BitVec.getLsbD_and, BitVec.getLsbD_not, hi, decide_true,
      Bool.true_and]
    cases v.getLsbD i <;> simp
  have hmask : ~~~m ||| v = ~~~(m &&& ~~~v) := by
    rw [BitVec.not_and, BitVec.not_not]
  rw [hsum, BitVec.add_right_inj, BitVec.and_assoc, and_eq_self_iff, hmask]

/-- The parts of a value inside and outside a mask share no bit. -/
theorem and_not_and_and {w : Nat} (x m : BitVec w) : (x &&& ~~~m) &&& (x &&& m) = 0#w := by
  have hm : ~~~m &&& m = 0#w := BitVec.not_and_self m
  rw [BitVec.and_comm x m, ← BitVec.and_assoc, BitVec.and_assoc x, hm, BitVec.and_zero,
    BitVec.zero_and]

/-- A value is the sum of its parts inside and outside a mask. -/
theorem and_not_add_and {w : Nat} (x m : BitVec w) : (x &&& ~~~m) + (x &&& m) = x := by
  rw [BitVec.add_eq_or_of_and_eq_zero _ _ (and_not_and_and x m), ← BitVec.and_or_distrib_left,
    BitVec.not_or_self, BitVec.and_allOnes]

/-- A mask of the low `k` bits keeps the remainder. -/
theorem toNat_and_lowMask {w : Nat} {x m : BitVec w} (k : Nat) (hm : m.toNat = 2 ^ k - 1) :
    (x &&& m).toNat = x.toNat % 2 ^ k := by
  rw [BitVec.toNat_and, hm, Nat.and_two_pow_sub_one_eq_mod]

/-- The complement of a low mask takes the remainder off. -/
theorem toNat_and_not_lowMask {w : Nat} {x m : BitVec w} (k : Nat) (hm : m.toNat = 2 ^ k - 1) :
    (x &&& ~~~m).toNat = x.toNat - x.toNat % 2 ^ k := by
  have hsum := BitVec.toNat_add_of_and_eq_zero (and_not_and_and x m)
  rw [and_not_add_and, toNat_and_lowMask k hm] at hsum
  exact Nat.eq_sub_of_add_eq hsum.symm

/-- A field kept in its place. -/
theorem toNat_and_fieldMask {w : Nat} {x m : BitVec w} (k n : Nat)
    (hm : m.toNat = (2 ^ n - 1) * 2 ^ k) :
    (x &&& m).toNat = x.toNat / 2 ^ k % 2 ^ n * 2 ^ k := by
  apply Nat.eq_of_testBit_eq
  intro i
  rw [BitVec.toNat_and, hm, Nat.testBit_and, Nat.testBit_mul_two_pow, Nat.testBit_mul_two_pow,
    Nat.testBit_two_pow_sub_one, Nat.testBit_mod_two_pow, Nat.testBit_div_two_pow]
  by_cases hk : k ≤ i
  · rw [Nat.sub_add_cancel hk, decide_eq_true hk, Bool.true_and, Bool.true_and, Bool.and_comm]
  · rw [decide_eq_false hk, Bool.false_and, Bool.false_and, Bool.and_false]

/-- Concatenation is a shift and an addition. -/
theorem toNat_append_eq_add {v w : Nat} (x : BitVec v) (y : BitVec w) :
    (x ++ y).toNat = x.toNat * 2 ^ w + y.toNat := by
  rw [BitVec.toNat_append, ← Nat.shiftLeft_add_eq_or_of_lt y.isLt, Nat.shiftLeft_eq]

/-- A slice is a quotient and a remainder. -/
theorem toNat_extract {w : Nat} (x : BitVec w) (start len : Nat) :
    (x.extractLsb' start len).toNat = x.toNat / 2 ^ start % 2 ^ len := by
  rw [BitVec.extractLsb'_toNat, Nat.shiftRight_eq_div_pow]

/-- A bit is a binary digit. -/
theorem getLsbD_eq_toNat {w : Nat} (x : BitVec w) (i : Nat) :
    x.getLsbD i = decide (x.toNat / 2 ^ i % 2 = 1) :=
  Nat.testBit_eq_decide_div_mod_eq

/-- The low field of a value that has been extended. -/
theorem extract_setWidth {v w : Nat} (h : v ≤ w) (x : BitVec v) :
    (x.setWidth w).extractLsb' 0 v = x := by
  rw [← BitVec.toNat_inj, toNat_extract, BitVec.toNat_setWidth, Nat.pow_zero, Nat.div_one,
    Nat.mod_mod_of_dvd _ (Nat.pow_dvd_pow 2 h), Nat.mod_eq_of_lt x.isLt]

/-! ## Lanes -/

section Lanes

variable {n : Nat} (w : Nat) (x : BitVec n)

/-- A right shift by whole lanes moves them down. -/
theorem lane_ushiftRight (k i : Nat) :
    (x >>> (w * k)).extractLsb' (w * i) w = x.extractLsb' (w * (k + i)) w := by
  apply BitVec.eq_of_getLsbD_eq
  intro j hj
  rw [BitVec.getLsbD_extractLsb', BitVec.getLsbD_ushiftRight, BitVec.getLsbD_extractLsb',
    Nat.mul_add, Nat.add_assoc]

/-- A left shift by whole lanes moves them up and brings in zeros. -/
theorem lane_shiftLeft {i : Nat} (k : Nat) (hi : w * (i + 1) ≤ n) :
    (x <<< (w * k)).extractLsb' (w * i) w =
      if k ≤ i then x.extractLsb' (w * (i - k)) w else 0#w := by
  apply BitVec.eq_of_getLsbD_eq
  intro j hj
  have hlane : w * i + j < n := by
    rw [Nat.mul_succ] at hi
    omega
  rw [BitVec.getLsbD_extractLsb', BitVec.getLsbD_shiftLeft]
  by_cases hk : k ≤ i
  · have hle : w * k ≤ w * i := Nat.mul_le_mul_left w hk
    rw [if_pos hk, BitVec.getLsbD_extractLsb', Nat.mul_sub]
    simp only [hj, hlane, decide_true, Bool.true_and, show ¬ w * i + j < w * k by omega,
      decide_false, Bool.not_false, show w * i + j - w * k = w * i - w * k + j by omega]
  · -- the lane lies below the lanes that were moved
    have hle : w * (i + 1) ≤ w * k := Nat.mul_le_mul_left w (by omega)
    rw [Nat.mul_succ] at hle
    rw [if_neg hk, BitVec.getLsbD_zero]
    simp only [show w * i + j < w * k by omega, decide_true, Bool.not_true, Bool.and_false,
      Bool.false_and]

/-- Complement acts on each lane. -/
theorem lane_not {i : Nat} (hi : w * (i + 1) ≤ n) :
    (~~~x).extractLsb' (w * i) w = ~~~(x.extractLsb' (w * i) w) := by
  apply BitVec.eq_of_getLsbD_eq
  intro j hj
  have hlane : w * i + j < n := by
    rw [Nat.mul_succ] at hi
    omega
  simp only [BitVec.getLsbD_extractLsb', BitVec.getLsbD_not, hj, hlane, decide_true, Bool.true_and]

/-- The mask of the low `k` lanes. -/
theorem lane_lowMask {i : Nat} (k : Nat) (hi : w * (i + 1) ≤ n) :
    ((1#n <<< (w * k)) - 1#n).extractLsb' (w * i) w = if i < k then BitVec.allOnes w else 0#w := by
  -- the mask is the complement of the lanes from `k` on
  have hmask : (1#n <<< (w * k)) - 1#n = ~~~(BitVec.allOnes n <<< (w * k)) := by
    rw [← BitVec.neg_one_eq_allOnes, BitVec.shiftLeft_neg, BitVec.not_neg]
  have hones : ∀ a, a ≤ i → (BitVec.allOnes n).extractLsb' (w * a) w = BitVec.allOnes w := by
    intro a ha
    have hle : w * (a + 1) ≤ w * (i + 1) := Nat.mul_le_mul_left w (by omega)
    rw [Nat.mul_succ w a] at hle
    apply BitVec.eq_of_getLsbD_eq
    intro j hj
    simp only [BitVec.getLsbD_extractLsb', BitVec.getLsbD_allOnes, hj, decide_true, Bool.true_and,
      decide_eq_true_eq]
    omega
  rw [hmask, lane_not w _ hi, lane_shiftLeft w _ k hi, hones _ (Nat.sub_le i k)]
  by_cases hk : k ≤ i
  · rw [if_pos hk, if_neg (by omega), BitVec.not_allOnes]
  · rw [if_neg hk, if_pos (by omega), BitVec.not_zero]

/-- A bit vector is the row of its lanes. -/
theorem eq_of_lanes {x y : BitVec n} (count : Nat) (hw : 0 < w) (hn : n ≤ w * count)
    (h : ∀ i < count, x.extractLsb' (w * i) w = y.extractLsb' (w * i) w) : x = y := by
  apply BitVec.eq_of_getLsbD_eq
  intro j hj
  have hlane := congrArg (BitVec.getLsbD · (j % w)) (h (j / w) (Nat.div_lt_of_lt_mul (by omega)))
  simpa only [BitVec.getLsbD_extractLsb', Nat.mod_lt j hw, decide_true, Bool.true_and,
    Nat.div_add_mod] using hlane

end Lanes

end EmulatR.Library
