import EmulatR.Fp.VaxRound
import EmulatR.Fp.VaxBackend

/-! # Comparing G_floating numbers

The backend compares G_floating register images as doubles. Both orders read an image as a sign and
a magnitude, and the magnitude of a number grows with its bits, so they agree wherever the doubles
are ordered: on every pair of images neither of which is the pattern of a NaN.

`cmpLaw_iff` is the exact condition; `not_cmpLaw_self` is an operand that is not equal to itself. -/

namespace EmulatR

open Library

namespace Vax

/-! ## The signed bits of an image -/

/-- A number of the format: exponent zero is only the true zero. -/
def IsClean (op : Word) : Prop := expOf op ≠ 0 ∨ op = 0

/-- The bits below the sign. -/
def magBits (op : Word) : Nat := op.toNat % 2 ^ 63

/-- The bits below the sign as an integer with that sign. -/
def signedBits (op : Word) : Int := if signOf op then -(magBits op : Int) else magBits op

/-- The bits below the sign are the exponent over the fraction. -/
theorem magBits_eq (op : Word) : magBits op = expOf op * 2 ^ 52 + (fracOf op).toNat := by
  rw [magBits, expOf_eq, toNat_fracOf]
  omega

/-- The magnitude a register image stands for. -/
noncomputable def vaxMag (op : Word) : ℝ :=
  if expOf op = 0 then 0 else scaled (wholeFrac op) (expOf op - 1077)

/-- A value is its sign and its magnitude. -/
theorem vaxValue_eq_signed (op : Word) : vaxValue op = signed (signOf op) (vaxMag op) := by
  unfold vaxValue vaxMag
  split
  · simp
  · rfl

/-- Only exponent zero stands for zero. -/
theorem vaxMag_pos {op : Word} (h : expOf op ≠ 0) : 0 < vaxMag op := by
  rw [vaxMag, if_neg h]
  exact scaled_pos (lt_of_lt_of_le (by decide) (wholeFrac_bounds op).1) _

/-- A magnitude is not negative. -/
theorem vaxMag_nonneg (op : Word) : 0 ≤ vaxMag op := by
  by_cases h : expOf op = 0
  · rw [vaxMag, if_pos h]
  · exact (vaxMag_pos h).le

/-- The true zero is the only number without magnitude bits. -/
theorem IsClean.expOf_eq_zero_iff {op : Word} (h : IsClean op) : expOf op = 0 ↔ magBits op = 0 := by
  have hm := magBits_eq op
  obtain h | rfl := h
  · refine ⟨fun he => absurd he h, fun he => ?_⟩
    omega
  · simp [magBits, expOf_eq]

/-- Among numbers the magnitude grows with the bits: across a binade the leading bit outweighs every
fraction. -/
theorem vaxMag_lt_of_magBits_lt {a b : Word} (hlt : magBits a < magBits b)
    (hb : IsClean b) : vaxMag a < vaxMag b := by
  have hb0 : expOf b ≠ 0 := fun h => by
    have := hb.expOf_eq_zero_iff.1 h
    omega
  by_cases ha0 : expOf a = 0
  · rw [vaxMag, if_pos ha0]
    exact vaxMag_pos hb0
  · rw [vaxMag, if_neg ha0, vaxMag, if_neg hb0, scaled, scaled]
    have hma := magBits_eq a
    have hmb := magBits_eq b
    have hfa := fracOf_lt a
    have hfb := fracOf_lt b
    obtain hexp | hexp : expOf a = expOf b ∨ expOf a < expOf b := by omega
    · rw [hexp]
      refine mul_lt_mul_of_pos_right (Nat.cast_lt.2 ?_) (zpow_pos two_pos _)
      unfold wholeFrac
      omega
    · calc (wholeFrac a : ℝ) * 2 ^ ((expOf a : ℤ) - 1077)
          < 2 ^ 53 * 2 ^ ((expOf a : ℤ) - 1077) :=
            mul_lt_mul_of_pos_right (by exact_mod_cast (wholeFrac_bounds a).2) (zpow_pos two_pos _)
        _ = 2 ^ 52 * 2 ^ ((expOf a : ℤ) + 1 - 1077) := by
            rw [show (expOf a : ℤ) + 1 - 1077 = (expOf a : ℤ) - 1077 + 1 by ring,
              zpow_add_one₀ two_ne_zero]
            ring
        _ ≤ 2 ^ 52 * 2 ^ ((expOf b : ℤ) - 1077) :=
            mul_le_mul_of_nonneg_left (zpow_le_zpow_right₀ one_le_two (by omega)) (by positivity)
        _ ≤ wholeFrac b * 2 ^ ((expOf b : ℤ) - 1077) :=
            mul_le_mul_of_nonneg_right (by exact_mod_cast (wholeFrac_bounds b).1)
              (zpow_pos two_pos _).le

/-- The bits below the sign determine the magnitude. -/
theorem vaxMag_eq_of_magBits_eq {a b : Word} (h : magBits a = magBits b) : vaxMag a = vaxMag b := by
  have hma := magBits_eq a
  have hmb := magBits_eq b
  have hfa := fracOf_lt a
  have hfb := fracOf_lt b
  have hexp : expOf a = expOf b := by omega
  have hfrac : (fracOf a).toNat = (fracOf b).toNat := by omega
  rw [vaxMag, vaxMag, hexp, wholeFrac, hfrac, wholeFrac]

/-! ## The order of the numbers -/

section Order

variable {a b : Word}

/-- Among clean numbers the values are in the order of the signed bits. -/
theorem vaxValue_lt_of_signedBits_lt (ha : IsClean a) (h : signedBits a < signedBits b)
    (hb : IsClean b) : vaxValue a < vaxValue b := by
  rw [vaxValue_eq_signed, vaxValue_eq_signed]
  unfold signedBits at h
  have hna := vaxMag_nonneg a
  have hnb := vaxMag_nonneg b
  cases hsa : signOf a <;> cases hsb : signOf b
  all_goals
    simp only [hsa, hsb, signed, if_true, if_false, Bool.false_eq_true] at h ⊢
  · exact vaxMag_lt_of_magBits_lt (by omega) hb
  · omega
  · -- a negative number is below a number that is not, unless both are the zero
    have hne : expOf a ≠ 0 ∨ expOf b ≠ 0 := by
      rw [ne_eq, ne_eq, ha.expOf_eq_zero_iff, hb.expOf_eq_zero_iff]
      omega
    obtain hne | hne := hne <;> linarith [vaxMag_pos hne]
  · exact neg_lt_neg (vaxMag_lt_of_magBits_lt (by omega) ha)

/-- Equal signed bits stand for equal values. -/
theorem vaxValue_eq_of_signedBits_eq (ha : IsClean a) (h : signedBits a = signedBits b)
    (hb : IsClean b) : vaxValue a = vaxValue b := by
  rw [vaxValue_eq_signed, vaxValue_eq_signed]
  unfold signedBits at h
  have hzero : ∀ {c : Word}, IsClean c → magBits c = 0 → vaxMag c = 0 := fun hc hm => by
    rw [vaxMag, if_pos (hc.expOf_eq_zero_iff.2 hm)]
  cases hsa : signOf a <;> cases hsb : signOf b
  all_goals
    simp only [hsa, hsb, signed, if_true, if_false, Bool.false_eq_true] at h ⊢
  · exact vaxMag_eq_of_magBits_eq (by omega)
  · rw [hzero ha (by omega), hzero hb (by omega), neg_zero]
  · rw [hzero ha (by omega), hzero hb (by omega), neg_zero]
  · rw [vaxMag_eq_of_magBits_eq (a := a) (b := b) (by omega)]

/-- Numbers are ordered as their signed bits. -/
theorem vaxValue_lt_iff (ha : IsClean a) (hb : IsClean b) :
    vaxValue a < vaxValue b ↔ signedBits a < signedBits b := by
  refine ⟨fun h => ?_, fun h => vaxValue_lt_of_signedBits_lt ha h hb⟩
  obtain hlt | heq | hgt := lt_trichotomy (signedBits a) (signedBits b)
  · exact hlt
  · exact absurd h (vaxValue_eq_of_signedBits_eq ha heq hb).not_lt
  · exact absurd h (vaxValue_lt_of_signedBits_lt hb hgt ha).not_gt

/-- The values of clean numbers are equal exactly when their signed bits are. -/
theorem vaxValue_eq_iff (ha : IsClean a) (hb : IsClean b) :
    vaxValue a = vaxValue b ↔ signedBits a = signedBits b := by
  refine ⟨fun h => ?_, fun h => vaxValue_eq_of_signedBits_eq ha h hb⟩
  obtain hlt | heq | hgt := lt_trichotomy (signedBits a) (signedBits b)
  · exact absurd h (vaxValue_lt_of_signedBits_lt ha hlt hb).ne
  · exact heq
  · exact absurd h (vaxValue_lt_of_signedBits_lt hb hgt ha).ne'

end Order

/-! ## The order of the doubles -/

section Doubles

open SoftFloat

/-- The pattern of a NaN: the largest exponent with a fraction. -/
def IsNaNPattern (op : Word) : Prop := expOf op = 0x7FF ∧ fracOf op ≠ 0

instance (op : Word) : Decidable (IsNaNPattern op) := inferInstanceAs (Decidable (_ ∧ _))

/-- The kernel's test for NaN is on the pattern. -/
theorem isNaNF64UI_eq (a : Word) : isNaNF64UI a = decide (IsNaNPattern a) := by
  have hexp : ~~~a &&& 0x7FF0000000000000 = 0 ↔ expOf a = 0x7FF := by
    have hm : (0x7FF0000000000000 : Word).toNat = (2 ^ 11 - 1) * 2 ^ 52 := rfl
    have hlt := a.isLt
    have h0 : (0 : Word).toNat = 0 := rfl
    rw [← BitVec.toNat_inj, Library.toNat_and_fieldMask 52 11 hm, BitVec.toNat_not, expOf_eq, h0]
    omega
  have hfrac : a &&& 0x000FFFFFFFFFFFFF = fracOf a := rfl
  rw [isNaNF64UI, hfrac, Bool.eq_iff_iff, Bool.and_eq_true, beq_iff_eq, bne_iff_ne, hexp,
    decide_eq_true_iff, IsNaNPattern]

/-- The kernel and the VAX backend read the same sign bit. -/
theorem signF64UI_eq (a : Word) : signF64UI a = signOf a := by
  have hlt := a.isLt
  have h0 : (0 : Word).toNat = 0 := rfl
  rw [signOf_eq, signF64UI, Bool.eq_iff_iff, bne_iff_ne, ne_eq, ← BitVec.toNat_inj,
    BitVec.toNat_ushiftRight, Nat.shiftRight_eq_div_pow, h0, decide_eq_true_iff]
  omega

/-- Two images are zeros of any sign. -/
theorem or_and_lowMask_eq_zero (a b : Word) :
    ((a ||| b) &&& 0x7FFFFFFFFFFFFFFF == 0) = decide (magBits a = 0 ∧ magBits b = 0) := by
  have hm : (0x7FFFFFFFFFFFFFFF : Word).toNat = 2 ^ 63 - 1 := rfl
  have hand (x : Word) : x &&& 0x7FFFFFFFFFFFFFFF = 0#64 ↔ magBits x = 0 := by
    rw [← BitVec.toNat_inj, Library.toNat_and_lowMask 63 hm, magBits, BitVec.toNat_zero]
  have hor : (a ||| b) &&& 0x7FFFFFFFFFFFFFFF = 0#64 ↔ magBits a = 0 ∧ magBits b = 0 := by
    rw [← hand a, ← hand b, BitVec.and_or_distrib_right, BitVec.or_eq_zero_iff]
  rw [Bool.eq_iff_iff, beq_iff_eq, decide_eq_true_iff]
  exact hor

/-- An image is its sign and its magnitude bits. -/
theorem toNat_eq_magBits (a : Word) :
    a.toNat = (if signOf a then 2 ^ 63 else 0) + magBits a := by
  have hlt := a.isLt
  rw [signOf_eq, magBits]
  split <;> simp_all <;> omega

/-- Words are equal when their numbers are. -/
theorem beq_eq_toNat (a b : Word) : (a == b) = decide (a.toNat = b.toNat) := by
  rw [Bool.eq_iff_iff, beq_iff_eq, decide_eq_true_iff, BitVec.toNat_inj]

variable {a b : Word}

/-- Doubles that are not NaNs are equal when their signed bits are. -/
theorem f64Eq_iff (ha : ¬ IsNaNPattern a) (hb : ¬ IsNaNPattern b) :
    (f64Eq a b).1 = true ↔ signedBits a = signedBits b := by
  have hna := toNat_eq_magBits a
  have hnb := toNat_eq_magBits b
  rw [f64Eq, isNaNF64UI_eq, isNaNF64UI_eq, decide_eq_false ha, decide_eq_false hb, Bool.or_false,
    if_neg Bool.false_ne_true, or_and_lowMask_eq_zero, beq_eq_toNat, Bool.or_eq_true,
    decide_eq_true_iff, decide_eq_true_iff, hna, hnb, signedBits, signedBits]
  have hma : magBits a < 2 ^ 63 := Nat.mod_lt _ (by decide)
  have hmb : magBits b < 2 ^ 63 := Nat.mod_lt _ (by decide)
  cases signOf a <;> cases signOf b <;> simp only [if_true, if_false, Bool.false_eq_true] <;> omega

/-- Doubles that are not NaNs are ordered as their signed bits: below the zeros the larger pattern
is the smaller number. -/
theorem f64LtQuiet_iff (ha : ¬ IsNaNPattern a) (hb : ¬ IsNaNPattern b) :
    (f64LtQuiet a b).1 = true ↔ signedBits a < signedBits b := by
  have hna := toNat_eq_magBits a
  have hnb := toNat_eq_magBits b
  have hzero := or_and_lowMask_eq_zero a b
  rw [f64LtQuiet, isNaNF64UI_eq, isNaNF64UI_eq, decide_eq_false ha, decide_eq_false hb,
    Bool.or_false, if_neg Bool.false_ne_true, signF64UI_eq, signF64UI_eq, signedBits, signedBits]
  simp only [bne, hzero, beq_eq_toNat, BitVec.lt_def, hna, hnb]
  cases signOf a <;> cases signOf b <;> simp <;> omega

/-- The kernel orders patterns without NaN by their signed bits. -/
theorem f64LeQuiet_iff (ha : ¬ IsNaNPattern a) (hb : ¬ IsNaNPattern b) :
    (f64LeQuiet a b).1 = true ↔ signedBits a ≤ signedBits b := by
  have hna := toNat_eq_magBits a
  have hnb := toNat_eq_magBits b
  have hzero := or_and_lowMask_eq_zero a b
  rw [f64LeQuiet, isNaNF64UI_eq, isNaNF64UI_eq, decide_eq_false ha, decide_eq_false hb,
    Bool.or_false, if_neg Bool.false_ne_true, signF64UI_eq, signF64UI_eq, signedBits, signedBits]
  simp only [bne, hzero, beq_eq_toNat, BitVec.lt_def, hna, hnb]
  cases signOf a <;> cases signOf b <;> simp <;> omega

/-- A NaN compares false with everything. -/
theorem f64_of_isNaNPattern (h : IsNaNPattern a ∨ IsNaNPattern b) :
    (f64Eq a b).1 = false ∧ (f64LtQuiet a b).1 = false ∧ (f64LtQuiet b a).1 = false := by
  have hnan : (isNaNF64UI a || isNaNF64UI b) = true := by
    rw [isNaNF64UI_eq, isNaNF64UI_eq, Bool.or_eq_true, decide_eq_true_iff, decide_eq_true_iff]
    exact h
  rw [f64Eq, f64LtQuiet, f64LtQuiet, Bool.or_comm (isNaNF64UI b), if_pos hnan, if_pos hnan,
    if_pos hnan]
  exact ⟨rfl, rfl, rfl⟩

end Doubles

/-! ## The comparisons of the backend -/

section Compare

open SoftFloatBackend

variable {a b : Word}

/-- A comparison answers true. -/
def CmpTrue (k : FpCompare) (a b : Word) : Prop := (cmpG k a b).bits = 0x4000000000000000

instance (k : FpCompare) (a b : Word) : Decidable (CmpTrue k a b) :=
  inferInstanceAs (Decidable (_ = _))

/-- On two numbers the comparisons are those of a total order, the order of their values. -/
structure CmpLaw (a b : Word) : Prop where
  /-- Exactly one of less, equal and greater holds. -/
  exactly_one : (CmpTrue .lt a b ∧ ¬ CmpTrue .eq a b ∧ ¬ CmpTrue .lt b a) ∨
    (¬ CmpTrue .lt a b ∧ CmpTrue .eq a b ∧ ¬ CmpTrue .lt b a) ∨
    (¬ CmpTrue .lt a b ∧ ¬ CmpTrue .eq a b ∧ CmpTrue .lt b a)
  /-- Less is less in value. -/
  lt : CmpTrue .lt a b ↔ vaxValue a < vaxValue b
  /-- Equal is equal in value. -/
  eq : CmpTrue .eq a b ↔ vaxValue a = vaxValue b
  /-- With the operands the other way round, greater in value. -/
  gt : CmpTrue .lt b a ↔ vaxValue b < vaxValue a
  /-- Less or equal is one of the two. -/
  le : CmpTrue .le a b ↔ CmpTrue .lt a b ∨ CmpTrue .eq a b

/-- The answer's bits say true exactly when it is true. -/
theorem bits_eq_iff (r : Bool) : (if r then 0x4000000000000000 else 0 : Word) = 0x4000000000000000 ↔
    r = true := by
  cases r <;> decide

/-- Without NaN patterns, equal compares the signed bits. -/
theorem cmpTrue_eq_iff (ha : ¬ IsNaNPattern a) (hb : ¬ IsNaNPattern b) :
    CmpTrue .eq a b ↔ signedBits a = signedBits b :=
  (bits_eq_iff _).trans (f64Eq_iff ha hb)

/-- Without NaN patterns, less compares the signed bits. -/
theorem cmpTrue_lt_iff (ha : ¬ IsNaNPattern a) (hb : ¬ IsNaNPattern b) :
    CmpTrue .lt a b ↔ signedBits a < signedBits b :=
  (bits_eq_iff _).trans (f64LtQuiet_iff ha hb)

/-- Without NaN patterns, less or equal compares the signed bits. -/
theorem cmpTrue_le_iff (ha : ¬ IsNaNPattern a) (hb : ¬ IsNaNPattern b) :
    CmpTrue .le a b ↔ signedBits a ≤ signedBits b :=
  (bits_eq_iff _).trans (f64LeQuiet_iff ha hb)

/-- Without NaN patterns the comparisons are right. -/
theorem cmpLaw_of_not_isNaNPattern (ha : IsClean a) (hb : IsClean b) (hna : ¬ IsNaNPattern a)
    (hnb : ¬ IsNaNPattern b) : CmpLaw a b := by
  have hlt := cmpTrue_lt_iff hna hnb
  have hgt := cmpTrue_lt_iff hnb hna
  have heq := cmpTrue_eq_iff hna hnb
  refine ⟨?_, ?_, ?_, ?_, ?_⟩
  · rw [hlt, hgt, heq]
    omega
  · rw [hlt, vaxValue_lt_iff ha hb]
  · rw [heq, vaxValue_eq_iff ha hb]
  · rw [hgt, vaxValue_lt_iff hb ha]
  · rw [cmpTrue_le_iff hna hnb, hlt, heq, Int.le_iff_lt_or_eq]

/-- With the pattern of a NaN none of the three holds. -/
theorem not_cmpLaw_of_isNaNPattern (h : IsNaNPattern a ∨ IsNaNPattern b) : ¬ CmpLaw a b := by
  obtain ⟨heq, hlt, hgt⟩ := f64_of_isNaNPattern h
  have hne : ¬ CmpTrue .eq a b := fun hc => Bool.false_ne_true (heq ▸ (bits_eq_iff _).1 hc)
  have hnlt : ¬ CmpTrue .lt a b := fun hc => Bool.false_ne_true (hlt ▸ (bits_eq_iff _).1 hc)
  have hngt : ¬ CmpTrue .lt b a := fun hc => Bool.false_ne_true (hgt ▸ (bits_eq_iff _).1 hc)
  rintro ⟨hl | he | hg, -⟩
  · exact hnlt hl.1
  · exact hne he.2.1
  · exact hngt hg.2.2

/-- G_floating numbers are compared in a total order, that of their values, exactly when neither has
the pattern of a NaN. -/
theorem cmpLaw_iff (a b : Word) (ha : IsClean a) (hb : IsClean b) :
    CmpLaw a b ↔ ¬ IsNaNPattern a ∧ ¬ IsNaNPattern b := by
  refine ⟨fun h => ?_, fun h => cmpLaw_of_not_isNaNPattern ha hb h.1 h.2⟩
  rw [← not_or]
  exact fun hnan => not_cmpLaw_of_isNaNPattern hnan h

/-- The smallest number of the largest binade is a number like any other. -/
theorem cmpLaw_top : CmpLaw 0x7FF0000000000000 0x8010000000000000 :=
  (cmpLaw_iff _ _ (Or.inl (by decide)) (Or.inl (by decide))).2 (by decide)

/-- A number of the largest binade above it does not equal itself. -/
theorem not_cmpLaw_self : IsClean 0x7FF8000000000000 ∧
    ¬ CmpLaw 0x7FF8000000000000 0x7FF8000000000000 :=
  ⟨Or.inl (by decide), not_cmpLaw_of_isNaNPattern (Or.inl (by decide))⟩

end Compare

end Vax

end EmulatR
