import EmulatR.Fp.SoftFloatAdd
import EmulatR.Library.BitFields

/-! # Products in SoftFloat

Multiplication delivers the exact product, rounded once (`outcome_mul`). The routine for doubles
forms the product of two fractions from the products of their halves (`mul64To128_eq`) and keeps its
high word, jammed. -/

namespace EmulatR

namespace SoftFloat

open Library

/-! ## The product of two words -/

/-- A sum that comes out below an addend has lost a carry. -/
theorem toNat_add_carry (x y : Word) :
    (x + y).toNat + (if x + y < x then 1 else 0) * 2 ^ 64 = x.toNat + y.toNat := by
  have hx := x.isLt
  have hy := y.isLt
  simp only [BitVec.lt_def, BitVec.toNat_add]
  split <;> omega

/-- The halves of a word. -/
theorem toNat_halves (x : Word) : (x >>> 32).toNat = x.toNat / 2 ^ 32 ∧
    (x &&& 0xFFFFFFFF).toNat = x.toNat % 2 ^ 32 := by
  rw [BitVec.toNat_ushiftRight, Nat.shiftRight_eq_div_pow]
  exact ⟨rfl, toNat_and_lowMask 32 rfl⟩

/-- The product of two halves fits a word. -/
theorem toNat_mul_halves {x y : Word} (hx : x.toNat < 2 ^ 32) (hy : y.toNat < 2 ^ 32) :
    (x * y).toNat = x.toNat * y.toNat ∧ x.toNat * y.toNat ≤ (2 ^ 32 - 1) * (2 ^ 32 - 1) := by
  have hle : x.toNat * y.toNat ≤ (2 ^ 32 - 1) * (2 ^ 32 - 1) :=
    Nat.mul_le_mul (by omega) (by omega)
  rw [BitVec.toNat_mul, Nat.mod_eq_of_lt (by omega)]
  exact ⟨rfl, hle⟩

/-- The carry out of the middle sum, above its high half. -/
theorem toNat_mid_high (c : Prop) [Decidable c] (mid : Word) :
    (((if c then (1 : Word) else 0) <<< 32) ||| (mid >>> 32)).toNat =
      (if c then 1 else 0) * 2 ^ 32 + mid.toNat / 2 ^ 32 := by
  have hmid := mid.isLt
  have hhigh : mid.toNat / 2 ^ 32 < 2 ^ 32 := by omega
  rw [BitVec.toNat_or, (toNat_halves mid).1]
  split
  · have h := Nat.two_pow_add_eq_or_of_lt hhigh 1
    rw [Nat.mul_one] at h
    rw [Nat.one_mul]
    exact h.symm
  · rw [Nat.zero_mul, Nat.zero_add]
    exact Nat.zero_or _

/-- The two words of the product make the product. -/
theorem mul64To128_eq (a b : Word) :
    (mul64To128 a b).1.toNat * 2 ^ 64 + (mul64To128 a b).2.toNat = a.toNat * b.toNat := by
  obtain ⟨ha1, ha0⟩ := toNat_halves a
  obtain ⟨hb1, hb0⟩ := toNat_halves b
  have ha := a.isLt
  have hb := b.isLt
  have ha32 : (a >>> 32).toNat < 2 ^ 32 := by omega
  have hb32 : (b >>> 32).toNat < 2 ^ 32 := by omega
  have halow : (a &&& 0xFFFFFFFF).toNat < 2 ^ 32 := by omega
  have hblow : (b &&& 0xFFFFFFFF).toNat < 2 ^ 32 := by omega
  have hsplit : a.toNat * b.toNat =
      (a >>> 32).toNat * (b >>> 32).toNat * 2 ^ 64 +
        ((a >>> 32).toNat * (b &&& 0xFFFFFFFF).toNat +
          (a &&& 0xFFFFFFFF).toNat * (b >>> 32).toNat) * 2 ^ 32 +
        (a &&& 0xFFFFFFFF).toNat * (b &&& 0xFFFFFFFF).toNat := by
    have hA : a.toNat = (a >>> 32).toNat * 2 ^ 32 + (a &&& 0xFFFFFFFF).toNat := by omega
    have hB : b.toNat = (b >>> 32).toNat * 2 ^ 32 + (b &&& 0xFFFFFFFF).toNat := by omega
    conv_lhs => rw [hA, hB]
    ring
  obtain ⟨h11, h11'⟩ := toNat_mul_halves ha32 hb32
  obtain ⟨h10, h10'⟩ := toNat_mul_halves ha32 hblow
  obtain ⟨h01, h01'⟩ := toNat_mul_halves halow hb32
  obtain ⟨h00, h00'⟩ := toNat_mul_halves halow hblow
  rw [hsplit, ← h11, ← h10, ← h01, ← h00]
  rw [← h11] at h11'
  rw [← h10] at h10'
  rw [← h01] at h01'
  rw [← h00] at h00'
  simp only [mul64To128]
  generalize a >>> 32 * b >>> 32 = p11 at *
  generalize a >>> 32 * (b &&& 0xFFFFFFFF) = p10 at *
  generalize (a &&& 0xFFFFFFFF) * b >>> 32 = p01 at *
  generalize (a &&& 0xFFFFFFFF) * (b &&& 0xFFFFFFFF) = p00 at *
  have hmid := toNat_add_carry p10 p01
  generalize p10 + p01 = mid at *
  have hlow := toNat_add_carry (mid <<< 32) p00
  have hshift : (mid <<< 32).toNat = mid.toNat % 2 ^ 32 * 2 ^ 32 := by
    rw [BitVec.toNat_shiftLeft, Nat.shiftLeft_eq]
    omega
  have hmidlt := mid.isLt
  rw [hshift] at hlow
  have hcarry : (if mid <<< 32 + p00 < mid <<< 32 then (1 : Word) else 0).toNat =
      if mid <<< 32 + p00 < mid <<< 32 then 1 else 0 := by
    split <;> rfl
  rw [BitVec.add_comm p00, BitVec.toNat_add, BitVec.toNat_add, toNat_mid_high, hcarry]
  generalize (if mid < p10 then 1 else 0 : ℕ) = c at hmid ⊢
  generalize (if mid <<< 32 + p00 < mid <<< 32 then 1 else 0 : ℕ) = d at hlow ⊢
  omega

/-- The high word of the product of two words, jammed. -/
theorem mulJam64_eq {a b : Nat} (ha : a < 2 ^ 64) (hb : b < 2 ^ 64) :
    mulJam64 a b = shortShiftRightJam (a * b) 64 := by
  have hprod := mul64To128_eq (BitVec.ofNat 64 a) (BitVec.ofNat 64 b)
  rw [BitVec.toNat_ofNat, BitVec.toNat_ofNat, Nat.mod_eq_of_lt ha, Nat.mod_eq_of_lt hb] at hprod
  simp only [mulJam64]
  generalize mul64To128 (BitVec.ofNat 64 a) (BitVec.ofNat 64 b) = p at hprod ⊢
  have hlow := p.2.isLt
  have hdiv : a * b / 2 ^ 64 = p.1.toNat := by omega
  have hmod : a * b % 2 ^ 64 = p.2.toNat := by omega
  rw [shortShiftRightJam, hdiv, hmod, BitVec.toNat_or]
  congr 1
  have hzero : p.2 ≠ 0 ↔ p.2.toNat ≠ 0 := not_congr BitVec.toNat_inj.symm
  simp only [hzero]
  split <;> rfl

namespace Fmt

variable {k : Fmt}

/-! ## Normalized operands -/

/-- The leading bit goes where the fraction has none. -/
theorem or_lead {frac : Nat} (hfrac : frac < 2 ^ k.fracBits) :
    frac ||| 2 ^ k.fracBits = 2 ^ k.fracBits + frac := by
  have h := Nat.two_pow_add_eq_or_of_lt hfrac 1
  rw [Nat.mul_one] at h
  rw [h, Nat.or_comm]

/-- The exponent and the fraction of a number that is not zero, as the routines normalize them. -/
def normUI (k : Fmt) (exp frac : Nat) : Int × Nat :=
  let a : Int × Nat := if exp = 0 then k.normSubnormalSig frac else (exp, frac)
  (a.1, a.2 ||| 2 ^ k.fracBits)

/-- A normalized subnormal has its leading bit and its value. -/
theorem normUI_spec {exp frac : Nat} (hfrac : frac < 2 ^ k.fracBits) (h0 : ¬ (exp = 0 ∧ frac = 0)) :
    (2 ^ k.fracBits ≤ (k.normUI exp frac).2 ∧ (k.normUI exp frac).2 < 2 ^ (k.fracBits + 1)) ∧
      (k.fullSig exp frac : ℚ) * 2 ^ ((exp - 1 : ℕ) + k.format.minUnit) =
        (k.normUI exp frac).2 * 2 ^ ((k.normUI exp frac).1 - 1 + k.format.minUnit) := by
  have hF : 0 < 2 ^ k.fracBits := Nat.two_pow_pos _
  simp only [normUI]
  rcases Nat.eq_zero_or_pos exp with rfl | hpos
  · have hfrac0 : 0 < frac := by omega
    obtain ⟨s, hshift, -, hlow, hhigh⟩ := norm_shift hfrac0 hfrac
    -- the leading bit is there already
    have hor : frac * 2 ^ s ||| 2 ^ k.fracBits = frac * 2 ^ s := by
      rw [pow_succ] at hhigh
      obtain ⟨r, hr⟩ := Nat.exists_eq_add_of_le hlow
      rw [hr, ← or_lead (by omega : r < 2 ^ k.fracBits), Nat.or_assoc, Nat.or_self]
    simp only [if_true, normSubnormalSig, hshift, hor]
    refine ⟨⟨hlow, hhigh⟩, ?_⟩
    rw [fullSig, if_pos rfl, Nat.cast_mul, Nat.cast_pow, Nat.cast_ofNat, mul_assoc, ← zpow_natCast,
      ← zpow_add₀ two_ne_zero]
    congr 2
    push_cast
    ring
  · simp only [if_neg hpos.ne', or_lead hfrac]
    refine ⟨⟨Nat.le_add_right _ _, ?_⟩, ?_⟩
    · rw [pow_succ]
      omega
    · rw [fullSig, if_neg hpos.ne', Nat.cast_sub hpos, Nat.cast_one]

/-- A finite number is zero when its fields are. -/
theorem mag_eq_zero_iff (exp frac : Nat) :
    (k.fullSig exp frac : ℚ) * 2 ^ ((exp - 1 : ℕ) + k.format.minUnit) = 0 ↔ exp = 0 ∧ frac = 0 := by
  have hF : 0 < 2 ^ k.fracBits := Nat.two_pow_pos _
  rw [mul_eq_zero_iff_right (zpow_pos two_pos _).ne', Nat.cast_eq_zero, fullSig]
  split <;> omega

/-! ## Multiplication -/

section Multiplication

variable (hk : k.Valid)
include hk

/-- The product of two normalized fractions. -/
theorem outcome_normMul (mode : RoundingMode) (sign : Bool) {a b : Int × Nat}
    (ha : 2 ^ k.fracBits ≤ a.2 ∧ a.2 < 2 ^ (k.fracBits + 1))
    (hb : 2 ^ k.fracBits ≤ b.2 ∧ b.2 < 2 ^ (k.fracBits + 1)) {sigZ : Nat}
    (hsig : sigZ = shortShiftRightJam (a.2 * 2 ^ k.guard * (b.2 * 2 ^ (k.guard + 1))) k.width) :
    k.outcome (if sigZ < k.lead then k.roundPack mode sign (a.1 + b.1 - k.bias - 1) (sigZ * 2)
      else k.roundPack mode sign (a.1 + b.1 - k.bias) sigZ) =
      Ieee.deliver k.format mode.attribute sign
        ((a.2 : ℚ) * 2 ^ (a.1 - 1 + k.format.minUnit) *
          (b.2 * 2 ^ (b.1 - 1 + k.format.minUnit))) := by
  have hw := width_eq hk
  obtain ⟨hhalf, hhalf'⟩ := lead_half hk
  have hg := four_le_guard hk
  have hlead : k.lead = 2 ^ (k.fracBits + k.guard) := rfl
  have hprod : a.2 * 2 ^ k.guard * (b.2 * 2 ^ (k.guard + 1)) = a.2 * b.2 * 2 ^ (2 * k.guard + 1) := by
    rw [show 2 * k.guard + 1 = k.guard + (k.guard + 1) by omega, pow_add]
    ring
  have hcut := sameCuts_shortShiftRightJam (a.2 * 2 ^ k.guard * (b.2 * 2 ^ (k.guard + 1))) k.width
  have hlow : k.lead / 2 * 2 ^ k.width = 2 ^ k.fracBits * 2 ^ k.fracBits * 2 ^ (2 * k.guard + 1) := by
    rw [hhalf', ← pow_add, ← pow_add, ← pow_add, ← pow_add]
    congr 1
    omega
  have hhigh : 2 * k.lead * 2 ^ k.width =
      2 ^ (k.fracBits + 1) * 2 ^ (k.fracBits + 1) * 2 ^ (2 * k.guard + 1) := by
    rw [hlead, ← pow_succ', ← pow_add, ← pow_add, ← pow_add]
    congr 1
    omega
  rw [← hsig] at hcut
  rw [outcome_sum hk mode sign (a.1 + b.1 - k.bias) ?_ ?_ hcut]
  · congr 1
    have hmin : k.format.minUnit = 1 - k.bias - k.fracBits := rfl
    have hunits : (2 : ℚ) ^ (2 * k.guard + 1) / 2 ^ k.width *
        2 ^ (a.1 + b.1 - k.bias + k.format.minUnit - k.guard) =
          2 ^ (a.1 - 1 + k.format.minUnit) * 2 ^ (b.1 - 1 + k.format.minUnit) := by
      rw [← zpow_natCast, ← zpow_natCast, ← zpow_sub₀ two_ne_zero, ← zpow_add₀ two_ne_zero,
        ← zpow_add₀ two_ne_zero]
      congr 1
      omega
    rw [hprod]
    push_cast
    rw [mul_div_assoc, mul_assoc, hunits]
    ring
  · rw [hsig, hprod]
    apply le_shortShiftRightJam
    rw [hlow]
    exact Nat.mul_le_mul_right _ (Nat.mul_le_mul ha.1 hb.1)
  · rw [hsig, hprod]
    apply shortShiftRightJam_lt (Nat.mul_mod_right 2 _)
    rw [hhigh]
    exact Nat.mul_lt_mul_of_pos_right (Nat.mul_lt_mul'' ha.2 hb.2) (Nat.two_pow_pos _)

/-- An infinity and another operand. -/
theorem outcome_infArg (sign : Bool) (exp frac : Nat) :
    k.outcome (if exp ||| frac = 0 then (k.defaultNaNUI, { invalid := true })
      else (k.packUI sign k.expMax 0, {})) =
      if (k.fullSig exp frac : ℚ) * 2 ^ ((exp - 1 : ℕ) + k.format.minUnit) = 0 then
        Ieee.invalidOperation
      else { datum := .inf sign } := by
  simp only [mag_eq_zero_iff, Nat.or_eq_zero_iff]
  split
  · exact outcome_invalid hk
  · simp only [outcome, datum_packUI_inf hk]

/-- Multiplication is the multiplication of the standard. -/
theorem outcome_mul {mulJam : Nat → Nat → Nat}
    (hmul : ∀ a b, a < 2 ^ k.width → b < 2 ^ k.width →
      mulJam a b = shortShiftRightJam (a * b) k.width) (mode : RoundingMode) (uiA uiB : Nat) :
    k.outcome (k.mul mulJam mode uiA uiB) =
      Ieee.mul k.format mode.attribute (k.datum uiA) (k.datum uiB) := by
  have hfA := fracUI_lt (k := k) uiA
  have hfB := fracUI_lt (k := k) uiB
  have hwidth : 2 ^ k.width = 2 ^ (k.fracBits + 1) * 2 ^ (k.guard + 1) := by
    rw [width_eq hk, ← pow_add]
    congr 1
    omega
  obtain ⟨-, hmax⟩ := two_pow_expBits hk
  have hnan : k.isNaNUI uiA = true ∨ k.isNaNUI uiB = true →
      k.outcome (k.propagateNaNUI uiA uiB) =
        Ieee.mul k.format mode.attribute (k.datum uiA) (k.datum uiB) :=
    outcome_propagateNaNUI hk (Ieee.propagatesNaN_mul _ _) _ _
  simp only [mul]
  split
  · rename_i hinfA
    split
    · rename_i hfrac
      exact hnan (hfrac.imp (fun h => isNaNUI_iff.2 ⟨hinfA, h⟩)
        fun h => isNaNUI_iff.2 ⟨h.1, h.2⟩)
    · rename_i hfrac
      rw [not_or, not_not] at hfrac
      rw [datum, datum, datumOf_inf hinfA hfrac.1]
      by_cases hinfB : k.expUI uiB = k.expMax
      · have h0 : k.fracUI uiB = 0 := by_contra fun h => hfrac.2 ⟨hinfB, h⟩
        rw [if_neg fun h => by rw [Nat.or_eq_zero_iff] at h; omega, datumOf_inf hinfB h0]
        simp only [outcome, datum_packUI_inf hk, Ieee.mul]
      · rw [datumOf_finite hinfB]
        exact outcome_infArg hk _ _ _
  · rename_i hinfA
    split
    · rename_i hinfB
      split
      · rename_i hfrac
        exact hnan (Or.inr (isNaNUI_iff.2 ⟨hinfB, hfrac⟩))
      · rename_i hfrac
        rw [not_not] at hfrac
        rw [datum, datum, datumOf_finite hinfA, datumOf_inf hinfB hfrac]
        exact outcome_infArg hk _ _ _
    · rename_i hinfB
      rw [datum, datum, datumOf_finite hinfA, datumOf_finite hinfB]
      split
      · rename_i hzero
        have hmag := hzero.imp (mag_eq_zero_iff (k := k) _ _).2 (mag_eq_zero_iff (k := k) _ _).2
        rw [outcome_packUI_zero hk, Ieee.mul, mul_eq_zero.2 hmag, Ieee.deliver_zero]
      · rename_i hzero
        rw [not_or] at hzero
        obtain ⟨hnA, hvA⟩ := normUI_spec hfA hzero.1
        obtain ⟨hnB, hvB⟩ := normUI_spec hfB hzero.2
        rw [Ieee.mul, hvA, hvB]
        apply outcome_normMul hk mode _ hnA hnB
        apply hmul
        · rw [hwidth]
          exact Nat.mul_lt_mul_of_lt_of_le hnA.2 (Nat.pow_le_pow_right two_pos (by omega))
            (Nat.two_pow_pos _)
        · rw [hwidth]
          exact Nat.mul_lt_mul_of_pos_right hnB.2 (Nat.two_pow_pos _)

end Multiplication

end Fmt

/-! ## The routines on words -/

section Routines

variable (mode : RoundingMode)

/-- **f64_mul** is the standard's multiplication. -/
theorem wordOutcome_f64Mul (a b : Word) :
    f64.wordOutcome (f64Mul mode a b) =
      Ieee.mul f64.format mode.attribute (f64.datum a.toNat) (f64.datum b.toNat) := by
  rw [f64Mul, wordOutcome_onWords]
  exact Fmt.outcome_mul Fmt.valid_f64 (fun _ _ => mulJam64_eq) mode _ _

/-- **f32_mul** is the standard's multiplication. -/
theorem wordOutcome_f32Mul (a b : BitVec 32) :
    f32.wordOutcome (f32Mul mode a b) =
      Ieee.mul f32.format mode.attribute (f32.datum a.toNat) (f32.datum b.toNat) := by
  rw [f32Mul, wordOutcome_onSingles]
  exact Fmt.outcome_mul Fmt.valid_f32 (fun _ _ _ _ => rfl) mode _ _

end Routines

end SoftFloat

end EmulatR
