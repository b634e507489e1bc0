import Mathlib.Data.Rat.Floor
import EmulatR.Library.FloatFormat
import EmulatR.Fp.SoftFloatKernel

/-! # Rounding in SoftFloat

What an encoding stands for, as a datum over the rationals, and the two routines every operation
ends in. The fraction handed to them need not be exact: it is enough that it lies, among the
multiples of half a unit in the last place, where the exact one lies (`outcome_roundPack`). The bit
that is jammed into a shifted fraction ensures that (`sameCuts_shiftRightJam`). -/

namespace EmulatR

namespace SoftFloat

open Library

/-- The modes of the standard the modes of SoftFloat are. -/
def RoundingMode.attribute : RoundingMode → Ieee.Mode
  | nearEven => .nearestEven
  | minMag => .towardZero
  | min => .towardNegative
  | max => .towardPositive

namespace Fmt

/-! ## Encodings -/

/-- A format with room for the guard bits. -/
structure Valid (k : Fmt) : Prop where
  /-- The exponent has five bits or more. -/
  five_le_expBits : 5 ≤ k.expBits
  /-- The fraction has two bits or more. -/
  fracBits_pos : 2 ≤ k.fracBits

/-- Double precision. -/
theorem valid_f64 : Valid f64 := ⟨by decide, by decide⟩

/-- Single precision. -/
theorem valid_f32 : Valid f32 := ⟨by decide, by decide⟩

variable (k : Fmt)

/-- The format, as a set of numbers. -/
def format : FloatFormat :=
  { prec := k.fracBits + 1, minUnit := 1 - k.bias - k.fracBits, maxExp := k.bias + 1 }

/-- The fraction of a finite number, with its leading bit. -/
def fullSig (exp frac : Nat) : Nat := if exp = 0 then frac else 2 ^ k.fracBits + frac

/-- The datum of a sign, an exponent field and a fraction field. -/
def datumOf (sign : Bool) (exp frac : Nat) : Ieee.Datum ℚ :=
  if exp = k.expMax then
    if frac = 0 then .inf sign else .nan (decide (frac < 2 ^ (k.fracBits - 1)))
  else .finite sign (k.fullSig exp frac * 2 ^ ((exp - 1 : ℕ) + k.format.minUnit))

/-- The datum an encoding stands for. -/
def datum (ui : Nat) : Ieee.Datum ℚ := k.datumOf (k.signUI ui) (k.expUI ui) (k.fracUI ui)

/-- What a routine returns, as an outcome of the standard. -/
def outcome (r : Nat × ExceptionFlags) : Ieee.Outcome ℚ :=
  { datum := k.datum r.1, invalid := r.2.invalid, divByZero := r.2.infinite
    overflow := r.2.overflow, underflow := r.2.underflow, inexact := r.2.inexact }

variable {k}

section Fields

/-- A leading bit above the fraction bits carries into the exponent. -/
theorem packUI_carry (sign : Bool) (exp : Int) (frac : Nat) :
    k.packUI sign (exp + 1) frac = k.packUI sign exp (2 ^ k.fracBits + frac) := by
  unfold packUI
  congr 2
  push_cast
  ring

variable (hk : k.Valid)
include hk

/-- The word has the fraction, the guard bits, the leading bit and one spare. -/
theorem width_eq : k.width = k.fracBits + k.guard + 2 := by
  have h := hk.five_le_expBits
  unfold width guard
  omega

/-- There are four guard bits or more. -/
theorem four_le_guard : 4 ≤ k.guard := by
  have h := hk.five_le_expBits
  unfold guard
  omega

/-- The exponent field in terms of the bias. -/
theorem two_pow_expBits : 2 ^ k.expBits = 2 * k.bias + 2 ∧ k.expMax = 2 * k.bias + 1 := by
  have h := hk.five_le_expBits
  have hpow : 2 ^ k.expBits = 2 * 2 ^ (k.expBits - 1) := by
    rw [← pow_succ']
    congr 1
    omega
  have hpos : 0 < 2 ^ (k.expBits - 1) := Nat.two_pow_pos _
  unfold expMax bias
  omega

/-- A bound on the bias. -/
theorem fifteen_le_bias : 15 ≤ k.bias := by
  have h := hk.five_le_expBits
  have hpow : 2 ^ 4 ≤ 2 ^ (k.expBits - 1) := Nat.pow_le_pow_right two_pos (by omega)
  unfold bias
  omega

/-- The bits of an image, below the sign and in all. -/
theorem two_pow_width : 2 ^ (k.width - 1) = (2 * k.bias + 2) * 2 ^ k.fracBits ∧
    2 ^ k.width = 2 * ((2 * k.bias + 2) * 2 ^ k.fracBits) := by
  rw [← (two_pow_expBits hk).1, ← pow_add, ← pow_succ']
  unfold width
  exact ⟨by congr 1; omega, by congr 1; omega⟩

/-- The fields of an encoding, added up. -/
theorem fields_sum {sign : Bool} {exp frac : Nat} (hexp : exp < 2 * k.bias + 2)
    (hfrac : frac < 2 ^ k.fracBits) {ui : Nat}
    (hui : ui = (if sign then 2 ^ (k.width - 1) else 0) + exp * 2 ^ k.fracBits + frac) :
    k.signUI ui = sign ∧ k.expUI ui = exp ∧ k.fracUI ui = frac := by
  have hF : 0 < 2 ^ k.fracBits := Nat.two_pow_pos _
  obtain ⟨hw, -⟩ := two_pow_width hk
  have hlow : exp * 2 ^ k.fracBits + frac < (2 * k.bias + 2) * 2 ^ k.fracBits := by
    calc exp * 2 ^ k.fracBits + frac < (exp + 1) * 2 ^ k.fracBits := by
          rw [Nat.succ_mul]
          omega
      _ ≤ (2 * k.bias + 2) * 2 ^ k.fracBits := Nat.mul_le_mul_right _ (by omega)
  have hdiv : ui / 2 ^ k.fracBits = (if sign then 2 * k.bias + 2 else 0) + exp := by
    have hsplit : ui = frac + 2 ^ k.fracBits * ((if sign then 2 * k.bias + 2 else 0) + exp) := by
      rw [hui, hw]
      cases sign <;> simp only [Bool.false_eq_true, if_false, if_true] <;> ring
    rw [hsplit, Nat.add_mul_div_left _ _ hF, Nat.div_eq_of_lt hfrac, Nat.zero_add]
  refine ⟨?_, ?_, ?_⟩
  · have hq : ui / 2 ^ (k.width - 1) = if sign then 1 else 0 := by
      rw [hui, hw]
      cases sign
      · simp only [Bool.false_eq_true, if_false]
        exact Nat.div_eq_of_lt (by omega)
      · simp only [if_true]
        exact Nat.div_eq_of_lt_le (by omega) (by omega)
    rw [signUI, hq]
    cases sign <;> rfl
  · rw [expUI, hdiv, (two_pow_expBits hk).1]
    cases sign
    · simp only [Bool.false_eq_true, if_false, Nat.zero_add]
      exact Nat.mod_eq_of_lt hexp
    · simp only [if_true, Nat.add_mod_left]
      exact Nat.mod_eq_of_lt hexp
  · have hsplit : ui = frac + ((if sign then 2 * k.bias + 2 else 0) + exp) * 2 ^ k.fracBits := by
      rw [hui, hw]
      cases sign <;> simp only [Bool.false_eq_true, if_false, if_true] <;> ring
    rw [fracUI, hsplit, Nat.add_mul_mod_self_right]
    exact Nat.mod_eq_of_lt hfrac

/-- Packing adds up the fields. -/
theorem packUI_eq {sign : Bool} {exp sig : Nat}
    (h : exp * 2 ^ k.fracBits + sig < (2 * k.bias + 2) * 2 ^ k.fracBits) :
    k.packUI sign exp sig =
      (if sign then 2 ^ (k.width - 1) else 0) + exp * 2 ^ k.fracBits + sig := by
  obtain ⟨hw, hw2⟩ := two_pow_width hk
  have hlt : (if sign then 2 ^ (k.width - 1) else 0) + exp * 2 ^ k.fracBits + sig < 2 ^ k.width := by
    rw [hw2, hw]
    split <;> omega
  have hcast : ((if sign then 2 ^ (k.width - 1) else 0 : Int) + exp * 2 ^ k.fracBits + sig) =
      ((if sign then 2 ^ (k.width - 1) else 0) + exp * 2 ^ k.fracBits + sig : Nat) := by
    push_cast
    rfl
  rw [packUI, hcast, ← Nat.cast_ofNat (R := ℤ) (n := 2), ← Nat.cast_pow, ← Int.natCast_mod,
    Int.toNat_natCast, Nat.mod_eq_of_lt hlt]

/-- What is packed from fields stands for these fields. -/
theorem datum_packUI_of_fields {sign : Bool} {exp frac : Nat} (hexp : exp < 2 * k.bias + 2)
    (hfrac : frac < 2 ^ k.fracBits) : k.datum (k.packUI sign exp frac) = k.datumOf sign exp frac := by
  have hlt : exp * 2 ^ k.fracBits + frac < (2 * k.bias + 2) * 2 ^ k.fracBits := by
    calc exp * 2 ^ k.fracBits + frac < (exp + 1) * 2 ^ k.fracBits := by
          rw [Nat.succ_mul]
          omega
      _ ≤ (2 * k.bias + 2) * 2 ^ k.fracBits := Nat.mul_le_mul_right _ (by omega)
  obtain ⟨hs, he, hf⟩ := fields_sum hk hexp hfrac (packUI_eq hk hlt : k.packUI sign exp frac = _)
  rw [datum, hs, he, hf]

/-- Packing a fraction with its leading bit, or a smaller one in the unit of the subnormals. -/
theorem datum_packUI {sign : Bool} {exp sig : Nat} (hsig : sig ≤ 2 ^ (k.fracBits + 1))
    (hsmall : sig < 2 ^ k.fracBits → exp = 0)
    (hbig : exp + sig / 2 ^ k.fracBits < k.expMax) :
    k.datum (k.packUI sign exp sig) = .finite sign (sig * 2 ^ (exp + k.format.minUnit)) := by
  have hF : 0 < 2 ^ k.fracBits := Nat.two_pow_pos _
  obtain ⟨-, hmax⟩ := two_pow_expBits hk
  rw [pow_succ] at hsig
  -- the leading bit has moved into the exponent
  have hpack : ∀ q r, sig = q * 2 ^ k.fracBits + r →
      k.packUI sign exp sig = k.packUI sign (exp + q : ℕ) r := by
    rintro q r rfl
    unfold packUI
    push_cast
    congr 2
    ring
  rcases Nat.lt_or_ge sig (2 ^ k.fracBits) with hlt | hge
  · rw [hsmall hlt, datum_packUI_of_fields hk (by omega) hlt, datumOf, if_neg (by omega), fullSig,
      if_pos rfl]
  rcases hsig.lt_or_eq with hlt | heq
  · have hdiv : sig / 2 ^ k.fracBits = 1 := Nat.div_eq_of_lt_le (by omega) (by omega)
    rw [hdiv] at hbig
    rw [hpack 1 (sig - 2 ^ k.fracBits) (by omega),
      datum_packUI_of_fields hk (by omega) (by omega), datumOf, if_neg (by omega), fullSig,
      if_neg (by omega), Nat.add_sub_cancel' hge, Nat.add_sub_cancel]
  · have hdiv : sig / 2 ^ k.fracBits = 2 := by
      rw [heq, Nat.mul_div_cancel_left _ hF]
    rw [hdiv] at hbig
    rw [hpack 2 0 (by omega), datum_packUI_of_fields hk (by omega) hF, datumOf, if_neg (by omega),
      fullSig, if_neg (by omega), heq, show exp + 2 - 1 = exp + 1 by omega]
    congr 1
    push_cast
    rw [add_zero, show (exp : ℤ) + 1 + k.format.minUnit = exp + k.format.minUnit + 1 by ring,
      zpow_add_one₀ two_ne_zero]
    ring

/-- The packed infinity. -/
theorem datum_packUI_inf (sign : Bool) : k.datum (k.packUI sign k.expMax 0) = .inf sign := by
  obtain ⟨-, hmax⟩ := two_pow_expBits hk
  rw [datum_packUI_of_fields hk (by omega) (Nat.two_pow_pos _), datumOf, if_pos rfl, if_pos rfl]

/-- One below an infinity is the largest number. -/
theorem datum_packUI_inf_sub_one (sign : Bool) :
    k.datum (k.packUI sign k.expMax 0 - 1) = .finite sign k.format.largest := by
  have hF : 0 < 2 ^ k.fracBits := Nat.two_pow_pos _
  have hb := fifteen_le_bias hk
  obtain ⟨-, hmax⟩ := two_pow_expBits hk
  have hpack : k.packUI sign k.expMax 0 - 1 =
      k.packUI sign (k.expMax - 1 : ℕ) (2 ^ k.fracBits - 1) := by
    have hsplit : k.expMax * 2 ^ k.fracBits = (k.expMax - 1) * 2 ^ k.fracBits + 2 ^ k.fracBits := by
      rw [← Nat.succ_mul, Nat.succ_eq_add_one, Nat.sub_add_cancel (by omega)]
    have hlt : k.expMax * 2 ^ k.fracBits < (2 * k.bias + 2) * 2 ^ k.fracBits :=
      Nat.mul_lt_mul_of_pos_right (by omega) hF
    rw [packUI_eq hk (by omega), packUI_eq hk (by omega)]
    omega
  rw [hpack, datum_packUI_of_fields hk (by omega) (by omega), datumOf, if_neg (by omega), fullSig,
    if_neg (by omega), FloatFormat.largest, format]
  congr 1
  have hsum : 2 ^ k.fracBits + (2 ^ k.fracBits - 1) = 2 ^ (k.fracBits + 1) - 1 := by
    rw [pow_succ]
    omega
  rw [hsum, Nat.cast_sub (Nat.one_le_two_pow)]
  push_cast
  congr 2
  omega

end Fields

end Fmt

/-! ## Jamming -/

/-- Setting bit 0. -/
theorem or_one_eq (q : Nat) : q ||| 1 = 2 * (q / 2) + 1 := by
  have hdiv : (q ||| 1) / 2 = q / 2 := by
    rw [Nat.or_div_two, Nat.or_zero]
  have hmod : (q ||| 1) % 2 = 1 := Nat.or_mod_two_eq_one.2 (Or.inr rfl)
  omega

/-- A shifted and jammed fraction lies, among the even numbers, where the shifted one lies. -/
theorem sameCuts_shortShiftRightJam (a dist : Nat) :
    SameCuts 2 ((a : ℚ) / 2 ^ dist) (shortShiftRightJam a dist : ℕ) := by
  have h2 : (0 : ℚ) < 2 ^ dist := pow_pos two_pos dist
  unfold shortShiftRightJam
  split
  · rename_i hmod
    have hpos : (0 : ℚ) < (a % 2 ^ dist : ℕ) := Nat.cast_pos.2 (Nat.pos_of_ne_zero hmod)
    have hlt : ((a % 2 ^ dist : ℕ) : ℚ) < 2 ^ dist := by
      exact_mod_cast Nat.mod_lt a (Nat.two_pow_pos dist)
    have hq : (a : ℚ) / 2 ^ dist = (a / 2 ^ dist : ℕ) + ((a % 2 ^ dist : ℕ) : ℚ) / 2 ^ dist :=
      natCast_div_two_pow dist a
    have hfrac : 0 < ((a % 2 ^ dist : ℕ) : ℚ) / 2 ^ dist ∧ ((a % 2 ^ dist : ℕ) : ℚ) / 2 ^ dist < 1 :=
      ⟨div_pos hpos h2, (div_lt_one h2).2 hlt⟩
    generalize ((a % 2 ^ dist : ℕ) : ℚ) / 2 ^ dist = t at hq hfrac
    generalize a / 2 ^ dist = q at hq
    rw [hq, or_one_eq]
    have hodd : Odd ((2 * (q / 2) + 1 : ℕ) : ℤ) := ⟨(q / 2 : ℕ), by push_cast; ring⟩
    have h := SameCuts.of_odd (K := ℚ) (y := q + t) hodd
    rw [Int.cast_natCast] at h
    have hle : ((2 * (q / 2) + 1 : ℕ) : ℚ) ≤ q + 1 ∧ (q : ℚ) ≤ (2 * (q / 2) + 1 : ℕ) := by
      constructor
      · exact_mod_cast (by omega : 2 * (q / 2) + 1 ≤ q + 1)
      · exact_mod_cast (by omega : q ≤ 2 * (q / 2) + 1)
    exact h (by linarith) (by linarith)
  · rename_i hmod
    rw [not_not] at hmod
    rw [natCast_div_two_pow, hmod, Nat.cast_zero, zero_div, add_zero, Nat.or_zero]
    exact SameCuts.refl 2 _

/-- The long jamming shift agrees with the short one while nothing is shifted out of the word. -/
theorem shiftRightJam_eq {bits a : Nat} (ha : a < 2 ^ (bits - 1)) (dist : Nat) :
    shiftRightJam bits a dist = shortShiftRightJam a dist := by
  unfold shiftRightJam
  split
  · rfl
  · rename_i hdist
    have hlt : a < 2 ^ dist := ha.trans_le (Nat.pow_le_pow_right two_pos (by omega))
    rw [shortShiftRightJam, Nat.div_eq_of_lt hlt, Nat.mod_eq_of_lt hlt, Nat.zero_or]

/-- A jammed fraction is at most one above the shifted one. -/
theorem shortShiftRightJam_le (a dist : Nat) : shortShiftRightJam a dist ≤ a / 2 ^ dist + 1 := by
  unfold shortShiftRightJam
  split
  · rw [or_one_eq]
    omega
  · rw [Nat.or_zero]
    omega

/-- Jamming does not reach an even bound. -/
theorem shortShiftRightJam_lt {a dist m : Nat} (hm : m % 2 = 0) (h : a < m * 2 ^ dist) :
    shortShiftRightJam a dist < m := by
  have hdiv := (Nat.div_lt_iff_lt_mul (Nat.two_pow_pos dist)).2 h
  unfold shortShiftRightJam
  split
  · rw [or_one_eq]
    omega
  · rwa [Nat.or_zero]

/-- A jamming shift keeps whole multiples. -/
theorem le_shortShiftRightJam {a dist m : Nat} (h : m * 2 ^ dist ≤ a) :
    m ≤ shortShiftRightJam a dist :=
  ((Nat.le_div_iff_mul_le (Nat.two_pow_pos dist)).2 h).trans Nat.left_le_or

namespace Fmt

variable {k : Fmt} (hk : k.Valid)

/-! ## Dropping the guard bits -/

/-- The rounded fraction stays below an even bound as long as the sum does. -/
theorem roundSig_lt_iff (mode : RoundingMode) (sign : Bool) (sig : Nat) {m : Nat} (hm : m % 2 = 0) :
    k.roundSig mode sign sig < m ↔ sig + k.roundIncrement mode sign < m * 2 ^ k.guard := by
  rw [← Nat.div_lt_iff_lt_mul (Nat.two_pow_pos _), roundSig]
  generalize (sig + k.roundIncrement mode sign) / 2 ^ k.guard = q
  split <;> omega

section RoundSig

include hk

/-- One guard bit, split off. -/
theorem two_pow_guard : 2 ^ k.guard = 2 * 2 ^ (k.guard - 1) := by
  have hg := four_le_guard hk
  rw [← pow_succ']
  congr 1
  omega

/-- Dropping the guard bits rounds to a whole number. -/
theorem roundSig_eq (mode : RoundingMode) (sign : Bool) (sig : Nat) :
    k.roundSig mode sign sig = roundInt (mode.attribute.direction sign) ((sig : ℚ) / 2 ^ k.guard) := by
  have hg := four_le_guard hk
  have hG := two_pow_guard hk
  have hG0 : 0 < 2 ^ k.guard := Nat.two_pow_pos _
  have hsig := Nat.div_add_mod sig (2 ^ k.guard)
  have hmod := Nat.mod_lt sig hG0
  have hdiv : ∀ inc, (sig + inc) / 2 ^ k.guard =
      sig / 2 ^ k.guard + (sig % 2 ^ k.guard + inc) / 2 ^ k.guard := by
    intro inc
    conv_lhs => rw [← hsig, Nat.add_assoc, Nat.mul_add_div hG0]
  -- away from zero, all but a whole number goes up
  have hup : (sig + (2 ^ k.guard - 1)) / 2 ^ k.guard =
      sig / 2 ^ k.guard + if sig % 2 ^ k.guard = 0 then 0 else 1 := by
    rw [hdiv]
    congr 1
    split
    · exact Nat.div_eq_of_lt (by omega)
    · exact Nat.div_eq_of_lt_le (by omega) (by omega)
  cases mode with
  | minMag => simp [roundSig, roundIncrement, RoundingMode.attribute, Ieee.Mode.direction,
      roundInt_down_div]
  | min =>
    cases sign <;> simp only [roundSig, roundIncrement, RoundingMode.attribute,
      Ieee.Mode.direction, roundInt_down_div, roundInt_up_div, Bool.false_eq_true, if_false, if_true,
      reduceCtorEq, and_false, Nat.add_zero, hup]
  | max =>
    cases sign <;> simp only [roundSig, roundIncrement, RoundingMode.attribute,
      Ieee.Mode.direction, roundInt_down_div, roundInt_up_div, Bool.false_eq_true, if_false, if_true,
      reduceCtorEq, and_false, Nat.add_zero, hup]
  | nearEven =>
    have hnear : (sig + 2 ^ (k.guard - 1)) / 2 ^ k.guard =
        sig / 2 ^ k.guard + if sig % 2 ^ k.guard < 2 ^ (k.guard - 1) then 0 else 1 := by
      rw [hdiv]
      congr 1
      split
      · exact Nat.div_eq_of_lt (by omega)
      · exact Nat.div_eq_of_lt_le (by omega) (by omega)
    rw [show RoundingMode.nearEven.attribute.direction sign = .nearest by rfl,
      roundInt_nearest_div (by omega)]
    simp only [roundSig, roundIncrement, hnear, and_true]
    clear hup hnear hdiv hsig
    generalize sig / 2 ^ k.guard = q
    rcases Nat.lt_trichotomy (sig % 2 ^ k.guard) (2 ^ (k.guard - 1)) with hlt | heq | hgt
    · rw [if_neg hlt.ne, if_pos hlt, if_pos (Or.inl hlt)]
    · rw [if_pos heq, if_neg heq.not_lt, heq]
      split <;> omega
    · rw [if_neg hgt.ne', if_neg hgt.not_gt, if_neg (by omega)]

/-- Rounding carries to the next power of two at most. -/
theorem roundSig_le (mode : RoundingMode) (sign : Bool) {sig : Nat} (h : sig ≤ 2 * k.lead) :
    k.roundSig mode sign sig ≤ 2 ^ (k.fracBits + 1) := by
  have hle := roundInt_le (K := ℚ) (y := (sig : ℚ) / 2 ^ k.guard) (n := 2 ^ (k.fracBits + 1))
    (mode.attribute.direction sign) (by
      rw [div_le_iff₀ (pow_pos two_pos _)]
      rw [lead, ← pow_succ'] at h
      have hpow : 2 ^ (k.fracBits + k.guard + 1) = 2 ^ (k.fracBits + 1) * 2 ^ k.guard := by
        rw [← pow_add]
        congr 1
        omega
      rw [hpow] at h
      exact_mod_cast h)
  rwa [← roundSig_eq hk mode sign sig] at hle

/-- Rounding keeps the leading bit. -/
theorem le_roundSig (mode : RoundingMode) (sign : Bool) {sig : Nat} (h : k.lead ≤ sig) :
    2 ^ k.fracBits ≤ k.roundSig mode sign sig := by
  rw [roundSig_eq hk]
  apply le_roundInt
  rw [le_div_iff₀ (pow_pos two_pos _)]
  rw [lead, pow_add] at h
  exact_mod_cast h

/-- A fraction that stands for `y` rounds as `y` does. -/
theorem roundInt_eq_roundSig (mode : RoundingMode) (sign : Bool) {y : ℚ} {sig : Nat} (hy : 0 ≤ y)
    (hcut : SameCuts (2 ^ (k.guard - 1)) y (sig : ℚ)) :
    roundInt (mode.attribute.direction sign) (y / 2 ^ k.guard) = k.roundSig mode sign sig := by
  have hG : (2 : ℚ) ^ k.guard = 2 * 2 ^ (k.guard - 1) := by
    exact_mod_cast two_pow_guard hk
  have hGpos : (0 : ℚ) < 2 ^ k.guard := pow_pos two_pos _
  have hhalf : (2 : ℚ) ^ (k.guard - 1) * (2 ^ k.guard)⁻¹ = 1 / 2 := by
    rw [hG]
    field_simp
  have hcut' := hcut.scale (inv_pos.2 hGpos)
  rw [hhalf, ← div_eq_mul_inv, ← div_eq_mul_inv] at hcut'
  rw [roundSig_eq hk,
    roundInt_congr hcut' (div_nonneg hy hGpos.le) (div_nonneg (Nat.cast_nonneg _) hGpos.le)]

/-- What a fraction that stands for `y` rounds to, and when nothing is lost. -/
theorem round_eq_roundSig (mode : RoundingMode) (sign : Bool) {x y : ℚ} {e : ℤ} {sig : Nat}
    (hu : k.format.unitExp x = e) (hx : x = y * 2 ^ (e - k.guard)) (hy : 0 ≤ y)
    (hcut : SameCuts (2 ^ (k.guard - 1)) y (sig : ℚ)) :
    k.format.round (mode.attribute.direction sign) x = k.roundSig mode sign sig * 2 ^ e ∧
      (k.format.round (mode.attribute.direction sign) x = x ↔ sig % 2 ^ k.guard = 0) := by
  have hG : (2 : ℚ) ^ k.guard = 2 ^ (k.guard - 1) * 2 := by
    have hg := four_le_guard hk
    rw [← pow_succ]
    congr 1
    omega
  have hGpos : (0 : ℚ) < 2 ^ k.guard := pow_pos two_pos _
  have he : (0 : ℚ) < 2 ^ e := zpow_pos two_pos e
  have hdiv : x / 2 ^ e = y / 2 ^ k.guard := by
    rw [hx, zpow_sub₀ two_ne_zero, zpow_natCast]
    field_simp
  have hround : k.format.round (mode.attribute.direction sign) x =
      k.roundSig mode sign sig * 2 ^ e := by
    rw [FloatFormat.round, hu, hdiv, roundInt_eq_roundSig hk mode sign hy hcut]
  refine ⟨hround, ?_⟩
  have hxe : x = y / 2 ^ k.guard * 2 ^ e := by
    rw [← hdiv, div_mul_cancel₀ _ he.ne']
  have hmul : ∀ n : ℕ, (n : ℚ) * 2 ^ k.guard = ((2 * n : ℤ) : ℚ) * 2 ^ (k.guard - 1) := by
    intro n
    rw [hG]
    push_cast
    ring
  rw [hround]
  conv_lhs => rw [hxe, mul_left_inj' he.ne', eq_div_iff hGpos.ne', eq_comm, hmul, hcut.eq_iff, ← hmul]
  constructor
  · intro h
    have hsig : sig = k.roundSig mode sign sig * 2 ^ k.guard := by exact_mod_cast h
    rw [hsig]
    exact Nat.mul_mod_left _ _
  · intro h
    have hq : (sig : ℚ) / 2 ^ k.guard = (sig / 2 ^ k.guard : ℕ) := by
      rw [natCast_div_two_pow, h, Nat.cast_zero, zero_div, add_zero]
    rw [roundSig_eq hk, hq, roundInt_natCast, ← hq, div_mul_cancel₀ _ hGpos.ne']

end RoundSig

/-! ## Rounding and packing -/

section RoundPack

/-- The leading bit, as a rational. -/
theorem lead_eq : (k.lead : ℚ) = 2 ^ k.fracBits * 2 ^ k.guard := by
  rw [lead, pow_add]
  push_cast
  rfl

/-- The number lies in the binade of its exponent. -/
theorem binade_of_lead {y : ℚ} (hlo : (k.lead : ℚ) ≤ y) (hhi : y < 2 * k.lead) (e : ℤ) :
    (2 : ℚ) ^ (e + k.fracBits) ≤ y * 2 ^ (e - k.guard) ∧
      y * 2 ^ (e - k.guard) < 2 ^ (e + k.fracBits + 1) := by
  have h2 : (0 : ℚ) < 2 ^ (e - k.guard) := zpow_pos two_pos _
  have hscale : (k.lead : ℚ) * 2 ^ (e - k.guard) = 2 ^ (e + k.fracBits) := by
    rw [lead_eq, ← zpow_natCast, ← zpow_natCast, ← zpow_add₀ two_ne_zero, ← zpow_add₀ two_ne_zero]
    congr 1
    ring
  constructor
  · rw [← hscale]
    exact mul_le_mul_of_nonneg_right hlo h2.le
  · rw [zpow_add_one₀ two_ne_zero, ← hscale, mul_right_comm, mul_comm (k.lead : ℚ)]
    exact mul_lt_mul_of_pos_right hhi h2

include hk

/-- A rounded fraction packed at an exponent it does not overflow. -/
theorem outcome_packRounded (mode : RoundingMode) (sign : Bool) (exp : Nat) {sig : Nat} (unf : Bool)
    (hle : k.roundSig mode sign sig ≤ 2 ^ (k.fracBits + 1))
    (hsmall : k.roundSig mode sign sig < 2 ^ k.fracBits → exp = 0)
    (hbig : exp + k.roundSig mode sign sig / 2 ^ k.fracBits < k.expMax) :
    k.outcome (k.packRounded mode sign exp sig { underflow := unf }) =
      { datum := .finite sign (k.roundSig mode sign sig * 2 ^ (exp + k.format.minUnit))
        underflow := unf, inexact := decide (sig % 2 ^ k.guard ≠ 0) } := by
  have hexp : (if k.roundSig mode sign sig = 0 then 0 else (exp : ℤ)) = exp := by
    split
    · rename_i h0
      rw [hsmall (by rw [h0]; exact Nat.two_pow_pos _)]
      rfl
    · rfl
  simp only [outcome, packRounded, hexp, Bool.false_or, datum_packUI hk hle hsmall hbig]

/-- The bounds of a fraction are those of the number it stands for. -/
theorem lead_le_of_sameCuts {y : ℚ} {sig : Nat} (hcut : SameCuts (2 ^ (k.guard - 1)) y (sig : ℚ))
    (hlo : k.lead ≤ sig) (hhi : sig < 2 * k.lead) : (k.lead : ℚ) ≤ y ∧ y < 2 * k.lead := by
  have hG : (2 : ℚ) ^ k.guard = 2 * 2 ^ (k.guard - 1) := by
    exact_mod_cast two_pow_guard hk
  have hlead : (k.lead : ℚ) = ((2 * 2 ^ k.fracBits : ℤ) : ℚ) * 2 ^ (k.guard - 1) := by
    rw [lead_eq, hG]
    push_cast
    ring
  have hlead2 : (2 * k.lead : ℚ) = ((2 * (2 * 2 ^ k.fracBits) : ℤ) : ℚ) * 2 ^ (k.guard - 1) := by
    rw [hlead]
    push_cast
    ring
  constructor
  · rw [hlead, hcut.ge_iff, ← hlead]
    exact_mod_cast hlo
  · rw [hlead2, (hcut _).1, ← hlead2]
    exact_mod_cast hhi

/-- No increment is added exactly when rounding goes down. -/
theorem roundIncrement_eq_zero_iff (mode : RoundingMode) (sign : Bool) :
    k.roundIncrement mode sign = 0 ↔ mode.attribute.direction sign = .down := by
  have hg := two_pow_guard hk
  have hpos : 0 < 2 ^ (k.guard - 1) := Nat.two_pow_pos _
  cases mode <;> cases sign <;>
    simp [roundIncrement, RoundingMode.attribute, Ieee.Mode.direction] <;> omega

/-- A number too large. -/
theorem outcome_overflow (mode : RoundingMode) (sign : Bool) {x : ℚ}
    (h : ¬ k.format.round (mode.attribute.direction sign) x < 2 ^ k.format.maxExp) :
    k.outcome (k.packUI sign k.expMax 0 - (if k.roundIncrement mode sign = 0 then 1 else 0),
      { overflow := true, inexact := true }) = Ieee.deliver k.format mode.attribute sign x := by
  simp only [outcome, Ieee.deliver, if_neg h, roundIncrement_eq_zero_iff hk]
  split
  · rw [datum_packUI_inf_sub_one hk]
  · rw [Nat.sub_zero, datum_packUI_inf hk]

/-- Above the subnormals. -/
theorem outcome_roundPack_nonneg (mode : RoundingMode) (sign : Bool) (exp : ℕ) {sig : Nat} {y : ℚ}
    (hlo : k.lead ≤ sig) (hhi : sig < 2 * k.lead)
    (hcut : SameCuts (2 ^ (k.guard - 1)) y (sig : ℚ)) :
    k.outcome (k.roundPack mode sign exp sig) =
      Ieee.deliver k.format mode.attribute sign (y * 2 ^ (exp + k.format.minUnit - k.guard)) := by
  obtain ⟨hylo, hyhi⟩ := lead_le_of_sameCuts hk hcut hlo hhi
  have hb := fifteen_le_bias hk
  obtain ⟨-, hmax⟩ := two_pow_expBits hk
  have hy : 0 ≤ y := (Nat.cast_nonneg _).trans hylo
  obtain ⟨hxlo, hxhi⟩ := binade_of_lead hylo hyhi (exp + k.format.minUnit)
  have hprec : (k.format.prec : ℤ) = k.fracBits + 1 := by
    simp [format]
  have hmin : k.format.minUnit = 1 - k.bias - k.fracBits := rfl
  have hunit : k.format.unitExp (y * 2 ^ (exp + k.format.minUnit - k.guard)) =
      exp + k.format.minUnit := by
    apply FloatFormat.unitExp_eq
    · omega
    · rwa [hprec, ← add_assoc, add_sub_cancel_right]
    · rwa [hprec, ← add_assoc]
  obtain ⟨hround, hexact⟩ := round_eq_roundSig hk mode sign hunit rfl hy hcut
  have htiny : ¬ k.format.Tiny (mode.attribute.direction sign)
      (y * 2 ^ (exp + k.format.minUnit - k.guard)) := by
    apply FloatFormat.not_tiny
    · simp [format]
    · exact (zpow_le_zpow_right₀ one_le_two (by omega)).trans hxlo
  have hn2 := roundSig_le hk mode sign hhi.le
  have hn1 := le_roundSig hk mode sign hlo
  have hcarry := roundSig_lt_iff (k := k) mode sign sig (m := 2 ^ (k.fracBits + 1)) (by
    rw [pow_succ]
    exact Nat.mul_mod_left _ _)
  rw [show 2 ^ (k.fracBits + 1) * 2 ^ k.guard = 2 * k.lead by
    rw [lead, pow_succ', mul_assoc, ← pow_add]] at hcarry
  have hF : 0 < 2 ^ k.fracBits := Nat.two_pow_pos _
  -- too large, or not
  have hpow : ∀ (j : ℕ) (e : ℤ), (2 : ℚ) ^ (j + e) = (2 ^ j : ℕ) * 2 ^ e := by
    intro j e
    rw [zpow_add₀ two_ne_zero, zpow_natCast]
    push_cast
    rfl
  have hlarge : k.format.round (mode.attribute.direction sign)
      (y * 2 ^ (exp + k.format.minUnit - k.guard)) < 2 ^ k.format.maxExp ↔
        ¬ (k.expMax - 2 < (exp : ℤ) ∨
          (k.expMax - 2 = (exp : ℤ) ∧ 2 * k.lead ≤ sig + k.roundIncrement mode sign)) := by
    have hE : (0 : ℚ) < 2 ^ (exp + k.format.minUnit) := zpow_pos two_pos _
    have hmaxExp : k.format.maxExp = k.bias + 1 := rfl
    rw [hround]
    rcases lt_trichotomy exp (k.expMax - 2) with hlt | heq | hgt
    · refine iff_of_true ?_ (by omega)
      calc (k.roundSig mode sign sig : ℚ) * 2 ^ (exp + k.format.minUnit)
          ≤ 2 ^ ((k.fracBits + 1 : ℕ) + (exp + k.format.minUnit)) := by
            rw [hpow (k.fracBits + 1)]
            exact mul_le_mul_of_nonneg_right (Nat.cast_le.2 hn2) hE.le
        _ < 2 ^ k.format.maxExp := zpow_lt_zpow_right₀ one_lt_two (by omega)
    · have hmaxE : k.format.maxExp = (k.fracBits + 1 : ℕ) + (exp + k.format.minUnit) := by omega
      rw [hmaxE, hpow (k.fracBits + 1), mul_lt_mul_iff_left₀ hE, Nat.cast_lt, hcarry]
      omega
    · refine iff_of_false (not_lt.2 ?_) (by omega)
      calc (2 : ℚ) ^ k.format.maxExp ≤ 2 ^ (k.fracBits + (exp + k.format.minUnit)) :=
            zpow_le_zpow_right₀ one_le_two (by omega)
        _ ≤ k.roundSig mode sign sig * 2 ^ (exp + k.format.minUnit) := by
            rw [hpow k.fracBits]
            exact mul_le_mul_of_nonneg_right (Nat.cast_le.2 hn1) hE.le
  have hneg : ¬ (exp : ℤ) < 0 := by omega
  simp only [roundPack, if_neg hneg]
  split
  · rename_i hover
    exact outcome_overflow hk mode sign (not_not_intro hover ∘ hlarge.1)
  · rename_i hover
    have hbig : exp + k.roundSig mode sign sig / 2 ^ k.fracBits < k.expMax := by
      rcases hn2.lt_or_eq with hlt | heq
      · have hdiv : k.roundSig mode sign sig / 2 ^ k.fracBits = 1 := by
          rw [pow_succ] at hlt
          exact Nat.div_eq_of_lt_le (by omega) (by omega)
        omega
      · have hdiv : k.roundSig mode sign sig / 2 ^ k.fracBits = 2 := by
          rw [heq, pow_succ', Nat.mul_div_cancel _ hF]
        omega
    have hmoved : decide (k.format.round (mode.attribute.direction sign)
        (y * 2 ^ (exp + k.format.minUnit - k.guard)) ≠ y * 2 ^ (exp + k.format.minUnit - k.guard)) =
        decide (sig % 2 ^ k.guard ≠ 0) := by
      simp only [ne_eq, hexact]
    rw [outcome_packRounded hk mode sign _ false hn2 (fun h => absurd hn1 (by omega)) hbig, Ieee.deliver,
      if_pos (hlarge.2 hover), decide_eq_false htiny, Bool.false_and, hmoved, hround]

/-- Among the subnormals. -/
theorem outcome_roundPack_neg (mode : RoundingMode) (sign : Bool) {dist : ℕ} (hdist : 0 < dist)
    {sig : Nat} {y : ℚ} (hlo : k.lead ≤ sig) (hhi : sig < 2 * k.lead)
    (hcut : SameCuts (2 ^ (k.guard - 1)) y (sig : ℚ)) :
    k.outcome (k.roundPack mode sign (-dist) sig) =
      Ieee.deliver k.format mode.attribute sign (y * 2 ^ (-dist + k.format.minUnit - k.guard)) := by
  obtain ⟨hylo, hyhi⟩ := lead_le_of_sameCuts hk hcut hlo hhi
  have hb := fifteen_le_bias hk
  have hg := four_le_guard hk
  obtain ⟨-, hmax⟩ := two_pow_expBits hk
  have hlead0 : (0 : ℚ) < k.lead := by
    rw [lead_eq]
    positivity
  have hy : 0 < y := hlead0.trans_le hylo
  have hD : (0 : ℚ) < 2 ^ dist := pow_pos two_pos _
  have hprec : (k.format.prec : ℤ) = k.fracBits + 1 := by
    simp [format]
  have hmin : k.format.minUnit = 1 - k.bias - k.fracBits := rfl
  obtain ⟨hxlo, hxhi⟩ := binade_of_lead hylo hyhi (-dist + k.format.minUnit)
  have hx : y * 2 ^ (-dist + k.format.minUnit - k.guard) =
      y / 2 ^ dist * 2 ^ (k.format.minUnit - k.guard) := by
    rw [show -(dist : ℤ) + k.format.minUnit - k.guard = k.format.minUnit - k.guard - dist by ring,
      zpow_sub₀ two_ne_zero _ (dist : ℤ), zpow_natCast]
    ring
  have hx0 : 0 < y * 2 ^ (-dist + k.format.minUnit - k.guard) := mul_pos hy (zpow_pos two_pos _)
  have hunit : k.format.unitExp (y * 2 ^ (-dist + k.format.minUnit - k.guard)) =
      k.format.minUnit := by
    apply FloatFormat.unitExp_eq_minUnit hx0
    exact hxhi.trans_le (zpow_le_zpow_right₀ one_le_two (by omega))
  -- what is shifted out is jammed
  have hjam : shiftRightJam k.width sig dist = shortShiftRightJam sig dist := by
    apply shiftRightJam_eq
    rw [width_eq hk, show k.fracBits + k.guard + 2 - 1 = k.fracBits + k.guard + 1 by omega, pow_succ']
    exact hhi
  have hcut' : SameCuts (2 ^ (k.guard - 1)) (y / 2 ^ dist) (shortShiftRightJam sig dist : ℕ) := by
    have h1 := (hcut.scale (inv_pos.2 hD)).coarsen_two_pow dist
    rw [mul_left_comm, mul_inv_cancel₀ hD.ne', mul_one, ← div_eq_mul_inv, ← div_eq_mul_inv] at h1
    have h2 := (sameCuts_shortShiftRightJam sig dist).coarsen_two_pow (k.guard - 2)
    rw [← pow_succ, show k.guard - 2 + 1 = k.guard - 1 by omega] at h2
    exact h1.trans h2
  obtain ⟨hround, hexact⟩ := round_eq_roundSig hk mode sign hunit hx (div_pos hy hD).le hcut'
  have hjamle : shortShiftRightJam sig dist ≤ 2 * k.lead := by
    have h := shortShiftRightJam_le sig dist
    have hdiv := Nat.div_le_self sig (2 ^ dist)
    omega
  have hn2 := roundSig_le hk mode sign hjamle
  -- tininess is seen before the shift
  have htiny : k.format.Tiny (mode.attribute.direction sign)
      (y * 2 ^ (-dist + k.format.minUnit - k.guard)) ↔
        (-(dist : ℤ) < -1 ∨ sig + k.roundIncrement mode sign < 2 * k.lead) := by
    rcases Nat.lt_or_ge 1 dist with hlt | hle
    · refine iff_of_true (FloatFormat.tiny_of_lt _ hx0 ?_) (Or.inl (by omega))
      exact hxhi.trans_le (zpow_le_zpow_right₀ one_le_two (by omega))
    · obtain rfl : dist = 1 := by omega
      have hunit1 : y * 2 ^ (-(1 : ℕ) + k.format.minUnit - k.guard) / 2 ^ (k.format.minUnit - 1) =
          y / 2 ^ k.guard := by
        rw [mul_div_assoc, ← zpow_sub₀ two_ne_zero, show -((1 : ℕ) : ℤ) + k.format.minUnit - k.guard -
          (k.format.minUnit - 1) = -(k.guard : ℤ) by push_cast; ring, zpow_neg, zpow_natCast,
          div_eq_mul_inv]
      have heven : 2 ^ (k.fracBits + 1) % 2 = 0 := by
        rw [pow_succ]
        exact Nat.mul_mod_left _ _
      have hlt := roundSig_lt_iff (k := k) mode sign sig heven
      rw [show 2 ^ (k.fracBits + 1) * 2 ^ k.guard = 2 * k.lead by
        rw [lead, pow_succ', mul_assoc, ← pow_add]] at hlt
      rw [FloatFormat.tiny_iff, hunit1, roundInt_eq_roundSig hk mode sign hy.le hcut,
        show k.format.prec = k.fracBits + 1 by rfl, hlt]
      · omega
      · exact (zpow_le_zpow_right₀ one_le_two (by omega)).trans hxlo
      · exact hxhi.trans_le (zpow_le_zpow_right₀ one_le_two (by omega))
  have hfits : k.format.round (mode.attribute.direction sign)
      (y * 2 ^ (-dist + k.format.minUnit - k.guard)) < 2 ^ k.format.maxExp := by
    have hmaxExp : k.format.maxExp = k.bias + 1 := rfl
    rw [hround]
    calc (k.roundSig mode sign (shortShiftRightJam sig dist) : ℚ) * 2 ^ k.format.minUnit
        ≤ (2 ^ (k.fracBits + 1) : ℕ) * 2 ^ k.format.minUnit :=
          mul_le_mul_of_nonneg_right (Nat.cast_le.2 hn2) (zpow_pos two_pos _).le
      _ = 2 ^ ((k.fracBits + 1 : ℕ) + k.format.minUnit) := by
          rw [zpow_add₀ two_ne_zero, zpow_natCast]
          push_cast
          rfl
      _ < 2 ^ k.format.maxExp := zpow_lt_zpow_right₀ one_lt_two (by omega)
  have hbig : 0 + k.roundSig mode sign (shortShiftRightJam sig dist) / 2 ^ k.fracBits < k.expMax := by
    have hdiv := Nat.div_le_div_right (c := 2 ^ k.fracBits) hn2
    rw [pow_succ', Nat.mul_div_cancel _ (Nat.two_pow_pos _)] at hdiv
    omega
  have hmoved : decide (k.format.round (mode.attribute.direction sign)
      (y * 2 ^ (-dist + k.format.minUnit - k.guard)) ≠ y * 2 ^ (-dist + k.format.minUnit - k.guard)) =
      decide (shortShiftRightJam sig dist % 2 ^ k.guard ≠ 0) := by
    simp only [ne_eq, hexact]
  have hneg : -(dist : ℤ) < 0 := by omega
  have hpacked := outcome_packRounded hk mode sign 0
    (decide ((-(dist : ℤ) < -1 ∨ sig + k.roundIncrement mode sign < 2 * k.lead) ∧
      shortShiftRightJam sig dist % 2 ^ k.guard ≠ 0)) hn2 (fun _ => rfl) hbig
  simp only [roundPack, if_pos hneg, neg_neg, Int.toNat_natCast, hjam]
  rw [Nat.cast_zero, zero_add] at hpacked
  rw [hpacked, Ieee.deliver, if_pos hfits, hmoved, hround, decide_eq_decide.2 htiny,
    Bool.decide_and]

/-- Rounding and packing delivers the number the fraction stands for. -/
theorem outcome_roundPack (mode : RoundingMode) (sign : Bool) (exp : ℤ) {sig : Nat} {y : ℚ}
    (hlo : k.lead ≤ sig) (hhi : sig < 2 * k.lead)
    (hcut : SameCuts (2 ^ (k.guard - 1)) y (sig : ℚ)) :
    k.outcome (k.roundPack mode sign exp sig) =
      Ieee.deliver k.format mode.attribute sign (y * 2 ^ (exp + k.format.minUnit - k.guard)) := by
  rcases lt_or_ge exp 0 with hneg | hnonneg
  · obtain ⟨dist, rfl⟩ : ∃ dist : ℕ, exp = -dist := ⟨exp.natAbs, by omega⟩
    exact outcome_roundPack_neg hk mode sign (by omega) hlo hhi hcut
  · obtain ⟨e, rfl⟩ := Int.eq_ofNat_of_zero_le hnonneg
    exact outcome_roundPack_nonneg hk mode sign e hlo hhi hcut

/-- A number of the format, packed as it is. -/
theorem outcome_packUI (mode : RoundingMode) (sign : Bool) {exp sig : Nat}
    (hsig : sig < 2 ^ (k.fracBits + 1)) (hsmall : sig < 2 ^ k.fracBits → exp = 0)
    (hbig : exp + 1 < k.expMax) {x : ℚ} (hx : x = sig * 2 ^ (exp + k.format.minUnit)) :
    k.outcome (k.packUI sign exp sig, {}) = Ieee.deliver k.format mode.attribute sign x := by
  have hF : 0 < 2 ^ k.fracBits := Nat.two_pow_pos _
  obtain ⟨-, hmax⟩ := two_pow_expBits hk
  have hmin : k.format.minUnit = 1 - k.bias - k.fracBits := rfl
  have hmaxExp : k.format.maxExp = k.bias + 1 := rfl
  have hdiv : sig / 2 ^ k.fracBits < 2 := by
    rw [Nat.div_lt_iff_lt_mul hF]
    rwa [pow_succ'] at hsig
  have hlt : x < 2 ^ k.format.maxExp := by
    calc x < (2 ^ (k.fracBits + 1) : ℕ) * 2 ^ (exp + k.format.minUnit) := by
          rw [hx]
          exact mul_lt_mul_of_pos_right (Nat.cast_lt.2 hsig) (zpow_pos two_pos _)
      _ = 2 ^ ((k.fracBits + 1 : ℕ) + (exp + k.format.minUnit)) := by
          rw [zpow_add₀ two_ne_zero (_ : ℤ) (exp + k.format.minUnit), zpow_natCast]
          push_cast
          rfl
      _ ≤ 2 ^ k.format.maxExp := zpow_le_zpow_right₀ one_le_two (by omega)
  rw [Ieee.deliver_exact mode.attribute sign (fun d => by
    rw [hx]
    exact FloatFormat.round_scaled d (by omega) hsig) hlt]
  simp only [outcome, datum_packUI hk hsig.le hsmall (by omega), hx]

/-- Normalizing first delivers the same, if the number is exact, or needs no more than the guard
bits to be normalized. -/
theorem outcome_normRoundPack (mode : RoundingMode) (sign : Bool) (exp : ℤ) {sig : Nat} {y : ℚ}
    (h0 : 0 < sig) (hhi : sig < 2 * k.lead) (hcut : SameCuts 2 y (sig : ℚ))
    (hexact : k.lead ≤ 4 * sig ∨ y = sig) :
    k.outcome (k.normRoundPack mode sign exp sig) =
      Ieee.deliver k.format mode.attribute sign (y * 2 ^ (exp + k.format.minUnit - k.guard)) := by
  have hg := four_le_guard hk
  have hw := width_eq hk
  have hlog : 2 ^ Nat.log 2 sig ≤ sig ∧ sig < 2 ^ (Nat.log 2 sig + 1) :=
    ⟨Nat.pow_log_le_self 2 h0.ne', Nat.lt_pow_succ_log_self one_lt_two sig⟩
  have hlog2 : Nat.log 2 sig ≤ k.fracBits + k.guard := by
    rw [lead, ← pow_succ'] at hhi
    exact Nat.le_of_lt_succ ((Nat.pow_lt_pow_iff_right one_lt_two).1 (hlog.1.trans_lt hhi))
  obtain ⟨s, hs⟩ : ∃ s : ℕ, s = k.fracBits + k.guard - Nat.log 2 sig := ⟨_, rfl⟩
  have hshift : (countLeadingZeros k.width sig : ℤ) - 1 = s := by
    rw [countLeadingZeros, if_neg h0.ne']
    omega
  have hlo' : k.lead ≤ sig * 2 ^ s := by
    calc k.lead = 2 ^ Nat.log 2 sig * 2 ^ s := by
          rw [lead, ← pow_add]
          congr 1
          omega
      _ ≤ sig * 2 ^ s := Nat.mul_le_mul_right _ hlog.1
  have hhi' : sig * 2 ^ s < 2 * k.lead := by
    calc sig * 2 ^ s < 2 ^ (Nat.log 2 sig + 1) * 2 ^ s :=
          Nat.mul_lt_mul_of_pos_right hlog.2 (Nat.two_pow_pos _)
      _ = 2 * k.lead := by
          rw [lead, ← pow_succ', ← pow_add]
          congr 1
          omega
  have hx : y * 2 ^ (exp + k.format.minUnit - k.guard) =
      y * 2 ^ s * 2 ^ (exp - s + k.format.minUnit - k.guard) := by
    rw [mul_assoc, ← zpow_natCast (2 : ℚ) s, ← zpow_add₀ two_ne_zero]
    congr 2
    ring
  -- a fraction that is not exact is all but normalized
  have hnear : k.lead ≤ 4 * sig → s ≤ 2 := by
    intro h
    have hlt : sig * 2 ^ s < sig * 2 ^ 3 := by omega
    have hs3 := (Nat.pow_lt_pow_iff_right one_lt_two).1 (Nat.lt_of_mul_lt_mul_left hlt)
    omega
  simp only [normRoundPack, hshift]
  split
  · rename_i h
    obtain ⟨hgs, hexp, hmax⟩ := h
    obtain ⟨e, he⟩ := Int.eq_ofNat_of_zero_le hexp
    obtain ⟨j, hj⟩ : ∃ j : ℕ, s = j + k.guard := ⟨s - k.guard, by omega⟩
    have hy : y = sig := hexact.resolve_left fun hlead => by
      have hs2 := hnear hlead
      omega
    have hsplit : sig * 2 ^ s = sig * 2 ^ j * 2 ^ k.guard := by
      rw [hj, pow_add, mul_assoc]
    have hG : 0 < 2 ^ k.guard := Nat.two_pow_pos _
    have hlow : 2 ^ k.fracBits ≤ sig * 2 ^ j := by
      rw [hsplit, lead, pow_add] at hlo'
      exact Nat.le_of_mul_le_mul_right hlo' hG
    have hhigh : sig * 2 ^ j < 2 ^ (k.fracBits + 1) := by
      rw [hsplit, lead, ← pow_succ', add_right_comm, pow_add] at hhi'
      exact Nat.lt_of_mul_lt_mul_right hhi'
    have hval : y * 2 ^ (exp + k.format.minUnit - k.guard) =
        (sig * 2 ^ j : ℕ) * 2 ^ (e + k.format.minUnit) := by
      rw [hy, Nat.cast_mul, Nat.cast_pow, Nat.cast_ofNat, mul_assoc, ← zpow_natCast,
        ← zpow_add₀ two_ne_zero]
      congr 2
      omega
    have hpack := outcome_packUI hk mode sign hhigh (fun hlt => absurd hlow (by omega))
      (by omega) hval
    rwa [if_pos h0.ne', he, show ((s : ℤ) - k.guard).toNat = j by omega]
  · rw [hx, Int.toNat_natCast]
    refine outcome_roundPack hk mode sign _ hlo' hhi' ?_
    push_cast
    rcases hexact with hlead | hy
    · have hs2 := hnear hlead
      have h := (hcut.scale (pow_pos two_pos s)).coarsen_two_pow (k.guard - 2 - s)
      rwa [← pow_succ', ← pow_add, show k.guard - 2 - s + (s + 1) = k.guard - 1 by omega] at h
    · rw [hy]
      exact SameCuts.refl _ _

end RoundPack

end Fmt

end SoftFloat

end EmulatR
