import EmulatR.Fp.SoftFloatAdd
import EmulatR.Fp.VaxCompare

/-! # Comparisons in SoftFloat

The comparisons look at the bits below the sign; the magnitude of a number grows with them, so they
decide the order of the data, the zeros being equal and a NaN being unordered.

`f64_comparisons` is the result for the routines the backend calls. -/

namespace EmulatR

namespace SoftFloat

open Library

namespace Fmt

variable {k : Fmt}

/-! ## Magnitudes and their bits -/

/-- A magnitude in units of the least subnormal. -/
def magUnits (k : Fmt) (exp frac : Nat) : Nat := k.fullSig exp frac * 2 ^ (exp - 1)

/-- A magnitude is a number of units of the last place. -/
theorem mag_eq (exp frac : Nat) :
    (k.fullSig exp frac : ℚ) * 2 ^ ((exp - 1 : ℕ) + k.format.minUnit) =
      k.magUnits exp frac * 2 ^ k.format.minUnit := by
  rw [magUnits, zpow_add₀ two_ne_zero, zpow_natCast]
  push_cast
  ring

/-- Across a binade the leading bit outweighs every fraction. -/
theorem magUnits_lt {e f e' f' : Nat} (hf : f < 2 ^ k.fracBits) (hf' : f' < 2 ^ k.fracBits)
    (h : e * 2 ^ k.fracBits + f < e' * 2 ^ k.fracBits + f') :
    k.magUnits e f < k.magUnits e' f' := by
  have hF : 0 < 2 ^ k.fracBits := Nat.two_pow_pos _
  have hle : e ≤ e' := by
    by_contra hlt
    have hmul : (e' + 1) * 2 ^ k.fracBits ≤ e * 2 ^ k.fracBits := Nat.mul_le_mul_right _ (by omega)
    rw [Nat.succ_mul] at hmul
    omega
  unfold magUnits
  rcases hle.eq_or_lt with rfl | hlt
  · apply Nat.mul_lt_mul_of_pos_right _ (Nat.two_pow_pos _)
    rw [fullSig, fullSig]
    split <;> omega
  · have hbelow : k.fullSig e f * 2 ^ (e - 1) < 2 ^ k.fracBits * 2 ^ (e' - 1) := by
      rw [fullSig]
      split
      · rename_i h0
        rw [h0, Nat.zero_sub, pow_zero, Nat.mul_one]
        exact hf.trans_le (Nat.le_mul_of_pos_right _ (Nat.two_pow_pos _))
      · calc (2 ^ k.fracBits + f) * 2 ^ (e - 1) < 2 ^ k.fracBits * 2 * 2 ^ (e - 1) :=
              Nat.mul_lt_mul_of_pos_right (by omega) (Nat.two_pow_pos _)
          _ = 2 ^ k.fracBits * 2 ^ (e - 1 + 1) := by
              rw [pow_succ']
              ring
          _ ≤ 2 ^ k.fracBits * 2 ^ (e' - 1) :=
              Nat.mul_le_mul_left _ (Nat.pow_le_pow_right two_pos (by omega))
    refine hbelow.trans_le (Nat.mul_le_mul_right _ ?_)
    rw [fullSig, if_neg (by omega)]
    exact Nat.le_add_right _ _

/-- Magnitudes are ordered as the bits below the sign are. -/
theorem magUnits_lt_iff (e e' : Nat) {f f' : Nat} (hf : f < 2 ^ k.fracBits)
    (hf' : f' < 2 ^ k.fracBits) :
    k.magUnits e f < k.magUnits e' f' ↔ e * 2 ^ k.fracBits + f < e' * 2 ^ k.fracBits + f' := by
  refine ⟨fun h => ?_, magUnits_lt hf hf'⟩
  rcases Nat.lt_trichotomy (e * 2 ^ k.fracBits + f) (e' * 2 ^ k.fracBits + f') with hlt | heq | hgt
  · exact hlt
  · have hmod : f = f' := by
      have h' := congrArg (· % 2 ^ k.fracBits) heq
      simpa only [Nat.mul_add_mod_self_right, Nat.mod_eq_of_lt hf, Nat.mod_eq_of_lt hf'] using h'
    rw [hmod, Nat.add_right_cancel_iff, Nat.mul_left_inj (Nat.two_pow_pos _).ne'] at heq
    rw [heq, hmod] at h
    exact absurd h (lt_irrefl _)
  · exact absurd h (magUnits_lt hf' hf hgt).not_gt

/-- Only the zero pattern has no units. -/
theorem magUnits_eq_zero_iff (e f : Nat) : k.magUnits e f = 0 ↔ e * 2 ^ k.fracBits + f = 0 := by
  have hF : 0 < 2 ^ k.fracBits := Nat.two_pow_pos _
  rw [magUnits, Nat.mul_eq_zero, or_iff_left (Nat.two_pow_pos _).ne', Nat.add_eq_zero_iff,
    Nat.mul_eq_zero, or_iff_left hF.ne', fullSig]
  split <;> omega

end Fmt

/-! ## The order of the data -/

section Order

/-- Signs turn two orders of magnitudes alike. -/
theorem signed_lt_iff {s t : Bool} {u v b c : Nat} (hlt : u < v ↔ b < c) (hgt : v < u ↔ c < b)
    (hu : u = 0 ↔ b = 0) (hv : v = 0 ↔ c = 0) :
    (if s then -(u : ℤ) else u) < (if t then -(v : ℤ) else v) ↔
      (if s then -(b : ℤ) else b) < (if t then -(c : ℤ) else c) := by
  cases s <;> cases t <;> simp only [Bool.false_eq_true, if_false, if_true] <;> omega

/-- The larger magnitude decides. -/
theorem signed_of_larger (s t : Bool) {m c : Nat} (h : c < m) :
    decide ((if s then -(m : ℤ) else m) < (if t then -(c : ℤ) else c)) = s ∧
      decide ((if t then -(c : ℤ) else c) < (if s then -(m : ℤ) else m)) = !s ∧
      (if s then -(m : ℤ) else m) ≠ (if t then -(c : ℤ) else c) := by
  cases s <;> cases t <;> simp only [Bool.false_eq_true, if_false, if_true, Bool.not_false,
    Bool.not_true, decide_eq_true_eq, decide_eq_false_iff_not] <;> omega

/-- A sign on a number of units. -/
theorem signed_units (s : Bool) (u : Nat) (e : ℤ) :
    Ieee.signed s ((u : ℚ) * 2 ^ e) = ((if s then -(u : ℤ) else u : ℤ) : ℚ) * 2 ^ e := by
  cases s <;> simp [Ieee.signed]

/-- The fields of a register image, as the formats name them. -/
theorem datum_eq_fields (a : Word) :
    f64.datum a.toNat = f64.datumOf (Vax.signOf a) (Vax.expOf a) (Vax.fracOf a).toNat := by
  have hs : f64.signUI a.toNat = Vax.signOf a := by
    have hlt := a.isLt
    rw [Vax.signOf_eq, Fmt.signUI, decide_eq_decide, show f64.width - 1 = 63 by rfl]
    omega
  rw [Fmt.datum, hs, Vax.expOf_eq, Vax.toNat_fracOf]
  rfl

/-- The two backends mean the same NaN patterns. -/
theorem isNaNUI_iff_pattern (a : Word) : f64.isNaNUI a.toNat = true ↔ Vax.IsNaNPattern a := by
  rw [Fmt.isNaNUI_iff, Vax.IsNaNPattern, Vax.expOf_eq, ← BitVec.toNat_inj.ne, Vax.toNat_fracOf]
  rfl

variable {a b : Word}

/-- Data that are not NaNs are ordered as their signed bits. -/
theorem datum_lt_eq (ha : ¬ Vax.IsNaNPattern a) (hb : ¬ Vax.IsNaNPattern b) :
    (f64.datum a.toNat).lt (f64.datum b.toNat) = decide (Vax.signedBits a < Vax.signedBits b) ∧
      (f64.datum a.toNat).eq (f64.datum b.toNat) = decide (Vax.signedBits a = Vax.signedBits b) := by
  have hma := Vax.magBits_eq a
  have hmb := Vax.magBits_eq b
  have hfa := Vax.fracOf_lt a
  have hfb := Vax.fracOf_lt b
  have hea := Vax.expOf_lt a
  have heb := Vax.expOf_lt b
  have hmax : f64.expMax = 2047 := rfl
  have hinf : ∀ c : Word, ¬ Vax.IsNaNPattern c → Vax.expOf c = 2047 → (Vax.fracOf c).toNat = 0 := by
    intro c hc he
    by_contra hf
    exact hc ⟨he, fun h0 => hf (by rw [h0]; rfl)⟩
  rw [datum_eq_fields, datum_eq_fields, Vax.signedBits, Vax.signedBits, hma, hmb]
  by_cases ha' : Vax.expOf a = 2047
  · rw [Fmt.datumOf_inf (ha'.trans hmax.symm) (hinf a ha ha'), ha', hinf a ha ha']
    by_cases hb' : Vax.expOf b = 2047
    · rw [Fmt.datumOf_inf (hb'.trans hmax.symm) (hinf b hb hb'), hb', hinf b hb hb']
      cases Vax.signOf a <;> cases Vax.signOf b <;> decide
    · obtain ⟨hlt, -, hne⟩ := signed_of_larger (Vax.signOf a) (Vax.signOf b)
        (by omega : Vax.expOf b * 2 ^ 52 + (Vax.fracOf b).toNat < 2047 * 2 ^ 52 + 0)
      rw [Fmt.datumOf_finite (hmax ▸ hb'), hlt, decide_eq_false hne]
      exact ⟨rfl, rfl⟩
  · rw [Fmt.datumOf_finite (hmax ▸ ha')]
    by_cases hb' : Vax.expOf b = 2047
    · rw [Fmt.datumOf_inf (hb'.trans hmax.symm) (hinf b hb hb'), hb', hinf b hb hb']
      obtain ⟨-, hlt, hne⟩ := signed_of_larger (Vax.signOf b) (Vax.signOf a)
        (by omega : Vax.expOf a * 2 ^ 52 + (Vax.fracOf a).toNat < 2047 * 2 ^ 52 + 0)
      rw [hlt, decide_eq_false hne.symm]
      exact ⟨rfl, rfl⟩
    · rw [Fmt.datumOf_finite (hmax ▸ hb')]
      have hlt := Fmt.magUnits_lt_iff (k := f64) (Vax.expOf a) (Vax.expOf b) hfa hfb
      have hgt := Fmt.magUnits_lt_iff (k := f64) (Vax.expOf b) (Vax.expOf a) hfb hfa
      have hza := Fmt.magUnits_eq_zero_iff (k := f64) (Vax.expOf a) (Vax.fracOf a).toNat
      have hzb := Fmt.magUnits_eq_zero_iff (k := f64) (Vax.expOf b) (Vax.fracOf b).toNat
      have hpos : (0 : ℚ) < 2 ^ f64.format.minUnit := zpow_pos two_pos _
      have hsigned := signed_lt_iff (s := Vax.signOf a) (t := Vax.signOf b) hlt hgt hza hzb
      have hsigned' := signed_lt_iff (s := Vax.signOf b) (t := Vax.signOf a) hgt hlt hzb hza
      simp only [Ieee.Datum.lt, Ieee.Datum.eq, Fmt.mag_eq, signed_units, decide_eq_decide,
        mul_lt_mul_iff_left₀ hpos, mul_left_inj' hpos.ne', Int.cast_lt, Int.cast_inj]
      have hle := and_congr (le_iff_le_iff_lt_iff_lt.2 hsigned') (le_iff_le_iff_lt_iff_lt.2 hsigned)
      exact ⟨hsigned, le_antisymm_iff.trans (hle.trans le_antisymm_iff.symm)⟩

/-- The kernel's test for a signaling NaN. -/
theorem isSigNaNF64UI_eq (a : Word) : isSigNaNF64UI a = (f64.datum a.toNat).isSignaling := by
  have hm : (0x7FF8000000000000 : Word).toNat = (2 ^ 12 - 1) * 2 ^ 51 := rfl
  have hlow : (a &&& 0x0007FFFFFFFFFFFF).toNat = a.toNat % 2 ^ 51 := toNat_and_lowMask 51 rfl
  have hfield : a &&& 0x7FF8000000000000 = 0x7FF0000000000000 ↔
      a.toNat / 2 ^ 51 % 2 ^ 12 = 0xFFE := by
    have hc : (0x7FF0000000000000 : Word).toNat = 0xFFE * 2 ^ 51 := rfl
    rw [← BitVec.toNat_inj, toNat_and_fieldMask 51 12 hm, hc]
    omega
  have hfrac : a &&& 0x0007FFFFFFFFFFFF ≠ 0 ↔ a.toNat % 2 ^ 51 ≠ 0 := by
    rw [Ne, ← BitVec.toNat_inj, hlow]
    rfl
  have hexp : f64.expUI a.toNat = a.toNat / 2 ^ 52 % 2 ^ 11 := rfl
  have hfr : f64.fracUI a.toNat = a.toNat % 2 ^ 52 := rfl
  have hmax : f64.expMax = 2047 := rfl
  rw [isSigNaNF64UI, Fmt.datum, Fmt.datumOf, hexp, hfr, hmax, Bool.eq_iff_iff, Bool.and_eq_true,
    beq_iff_eq, bne_iff_ne, hfield, hfrac]
  split
  · split
    · simp only [Ieee.Datum.isSignaling, Bool.false_eq_true, iff_false]
      omega
    · simp only [Ieee.Datum.isSignaling, decide_eq_true_eq, show f64.fracBits - 1 = 51 by rfl]
      omega
  · simp only [Ieee.Datum.isSignaling, Bool.false_eq_true, iff_false]
    omega

/-- The kernel's test for a NaN. -/
theorem isNaNF64UI_eq_isNaN (a : Word) : isNaNF64UI a = (f64.datum a.toNat).isNaN := by
  rw [Vax.isNaNF64UI_eq, Bool.eq_iff_iff, decide_eq_true_iff, ← isNaNUI_iff_pattern]
  constructor
  · intro h
    rw [Fmt.datum, Fmt.datumOf_nan h]
    rfl
  · intro h
    by_contra hn
    have hne := Fmt.datumOf_ne_nan (s := f64.signUI a.toNat) hn
    rw [Fmt.datum] at h
    generalize f64.datumOf (f64.signUI a.toNat) (f64.expUI a.toNat) (f64.fracUI a.toNat) = d at h hne
    cases d with
    | nan t => exact hne t rfl
    | inf _ => exact Bool.false_ne_true h
    | finite _ _ => exact Bool.false_ne_true h

/-- A NaN is neither below a datum nor equal to it. -/
theorem unordered {d e : Ieee.Datum ℚ} (h : (d.isNaN || e.isNaN) = true) :
    d.lt e = false ∧ d.eq e = false := by
  cases d <;> cases e <;> simp_all [Ieee.Datum.isNaN, Ieee.Datum.lt, Ieee.Datum.eq]

end Order

/-! ## The comparisons -/

section Comparisons

variable (a b : Word)

/-- The exceptions of a comparison of two data: a signaling NaN is invalid. -/
def compareFlags (d e : Ieee.Datum ℚ) : ExceptionFlags :=
  { invalid := d.isSignaling || e.isSignaling }

/-- The comparisons are those of the data. -/
theorem f64_comparisons :
    f64Eq a b = ((f64.datum a.toNat).eq (f64.datum b.toNat),
      compareFlags (f64.datum a.toNat) (f64.datum b.toNat)) ∧
    f64LtQuiet a b = ((f64.datum a.toNat).lt (f64.datum b.toNat),
      compareFlags (f64.datum a.toNat) (f64.datum b.toNat)) ∧
    f64LeQuiet a b =
      ((f64.datum a.toNat).lt (f64.datum b.toNat) || (f64.datum a.toNat).eq (f64.datum b.toNat),
        compareFlags (f64.datum a.toNat) (f64.datum b.toNat)) := by
  by_cases hnan : (isNaNF64UI a || isNaNF64UI b) = true
  · have hdata := hnan
    rw [isNaNF64UI_eq_isNaN, isNaNF64UI_eq_isNaN] at hdata
    obtain ⟨hlt, heq⟩ := unordered hdata
    rw [f64Eq, f64LtQuiet, f64LeQuiet, if_pos hnan, if_pos hnan, if_pos hnan, hlt, heq, nanFlags,
      isSigNaNF64UI_eq, isSigNaNF64UI_eq]
    exact ⟨rfl, rfl, rfl⟩
  · have hpatterns := hnan
    rw [Vax.isNaNF64UI_eq, Vax.isNaNF64UI_eq, Bool.or_eq_true, decide_eq_true_iff, decide_eq_true_iff,
      not_or] at hpatterns
    obtain ⟨ha, hb⟩ := hpatterns
    obtain ⟨hlt, heq⟩ := datum_lt_eq ha hb
    have hquiet : ∀ c : Word, ¬ Vax.IsNaNPattern c → (f64.datum c.toNat).isSignaling = false := by
      intro c hc
      have hn := Vax.isNaNF64UI_eq c
      rw [decide_eq_false hc, isNaNF64UI_eq_isNaN] at hn
      cases hd : f64.datum c.toNat with
      | nan t =>
        rw [hd] at hn
        exact (Bool.false_ne_true hn.symm).elim
      | inf _ => rfl
      | finite _ _ => rfl
    have hflags : compareFlags (f64.datum a.toNat) (f64.datum b.toNat) = {} := by
      rw [compareFlags, hquiet a ha, hquiet b hb]
      rfl
    rw [hflags, hlt, heq]
    refine ⟨Prod.ext ?_ ?_, Prod.ext ?_ ?_, Prod.ext ?_ ?_⟩
    · rw [Bool.eq_iff_iff, Vax.f64Eq_iff ha hb, decide_eq_true_iff]
    · rw [f64Eq, if_neg hnan]
    · rw [Bool.eq_iff_iff, Vax.f64LtQuiet_iff ha hb, decide_eq_true_iff]
    · rw [f64LtQuiet, if_neg hnan]
    · rw [Bool.eq_iff_iff, Vax.f64LeQuiet_iff ha hb, Bool.or_eq_true, decide_eq_true_iff,
        decide_eq_true_iff, le_iff_lt_or_eq]
    · rw [f64LeQuiet, if_neg hnan]

end Comparisons

end SoftFloat

end EmulatR
