import EmulatR.Fp.SoftFloatMul

/-! # Conversions between formats in SoftFloat

A double becomes a single by one rounding, and a single becomes a double as it is. The routine from
doubles to singles puts a leading bit above the fraction of every number it rounds, that of a
subnormal one included; such a number is too small for it to matter (`outcome_narrow`). -/

namespace EmulatR

namespace SoftFloat

open Library

namespace Fmt

variable {k : Fmt} (hk : k.Valid)
include hk

/-! ## NaNs -/

/-- A NaN that comes from another format is quiet. -/
theorem datum_ofCommonNaN (h64 : k.fracBits ≤ 64) {a : CommonNaN} (ha : a.v64 < 2 ^ 64) :
    k.datum (k.ofCommonNaN a) = .nan false := by
  have hfb := hk.fracBits_pos
  have hF : 0 < 2 ^ k.fracBits := Nat.two_pow_pos _
  have hquiet : 2 ^ (k.fracBits - 1) < 2 ^ k.fracBits := Nat.pow_lt_pow_right one_lt_two (by omega)
  obtain ⟨hexpBits, hmax⟩ := two_pow_expBits hk
  obtain ⟨hw, -⟩ := two_pow_width hk
  have hfrac : a.v64 / 2 ^ (64 - k.fracBits) < 2 ^ k.fracBits := by
    rw [Nat.div_lt_iff_lt_mul (Nat.two_pow_pos _), ← pow_add, Nat.add_sub_cancel' h64]
    exact ha
  have hsign : (if a.sign then 2 ^ (k.width - 1) else 0) / 2 ^ k.fracBits % 2 ^ k.expBits = 0 ∧
      (if a.sign then 2 ^ (k.width - 1) else 0) % 2 ^ k.fracBits = 0 := by
    split
    · rw [hw, Nat.mul_div_cancel _ hF, ← hexpBits, Nat.mod_self, Nat.mul_mod_left]
      exact ⟨rfl, rfl⟩
    · rw [Nat.zero_div, Nat.zero_mod, Nat.zero_mod]
      exact ⟨rfl, rfl⟩
  have hbits : (k.expMax * 2 ^ k.fracBits + 2 ^ (k.fracBits - 1)) / 2 ^ k.fracBits = k.expMax ∧
      (k.expMax * 2 ^ k.fracBits + 2 ^ (k.fracBits - 1)) % 2 ^ k.fracBits = 2 ^ (k.fracBits - 1) := by
    rw [Nat.add_comm, Nat.add_mul_div_right _ _ hF, Nat.div_eq_of_lt hquiet, Nat.add_mul_mod_self_right,
      Nat.mod_eq_of_lt hquiet, Nat.zero_add]
    exact ⟨rfl, rfl⟩
  have hexp : k.expUI (k.ofCommonNaN a) = k.expMax := by
    rw [expUI, ofCommonNaN, Nat.or_div_two_pow, Nat.or_div_two_pow, Nat.or_mod_two_pow,
      Nat.or_mod_two_pow, hsign.1, hbits.1, Nat.div_eq_of_lt hfrac, Nat.zero_mod, Nat.zero_or,
      Nat.or_zero]
    exact Nat.mod_eq_of_lt (by omega)
  have hlow : 2 ^ (k.fracBits - 1) ≤ k.fracUI (k.ofCommonNaN a) := by
    rw [fracUI, ofCommonNaN, Nat.or_mod_two_pow, Nat.or_mod_two_pow, hsign.2, hbits.2, Nat.zero_or]
    exact Nat.left_le_or
  have hpos : 0 < 2 ^ (k.fracBits - 1) := Nat.two_pow_pos _
  rw [datum, datumOf, if_pos hexp, if_neg (by omega), decide_eq_false (by omega)]

/-- A number of the format is delivered as it is. -/
theorem deliver_mag (mode : RoundingMode) (sign : Bool) {exp frac : Nat} (hexp : exp < k.expMax)
    (hfrac : frac < 2 ^ k.fracBits) :
    Ieee.deliver k.format mode.attribute sign
      ((k.fullSig exp frac : ℚ) * 2 ^ ((exp - 1 : ℕ) + k.format.minUnit)) =
        { datum := .finite sign (k.fullSig exp frac * 2 ^ ((exp - 1 : ℕ) + k.format.minUnit)) } := by
  have hF : 0 < 2 ^ k.fracBits := Nat.two_pow_pos _
  have hb := fifteen_le_bias hk
  obtain ⟨-, hmax⟩ := two_pow_expBits hk
  have hsig : k.fullSig exp frac < 2 ^ (k.fracBits + 1) := by
    rw [fullSig, pow_succ]
    split <;> omega
  have hsmall : k.fullSig exp frac < 2 ^ k.fracBits → exp - 1 = 0 := by
    rw [fullSig]
    split <;> omega
  have hdiv : k.fullSig exp frac / 2 ^ k.fracBits ≤ 1 := by
    rw [pow_succ] at hsig
    exact Nat.le_of_lt_succ ((Nat.div_lt_iff_lt_mul hF).2 (by omega))
  rw [← outcome_packUI hk mode sign hsig hsmall (by omega) rfl]
  simp only [outcome, datum_packUI hk hsig.le hsmall (by omega)]

end Fmt

/-! ## Between doubles and singles -/

section Narrow

/-- Half the bits of a fraction are kept, above its leading bit. -/
theorem or_lead_jam {frac : Nat} (hfrac : frac < 2 ^ 52) :
    shortShiftRightJam frac 22 ||| 0x40000000 = 2 ^ 30 + shortShiftRightJam frac 22 := by
  have hlt : shortShiftRightJam frac 22 < 2 ^ 30 := shortShiftRightJam_lt (by decide) hfrac
  have h := Nat.two_pow_add_eq_or_of_lt hlt 1
  rw [Nat.mul_one] at h
  rw [h, Nat.or_comm]

/-- A jamming shift of something is something. -/
theorem jam_eq_zero_iff (frac dist : Nat) : shortShiftRightJam frac dist = 0 ↔ frac = 0 := by
  have h := Nat.div_add_mod frac (2 ^ dist)
  rw [shortShiftRightJam, Nat.or_eq_zero_iff]
  constructor
  · rintro ⟨hq, hr⟩
    rw [hq, Nat.mul_zero, Nat.zero_add] at h
    split at hr
    · exact absurd hr one_ne_zero
    · rename_i hmod
      rw [not_not] at hmod
      omega
  · rintro rfl
    rw [Nat.zero_div, Nat.zero_mod]
    exact ⟨rfl, rfl⟩

/-- The fraction of a double, shortened with jamming, rounds as the double does. -/
theorem outcome_narrow (mode : RoundingMode) (sign : Bool) {exp frac : Nat} (hfrac : frac < 2 ^ 52)
    (h0 : ¬ (exp = 0 ∧ frac = 0)) :
    f32.outcome (f32.roundPack mode sign (exp - 0x381) (2 ^ 30 + shortShiftRightJam frac 22)) =
      Ieee.deliver f32.format mode.attribute sign
        ((f64.fullSig exp frac : ℚ) * 2 ^ ((exp - 1 : ℕ) + f64.format.minUnit)) := by
  have hlt : shortShiftRightJam frac 22 < 2 ^ 30 := shortShiftRightJam_lt (by decide) hfrac
  have hmin64 : f64.format.minUnit = -1074 := rfl
  have hmin32 : f32.format.minUnit = -149 := rfl
  have hguard : f32.guard = 7 := rfl
  have hlead : f32.lead = 2 ^ 30 := rfl
  rcases Nat.eq_zero_or_pos exp with rfl | hpos
  · -- the bit that is put above the fraction leaves the number too small to matter
    have hfrac0 : 0 < frac := by omega
    have hsmall : ∀ {n : ℕ} {e : ℤ}, 0 < n → n < 2 ^ 52 → e + 52 ≤ -150 →
        Ieee.deliver f32.format mode.attribute sign ((n : ℚ) * 2 ^ e) =
          { datum := .finite sign
              (if mode.attribute.direction sign = .up then 2 ^ f32.format.minUnit else 0)
            underflow := true, inexact := true } := by
      intro n e hn hlt he
      refine Ieee.deliver_of_small (by decide) (by decide) _ _
        (mul_pos (Nat.cast_pos.2 hn) (zpow_pos two_pos _)) ?_
      calc (n : ℚ) * 2 ^ e < 2 ^ 52 * 2 ^ e :=
            mul_lt_mul_of_pos_right (by exact_mod_cast hlt) (zpow_pos two_pos _)
        _ = 2 ^ (52 + e) := by
            rw [zpow_add₀ two_ne_zero]
            rfl
        _ ≤ 2 ^ (f32.format.minUnit - 1) := zpow_le_zpow_right₀ one_le_two (by omega)
    rw [Fmt.outcome_roundPack Fmt.valid_f32 mode sign _ (hlead.le.trans (Nat.le_add_right _ _))
      (by omega) (SameCuts.refl _ _), Fmt.fullSig, if_pos rfl, hsmall (by omega) (by omega) (by omega),
      hsmall hfrac0 hfrac (by omega)]
  · have hcut : SameCuts 2 ((frac : ℚ) / 2 ^ 22 + 2 ^ 30)
        ((2 ^ 30 + shortShiftRightJam frac 22 : ℕ) : ℚ) := by
      have h := (sameCuts_shortShiftRightJam frac 22).add_mul (2 ^ 29)
      rw [show ((2 ^ 29 : ℤ) : ℚ) * 2 = 2 ^ 30 by norm_num] at h
      rwa [Nat.cast_add, Nat.cast_pow, Nat.cast_ofNat, add_comm (2 ^ 30 : ℚ)]
    have hcut' := hcut.coarsen_two_pow 5
    rw [← pow_succ] at hcut'
    rw [Fmt.outcome_roundPack Fmt.valid_f32 mode sign _ (hlead.le.trans (Nat.le_add_right _ _))
      (by omega) hcut']
    congr 1
    have hunit : (2 : ℚ) ^ ((exp : ℤ) - 0x381 + f32.format.minUnit - f32.guard) =
        2 ^ 22 * 2 ^ (((exp - 1 : ℕ) : ℤ) + f64.format.minUnit) := by
      rw [← zpow_natCast (2 : ℚ) 22, ← zpow_add₀ two_ne_zero]
      congr 1
      omega
    rw [Fmt.fullSig, if_neg hpos.ne', hunit, ← mul_assoc, add_mul,
      div_mul_cancel₀ _ (pow_pos two_pos _).ne', Nat.cast_add, add_comm]
    norm_num [f64]

/-- A double as a single. -/
theorem wordOutcome_f64ToF32 (mode : RoundingMode) (a : Word) :
    f32.wordOutcome (f64ToF32 mode a) =
      Ieee.convert f32.format mode.attribute (f64.datum a.toNat) := by
  rw [f64ToF32, wordOutcome_onSingles]
  have hfrac : f64.fracUI a.toNat < 2 ^ 52 := Fmt.fracUI_lt _
  split
  · rename_i hinf
    split
    · rename_i hf
      have hnan : f64.isNaNUI a.toNat = true := Fmt.isNaNUI_iff.2 ⟨hinf, hf⟩
      rw [Fmt.datum, Fmt.datumOf_nan hnan]
      simp only [Fmt.outcome, Ieee.convert, Ieee.propagate]
      rw [Fmt.datum_ofCommonNaN Fmt.valid_f32 (by decide) (Nat.mod_lt _ (by decide))]
      rfl
    · rename_i hf
      rw [not_not] at hf
      rw [Fmt.datum, Fmt.datumOf_inf hinf hf]
      simp only [Fmt.outcome, Fmt.datum_packUI_inf Fmt.valid_f32, Ieee.convert]
  · rename_i hinf
    rw [Fmt.datum, Fmt.datumOf_finite hinf]
    simp only [jam_eq_zero_iff]
    split
    · rename_i hzero
      rw [Fmt.outcome_packUI_zero Fmt.valid_f32, Ieee.convert, (Fmt.mag_eq_zero_iff _ _).2 hzero,
        Ieee.deliver_zero]
    · rename_i hzero
      rw [or_lead_jam hfrac]
      exact outcome_narrow mode _ hfrac hzero

end Narrow

section Widen

/-- The fields of a single, in the fields of a double. -/
theorem outcome_widen (sign : Bool) {exp frac : Nat} (hexp : exp < 255) (hfrac : frac < 2 ^ 23)
    (h0 : ¬ (exp = 0 ∧ frac = 0)) {a : Int × Nat}
    (ha : a = if exp = 0 then ((f32.normSubnormalSig frac).1 - 1, (f32.normSubnormalSig frac).2)
      else ((exp : ℤ), frac)) :
    f64.outcome (f64.packUI sign (a.1 + 0x380) (a.2 * 2 ^ 29), {}) =
      { datum := .finite sign ((f32.fullSig exp frac : ℚ) * 2 ^ ((exp - 1 : ℕ) + f32.format.minUnit)) }
      := by
  have hmin64 : f64.format.minUnit = -1074 := rfl
  have hmin32 : f32.format.minUnit = -149 := rfl
  have hbits : f64.fracBits = 52 := rfl
  have hmax : f64.expMax = 2047 := rfl
  rcases Nat.eq_zero_or_pos exp with rfl | hpos
  · obtain ⟨s, hshift, hs, hlow, hhigh⟩ := Fmt.norm_shift (k := f32) (by omega : 0 < frac) hfrac
    rw [show f32.fracBits = 23 by rfl] at hs hlow hhigh
    have hexp : (1 : ℤ) - s - 1 + 0x380 = (0x380 - s : ℕ) := by omega
    have hunit : (2 : ℚ) ^ ((0 - 1 : ℕ) + f32.format.minUnit) =
        2 ^ (s + 29) * 2 ^ ((0x380 - s : ℕ) + f64.format.minUnit) := by
      rw [← zpow_natCast (2 : ℚ) (s + 29), ← zpow_add₀ two_ne_zero]
      congr 1
      omega
    simp only [Fmt.outcome, ha, if_true, Fmt.normSubnormalSig, hshift]
    rw [hexp, Fmt.datum_packUI Fmt.valid_f64 (by rw [hbits]; omega) (by rw [hbits]; omega)
      (by rw [hbits]; omega), Fmt.fullSig, if_pos rfl, hunit, mul_assoc frac, ← pow_add,
      Nat.cast_mul, Nat.cast_pow, Nat.cast_ofNat, mul_assoc]
  · have hexp' : (exp : ℤ) + 0x380 = (exp + 0x37F : ℕ) + 1 := by omega
    have hunit : (2 : ℚ) ^ ((exp - 1 : ℕ) + f32.format.minUnit) =
        2 ^ 29 * 2 ^ ((exp + 0x37F : ℕ) + f64.format.minUnit) := by
      rw [← zpow_natCast (2 : ℚ) 29, ← zpow_add₀ two_ne_zero]
      refine congrArg (fun e : ℤ => (2 : ℚ) ^ e) ?_
      omega
    have hsig : 2 ^ 52 + frac * 2 ^ 29 = (2 ^ f32.fracBits + frac) * 2 ^ 29 := by
      rw [show f32.fracBits = 23 by rfl]
      omega
    simp only [Fmt.outcome, ha, if_neg hpos.ne']
    rw [hexp', Fmt.packUI_carry, hbits, Fmt.datum_packUI Fmt.valid_f64 (by rw [hbits]; omega)
      (by rw [hbits]; omega) (by rw [hbits]; omega), Fmt.fullSig, if_neg hpos.ne', hunit, hsig,
      Nat.cast_mul _ (2 ^ 29), Nat.cast_pow, Nat.cast_ofNat, mul_assoc]

/-- A single as a double. -/
theorem wordOutcome_f32ToF64 (a : BitVec 32) :
    f64.wordOutcome (f32ToF64 a) = Ieee.exact (f32.datum a.toNat) := by
  rw [f32ToF64, wordOutcome_onWords]
  have hfrac : f32.fracUI a.toNat < 2 ^ 23 := Fmt.fracUI_lt _
  have hexp : f32.expUI a.toNat < 256 := Fmt.expUI_lt Fmt.valid_f32 _
  split
  · rename_i hinf
    split
    · rename_i hf
      have hnan : f32.isNaNUI a.toNat = true := Fmt.isNaNUI_iff.2 ⟨hinf, hf⟩
      rw [Fmt.datum, Fmt.datumOf_nan hnan]
      simp only [Fmt.outcome, Ieee.exact, Ieee.propagate]
      rw [Fmt.datum_ofCommonNaN Fmt.valid_f64 (by decide) (Nat.mod_lt _ (by decide))]
      rfl
    · rename_i hf
      rw [not_not] at hf
      rw [Fmt.datum, Fmt.datumOf_inf hinf hf]
      simp only [Fmt.outcome, Fmt.datum_packUI_inf Fmt.valid_f64, Ieee.exact]
  · rename_i hinf
    rw [Fmt.datum, Fmt.datumOf_finite hinf]
    have hmax : f32.expMax = 255 := rfl
    split
    · rename_i hzero
      rw [Fmt.outcome_packUI_zero Fmt.valid_f64, (Fmt.mag_eq_zero_iff _ _).2 hzero]
      rfl
    · rename_i hzero
      exact outcome_widen _ (by omega) hfrac hzero rfl

end Widen

end SoftFloat

end EmulatR
