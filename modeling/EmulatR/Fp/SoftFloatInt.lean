import EmulatR.Fp.SoftFloatConvert
import EmulatR.Fp.VaxConvert

/-! # Integers in SoftFloat

A signed 64-bit integer becomes a number by one rounding (`wordOutcome_i64ToF64`), and a double
becomes an integer by one rounding, or is refused. The routine from integers to doubles is the one
the conversions to the VAX formats use too. -/

namespace EmulatR

namespace SoftFloat

open Library

/-! ## Integers to numbers -/

section FromInt

/-- The magnitude of an integer, as the routines take it. -/
theorem toNat_absA (a : Word) : (if a.slt 0 then -a else a).toNat = a.toInt.natAbs := by
  have hlt := a.isLt
  rw [Vax.natAbs_toInt]
  split
  · rename_i hs
    rw [Vax.slt_zero_eq, decide_eq_true_iff] at hs
    rw [BitVec.toNat_neg]
    omega
  · rfl

/-- The kernel's sign test is that of the integer. -/
theorem slt_zero_eq_toInt (a : Word) : a.slt 0 = decide (a.toInt < 0) := rfl

/-- A signed 64-bit integer as a double. -/
theorem wordOutcome_i64ToF64 (mode : RoundingMode) (a : Word) :
    f64.wordOutcome (i64ToF64 mode a) =
      Ieee.deliver f64.format mode.attribute (decide (a.toInt < 0)) (a.toInt.natAbs : ℚ) := by
  have hmin : a &&& 0x7FFFFFFFFFFFFFFF = 0 ↔ a.toNat % 2 ^ 63 = 0 := by
    rw [← BitVec.toNat_inj, toNat_and_lowMask 63 rfl]
    rfl
  have hlt := a.isLt
  have habs := toNat_absA a
  have hsign := Vax.slt_zero_eq a
  have hmag := Vax.natAbs_toInt a
  have hmin64 : f64.format.minUnit = -1074 := rfl
  rw [← slt_zero_eq_toInt]
  simp only [i64ToF64, hmin]
  split
  · rename_i hmod
    split
    · -- the smallest integer
      rename_i hs
      rw [hs, eq_comm, decide_eq_true_iff] at hsign
      rw [if_pos hs] at hmag
      have hpack : f64.packUI true 0x43E 0 = f64.packUI true (0x43D : ℕ) (2 ^ 52) := by decide
      have hvalue : (a.toInt.natAbs : ℚ) =
          (2 ^ 52 : ℕ) * 2 ^ (((0x43D : ℕ) : ℤ) + f64.format.minUnit) := by
        rw [hmag, show 2 ^ 64 - a.toNat = 2 ^ 63 by omega, hmin64]
        norm_num
      rw [hs, wordOutcome_onWords, hpack]
      exact Fmt.outcome_packUI Fmt.valid_f64 mode true (by decide) (by decide) (by decide) hvalue
    · rename_i hs
      rw [Bool.eq_false_of_not_eq_true hs, eq_comm, decide_eq_false_iff_not] at hsign
      rw [if_neg hs] at hmag
      rw [Bool.eq_false_of_not_eq_true hs, hmag, show a.toNat = 0 by omega, Nat.cast_zero,
        Ieee.deliver_zero]
      rw [wordOutcome_onWords]
      exact Fmt.outcome_packUI_zero Fmt.valid_f64 false
  · rename_i hmod
    have hrange : 0 < a.toInt.natAbs ∧ a.toInt.natAbs < 2 ^ 63 := by
      rw [hmag]
      rw [hsign]
      simp only [decide_eq_true_eq]
      split <;> omega
    rw [wordOutcome_onWords, habs, Fmt.outcome_normRoundPack Fmt.valid_f64 mode _ _ hrange.1 hrange.2
      (SameCuts.refl _ _) (Or.inr rfl), hmin64]
    congr 1
    norm_num [f64, Fmt.guard]

/-- A signed 64-bit integer as a single. -/
theorem wordOutcome_i64ToF32 (mode : RoundingMode) (a : Word) :
    f32.wordOutcome (i64ToF32 mode a) =
      Ieee.deliver f32.format mode.attribute (decide (a.toInt < 0)) (a.toInt.natAbs : ℚ) := by
  have hmin32 : f32.format.minUnit = -149 := rfl
  have hguard : f32.guard = 7 := rfl
  have hlead : f32.lead = 2 ^ 30 := rfl
  have hfrac : f32.fracBits = 23 := rfl
  simp only [i64ToF32]
  rw [wordOutcome_onSingles, toNat_absA, ← slt_zero_eq_toInt]
  by_cases h : a = 0
  · subst h
    exact (Fmt.outcome_packUI_zero Fmt.valid_f32 false).trans (Ieee.deliver_zero _ _ _).symm
  obtain ⟨hpos, hle⟩ := Vax.natAbs_toInt_bounds h
  have hlog63 := Vax.log_natAbs_le h
  have hlog : 2 ^ Nat.log 2 a.toInt.natAbs ≤ a.toInt.natAbs ∧
      a.toInt.natAbs < 2 ^ (Nat.log 2 a.toInt.natAbs + 1) :=
    ⟨Nat.pow_log_le_self 2 hpos.ne', Nat.lt_pow_succ_log_self one_lt_two _⟩
  have hclz : (countLeadingZeros 64 a.toInt.natAbs : Int) = 63 - Nat.log 2 a.toInt.natAbs := by
    rw [countLeadingZeros, if_neg hpos.ne']
    omega
  generalize a.toInt.natAbs = n at *
  rw [hclz]
  split
  · rename_i hsmall
    obtain ⟨s, hs⟩ : ∃ s : ℕ, Nat.log 2 n + s = 23 := ⟨23 - Nat.log 2 n, by omega⟩
    have hshift : (63 : Int) - Nat.log 2 n - 40 = s := by omega
    have hlow : 2 ^ 23 ≤ n * 2 ^ s := by
      rw [← hs, pow_add]
      exact Nat.mul_le_mul_right _ hlog.1
    have hhigh : n * 2 ^ s < 2 ^ 24 := by
      rw [show 24 = Nat.log 2 n + 1 + s by omega, pow_add]
      exact Nat.mul_lt_mul_of_pos_right hlog.2 (Nat.two_pow_pos _)
    have hvalue : (n : ℚ) = (n * 2 ^ s : ℕ) * 2 ^ (((0x95 - s : ℕ) : ℤ) + f32.format.minUnit) := by
      rw [Nat.cast_mul, Nat.cast_pow, Nat.cast_ofNat, mul_assoc, ← zpow_natCast,
        ← zpow_add₀ two_ne_zero,
        show (s : ℤ) + (((0x95 - s : ℕ) : ℤ) + f32.format.minUnit) = 0 by omega, zpow_zero, mul_one]
    rw [hshift, Int.toNat_natCast, show (0x95 : Int) - s = (0x95 - s : ℕ) by omega]
    exact Fmt.outcome_packUI Fmt.valid_f32 mode _ hhigh (fun hlt => absurd hlow hlt.not_ge)
      (by rw [show f32.expMax = 255 by rfl]; omega) hvalue
  · rename_i hlarge
    split
    · obtain ⟨d, hd⟩ : ∃ d : ℕ, Nat.log 2 n = 30 + d := ⟨Nat.log 2 n - 30, by omega⟩
      have hshift : (-((63 : Int) - Nat.log 2 n - 40 + 7)).toNat = d := by omega
      have hlow : 2 ^ 30 * 2 ^ d ≤ n := by
        rw [← pow_add, ← hd]
        exact hlog.1
      have hhigh : n < 2 * 2 ^ 30 * 2 ^ d := by
        rw [← pow_succ', ← pow_add, show 30 + 1 + d = Nat.log 2 n + 1 by omega]
        exact hlog.2
      have hcut := (sameCuts_shortShiftRightJam n d).coarsen_two_pow 5
      rw [← pow_succ] at hcut
      rw [hshift, Fmt.outcome_roundPack Fmt.valid_f32 mode _ _ (le_shortShiftRightJam hlow)
        (shortShiftRightJam_lt (by decide) hhigh) hcut, show (0x9C : Int) -
          (63 - Nat.log 2 n - 40 + 7) + f32.format.minUnit - f32.guard = d by omega, zpow_natCast,
        div_mul_cancel₀ _ (pow_pos two_pos _).ne']
    · obtain ⟨d, hd⟩ : ∃ d : ℕ, Nat.log 2 n + d = 30 := ⟨30 - Nat.log 2 n, by omega⟩
      have hshift : ((63 : Int) - Nat.log 2 n - 40 + 7).toNat = d := by omega
      have hlow : 2 ^ 30 ≤ n * 2 ^ d := by
        rw [← hd, pow_add]
        exact Nat.mul_le_mul_right _ hlog.1
      have hhigh : n * 2 ^ d < 2 * 2 ^ 30 := by
        rw [← pow_succ', show 30 + 1 = Nat.log 2 n + 1 + d by omega, pow_add]
        exact Nat.mul_lt_mul_of_pos_right hlog.2 (Nat.two_pow_pos _)
      rw [hshift, Fmt.outcome_roundPack Fmt.valid_f32 mode _ _ hlow hhigh (SameCuts.refl _ _),
        show (0x9C : Int) - (63 - Nat.log 2 n - 40 + 7) + f32.format.minUnit - f32.guard = -d by omega,
        zpow_neg, zpow_natCast, Nat.cast_mul, Nat.cast_pow, Nat.cast_ofNat,
        mul_inv_cancel_right₀ (pow_pos two_pos _).ne']

end FromInt

/-! ## Numbers to integers -/

section ToInt

/-- The word and the flags of a conversion to an integer. -/
def i64Result : Option (ℤ × Bool) → Word × ExceptionFlags
  | some r => (BitVec.ofInt 64 r.1, { inexact := r.2 })
  | none => i64Invalid

/-- What is shifted out of a fraction is kept, up to where it lies among the halves. -/
theorem sameCuts_shiftRightJam64Extra {a dist : Nat} (ha : a < 2 ^ 63) (hdist : 0 < dist) :
    (shiftRightJam64Extra a 0 dist).1 < 2 ^ 63 ∧ (shiftRightJam64Extra a 0 dist).2 < 2 ^ 64 ∧
      SameCuts (1 / 2) ((a : ℚ) / 2 ^ dist)
        (((shiftRightJam64Extra a 0 dist).1 * 2 ^ 64 + (shiftRightJam64Extra a 0 dist).2 : ℕ) /
          2 ^ 64) := by
  simp only [shiftRightJam64Extra, ne_eq, not_true_eq_false, if_false, Nat.or_zero]
  split
  · rename_i hlt
    have hdiv : a * 2 ^ (64 - dist) / 2 ^ 64 = a / 2 ^ dist := by
      rw [← Nat.mul_div_mul_right a (2 ^ dist) (Nat.two_pow_pos (64 - dist)), ← pow_add,
        show dist + (64 - dist) = 64 by omega]
    have hle : a / 2 ^ dist ≤ a := Nat.div_le_self _ _
    refine ⟨by omega, Nat.mod_lt _ (by decide), ?_⟩
    rw [← hdiv, Nat.div_add_mod', Nat.cast_mul, Nat.cast_pow, Nat.cast_ofNat,
      show (2 : ℚ) ^ 64 = 2 ^ dist * 2 ^ (64 - dist) by rw [← pow_add]; congr 1; omega,
      mul_div_mul_right _ _ (pow_pos two_pos _).ne']
    exact SameCuts.refl _ _
  · rename_i hge
    split
    · rename_i heq
      rw [Nat.zero_mul, Nat.zero_add, heq]
      exact ⟨Nat.two_pow_pos 63, ha.trans (by decide), SameCuts.refl _ _⟩
    · rename_i hne
      have h65 : (2 : ℚ) ^ 64 * 2 ≤ 2 ^ dist := by
        rw [← pow_succ]
        exact pow_le_pow_right₀ one_le_two (by omega)
      have ha' : (a : ℚ) < 2 ^ 63 := by exact_mod_cast ha
      have hpos : (0 : ℚ) < 2 ^ dist := pow_pos two_pos _
      have hextra : (if a ≠ 0 then 1 else 0) ≤ 1 := by
        split <;> omega
      have hzero : (if a ≠ 0 then 1 else 0 : ℕ) = 0 ↔ a = 0 := by
        split <;> omega
      rw [Nat.zero_mul, Nat.zero_add]
      refine ⟨Nat.two_pow_pos 63, hextra.trans_lt (by decide), ?_⟩
      generalize (if a ≠ 0 then 1 else 0 : ℕ) = r at hextra hzero
      have hr : (r : ℚ) ≤ 1 := by exact_mod_cast hextra
      refine SameCuts.of_small (by positivity) (by positivity) ?_ ?_ ?_
      · rw [div_lt_iff₀ hpos]
        linarith
      · rw [div_lt_iff₀ (by norm_num)]
        linarith
      · rw [div_eq_zero_iff, or_iff_left hpos.ne', div_eq_zero_iff, or_iff_left (by norm_num),
          Nat.cast_eq_zero, Nat.cast_eq_zero, hzero]

/-- The last step of a conversion to an integer: a magnitude takes its sign, if it has room. -/
theorem i64Result_signed (sign : Bool) {m : Word} {n : Nat} (hm : m.toNat = n) (ine : Bool) :
    (if (if sign then -m else m) ≠ 0 ∧ (if sign then -m else m).slt 0 ≠ sign then i64Invalid
      else (if sign then -m else m, { inexact := ine })) =
      i64Result (if -2 ^ 63 ≤ (if sign then -(n : ℤ) else n) ∧
          (if sign then -(n : ℤ) else n) ≤ 2 ^ 63 - 1 then
        some (if sign then -(n : ℤ) else n, ine) else none) := by
  have hlt := m.isLt
  have hofNat : BitVec.ofInt 64 (n : ℤ) = m := by
    rw [BitVec.ofInt_natCast, ← hm, BitVec.ofNat_toNat, BitVec.setWidth_eq]
  have hzero : m = 0 ↔ n = 0 := by
    rw [← BitVec.toNat_inj, hm]
    rfl
  cases sign
  · simp only [Bool.false_eq_true, if_false, Vax.slt_zero_eq, hm, ne_eq, hzero,
      decide_eq_false_iff_not, not_le]
    by_cases hn : n < 2 ^ 63
    · rw [if_neg (by omega), if_pos (by omega), i64Result, hofNat]
    · rw [if_pos (by omega), if_neg (by omega), i64Result]
  · have hneg : -m = 0 ↔ n = 0 := by
      rw [neg_eq_zero, hzero]
    have hofNeg : BitVec.ofInt 64 (-(n : ℤ)) = -m := by
      rw [BitVec.ofInt_neg, hofNat]
    simp only [if_true, Vax.slt_zero_eq, ne_eq, hneg, decide_eq_true_eq, not_le, BitVec.toNat_neg, hm]
    by_cases hn : n ≤ 2 ^ 63
    · rw [if_neg (by omega), if_pos (by omega), i64Result, hofNeg]
    · rw [if_pos (by omega), if_neg (by omega), i64Result]

/-- The magnitude counted up, or left; a tie is made even. -/
theorem i64Result_incremented (sign : Bool) (sig : Word) {inc : Bool} {tie : Prop} [Decidable tie]
    {n : Nat} (hn : n = sig.toNat + if inc = true ∧ ¬ (tie ∧ sig.toNat % 2 = 0) then 1 else 0)
    (ine : Bool) :
    (let sig' := if inc then sig + 1 else sig
      if inc ∧ sig' = 0 then i64Invalid
      else
        let sig'' := if inc ∧ tie then sig' &&& ~~~1 else sig'
        let z := if sign then -sig'' else sig''
        if z ≠ 0 ∧ z.slt 0 ≠ sign then i64Invalid else (z, { inexact := ine })) =
      i64Result (if -2 ^ 63 ≤ (if sign then -(n : ℤ) else n) ∧
          (if sign then -(n : ℤ) else n) ≤ 2 ^ 63 - 1 then
        some (if sign then -(n : ℤ) else n, ine) else none) := by
  have hsig := sig.isLt
  have hone : (1 : Word).toNat = 1 := rfl
  have hadd : (sig + 1).toNat = (sig.toNat + 1) % 2 ^ 64 := BitVec.toNat_add _ _
  cases inc
  · simp only [Bool.false_eq_true, if_false, false_and]
    rw [if_neg (by simp), Nat.add_zero] at hn
    exact i64Result_signed sign hn.symm ine
  · simp only [if_true, true_and] at hn ⊢
    split
    · rename_i hwrap
      rw [hwrap] at hadd
      have hall : sig.toNat = 2 ^ 64 - 1 := by
        have h0 : (0 : Word).toNat = 0 := rfl
        omega
      have hodd : ¬ (tie ∧ sig.toNat % 2 = 0) := fun h => by omega
      rw [if_pos hodd] at hn
      rw [if_neg, i64Result]
      cases sign
      · simp only [Bool.false_eq_true, if_false]
        omega
      · simp only [if_true]
        omega
    · rename_i hwrap
      have hroom : sig.toNat + 1 < 2 ^ 64 := by
        by_contra h
        apply hwrap
        apply BitVec.eq_of_toNat_eq
        rw [hadd, show sig.toNat + 1 = 2 ^ 64 by omega]
        rfl
      rw [Nat.mod_eq_of_lt hroom] at hadd
      apply i64Result_signed
      split
      · rename_i ht
        rw [toNat_and_not_lowMask 1 rfl, hadd, pow_one, hn]
        by_cases heven : sig.toNat % 2 = 0
        · rw [if_neg (not_not_intro ⟨ht, heven⟩)]
          omega
        · rw [if_pos fun h => heven h.2]
          omega
      · rename_i ht
        rw [hadd, hn, if_pos fun h => ht h.1]

/-- A magnitude and its fraction, rounded to an integer. -/
theorem roundToI64_eq (mode : RoundingMode) (sign : Bool) (sig sigExtra : Word) {x : ℚ} (hx : 0 ≤ x)
    (hcut : SameCuts (1 / 2) x ((sig.toNat * 2 ^ 64 + sigExtra.toNat : ℕ) / 2 ^ 64)) :
    roundToI64 mode sign sig sigExtra =
      i64Result (Ieee.toInt (-2 ^ 63) (2 ^ 63 - 1) mode.attribute (.finite sign x)) := by
  have hsig := sig.isLt
  have hextra := sigExtra.isLt
  have hround := roundInt_congr hcut hx (by positivity) (mode.attribute.direction sign)
  have hdiv : (sig.toNat * 2 ^ 64 + sigExtra.toNat) / 2 ^ 64 = sig.toNat := by omega
  have hmod : (sig.toNat * 2 ^ 64 + sigExtra.toNat) % 2 ^ 64 = sigExtra.toNat := by omega
  have hzero : sigExtra = 0 ↔ sigExtra.toNat = 0 := by
    rw [← BitVec.toNat_inj]
    rfl
  have hine : (sigExtra != 0) =
      decide (((roundInt (mode.attribute.direction sign) x : ℕ) : ℚ) ≠ x) := by
    have hwhole : ∀ n : ℕ, (n : ℚ) = x ↔ n * 2 ^ 64 = sig.toNat * 2 ^ 64 + sigExtra.toNat := by
      intro n
      have h := hcut.eq_iff (2 * n)
      rw [show ((2 * n : ℤ) : ℚ) * (1 / 2) = n by push_cast; ring] at h
      rw [eq_comm, h, eq_comm, eq_div_iff (by norm_num)]
      exact_mod_cast Iff.rfl
    rw [Bool.eq_iff_iff, bne_iff_ne, decide_eq_true_iff, Ne, Ne, hwhole, hround, hzero, not_iff_not]
    constructor
    · intro h0
      rw [h0, Nat.add_zero, Nat.cast_mul, Nat.cast_pow, Nat.cast_ofNat,
        mul_div_cancel_right₀ _ (by norm_num), roundInt_natCast]
    · intro h
      omega
  have htie : sigExtra = 0x8000000000000000 ↔ sigExtra.toNat = 2 ^ 63 := by
    rw [← BitVec.toNat_inj]
    rfl
  have hnear : 0x8000000000000000 ≤ sigExtra ↔ 2 ^ 63 ≤ sigExtra.toNat := by
    rw [BitVec.le_def]
    rfl
  have hup : (sigExtra != 0) = true ↔ ¬ sigExtra.toNat = 0 := by
    rw [bne_iff_ne, Ne, hzero]
  rw [Ieee.toInt, ← hine, hround]
  refine i64Result_incremented sign sig ?_ _
  cases mode with
  | nearEven =>
    rw [show RoundingMode.nearEven.attribute.direction sign = .nearest by rfl,
      roundInt_nearest_div (by decide), hdiv, hmod]
    simp only [decide_eq_true_eq, hnear, htie, and_true]
    congr 1
    split <;> split <;> omega
  | minMag =>
    rw [show RoundingMode.minMag.attribute.direction sign = .down by rfl, roundInt_down_div, hdiv]
    rfl
  | min =>
    cases sign
    · rw [show RoundingMode.min.attribute.direction false = .down by rfl, roundInt_down_div, hdiv]
      simp
    · rw [show RoundingMode.min.attribute.direction true = .up by rfl, roundInt_up_div, hdiv, hmod]
      simp only [Bool.and_true, hup, reduceCtorEq, and_false, false_and, not_false_eq_true,
        and_true, ite_not]
  | max =>
    cases sign
    · rw [show RoundingMode.max.attribute.direction false = .up by rfl, roundInt_up_div, hdiv, hmod]
      simp only [Bool.not_false, Bool.and_true, hup, reduceCtorEq, and_false, false_and,
        not_false_eq_true, and_true, ite_not]
    · rw [show RoundingMode.max.attribute.direction true = .down by rfl, roundInt_down_div, hdiv]
      simp

/-- A double as a signed 64-bit integer. -/
theorem f64ToI64_eq (mode : RoundingMode) (a : Word) :
    f64ToI64 mode a = i64Result
      (Ieee.toInt (-2 ^ 63) (2 ^ 63 - 1) mode.attribute (f64.datum a.toNat)) := by
  have hfrac : f64.fracUI a.toNat < 2 ^ 52 := Fmt.fracUI_lt _
  have hexp : f64.expUI a.toNat < 2048 := Fmt.expUI_lt Fmt.valid_f64 _
  have hmax : f64.expMax = 2047 := rfl
  have hmin64 : f64.format.minUnit = -1074 := rfl
  simp only [f64ToI64]
  rw [Fmt.datum]
  generalize f64.signUI a.toNat = sign
  generalize f64.expUI a.toNat = exp at *
  generalize f64.fracUI a.toNat = frac at *
  by_cases hinf : exp = f64.expMax
  · have hnone : Ieee.toInt (-2 ^ 63) (2 ^ 63 - 1) mode.attribute (f64.datumOf sign exp frac) =
        none := by
      rw [Fmt.datumOf, if_pos hinf]
      split <;> rfl
    rw [hnone, if_pos (by omega), if_pos (by omega)]
    rfl
  · rw [Fmt.datumOf_finite hinf]
    have hsig : (if exp ≠ 0 then frac ||| 2 ^ 52 else frac) = f64.fullSig exp frac := by
      have hor : frac ||| 2 ^ 52 = 2 ^ 52 + frac := Fmt.or_lead (k := f64) hfrac
      rw [hor, Fmt.fullSig, ite_not]
      rfl
    have hlt : f64.fullSig exp frac < 2 ^ 53 := by
      rw [Fmt.fullSig, show f64.fracBits = 52 by rfl]
      split <;> omega
    have hbig : 0 < exp → 2 ^ 52 ≤ f64.fullSig exp frac := by
      intro hpos
      rw [Fmt.fullSig, if_neg hpos.ne', show f64.fracBits = 52 by rfl]
      omega
    have hmag : (0 : ℚ) ≤ f64.fullSig exp frac * 2 ^ ((exp - 1 : ℕ) + f64.format.minUnit) :=
      mul_nonneg (Nat.cast_nonneg _) (zpow_pos two_pos _).le
    rw [hsig]
    split
    · rename_i hwhole
      obtain ⟨i, hi⟩ : ∃ i : ℕ, exp = 0x433 + i := ⟨exp - 0x433, by omega⟩
      have hvalue : (f64.fullSig exp frac : ℚ) * 2 ^ ((exp - 1 : ℕ) + f64.format.minUnit) =
          (f64.fullSig exp frac * 2 ^ i : ℕ) := by
        rw [show ((exp - 1 : ℕ) : ℤ) + f64.format.minUnit = i by omega, zpow_natCast]
        push_cast
        rfl
      split
      · -- the number has more bits than there is room for
        rename_i hlong
        have hover : 2 ^ 64 ≤ f64.fullSig exp frac * 2 ^ i := by
          calc 2 ^ 64 = 2 ^ 52 * 2 ^ 12 := by rw [← pow_add]
            _ ≤ f64.fullSig exp frac * 2 ^ i :=
                Nat.mul_le_mul (hbig (by omega)) (Nat.pow_le_pow_right two_pos (by omega))
        rw [hvalue, Ieee.toInt, roundInt_natCast, if_neg]
        · rfl
        · split <;> omega
      · rename_i hfits
        have hroom : f64.fullSig exp frac * 2 ^ i < 2 ^ 64 := by
          calc f64.fullSig exp frac * 2 ^ i < 2 ^ 53 * 2 ^ i :=
                Nat.mul_lt_mul_of_pos_right hlt (Nat.two_pow_pos _)
            _ ≤ 2 ^ 64 := by
                rw [← pow_add]
                exact Nat.pow_le_pow_right two_pos (by omega)
        rw [show (-(0x433 - (exp : Int))).toNat = i by omega]
        apply roundToI64_eq mode sign _ _ hmag
        rw [hvalue, BitVec.toNat_ofNat, Nat.mod_eq_of_lt hroom, show (0 : Word).toNat = 0 by rfl,
          Nat.add_zero, Nat.cast_mul _ (2 ^ 64), Nat.cast_pow 2 64, Nat.cast_ofNat,
          mul_div_cancel_right₀ _ (by norm_num)]
        exact SameCuts.refl _ _
    · rename_i hshift
      obtain ⟨d, hd⟩ : ∃ d : ℕ, exp + d = 0x433 ∧ 0 < d := ⟨0x433 - exp, by omega⟩
      rw [show (0x433 - (exp : Int)).toNat = d by omega]
      obtain ⟨hv, he, hcut⟩ := sameCuts_shiftRightJam64Extra (hlt.trans (by decide)) hd.2
      apply roundToI64_eq mode sign _ _ hmag
      rw [BitVec.toNat_ofNat, BitVec.toNat_ofNat, Nat.mod_eq_of_lt (hv.trans (by decide)),
        Nat.mod_eq_of_lt he]
      refine SameCuts.trans ?_ hcut
      rcases Nat.eq_zero_or_pos exp with rfl | hpos
      · -- a subnormal number is taken for half of itself
        have hsub : f64.fullSig 0 frac < 2 ^ 52 := by
          rw [Fmt.fullSig, if_pos rfl]
          exact hfrac
        have hsmall : ∀ {e : ℤ}, e + 52 ≤ -1 → (f64.fullSig 0 frac : ℚ) * 2 ^ e < 1 / 2 := by
          intro e he
          calc (f64.fullSig 0 frac : ℚ) * 2 ^ e < 2 ^ (52 : ℤ) * 2 ^ e :=
                mul_lt_mul_of_pos_right (by exact_mod_cast hsub) (zpow_pos two_pos _)
            _ = 2 ^ (52 + e) := (zpow_add₀ two_ne_zero _ _).symm
            _ ≤ 2 ^ (-1 : ℤ) := zpow_le_zpow_right₀ one_le_two (by omega)
            _ = 1 / 2 := by norm_num
        have hdiv : (f64.fullSig 0 frac : ℚ) / 2 ^ d = f64.fullSig 0 frac * 2 ^ (-(d : ℤ)) := by
          rw [zpow_neg, zpow_natCast, div_eq_mul_inv]
        rw [hdiv]
        refine SameCuts.of_small hmag (mul_nonneg (Nat.cast_nonneg _) (zpow_pos two_pos _).le)
          (hsmall (by omega)) (hsmall (by omega)) ?_
        rw [mul_eq_zero_iff_right (zpow_pos two_pos _).ne',
          mul_eq_zero_iff_right (zpow_pos two_pos _).ne']
      · rw [show ((exp - 1 : ℕ) : ℤ) + f64.format.minUnit = -d by omega, zpow_neg, zpow_natCast,
          ← div_eq_mul_inv]
        exact SameCuts.refl _ _

end ToInt

end SoftFloat

end EmulatR
