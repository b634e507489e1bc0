import EmulatR.Fp.VaxCompare

/-! # The VAX conversions

The backend converts to the VAX formats through doubles: an integer is first rounded to 53 bits as
the rounding mode says, and the result for F is then rounded again, a tie to the even neighbour.
Each step is followed on the sign, the exponent and the whole fraction of a word, and the outcome is
compared with the exact value rounded once, half up or chopped.

`convRounded_iff` has the condition of each conversion; `not_convRounded_cvtQG` is an integer that
is not rounded right. -/

namespace EmulatR

open Library

namespace Vax

open SoftFloat SoftFloatBackend

/-! ## Words with a whole fraction -/

/-- A word has a sign, an exponent and a fraction with its leading bit; a fraction that rounding
carried to the next power of two is carried into the exponent. -/
structure HasWhole (w : Word) (sign : Bool) (exp whole : Nat) : Prop where
  /-- The exponent is not zero. -/
  exp_pos : 0 < exp
  /-- A carry into the exponent still leaves it below the largest. -/
  exp_lt : exp < 2046
  /-- The fraction has its leading bit. -/
  le_whole : 2 ^ 52 ≤ whole
  /-- It may have been carried to the next power of two. -/
  whole_le : whole ≤ 2 ^ 53
  /-- The bits of the word. -/
  toNat : w.toNat = (if sign then 2 ^ 63 else 0) + (exp - 1) * 2 ^ 52 + whole

/-- The sign of such a word. -/
theorem HasWhole.signOf_eq {w : Word} {sign : Bool} {exp whole : Nat}
    (h : HasWhole w sign exp whole) : signOf w = sign := by
  obtain ⟨h0, hlt, hlo, hhi, hw⟩ := h
  rw [Vax.signOf_eq, hw]
  cases sign <;> simp only [if_true, if_false, Bool.false_eq_true] <;> grind

/-- The exponent of such a word, with the carry. -/
theorem HasWhole.expOf_eq {w : Word} {sign : Bool} {exp whole : Nat}
    (h : HasWhole w sign exp whole) : expOf w = if whole = 2 ^ 53 then exp + 1 else exp := by
  obtain ⟨h0, hlt, hlo, hhi, hw⟩ := h
  rw [Vax.expOf_eq, hw]
  cases sign <;> simp only [if_true, if_false, Bool.false_eq_true] <;> split <;> omega

/-- The value of such a word. -/
theorem HasWhole.vaxValue_eq {w : Word} {sign : Bool} {exp whole : Nat}
    (h : HasWhole w sign exp whole) :
    vaxValue w = signed sign (scaled whole (exp - 1077)) := by
  have hs := h.signOf_eq
  have he := h.expOf_eq
  have hfrac := toNat_fracOf w
  obtain ⟨h0, hlt, hlo, hhi, hw⟩ := h
  obtain hlt53 | rfl := hhi.lt_or_eq
  · have hf : wholeFrac w = whole := by
      rw [wholeFrac, hfrac, hw]
      cases sign <;> simp only [if_true, if_false, Bool.false_eq_true] <;> omega
    rw [if_neg hlt53.ne] at he
    rw [vaxValue, if_neg (by omega), hs, he, hf]
  · have hf : wholeFrac w = 2 ^ 52 := by
      rw [wholeFrac, hfrac, hw]
      cases sign <;> simp only [if_true, if_false, Bool.false_eq_true] <;> omega
    have hpow : ((exp + 1 : ℕ) : ℤ) - 1077 = exp - 1077 + (1 : ℕ) := by omega
    rw [if_pos rfl] at he
    rw [vaxValue, if_neg (by omega), hs, he, hf, hpow, ← scaled_mul_two_pow, ← pow_add]

/-- A register image of a small enough exponent is such a word. -/
theorem hasWhole_self {a : Word} (h : expOf a ≠ 0) (hlt : expOf a < 2046) :
    HasWhole a (signOf a) (expOf a) (wholeFrac a) := by
  obtain ⟨hlo, hhi⟩ := wholeFrac_bounds a
  refine ⟨Nat.pos_of_ne_zero h, hlt, hlo, hhi.le, ?_⟩
  have hn := toNat_eq_magBits a
  have hm := magBits_eq a
  unfold wholeFrac
  omega

/-! ## Rounding a whole number -/

/-- In a rounding mode the bits of a number below bit `r` are rounded up. -/
def RoundsUp (mode : RoundingMode) (sign : Bool) (r n : Nat) : Prop :=
  match mode with
  | .nearEven => 2 ^ (r - 1) < n % 2 ^ r ∨ (n % 2 ^ r = 2 ^ (r - 1) ∧ n / 2 ^ r % 2 = 1)
  | .minMag => False
  | .min => sign = true ∧ n % 2 ^ r ≠ 0
  | .max => sign = false ∧ n % 2 ^ r ≠ 0

/-- Rounding half up they are. -/
def HalfUp (chop : Bool) (r n : Nat) : Prop := chop = false ∧ 2 ^ (r - 1) ≤ n % 2 ^ r

instance (mode : RoundingMode) (sign : Bool) (r n : Nat) :
    Decidable (RoundsUp mode sign r n) :=
  match mode with
  | .nearEven => inferInstanceAs (Decidable (_ ∨ _))
  | .minMag => inferInstanceAs (Decidable False)
  | .min => inferInstanceAs (Decidable (_ ∧ _))
  | .max => inferInstanceAs (Decidable (_ ∧ _))

instance (chop : Bool) (r n : Nat) : Decidable (HalfUp chop r n) :=
  inferInstanceAs (Decidable (_ ∧ _))

/-- Rounding half up or chopping, as a quotient and an increment. -/
theorem roundNat_eq_div {r : Nat} (hr : 0 < r) (chop : Bool) (n : Nat) :
    roundNat r chop n = n / 2 ^ r + if HalfUp chop r n then 1 else 0 := by
  have hhalf : 2 ^ r = 2 * 2 ^ (r - 1) := by
    rw [← pow_succ', Nat.sub_add_cancel hr]
  have hdiv := Nat.div_add_mod n (2 ^ r)
  have hmod := Nat.mod_lt n (Nat.two_pow_pos r)
  rw [Nat.mul_comm] at hdiv
  unfold roundNat
  by_cases hup : HalfUp chop r n
  · obtain ⟨hc, hle⟩ := hup
    rw [if_pos ⟨hc, hle⟩, hc, halfOf, if_neg Bool.false_ne_true]
    apply Nat.div_eq_of_lt_le
    · rw [Nat.add_mul]
      omega
    · rw [Nat.add_mul, Nat.add_mul]
      omega
  · have hlt : n % 2 ^ r + halfOf r chop < 2 ^ r := by
      unfold halfOf
      cases chop with
      | true => simpa using hmod
      | false =>
        have hle : ¬ 2 ^ (r - 1) ≤ n % 2 ^ r := fun h => hup ⟨rfl, h⟩
        rw [if_neg Bool.false_ne_true]
        omega
    rw [if_neg hup, Nat.add_zero]
    apply Nat.div_eq_of_lt_le
    · omega
    · rw [Nat.add_mul]
      omega

/-! ## The helpers of the backend -/

/-- The exponent field of a word, as the backend reads it. -/
theorem expField_eq_iff (w : Word) {n : Nat} (hn : n < 2 ^ 64) :
    (w >>> 52) &&& 0x7FF = BitVec.ofNat 64 n ↔ expOf w = n := by
  rw [← BitVec.toNat_inj, BitVec.toNat_ofNat, Nat.mod_eq_of_lt hn]
  rfl

/-- Rounding a word to 23 fraction bits rounds its whole fraction. -/
theorem HasWhole.roundFreg {w : Word} {sign : Bool} {exp whole : Nat}
    (h : HasWhole w sign exp whole) :
    HasWhole (roundFreg w) sign exp
      ((whole / 2 ^ 29 + if RoundsUp .nearEven sign 29 whole then 1 else 0) * 2 ^ 29) := by
  have he := h.expOf_eq
  obtain ⟨h0, hlt, hlo, hhi, hw⟩ := h
  obtain ⟨unit, hunit⟩ : ∃ unit : Word, unit = 1 <<< 29 := ⟨_, rfl⟩
  obtain ⟨half, hhalf⟩ : ∃ half : Word, half = 1 <<< 28 := ⟨_, rfl⟩
  have hunitN : unit.toNat = 2 ^ 29 := by rw [hunit]; rfl
  have hhalfN : half.toNat = 2 ^ 28 := by rw [hhalf]; rfl
  have hmask : (unit - 1).toNat = 2 ^ 29 - 1 := by rw [hunit]; rfl
  have hlow : (w &&& (unit - 1)).toNat = whole % 2 ^ 29 := by
    rw [toNat_and_lowMask 29 hmask, hw]
    cases sign <;> simp only [if_true, if_false, Bool.false_eq_true] <;> omega
  have hbase : (w &&& ~~~(unit - 1)).toNat =
      (if sign then 2 ^ 63 else 0) + (exp - 1) * 2 ^ 52 + whole / 2 ^ 29 * 2 ^ 29 := by
    rw [toNat_and_not_lowMask 29 hmask, hw]
    cases sign <;> simp only [if_true, if_false, Bool.false_eq_true] <;> omega
  have hodd : (w >>> 29) &&& 1 ≠ 0 ↔ whole / 2 ^ 29 % 2 = 1 := by
    have hone : (1 : Word).toNat = 2 ^ 1 - 1 := rfl
    have hzero : (0 : Word).toNat = 0 := rfl
    rw [ne_eq, ← BitVec.toNat_inj, toNat_and_lowMask 1 hone, BitVec.toNat_ushiftRight,
      Nat.shiftRight_eq_div_pow, hw, hzero]
    cases sign <;> simp only [if_true, if_false, Bool.false_eq_true] <;> omega
  have hup : (half < w &&& (unit - 1) ∨ (w &&& (unit - 1) = half ∧ (w >>> 29) &&& 1 ≠ 0)) ↔
      RoundsUp .nearEven sign 29 whole := by
    rw [BitVec.lt_def, ← BitVec.toNat_inj, hlow, hhalfN, hodd]
    rfl
  have hz : ¬ ((w >>> 52) &&& 0x7FF = 0 ∨ (w >>> 52) &&& 0x7FF = 0x7FF) := by
    rintro (hc | hc)
    · have hexp : expOf w = 0 := (expField_eq_iff w (by decide)).1 hc
      split at he <;> omega
    · have hexp : expOf w = 0x7FF := (expField_eq_iff w (by decide)).1 hc
      split at he <;> omega
  have hle : whole / 2 ^ 29 + (if RoundsUp .nearEven sign 29 whole then 1 else 0) ≤ 2 ^ 24 := by
    obtain hlt53 | rfl := hhi.lt_or_eq
    · split <;> omega
    · rw [if_neg (by simp [RoundsUp])]
      decide
  refine ⟨h0, hlt, by omega, by omega, ?_⟩
  simp only [SoftFloatBackend.roundFreg, ← hunit, ← hhalf, if_neg hz, hup]
  split
  · rename_i hr
    rw [if_pos hr] at hle
    rw [BitVec.toNat_add, hbase, hunitN]
    cases sign <;> simp only [if_true, if_false, Bool.false_eq_true] <;> omega
  · rw [hbase]
    omega

/-- Replacing the exponent of a word. -/
theorem toNat_setExp (w field : Word) (hf : field.toNat < 2048) :
    ((w &&& (0x800FFFFFFFFFFFFF : Word)) ||| (field <<< 52)).toNat =
      w.toNat - expOf w * 2 ^ 52 + field.toNat * 2 ^ 52 := by
  obtain ⟨m, hm⟩ : ∃ m : Word, m = 0x7FF0000000000000 := ⟨_, rfl⟩
  have hmN : m.toNat = (2 ^ 11 - 1) * 2 ^ 52 := by rw [hm]; rfl
  have hnot : (0x800FFFFFFFFFFFFF : Word) = ~~~m := by rw [hm]; rfl
  have hfield : (field <<< 52).toNat = field.toNat * 2 ^ 52 := by
    rw [BitVec.toNat_shiftLeft, Nat.shiftLeft_eq]
    omega
  have hsub : m &&& (field <<< 52) = field <<< 52 := by
    rw [BitVec.and_comm, ← BitVec.toNat_inj, toNat_and_fieldMask 52 11 hmN, hfield]
    omega
  have hdisjoint : (w &&& ~~~m) &&& (field <<< 52) = 0#64 := by
    have hzero : ~~~m &&& m = 0#64 := BitVec.not_and_self m
    rw [← hsub, ← BitVec.and_assoc, BitVec.and_assoc w, hzero, BitVec.and_zero, BitVec.zero_and]
  have hrest : (w &&& ~~~m).toNat = w.toNat - expOf w * 2 ^ 52 := by
    have hsum := BitVec.toNat_add_of_and_eq_zero (and_not_and_and w m)
    rw [and_not_add_and, toNat_and_fieldMask 52 11 hmN, ← Vax.expOf_eq] at hsum
    exact Nat.eq_sub_of_add_eq hsum.symm
  rw [hnot, ← BitVec.add_eq_or_of_and_eq_zero _ _ hdisjoint,
    BitVec.toNat_add_of_and_eq_zero hdisjoint, hrest, hfield]

/-- Adding two to the exponent. -/
theorem HasWhole.scaleExp_two {w : Word} {sign : Bool} {exp whole : Nat}
    (h : HasWhole w sign exp whole) (hlt : exp + 2 < 2046) :
    HasWhole (scaleExp w 2) sign (exp + 2) whole := by
  have he := h.expOf_eq
  obtain ⟨h0, -, hlo, hhi, hw⟩ := h
  have hz : ¬ (w >>> 52) &&& 0x7FF = 0 := by
    intro hc
    have hexp : expOf w = 0 := (expField_eq_iff w (by decide)).1 hc
    split at he <;> omega
  have hexp : ((w >>> 52) &&& 0x7FF).toNat = expOf w := rfl
  have hpos : ¬ (expOf w : Int) + 2 ≤ 0 := by omega
  have hmax : ¬ (0x7FF : Int) ≤ expOf w + 2 := by
    split at he <;> omega
  have hn : expOf w + 2 < 2048 := by
    split at he <;> omega
  have hfield : (BitVec.ofInt 64 ((expOf w : Int) + 2)).toNat = expOf w + 2 := by
    rw [show (expOf w : Int) + 2 = ((expOf w + 2 : Nat) : Int) from rfl, BitVec.ofInt_natCast,
      BitVec.toNat_ofNat]
    omega
  refine ⟨by omega, hlt, hlo, hhi, ?_⟩
  simp only [scaleExp, if_neg hz, hexp, if_neg hpos, if_neg hmax]
  rw [toNat_setExp w _ (by rw [hfield]; exact hn), hfield, Vax.expOf_eq, hw]
  cases sign <;> simp only [if_true, if_false, Bool.false_eq_true] <;> omega

/-- Packing a rounded fraction adds up the fields. -/
theorem packUI_f64 (sign : Bool) (exp sig : Nat) (hexp : exp < 2046) (hsig : sig ≤ 2 ^ 53) :
    f64.packUI sign exp sig = (if sign then 2 ^ 63 else 0) + exp * 2 ^ 52 + sig := by
  have hfrac : f64.fracBits = 52 := rfl
  have hwidth : f64.width = 64 := rfl
  rw [Fmt.packUI, hfrac, hwidth]
  cases sign <;> simp only [if_true, if_false, Bool.false_eq_true] <;> omega

/-- Dropping the ten guard bits of a fraction rounds it: a tie is rounded up and its last bit
cleared. -/
theorem roundSig_f64 (mode : RoundingMode) (sign : Bool) (sig : Nat) :
    f64.roundSig mode sign sig = sig / 2 ^ 10 + if RoundsUp mode sign 10 sig then 1 else 0 := by
  have hguard : f64.guard = 10 := rfl
  have haway : (sig + (2 ^ 10 - 1)) / 2 ^ 10 =
      sig / 2 ^ 10 + if sig % 2 ^ 10 ≠ 0 then 1 else 0 := by
    split <;> omega
  cases mode with
  | nearEven =>
    by_cases hup : RoundsUp .nearEven sign 10 sig
    · simp only [Fmt.roundSig, Fmt.roundIncrement, hguard, and_true, if_pos hup]
      rw [RoundsUp] at hup
      split <;> omega
    · simp only [Fmt.roundSig, Fmt.roundIncrement, hguard, and_true, if_neg hup]
      rw [RoundsUp] at hup
      split <;> omega
  | minMag =>
    simp [Fmt.roundSig, Fmt.roundIncrement, hguard, RoundsUp]
  | min =>
    cases sign with
    | false => simp [Fmt.roundSig, Fmt.roundIncrement, hguard, RoundsUp]
    | true =>
      simp only [Fmt.roundSig, Fmt.roundIncrement, hguard, RoundsUp, reduceCtorEq, and_false,
        if_false, if_true, true_and]
      exact haway
  | max =>
    cases sign with
    | true => simp [Fmt.roundSig, Fmt.roundIncrement, hguard, RoundsUp]
    | false =>
      simp only [Fmt.roundSig, Fmt.roundIncrement, hguard, RoundsUp, reduceCtorEq, and_false,
        if_false, Bool.false_eq_true, true_and]
      exact haway

/-- Packing a fraction with ten bits too many rounds it. -/
theorem hasWhole_packRounded (mode : RoundingMode) (sign : Bool) (exp sig : Nat)
    (flags : ExceptionFlags) (hexp : exp + 1 < 2046) (hlo : 2 ^ 62 ≤ sig) (hhi : sig < 2 ^ 63) :
    HasWhole (onWords (f64.packRounded mode sign exp sig flags)).1 sign (exp + 1)
      (sig / 2 ^ 10 + if RoundsUp mode sign 10 sig then 1 else 0) := by
  have hround := roundSig_f64 mode sign sig
  have hle : f64.roundSig mode sign sig ≤ 2 ^ 53 := by
    rw [hround]
    split <;> omega
  have hne : f64.roundSig mode sign sig ≠ 0 := by omega
  rw [← hround]
  refine ⟨Nat.succ_pos _, hexp, by omega, hle, ?_⟩
  simp only [onWords, Fmt.packRounded, if_neg hne]
  rw [packUI_f64 sign _ _ (by omega) hle, BitVec.toNat_ofNat, Nat.add_sub_cancel]
  cases sign <;> simp only [if_true, if_false, Bool.false_eq_true] <;> omega

/-! ## Integers -/

/-- The magnitude of a signed integer, moved up to have its leading bit at bit 63. -/
def intFrac (a : Word) : Nat := a.toInt.natAbs * 2 ^ (63 - Nat.log 2 a.toInt.natAbs)

section Integers

variable {a : Word}

/-- A word is negative from 2^63 on. -/
theorem slt_zero_eq (a : Word) : a.slt 0 = decide (2 ^ 63 ≤ a.toNat) :=
  BitVec.slt_zero_eq_msb.trans (BitVec.msb_eq_decide a)

/-- The magnitude of a word read as a signed integer. -/
theorem natAbs_toInt (a : Word) :
    a.toInt.natAbs = if a.slt 0 then 2 ^ 64 - a.toNat else a.toNat := by
  have hlt := a.isLt
  rw [slt_zero_eq, BitVec.toInt_eq_toNat_cond]
  simp only [decide_eq_true_iff]
  split <;> split <;> omega

/-- The magnitude of an integer that is not zero. -/
theorem natAbs_toInt_bounds (h : a ≠ 0) : 0 < a.toInt.natAbs ∧ a.toInt.natAbs ≤ 2 ^ 63 := by
  have hlt := a.isLt
  have hne : a.toNat ≠ 0 := fun hz => h (BitVec.eq_of_toNat_eq hz)
  rw [natAbs_toInt, slt_zero_eq]
  simp only [decide_eq_true_iff]
  split <;> omega

/-- The leading bit of a magnitude is at 63 or below. -/
theorem log_natAbs_le (h : a ≠ 0) : Nat.log 2 a.toInt.natAbs ≤ 63 := by
  have hlog := Nat.log_mono_right (b := 2) (natAbs_toInt_bounds h).2
  rwa [Nat.log_pow (by decide)] at hlog

/-- The moved magnitude has its leading bit at bit 63. -/
theorem intFrac_bounds (h : a ≠ 0) : 2 ^ 63 ≤ intFrac a ∧ intFrac a < 2 ^ 64 := by
  have hlog := log_natAbs_le h
  have hlo := Nat.pow_log_le_self 2 (natAbs_toInt_bounds h).1.ne'
  have hhi := Nat.lt_pow_succ_log_self (b := 2) (by decide) a.toInt.natAbs
  have h63 : 2 ^ 63 = 2 ^ Nat.log 2 a.toInt.natAbs * 2 ^ (63 - Nat.log 2 a.toInt.natAbs) := by
    rw [← pow_add]
    congr 1
    omega
  have h64 : 2 ^ 64 = 2 ^ (Nat.log 2 a.toInt.natAbs + 1) * 2 ^ (63 - Nat.log 2 a.toInt.natAbs) := by
    rw [← pow_add]
    congr 1
    omega
  refine ⟨?_, ?_⟩
  · rw [h63]
    exact Nat.mul_le_mul_right _ hlo
  · rw [h64]
    exact Nat.mul_lt_mul_of_pos_right hhi (Nat.two_pow_pos _)

/-- A fraction clear below bit `r` is not rounded up. -/
theorem not_roundsUp_of_dvd (mode : RoundingMode) (sign : Bool) {r n : Nat} (hr : 2 ^ r ∣ n) :
    ¬ RoundsUp mode sign r n := by
  have hmod := Nat.mod_eq_zero_of_dvd hr
  have hpos : 0 < 2 ^ (r - 1) := Nat.two_pow_pos _
  cases mode with
  | nearEven => rintro (h | h) <;> omega
  | minMag => exact id
  | min => exact fun h => h.2 hmod
  | max => exact fun h => h.2 hmod

/-- Rounding a fraction moved up by one bit. -/
theorem roundsUp_two_mul (mode : RoundingMode) (sign : Bool) (n : Nat) :
    RoundsUp mode sign 11 (n * 2) ↔ RoundsUp mode sign 10 n := by
  cases mode with
  | nearEven =>
    simp only [RoundsUp]
    omega
  | minMag => exact Iff.rfl
  | min =>
    refine and_congr_right fun _ => ?_
    omega
  | max =>
    refine and_congr_right fun _ => ?_
    omega

/-- Normalizing and packing a magnitude below the sign bit. -/
theorem hasWhole_normRoundPack (mode : RoundingMode) (sign : Bool) {sig : Nat} (hpos : 0 < sig)
    (hlt : sig < 2 ^ 63) :
    HasWhole (onWords (f64.normRoundPack mode sign 0x43C sig)).1 sign (1023 + Nat.log 2 sig)
      (sig * 2 ^ (63 - Nat.log 2 sig) / 2 ^ 11 +
        if RoundsUp mode sign 11 (sig * 2 ^ (63 - Nat.log 2 sig)) then 1 else 0) ∧
    ∃ ine, (onWords (f64.normRoundPack mode sign 0x43C sig)).2 = { inexact := ine } := by
  have hlog : Nat.log 2 sig < 63 := Nat.log_lt_of_lt_pow hpos.ne' hlt
  have hlo := Nat.pow_log_le_self 2 hpos.ne'
  have hhi : sig < 2 ^ (Nat.log 2 sig + 1) := Nat.lt_pow_succ_log_self (by decide) sig
  have hguard : (f64.guard : Int) = 10 := rfl
  have hmax : (f64.expMax : Int) = 0x7FF := rfl
  have hlead : 2 * f64.lead = 2 ^ 63 := rfl
  have hclz : (countLeadingZeros f64.width sig : Int) - 1 = ((62 - Nat.log 2 sig : Nat) : Int) := by
    rw [countLeadingZeros, if_neg hpos.ne', show f64.width = 64 from rfl]
    omega
  generalize Nat.log 2 sig = k at hlog hlo hhi hclz ⊢
  have hexp : (0x43C : Int) - ((62 - k : Nat) : Int) = ((1022 + k : Nat) : Int) := by omega
  unfold Fmt.normRoundPack
  simp only [hclz, hexp, hguard, hmax]
  by_cases hk : k ≤ 52
  · -- the magnitude fits the fraction
    have hsmall : (10 : Int) ≤ ((62 - k : Nat) : Int) ∧ (0 : Int) ≤ ((1022 + k : Nat) : Int) ∧
        ((1022 + k : Nat) : Int) < 0x7FF - 2 := by omega
    have hdist : (((62 - k : Nat) : Int) - 10).toNat = 52 - k := by omega
    have hsplit : 2 ^ (63 - k) = 2 ^ (52 - k) * 2 ^ 11 := by
      rw [← pow_add]
      congr 1
      omega
    have hN : sig * 2 ^ (63 - k) = sig * 2 ^ (52 - k) * 2 ^ 11 := by
      rw [hsplit, Nat.mul_assoc]
    have hdown : ¬ RoundsUp mode sign 11 (sig * 2 ^ (63 - k)) :=
      not_roundsUp_of_dvd _ _ (by rw [hN]; exact dvd_mul_left _ _)
    have h52 : 2 ^ k * 2 ^ (52 - k) = 2 ^ 52 := by
      rw [← pow_add, Nat.add_sub_cancel' hk]
    have h53 : 2 ^ (k + 1) * 2 ^ (52 - k) = 2 ^ 53 := by
      rw [pow_succ, Nat.mul_right_comm, h52, ← pow_succ]
    have hle := Nat.mul_le_mul_right (2 ^ (52 - k)) hlo
    have hlt' := Nat.mul_lt_mul_of_pos_right hhi (Nat.two_pow_pos (52 - k))
    have hpack := packUI_f64 sign (1022 + k) (sig * 2 ^ (52 - k)) (by omega) (by omega)
    rw [if_pos hsmall, if_pos hpos.ne', hdist, if_neg hdown, hN, Nat.mul_div_cancel _ (by decide)]
    refine ⟨⟨by omega, by omega, by omega, by omega, ?_⟩, false, rfl⟩
    rw [onWords, BitVec.toNat_ofNat, hpack]
    cases sign <;> simp only [if_true, if_false, Bool.false_eq_true] <;> omega
  · -- it is rounded with its leading bit at bit 62
    have hbig : ¬ ((10 : Int) ≤ ((62 - k : Nat) : Int) ∧ (0 : Int) ≤ ((1022 + k : Nat) : Int) ∧
        ((1022 + k : Nat) : Int) < 0x7FF - 2) := by omega
    have hsplit : 2 ^ (63 - k) = 2 ^ (62 - k) * 2 := by
      rw [← pow_succ]
      congr 1
      omega
    have hN : sig * 2 ^ (63 - k) = sig * 2 ^ (62 - k) * 2 := by
      rw [hsplit, Nat.mul_assoc]
    have h62 : 2 ^ k * 2 ^ (62 - k) = 2 ^ 62 := by
      rw [← pow_add, Nat.add_sub_cancel' (by omega)]
    have h63 : 2 ^ (k + 1) * 2 ^ (62 - k) = 2 ^ 63 := by
      rw [pow_succ, Nat.mul_right_comm, h62, ← pow_succ]
    have hle := Nat.mul_le_mul_right (2 ^ (62 - k)) hlo
    have hlt' := Nat.mul_lt_mul_of_pos_right hhi (Nat.two_pow_pos (62 - k))
    have hneg : ¬ ((1022 + k : Nat) : Int) < 0 := by omega
    have hfinite : ¬ ((0x7FF : Int) - 2 < ((1022 + k : Nat) : Int) ∨
        ((0x7FF : Int) - 2 = ((1022 + k : Nat) : Int) ∧
          2 * f64.lead ≤ sig * 2 ^ (62 - k) + f64.roundIncrement mode sign)) := by omega
    have hpack := hasWhole_packRounded mode sign (1022 + k) (sig * 2 ^ (62 - k)) {}
      (by omega) (by omega) (by omega)
    have hhalf : sig * 2 ^ (62 - k) * 2 / 2 ^ 11 = sig * 2 ^ (62 - k) / 2 ^ 10 := by omega
    rw [if_neg hbig, Int.toNat_natCast, hN, hhalf]
    simp only [roundsUp_two_mul, Fmt.roundPack, hmax, if_neg hneg, if_neg hfinite]
    rw [show 1023 + k = 1022 + k + 1 by omega]
    exact ⟨hpack, _, rfl⟩

/-- A 64-bit integer is rounded to 53 bits as the rounding mode says. -/
theorem i64ToF64_spec (mode : RoundingMode) (h : a ≠ 0) :
    HasWhole (i64ToF64 mode a).1 (a.slt 0) (1023 + Nat.log 2 a.toInt.natAbs)
      (intFrac a / 2 ^ 11 + if RoundsUp mode (a.slt 0) 11 (intFrac a) then 1 else 0) ∧
    ∃ ine, (i64ToF64 mode a).2 = { inexact := ine } := by
  obtain ⟨hpos, hle⟩ := natAbs_toInt_bounds h
  have hmin : a &&& 0x7FFFFFFFFFFFFFFF = 0 ↔ a.toNat % 2 ^ 63 = 0 := by
    have hzero : (0 : Word).toNat = 0 := rfl
    rw [← BitVec.toNat_inj, toNat_and_lowMask 63 rfl, hzero]
  have habs : (if a.slt 0 then -a else a).toNat = a.toInt.natAbs := by
    have hlt := a.isLt
    rw [natAbs_toInt]
    split
    · rw [BitVec.toNat_neg]
      rename_i hs
      rw [slt_zero_eq, decide_eq_true_iff] at hs
      omega
    · rfl
  obtain heq | hlt := hle.eq_or_lt
  · -- the smallest integer has its own path
    have hs : a.slt 0 = true ∧ a.toNat = 2 ^ 63 := by
      have hlt := a.isLt
      rw [natAbs_toInt, slt_zero_eq] at heq
      simp only [decide_eq_true_iff] at heq
      rw [slt_zero_eq, decide_eq_true_iff]
      by_cases hs : 2 ^ 63 ≤ a.toNat
      · rw [if_pos hs] at heq
        omega
      · rw [if_neg hs] at heq
        omega
    have hfrac : intFrac a = 2 ^ 63 := by
      rw [intFrac, heq, Nat.log_pow (by decide)]
      rfl
    have hdown : ¬ RoundsUp mode true 11 (2 ^ 63) := not_roundsUp_of_dvd _ _ (by decide)
    have hpack := packUI_f64 true 0x43E 0 (by decide) (by decide)
    rw [heq, Nat.log_pow (by decide), hs.1, hfrac, if_neg hdown]
    simp only [i64ToF64, hs.1, if_true]
    rw [if_pos (hmin.2 (by rw [hs.2, Nat.mod_self]))]
    refine ⟨⟨by decide, by decide, by decide, by decide, ?_⟩, false, rfl⟩
    exact (congrArg (fun n => (BitVec.ofNat 64 n).toNat) hpack).trans (by decide)
  · have hmod : ¬ a &&& 0x7FFFFFFFFFFFFFFF = 0 := by
      rw [hmin]
      rw [natAbs_toInt, slt_zero_eq] at hpos hlt
      simp only [decide_eq_true_iff] at hpos hlt
      by_cases hs : 2 ^ 63 ≤ a.toNat
      · rw [if_pos hs] at hpos hlt
        omega
      · rw [if_neg hs] at hpos hlt
        omega
    simp only [i64ToF64, if_neg hmod, habs]
    exact hasWhole_normRoundPack mode (a.slt 0) hpos hlt

/-- The number an integer unpacks to. -/
def intUfp (a : Word) : Ufp :=
  ⟨a.slt 0, 1025 + Nat.log 2 a.toInt.natAbs, BitVec.ofNat 64 (intFrac a)⟩

/-- The fraction an integer unpacks to fits in 64 bits. -/
theorem toNat_intUfp_frac (h : a ≠ 0) : (intUfp a).frac.toNat = intFrac a := by
  rw [intUfp, BitVec.toNat_ofNat, Nat.mod_eq_of_lt (intFrac_bounds h).2]

/-- An integer unpacks to itself. -/
theorem value_intUfp (h : a ≠ 0) : (intUfp a).value = a.toInt := by
  have hlog := log_natAbs_le h
  have hmag : (intUfp a).mag = a.toInt.natAbs := by
    have hpow : (2 : ℝ) ^ ((intUfp a).exp - 1088) =
        (2 ^ (63 - Nat.log 2 a.toInt.natAbs))⁻¹ := by
      rw [← zpow_natCast, ← zpow_neg]
      congr 1
      simp only [intUfp]
      omega
    rw [Ufp.mag, scaled, toNat_intUfp_frac h, hpow, intFrac, Nat.cast_mul, Nat.cast_pow, Nat.cast_ofNat,
      mul_assoc, mul_inv_cancel₀ (pow_ne_zero _ two_ne_zero), mul_one]
  have hsign : (intUfp a).sign = decide (a.toInt < 0) := by
    have hlt := a.isLt
    simp only [intUfp, slt_zero_eq, BitVec.toInt_eq_toNat_cond, decide_eq_decide]
    split <;> omega
  rw [Ufp.value, hmag, hsign, Nat.cast_natAbs]
  by_cases hneg : a.toInt < 0
  · rw [decide_eq_true hneg, abs_of_neg hneg]
    simp [signed]
  · rw [decide_eq_false hneg, abs_of_nonneg (not_lt.1 hneg)]
    simp [signed]

end Integers

/-! ## Against rounding once -/

/-- The exceptions of a conversion that a VAX operation has. -/
def vaxExcOf (e : FpExc) : Exc :=
  (if e.inv then VaxExc.Inv else 0) ||| (if e.dze then VaxExc.Dze else 0) |||
    (if e.ovf then VaxExc.Ovf else 0) ||| (if e.unf then VaxExc.Unf else 0)

/-- A conversion returns the exact value rounded once to the format. -/
def ConvRounded (g : VaxGeom) (c : FpExecCtx) (x : ℝ) (r : FpResult) : Prop :=
  Rounded g (vaxChop c) c.variant.underflow x 0 (r.bits, vaxExcOf r.exc)

/-- Rounding to 53 bits as the rounding mode says and from there to 24 bits, a tie to the even
neighbour, rounds the bits of a number below bit 40 up. -/
def TwiceUp (mode : RoundingMode) (sign : Bool) (n : Nat) : Prop :=
  let low := n % 2 ^ 40
  let odd := n / 2 ^ 40 % 2 = 1
  let away := 2 ^ 39 < low ∨ (2 ^ 39 - 2 ^ 11 < low ∧ odd)
  let chopped := 2 ^ 39 + 2 ^ 11 ≤ low ∨ (2 ^ 39 ≤ low ∧ odd)
  match mode with
  | .nearEven => 2 ^ 39 + 2 ^ 10 < low ∨ (2 ^ 39 - 2 ^ 10 ≤ low ∧ odd)
  | .minMag => chopped
  | .min => if sign then away else chopped
  | .max => if sign then chopped else away

instance (mode : RoundingMode) (sign : Bool) (n : Nat) : Decidable (TwiceUp mode sign n) :=
  match mode with
  | .nearEven => inferInstanceAs (Decidable (_ ∨ _))
  | .minMag => inferInstanceAs (Decidable (_ ∨ _))
  | .min => inferInstanceAs (Decidable (if sign then (_ ∨ _ : Prop) else (_ ∨ _ : Prop)))
  | .max => inferInstanceAs (Decidable (if sign then (_ ∨ _ : Prop) else (_ ∨ _ : Prop)))

/-- The carry into the exponent of an image rounded half up to 23 fraction bits. -/
def halfCarry (chop : Bool) (a : Word) : Nat :=
  if HalfUp chop 29 (wholeFrac a) ∧ wholeFrac a / 2 ^ 29 = 2 ^ 24 - 1 then 1 else 0

/-- Rounding a tie to the even neighbour is rounding half up, and the result is in the window. -/
def CvtGFOk (chop : Bool) (a : Word) : Prop :=
  expOf a = 0 ∨ (897 ≤ expOf a + halfCarry chop a ∧ expOf a + halfCarry chop a ≤ 1151 ∧
    (RoundsUp .nearEven false 29 (wholeFrac a) ↔ HalfUp chop 29 (wholeFrac a)))

/-- Rounding to 53 bits as the rounding mode says and then to 24 is rounding once. -/
def CvtQFOk (chop : Bool) (mode : RoundingMode) (a : Word) : Prop :=
  TwiceUp mode (a.slt 0) (intFrac a) ↔ HalfUp chop 40 (intFrac a)

/-- Rounding to 53 bits as the rounding mode says is rounding half up. -/
def CvtQGOk (chop : Bool) (mode : RoundingMode) (a : Word) : Prop :=
  RoundsUp mode (a.slt 0) 11 (intFrac a) ↔ HalfUp chop 11 (intFrac a)

instance (chop : Bool) (a : Word) : Decidable (CvtGFOk chop a) :=
  inferInstanceAs (Decidable (_ ∨ _))

section Once

variable {u : Ufp} {w : Word} {e whole : ℕ} (g : VaxGeom) (chop unfEnable : Bool)

/-- The exponent of a rounded number is its own or the next. -/
theorem vaxExp_self (hn : 2 ^ 63 ≤ u.frac.toNat) :
    vaxExp g chop u.value =
      if roundNat g.roundShift chop u.frac.toNat = 2 ^ (g.fracBits + 1) then u.exp + 1 else u.exp := by
  have h11 := g.roundShift_bounds.1
  rw [(Keeps.self hn).vaxExp_eq g chop (by omega), (roundFrac_spec g chop hn).2.1]

/-- Within the window a word is the rounded image of a number iff its whole fraction is the rounded
one. -/
theorem rounded_iff_whole (hn : 2 ^ 63 ≤ u.frac.toNat) (hw : HasWhole w u.sign e whole)
    (he : (e : ℤ) = u.exp) (hlo : g.expLo ≤ vaxExp g chop u.value)
    (hhi : vaxExp g chop u.value ≤ g.expHi) :
    Rounded g chop unfEnable u.value 0 (w, 0) ↔
      whole * 2 ^ 11 = roundNat g.roundShift chop u.frac.toNat * 2 ^ g.roundShift := by
  have h11 := g.roundShift_bounds.1
  have hk := Keeps.self hn
  have hx := hk.ne_zero
  have hs : (0 : ℝ) < 2 ^ (u.exp - 1088) := zpow_pos two_pos _
  have hvalue : vaxValue w = signed u.sign ((whole * 2 ^ 11 : ℕ) * 2 ^ (u.exp - 1088)) := by
    have hpow : (e : ℤ) - 1077 = u.exp - 1088 + (11 : ℕ) := by omega
    rw [hw.vaxValue_eq, hpow, ← scaled_mul_two_pow, scaled]
  have hround : vaxRound g chop u.value = signed u.sign
      ((roundNat g.roundShift chop u.frac.toNat * 2 ^ g.roundShift : ℕ) * 2 ^ (u.exp - 1088)) := by
    rw [vaxRound, ← hk.sign, hk.roundMag_eq g chop (by omega)]
    push_cast
    rfl
  have hiff : vaxValue w = vaxRound g chop u.value ↔
      whole * 2 ^ 11 = roundNat g.roundShift chop u.frac.toNat * 2 ^ g.roundShift := by
    rw [hvalue, hround]
    cases u.sign with
    | false =>
      simp only [signed, Bool.false_eq_true, if_false]
      rw [mul_left_inj' hs.ne', Nat.cast_inj]
    | true =>
      simp only [signed, if_true]
      rw [neg_inj, mul_left_inj' hs.ne', Nat.cast_inj]
  rw [← hiff]
  constructor
  · intro h
    exact (h.inRange hx hlo hhi).1
  · intro h
    exact ⟨fun h0 => absurd h0 hx, fun _ ho => absurd hhi (not_le.2 ho),
      fun _ hu => absurd hlo (not_le.2 hu), fun _ _ _ => ⟨h, rfl⟩⟩

end Once

/-- An increment as a number that is zero or one. -/
theorem exists_bit (p : Prop) [Decidable p] :
    ∃ b : Nat, (if p then 1 else 0) = b ∧ b ≤ 1 ∧ (b = 1 ↔ p) := by
  by_cases h : p
  · exact ⟨1, if_pos h, le_rfl, iff_of_true rfl h⟩
  · exact ⟨0, if_neg h, Nat.zero_le _, iff_of_false Nat.zero_ne_one h⟩

/-- Rounding to even at bit 29, for a number whose bits from there on are `q` before a carry. -/
theorem roundsUp_nearEven_add (sign : Bool) (q : Nat) {x : Nat} (hx : x ≤ 2 ^ 29) :
    (q * 2 ^ 29 + x) / 2 ^ 29 + (if RoundsUp .nearEven sign 29 (q * 2 ^ 29 + x) then 1 else 0) =
      q + if 2 ^ 28 < x ∨ (x = 2 ^ 28 ∧ q % 2 = 1) then 1 else 0 := by
  obtain hlt | rfl := hx.lt_or_eq
  · have hdiv : (q * 2 ^ 29 + x) / 2 ^ 29 = q := by omega
    have hmod : (q * 2 ^ 29 + x) % 2 ^ 29 = x := by omega
    have hup : RoundsUp .nearEven sign 29 (q * 2 ^ 29 + x) ↔
        2 ^ 28 < x ∨ (x = 2 ^ 28 ∧ q % 2 = 1) := by
      simp only [RoundsUp, hdiv, hmod]
    rw [hdiv]
    simp only [hup]
  · -- the carry leaves nothing to round
    have hdown : ¬ RoundsUp .nearEven sign 29 (q * 2 ^ 29 + 2 ^ 29) :=
      not_roundsUp_of_dvd _ _ ⟨q + 1, by omega⟩
    rw [if_neg hdown, if_pos (Or.inl (by decide))]
    omega

/-- What the two roundings in a row do. -/
theorem twiceUp_spec (mode : RoundingMode) (sign : Bool) (n : Nat) :
    (n / 2 ^ 11 + if RoundsUp mode sign 11 n then 1 else 0) / 2 ^ 29 +
        (if RoundsUp .nearEven sign 29 (n / 2 ^ 11 + if RoundsUp mode sign 11 n then 1 else 0)
          then 1 else 0) =
      n / 2 ^ 40 + if TwiceUp mode sign n then 1 else 0 := by
  obtain ⟨b, hb, hble, hbiff⟩ := exists_bit (RoundsUp mode sign 11 n)
  obtain ⟨q, hq⟩ : ∃ q, q = n / 2 ^ 40 := ⟨_, rfl⟩
  obtain ⟨low, hlow⟩ : ∃ low, low = n % 2 ^ 40 := ⟨_, rfl⟩
  have hlt : low < 2 ^ 40 := hlow ▸ Nat.mod_lt _ (by decide)
  have hsplit : n / 2 ^ 11 + b = q * 2 ^ 29 + (low / 2 ^ 11 + b) := by omega
  have hrest : n % 2 ^ 11 = low % 2 ^ 11 := by omega
  have hodd : n / 2 ^ 11 % 2 = low / 2 ^ 11 % 2 := by omega
  rw [hb, hsplit, roundsUp_nearEven_add sign q (by omega), ← hq]
  -- what is left concerns the low bits and the parity of the rest
  have hiff : (2 ^ 28 < low / 2 ^ 11 + b ∨ (low / 2 ^ 11 + b = 2 ^ 28 ∧ q % 2 = 1)) ↔
      TwiceUp mode sign n := by
    clear hsplit
    unfold RoundsUp at hbiff
    unfold TwiceUp
    simp only [hrest, hodd] at hbiff
    rw [← hq, ← hlow]
    clear hq hlow hrest hodd
    cases mode with
    | nearEven =>
      dsimp only at hbiff ⊢
      omega
    | minMag =>
      simp only [iff_false] at hbiff
      dsimp only
      omega
    | min =>
      cases sign with
      | true =>
        simp only [true_and, if_true] at hbiff ⊢
        omega
      | false =>
        simp only [Bool.false_eq_true, false_and, if_false, iff_false] at hbiff ⊢
        omega
    | max =>
      cases sign with
      | true =>
        simp only [Bool.true_eq_false, false_and, if_true, iff_false] at hbiff ⊢
        omega
      | false =>
        simp only [true_and, Bool.false_eq_true, if_false] at hbiff ⊢
        omega
  simp only [hiff]

/-- Two roundings of one number agree iff both go up or neither does. -/
theorem add_bit_eq_iff (n : Nat) (p q : Prop) [Decidable p] [Decidable q] :
    (n + if p then 1 else 0) = (n + if q then 1 else 0) ↔ (p ↔ q) := by
  obtain ⟨b, hb, hble, hbiff⟩ := exists_bit p
  obtain ⟨d, hd, hdle, hdiff⟩ := exists_bit q
  rw [hb, hd, ← hbiff, ← hdiff]
  omega

section Conversions

variable {a : Word} (c : FpExecCtx)

/-- An integer of the format, in range for F and G, converts as its whole fraction says. -/
theorem convRounded_int_iff (g : VaxGeom) (hlo : g.expLo ≤ 1025) (hhi : 1089 ≤ g.expHi) (h : a ≠ 0)
    {w : Word} {whole : Nat} {e : FpExc} (he : vaxExcOf e = 0)
    (hw : HasWhole w (a.slt 0) (1025 + Nat.log 2 a.toInt.natAbs) whole) :
    ConvRounded g c (a.toInt : ℝ) ⟨w, e⟩ ↔
      whole * 2 ^ 11 = roundNat g.roundShift (vaxChop c) (intFrac a) * 2 ^ g.roundShift := by
  have hlog := log_natAbs_le h
  have hn : 2 ^ 63 ≤ (intUfp a).frac.toNat := by
    rw [toNat_intUfp_frac h]
    exact (intFrac_bounds h).1
  have hexp : (intUfp a).exp = 1025 + Nat.log 2 a.toInt.natAbs := rfl
  have hself := vaxExp_self g (vaxChop c) hn
  rw [ConvRounded, he, ← value_intUfp h, ← toNat_intUfp_frac h]
  refine rounded_iff_whole g (vaxChop c) _ hn hw ?_ ?_ ?_
  · rw [hexp]
    push_cast
    rfl
  · rw [hself]
    split <;> omega
  · rw [hself]
    split <;> omega

/-- Inexact is no exception of a VAX operation. -/
theorem vaxExcOf_harvest (ine : Bool) : vaxExcOf (harvest { inexact := ine }) = 0 := by
  cases ine <;> decide

/-- Zero converts to zero. -/
theorem i64ToF64_zero (mode : RoundingMode) : i64ToF64 mode 0 = (0, {}) := by
  cases mode <;> decide

/-- CVTQG of zero. -/
theorem cvtQG_zero : cvtQG 0 c = ⟨0, {}⟩ := by
  rw [cvtQG, i64ToF64_zero]
  decide

/-- CVTQF of zero. -/
theorem cvtQF_zero : cvtQF 0 c = ⟨0, {}⟩ := by
  rw [cvtQF, i64ToF64_zero]
  decide

/-- Zero is its own rounding, with no exception. -/
theorem convRounded_zero (g : VaxGeom) : ConvRounded g c ((0 : Word).toInt : ℝ) ⟨0, {}⟩ := by
  rw [show (0 : Word).toInt = 0 from rfl, Int.cast_zero]
  exact Rounded.of_zero g (vaxChop c) c.variant.underflow 0

/-- CVTQG rounds right exactly when the two ways of rounding agree. -/
theorem convRounded_cvtQG_iff (a : Word) :
    ConvRounded G c (a.toInt : ℝ) (cvtQG a c) ↔ CvtQGOk (vaxChop c) (resolveRm c) a := by
  obtain rfl | h := eq_or_ne a 0
  · have hup : ¬ RoundsUp (resolveRm c) false 11 0 := not_roundsUp_of_dvd _ _ (dvd_zero _)
    have hhalf : ¬ HalfUp (vaxChop c) 11 0 := fun hh => absurd hh.2 (by decide)
    rw [cvtQG_zero]
    exact iff_of_true (convRounded_zero c G) (iff_of_false hup hhalf)
  · obtain ⟨hw, ine, hf⟩ := i64ToF64_spec (resolveRm c) h
    have hlog := log_natAbs_le h
    have hscaled := hw.scaleExp_two (by omega)
    rw [show 1023 + Nat.log 2 a.toInt.natAbs + 2 = 1025 + Nat.log 2 a.toInt.natAbs by omega]
      at hscaled
    rw [cvtQG, convRounded_int_iff c G (by decide) (by decide) h (by rw [hf, vaxExcOf_harvest]) hscaled,
      show G.roundShift = 11 from rfl, roundNat_eq_div (by decide),
      Nat.mul_left_inj (Nat.two_pow_pos _).ne', add_bit_eq_iff, CvtQGOk]

/-- CVTQF rounds right exactly when rounding twice comes to the same. -/
theorem convRounded_cvtQF_iff (a : Word) :
    ConvRounded F c (a.toInt : ℝ) (cvtQF a c) ↔ CvtQFOk (vaxChop c) (resolveRm c) a := by
  obtain rfl | h := eq_or_ne a 0
  · have hup : ¬ TwiceUp (resolveRm c) false 0 := by
      cases resolveRm c <;> decide
    have hhalf : ¬ HalfUp (vaxChop c) 40 0 := fun hh => absurd hh.2 (by decide)
    rw [cvtQF_zero]
    exact iff_of_true (convRounded_zero c F) (iff_of_false hup hhalf)
  · obtain ⟨hw, ine, hf⟩ := i64ToF64_spec (resolveRm c) h
    have hlog := log_natAbs_le h
    have hscaled := (hw.scaleExp_two (by omega)).roundFreg
    rw [show 1023 + Nat.log 2 a.toInt.natAbs + 2 = 1025 + Nat.log 2 a.toInt.natAbs by omega,
      twiceUp_spec] at hscaled
    rw [cvtQF, convRounded_int_iff c F (by decide) (by decide) h (by rw [hf, vaxExcOf_harvest]) hscaled,
      show F.roundShift = 40 from rfl, roundNat_eq_div (by decide), Nat.mul_assoc, ← pow_add,
      Nat.mul_left_inj (Nat.two_pow_pos _).ne', add_bit_eq_iff, CvtQFOk]

/-- A G image rounded to 24 bits. -/
theorem roundNat_unpacked (chop : Bool) (a : Word) :
    roundNat 40 chop (unpacked a).frac.toNat =
      wholeFrac a / 2 ^ 29 + if HalfUp chop 29 (wholeFrac a) then 1 else 0 := by
  have hup : HalfUp chop 40 (wholeFrac a * 2 ^ 11) ↔ HalfUp chop 29 (wholeFrac a) := by
    refine and_congr_right fun _ => ?_
    omega
  have hdiv : wholeFrac a * 2 ^ 11 / 2 ^ 40 = wholeFrac a / 2 ^ 29 := by omega
  rw [unpacked, toNat_unpackedFrac, roundNat_eq_div (by decide), hdiv, if_congr hup rfl rfl]

/-- The exponent of a G image rounded to F. -/
theorem vaxExp_F (chop : Bool) (h : expOf a ≠ 0) :
    vaxExp F chop (vaxValue a) = (expOf a + halfCarry chop a : Nat) := by
  have hb := wholeFrac_bounds a
  rw [← value_unpacked h, vaxExp_self F chop (unpacked_frac a).1, show F.roundShift = 40 from rfl,
    show F.fracBits + 1 = 24 from rfl, roundNat_unpacked, show (unpacked a).exp = expOf a from rfl,
    halfCarry]
  by_cases hup : HalfUp chop 29 (wholeFrac a)
  · rw [if_pos hup]
    by_cases hall : wholeFrac a / 2 ^ 29 = 2 ^ 24 - 1
    · rw [if_pos (by omega), if_pos ⟨hup, hall⟩]
      rfl
    · rw [if_neg (by omega), if_neg fun h => hall h.2]
      rfl
  · rw [if_neg hup, if_neg (by omega), if_neg fun h => hup h.1]
    rfl

/-- CVTGF rounds right exactly when the qualifier asks for what it does. -/
theorem convRounded_cvtGF_iff (ha : IsClean a) :
    ConvRounded F c (vaxValue a) (cvtGF a) ↔ CvtGFOk (vaxChop c) a := by
  by_cases h : expOf a = 0
  · have hz : a = 0 := ha.resolve_left (not_not.2 h)
    have hcvt : cvtGF 0 = ⟨0, {}⟩ := by decide
    rw [hz, vaxValue_of_zero (by decide), hcvt]
    exact iff_of_true (Rounded.of_zero F (vaxChop c) c.variant.underflow 0) (Or.inl (by decide))
  · have hx := vaxValue_ne_zero h
    have hvexp := vaxExp_F (vaxChop c) h
    have hcarry : halfCarry (vaxChop c) a ≤ 1 := by
      unfold halfCarry
      split <;> omega
    have hnr : vaxReserved a = false := by
      have hf : ((a >>> 52) &&& 0x7FF == 0) = false := by
        rw [beq_eq_false_iff_ne]
        exact fun hc => h ((expField_eq_iff a (n := 0) (by decide)).1 hc)
      rw [vaxReserved, hf, Bool.false_and]
    have hcvt : cvtGF a = ⟨roundFreg a, {}⟩ := by
      rw [cvtGF, hnr, if_neg Bool.false_ne_true]
    have hlo : F.expLo = 897 := rfl
    have hhi : F.expHi = 1151 := rfl
    rw [hcvt, ConvRounded, CvtGFOk, or_iff_right h]
    by_cases hover : 1151 < expOf a + halfCarry (vaxChop c) a
    · -- above the window the source reports no overflow
      refine iff_of_false (fun hr => ?_) (by omega)
      have hovf := hr.overflow hx (by rw [hvexp, hhi]; omega)
      have hne : vaxExcOf {} ≠ 0 ||| VaxExc.Ovf := by decide
      exact hne hovf
    · have hw := (hasWhole_self h (by omega)).roundFreg
      by_cases hunder : expOf a + halfCarry (vaxChop c) a < 897
      · -- below the window it returns no zero
        refine iff_of_false (fun hr => ?_) (by omega)
        have hunf := congrArg Prod.fst (hr.underflow hx (by rw [hvexp, hlo]; omega))
        have hbits := hw.toNat
        have hle := hw.le_whole
        have hzero : (roundFreg a).toNat = 0 := congrArg BitVec.toNat hunf
        omega
      · rw [← value_unpacked h] at hvexp ⊢
        have hup : RoundsUp .nearEven (signOf a) 29 (wholeFrac a) ↔
            RoundsUp .nearEven false 29 (wholeFrac a) := Iff.rfl
        have hexc : vaxExcOf {} = 0 := by decide
        rw [hexc, rounded_iff_whole F (vaxChop c) c.variant.underflow (unpacked_frac a).1 hw rfl
            (by rw [hvexp, hlo]; omega) (by rw [hvexp, hhi]; omega),
          show F.roundShift = 40 from rfl, roundNat_unpacked, Nat.mul_assoc, ← pow_add,
          Nat.mul_left_inj (Nat.two_pow_pos _).ne', add_bit_eq_iff, hup]
        refine ⟨fun hiff => ⟨by omega, by omega, hiff⟩, fun hok => hok.2.2⟩

/-- The conversions round once with VAX rounding exactly where the rounding of each step agrees with
it and, for CVTGF, the rounded number is in the window. -/
theorem convRounded_iff (a : Word) (c : FpExecCtx) :
    (IsClean a → (ConvRounded F c (vaxValue a) (cvtGF a) ↔ CvtGFOk (vaxChop c) a)) ∧
    (ConvRounded F c (a.toInt : ℝ) (cvtQF a c) ↔ CvtQFOk (vaxChop c) (resolveRm c) a) ∧
    (ConvRounded G c (a.toInt : ℝ) (cvtQG a c) ↔ CvtQGOk (vaxChop c) (resolveRm c) a) :=
  ⟨convRounded_cvtGF_iff c, convRounded_cvtQF_iff c a, convRounded_cvtQG_iff c a⟩

/-- One is converted exactly. -/
theorem convRounded_one : ConvRounded F ⟨{ roundingMode := .roundToNearest }, 0⟩
    (vaxValue 0x4010000000000000) (cvtGF 0x4010000000000000) :=
  ((convRounded_iff _ _).1 (Or.inl (by decide))).2 (Or.inr (by decide +kernel))

/-- The integer past 2 ^ 53 is half-way between two numbers of G and goes to the lower one, the even
neighbour. -/
theorem not_convRounded_cvtQG : ¬ ConvRounded G ⟨{ roundingMode := .roundToNearest }, 0⟩
    ((0x20000000000001 : Word).toInt : ℝ)
    (cvtQG 0x20000000000001 ⟨{ roundingMode := .roundToNearest }, 0⟩) := by
  have habs : (0x20000000000001 : Word).toInt.natAbs = 2 ^ 53 + 1 := by decide
  have hlog : Nat.log 2 (2 ^ 53 + 1) = 53 :=
    Nat.log_eq_of_pow_le_of_lt_pow (by decide) (by decide)
  have hfrac : intFrac 0x20000000000001 = (2 ^ 53 + 1) * 2 ^ 10 := by
    rw [intFrac, habs, hlog]
  have hneg : (0x20000000000001 : Word).slt 0 = false := by decide
  have hdown : ¬ RoundsUp .nearEven false 11 ((2 ^ 53 + 1) * 2 ^ 10) := by decide
  have hhalf : HalfUp false 11 ((2 ^ 53 + 1) * 2 ^ 10) := by decide
  rw [convRounded_cvtQG_iff, CvtQGOk, hfrac, hneg]
  exact fun h => hdown (h.2 hhalf)

end Conversions

end Vax

end EmulatR
