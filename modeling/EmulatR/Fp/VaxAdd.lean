import EmulatR.Fp.VaxMulDiv

/-! # VAX addition and subtraction

Adding numbers of one sign is rounded correctly: the bits the alignment drops lie below the 64 kept.
Numbers of opposite sign are subtracted after the same alignment (fpBoxLib/vax_float.h, `addsub`),
and that goes wrong in two ways. With equal exponents the fractions are not ordered, so that a
larger second fraction wraps around; and the bits dropped from the smaller number make the
difference of the fractions too large, which shows when it lies on a breakpoint of the rounding.
`AlignedOk` is the exact condition.

`rounded_addsub_iff` is the exact condition; `not_rounded_subG_one` is a difference that is not
rounded right. -/

namespace EmulatR

open Library

namespace Vax

/-! ## Alignment -/

/-- The distance the second number is shifted. -/
def alignShift (a b : Ufp) : ℕ := (a.exp - b.exp).toNat

/-- The second fraction, aligned to the first. -/
def alignedFrac (a b : Ufp) : ℕ := b.frac.toNat / 2 ^ alignShift a b

/-- The bits of the second fraction that are shifted out. -/
def shiftedOut (a b : Ufp) : ℕ := b.frac.toNat % 2 ^ alignShift a b

/-- The aligned second fraction as the source computes it. -/
def alignedWord (a b : Ufp) : Word :=
  if 64 ≤ alignShift a b then 0 else b.frac >>> alignShift a b

/-- The aligned fraction fits a word. -/
theorem toNat_alignedWord (a b : Ufp) : (alignedWord a b).toNat = alignedFrac a b := by
  unfold alignedWord alignedFrac
  split
  · rename_i h
    have hlt : b.frac.toNat < 2 ^ alignShift a b :=
      lt_of_lt_of_le b.frac.isLt (Nat.pow_le_pow_right two_pos h)
    rw [Nat.div_eq_of_lt hlt]
    rfl
  · rw [BitVec.toNat_ushiftRight, Nat.shiftRight_eq_div_pow]

/-- The sum of aligned fractions, by the signs. -/
theorem addAligned_eq (a b : Ufp) :
    addAligned a b =
      if a.sign = b.sign then
        if a.frac + alignedWord a b < alignedWord a b then
          { a with
            frac := ((a.frac + alignedWord a b) >>> 1) ||| kNormBit
            exp := a.exp + 1 }
        else { a with frac := a.frac + alignedWord a b }
      else { a with frac := a.frac - alignedWord a b } := rfl

section Aligned

variable {a b : Ufp}

/-- The magnitude of the second number in units of the first. -/
theorem mag_eq_aligned (hle : b.exp ≤ a.exp) :
    b.mag = (b.frac.toNat : ℝ) / (2 ^ alignShift a b : ℕ) * 2 ^ (a.exp - 1088) := by
  have hscale : (2 : ℝ) ^ (a.exp - 1088) = 2 ^ alignShift a b * 2 ^ (b.exp - 1088) := by
    rw [← zpow_natCast (2 : ℝ) (alignShift a b), ← zpow_add₀ two_ne_zero]
    congr 1
    unfold alignShift
    omega
  have h2 : (2 : ℝ) ^ alignShift a b ≠ 0 := (pow_pos two_pos _).ne'
  rw [Ufp.mag, scaled, hscale]
  push_cast
  field_simp

/-- The aligned fraction is the second number to a whole unit. -/
theorem alignedFrac_bounds (a b : Ufp) :
    (alignedFrac a b : ℝ) ≤ (b.frac.toNat : ℝ) / (2 ^ alignShift a b : ℕ) ∧
      (b.frac.toNat : ℝ) / (2 ^ alignShift a b : ℕ) < alignedFrac a b + 1 := by
  have hpos : (0 : ℝ) < (2 ^ alignShift a b : ℕ) := Nat.cast_pos.2 (Nat.two_pow_pos _)
  refine ⟨Nat.cast_div_le, ?_⟩
  rw [div_lt_iff₀ hpos]
  have h := Nat.lt_div_mul_add (a := b.frac.toNat) (Nat.two_pow_pos (alignShift a b))
  exact_mod_cast (by rw [add_mul, one_mul]; exact h :
    b.frac.toNat < (alignedFrac a b + 1) * 2 ^ alignShift a b)

/-- No bit shifted out: the aligned fraction is the second number. -/
theorem alignedFrac_exact (h : shiftedOut a b = 0) :
    (b.frac.toNat : ℝ) / (2 ^ alignShift a b : ℕ) = alignedFrac a b := by
  have hpos : ((2 ^ alignShift a b : ℕ) : ℝ) ≠ 0 := Nat.cast_ne_zero.2 (Nat.two_pow_pos _).ne'
  have hmul := Nat.div_mul_cancel (Nat.dvd_of_mod_eq_zero h)
  rw [div_eq_iff hpos, ← Nat.cast_mul, alignedFrac, hmul]

/-- Bits shifted out: the aligned fraction is less than the second number. -/
theorem alignedFrac_lt (h : shiftedOut a b ≠ 0) :
    (alignedFrac a b : ℝ) < (b.frac.toNat : ℝ) / (2 ^ alignShift a b : ℕ) := by
  have hpos : (0 : ℝ) < (2 ^ alignShift a b : ℕ) := Nat.cast_pos.2 (Nat.two_pow_pos _)
  rw [lt_div_iff₀ hpos]
  have hsplit := Nat.div_add_mod b.frac.toNat (2 ^ alignShift a b)
  have hlt : alignedFrac a b * 2 ^ alignShift a b < b.frac.toNat := by
    unfold alignedFrac
    unfold shiftedOut at h
    rw [mul_comm]
    omega
  exact_mod_cast hlt

/-! ## Equal signs -/

/-- The sum of two numbers of one sign keeps its leading bits. -/
theorem keeps_addAligned (ha : 2 ^ 63 ≤ a.frac.toNat) (hle : b.exp ≤ a.exp)
    (hsign : a.sign = b.sign) : Keeps 0 (addAligned a b) (a.value + b.value) := by
  obtain ⟨hqlo, hqhi⟩ := alignedFrac_bounds a b
  have hA := a.frac.isLt
  have hmagA : 0 < a.mag := Ufp.mag_pos (lt_of_lt_of_le (by decide) ha)
  have hmagB : 0 ≤ b.mag := mul_nonneg (Nat.cast_nonneg _) (zpow_pos two_pos _).le
  have hpos : 0 < a.mag + b.mag := add_pos_of_pos_of_nonneg hmagA hmagB
  have hvalue : a.value + b.value = signed a.sign (a.mag + b.mag) := by
    rw [signed_add, Ufp.value, Ufp.value, hsign]
  have hs : (0 : ℝ) < 2 ^ (a.exp - 1088) := zpow_pos two_pos _
  have hmag : a.mag + b.mag = (a.frac.toNat + (b.frac.toNat : ℝ) / (2 ^ alignShift a b : ℕ)) *
      2 ^ (a.exp - 1088) := by
    rw [mag_eq_aligned hle, add_mul, Ufp.mag, scaled]
  have hqlt : alignedFrac a b < 2 ^ 64 := by
    rw [← toNat_alignedWord]
    exact BitVec.isLt _
  have hsum : (a.frac + alignedWord a b).toNat = (a.frac.toNat + alignedFrac a b) % 2 ^ 64 := by
    rw [BitVec.toNat_add, toNat_alignedWord]
  have hcarry : a.frac + alignedWord a b < alignedWord a b ↔
      2 ^ 64 ≤ a.frac.toNat + alignedFrac a b := by
    rw [BitVec.lt_def, hsum, toNat_alignedWord]
    omega
  rw [addAligned_eq, if_pos hsign]
  by_cases h : a.frac + alignedWord a b < alignedWord a b
  · -- the carry comes back as the leading bit, and the last bit of the sum drops out
    have hover := hcarry.1 h
    have hhalf : (a.frac.toNat + alignedFrac a b - 2 ^ 64) / 2 < 2 ^ 63 := by omega
    have hnorm : kNormBit.toNat = 2 ^ 63 * 1 := rfl
    have hfrac : (((a.frac + alignedWord a b) >>> 1) ||| kNormBit).toNat =
        (a.frac.toNat + alignedFrac a b) / 2 := by
      rw [BitVec.toNat_or, BitVec.toNat_ushiftRight, hsum, Nat.shiftRight_eq_div_pow, pow_one,
        Nat.mod_eq_sub_mod hover, Nat.mod_eq_of_lt (by omega), hnorm, Nat.or_comm,
        ← Nat.two_pow_add_eq_or_of_lt hhalf]
      omega
    have hunit : (2 : ℝ) ^ (a.exp + 1 - 1088) = 2 * 2 ^ (a.exp - 1088) := by
      rw [show a.exp + 1 - 1088 = a.exp - 1088 + 1 by ring, zpow_add_one₀ two_ne_zero, mul_comm]
    have hdouble : 2 * ((a.frac.toNat + alignedFrac a b) / 2) ≤ a.frac.toNat + alignedFrac a b ∧
        a.frac.toNat + alignedFrac a b + 1 ≤
          2 * ((a.frac.toNat + alignedFrac a b) / 2 + 1) := by omega
    have hreal : 2 * (((a.frac.toNat + alignedFrac a b) / 2 : ℕ) : ℝ) ≤
          a.frac.toNat + alignedFrac a b ∧
        (a.frac.toNat : ℝ) + alignedFrac a b + 1 ≤
          2 * (((a.frac.toNat + alignedFrac a b) / 2 : ℕ) + 1) := by exact_mod_cast hdouble
    rw [if_pos h]
    refine ⟨⟨one_dvd _, ?_, ?_, ?_⟩, ?_⟩
    · rw [hvalue, signed_neg_iff hpos]
    · rw [hvalue, abs_signed, abs_of_pos hpos, hmag, hfrac, hunit, ← mul_assoc]
      apply mul_le_mul_of_nonneg_right _ hs.le
      linarith
    · rw [hvalue, abs_signed, abs_of_pos hpos, hmag, hfrac, hunit, ← mul_assoc, pow_zero]
      apply mul_lt_mul_of_pos_right _ hs
      linarith
    · rw [hfrac]
      omega
  · have hfrac : (a.frac + alignedWord a b).toNat = a.frac.toNat + alignedFrac a b := by
      rw [hsum, Nat.mod_eq_of_lt (Nat.lt_of_not_le (mt hcarry.2 h))]
    rw [if_neg h]
    refine ⟨⟨one_dvd _, ?_, ?_, ?_⟩, ?_⟩
    · rw [hvalue, signed_neg_iff hpos]
    · rw [hvalue, abs_signed, abs_of_pos hpos, hmag, hfrac]
      apply mul_le_mul_of_nonneg_right _ hs.le
      rw [Nat.cast_add]
      linarith
    · rw [hvalue, abs_signed, abs_of_pos hpos, hmag, hfrac, pow_zero]
      apply mul_lt_mul_of_pos_right _ hs
      rw [Nat.cast_add]
      linarith
    · rw [hfrac]
      omega

/-! ## Opposite signs -/

/-- With opposite signs the smaller is subtracted. -/
theorem addAligned_of_ne (hsign : b.sign = !a.sign) :
    addAligned a b = { a with frac := a.frac - alignedWord a b } := by
  have hne : ¬ a.sign = b.sign := by
    rw [hsign]
    cases a.sign <;> decide
  rw [addAligned_eq, if_neg hne]

/-- The exact difference, in units of the first number. -/
theorem value_add_of_ne (hsign : b.sign = !a.sign) (hle : b.exp ≤ a.exp) :
    a.value + b.value =
      signed a.sign ((a.frac.toNat - (b.frac.toNat : ℝ) / (2 ^ alignShift a b : ℕ)) *
        2 ^ (a.exp - 1088)) := by
  rw [Ufp.value, Ufp.value, hsign, signed_not, ← sub_eq_add_neg, ← signed_sub,
    mag_eq_aligned hle, sub_mul, Ufp.mag, scaled]

/-- The fraction of a difference that does not wrap. -/
theorem toNat_sub_alignedWord (hq : alignedFrac a b ≤ a.frac.toNat) :
    (a.frac - alignedWord a b).toNat = a.frac.toNat - alignedFrac a b := by
  rw [BitVec.toNat_sub_of_le, toNat_alignedWord]
  rw [BitVec.le_def, toNat_alignedWord]
  exact hq

/-- The number the source computes for a difference that does not wrap. -/
theorem value_addAligned (hsign : b.sign = !a.sign) (hq : alignedFrac a b ≤ a.frac.toNat) :
    (addAligned a b).value =
      signed a.sign ((a.frac.toNat - alignedFrac a b) * 2 ^ (a.exp - 1088)) := by
  rw [addAligned_of_ne hsign, Ufp.value, Ufp.mag, scaled, toNat_sub_alignedWord hq, Nat.cast_sub hq]

/-- With no bit shifted out and the larger fraction first, the difference is exact. -/
theorem value_addAligned_exact (hsign : b.sign = !a.sign) (hle : b.exp ≤ a.exp)
    (hout : shiftedOut a b = 0) (hq : alignedFrac a b ≤ a.frac.toNat) :
    (addAligned a b).value = a.value + b.value := by
  rw [value_addAligned hsign hq, value_add_of_ne hsign hle, alignedFrac_exact hout]

/-! ## When the difference is rounded correctly -/

/-- The 64 bits of a difference from its leading bit, when at most one leading bit cancels. -/
def leadingFrac (d : ℕ) : ℕ := if d < 2 ^ 63 then 2 * d else d

/-- What the operands of an aligned addition satisfy when its result is right: the signs agree; or
no bit is shifted out and the fractions are in order; or bits are shifted out and the difference of
the fractions is not on a breakpoint, half way when rounding, in place when chopping. -/
def AlignedOk (g : VaxGeom) (chop : Bool) (a b : Ufp) : Prop :=
  a.sign = b.sign ∨
    if shiftedOut a b = 0 then alignedFrac a b ≤ a.frac.toNat
    else ¬ 2 ^ g.roundShift ∣
      leadingFrac (a.frac.toNat - alignedFrac a b) + halfOf g.roundShift chop

instance (g : VaxGeom) (chop : Bool) (a b : Ufp) : Decidable (AlignedOk g chop a b) :=
  inferInstanceAs (Decidable (_ ∨ _))

variable {g : VaxGeom}

/-- Bits are shifted out only over a distance that leaves a small aligned fraction. -/
theorem alignShift_of_shiftedOut (hb : g.Holds b) (hout : shiftedOut a b ≠ 0) :
    12 ≤ alignShift a b ∧ alignedFrac a b < 2 ^ 52 := by
  have h11 := g.roundShift_bounds.1
  have hsh : g.roundShift < alignShift a b := by
    by_contra hle
    have hdvd := dvd_trans (Nat.pow_dvd_pow 2 (Nat.le_of_not_lt hle)) hb.dvd
    exact hout (Nat.mod_eq_zero_of_dvd hdvd)
  have hpow : 2 ^ 12 ≤ 2 ^ alignShift a b := Nat.pow_le_pow_right two_pos (by omega)
  have hlt := b.frac.isLt
  refine ⟨by omega, ?_⟩
  calc b.frac.toNat / 2 ^ alignShift a b ≤ b.frac.toNat / 2 ^ 12 :=
        Nat.div_le_div_left hpow (by decide)
    _ < 2 ^ 52 := by omega

/-- A second fraction larger than the first: the exponents are equal, and nothing is shifted. -/
theorem alignedFrac_of_lt (ha : g.Holds a) (hq : a.frac.toNat < alignedFrac a b) :
    alignShift a b = 0 ∧ alignedFrac a b = b.frac.toNat := by
  have hA := ha.normalized
  have hB := b.frac.isLt
  have hsh : alignShift a b = 0 := by
    by_contra hne
    have hpow : 2 ^ 1 ≤ 2 ^ alignShift a b := Nat.pow_le_pow_right two_pos (by omega)
    have hle : alignedFrac a b ≤ b.frac.toNat / 2 ^ 1 := Nat.div_le_div_left hpow (by decide)
    omega
  refine ⟨hsh, ?_⟩
  rw [alignedFrac, hsh, pow_zero, Nat.div_one]

variable (chop unfEnable : Bool) (exc : Exc)

/-- A difference that wraps around is never right: it has the sign of the smaller number. -/
theorem not_rounded_addAligned (ha : g.Holds a) (hb : g.Holds b) (hle : b.exp ≤ a.exp)
    (hsign : b.sign = !a.sign) (hq : a.frac.toNat < alignedFrac a b) :
    ¬ Rounded g chop unfEnable (a.value + b.value) exc
      (rpack (norm (addAligned a b)) g chop unfEnable exc) := by
  obtain ⟨hsh, hqB⟩ := alignedFrac_of_lt ha hq
  have hA := ha.normalized
  have hB := b.frac.isLt
  have hAlt := a.frac.isLt
  have hp : 0 < g.fracBits + 1 := Nat.add_one_pos _
  rw [hqB] at hq
  have hu : addAligned a b = { a with frac := a.frac - alignedWord a b } := addAligned_of_ne hsign
  have hfrac : (a.frac - alignedWord a b).toNat = 2 ^ 64 - (b.frac.toNat - a.frac.toNat) := by
    rw [BitVec.toNat_sub, toNat_alignedWord, hqB]
    omega
  have hnorm : 2 ^ 63 ≤ (addAligned a b).frac.toNat := by
    rw [hu]
    simp only [hfrac]
    omega
  have hdvd : 2 ^ g.roundShift ∣ (addAligned a b).frac.toNat := by
    rw [hu]
    simp only [hfrac]
    have h62 := g.roundShift_bounds.2.1
    exact Nat.dvd_sub (Nat.pow_dvd_pow 2 (by omega)) (Nat.dvd_sub hb.dvd ha.dvd)
  have hs : (0 : ℝ) < 2 ^ (a.exp - 1088) := zpow_pos two_pos _
  -- the exact difference has the sign of the second number
  have hdiff : (0 : ℝ) < (b.frac.toNat : ℝ) - a.frac.toNat := by
    rw [sub_pos, Nat.cast_lt]
    exact hq
  have hx : a.value + b.value =
      signed (!a.sign) (((b.frac.toNat : ℝ) - a.frac.toNat) * 2 ^ (a.exp - 1088)) := by
    rw [value_add_of_ne hsign hle, hsh, pow_zero, Nat.cast_one, div_one, signed_not, ← neg_sub,
      neg_mul]
    cases a.sign <;> simp [signed]
  have hpos : 0 < ((b.frac.toNat : ℝ) - a.frac.toNat) * 2 ^ (a.exp - 1088) := mul_pos hdiff hs
  have habs : |a.value + b.value| = ((b.frac.toNat : ℝ) - a.frac.toNat) * 2 ^ (a.exp - 1088) := by
    rw [hx, abs_signed, abs_of_pos hpos]
  have hne : a.value + b.value ≠ 0 := by
    rw [← abs_ne_zero, habs]
    exact hpos.ne'
  have hle' : |a.value + b.value| ≤ a.mag := by
    rw [habs, Ufp.mag, scaled]
    apply mul_le_mul_of_nonneg_right _ hs.le
    have h2 : b.frac.toNat ≤ 2 * a.frac.toNat := by omega
    have h2r : (b.frac.toNat : ℝ) ≤ 2 * a.frac.toNat := by exact_mod_cast h2
    linarith
  have hhi : vaxExp g chop (a.value + b.value) ≤ g.expHi :=
    (vaxExp_le g chop ha.normalized ha.dvd hne hle').trans ha.hi
  -- what the code returns is the image of the wrapped fraction, with the sign of the first number
  have hcode := rounded_norm (addAligned a b) g chop unfEnable exc
  have hexp : vaxExp g chop (addAligned a b).value = a.exp := by
    rw [vaxExp_value g chop hnorm hdvd, hu]
  have hmag := Ufp.mag_pos (u := addAligned a b) (lt_of_lt_of_le (by decide) hnorm)
  have hcodeNe : (addAligned a b).value ≠ 0 := by
    rw [← abs_ne_zero, Ufp.value, abs_signed, abs_of_pos hmag]
    exact hmag.ne'
  have hval := (hcode.inRange hcodeNe (by rw [hexp]; exact ha.lo) (by rw [hexp]; exact ha.hi)).1
  have hcodeRound : vaxRound g chop (addAligned a b).value =
      signed a.sign (roundMag (g.fracBits + 1) chop (addAligned a b).mag) := by
    rw [vaxRound, Ufp.value, signed_neg_iff hmag, abs_signed, abs_of_pos hmag, hu]
  rw [hcodeRound] at hval
  have hcodePos := roundMag_pos hp chop hmag
  intro h
  rcases lt_or_ge (vaxExp g chop (a.value + b.value)) g.expLo with hlo | hlo
  · have hzero : vaxValue (0 : Word) = 0 := vaxValue_of_zero (by decide)
    rw [h.underflow hne hlo, hzero] at hval
    have habsz := congrArg abs hval
    rw [abs_zero, abs_signed, abs_of_pos hcodePos] at habsz
    exact hcodePos.ne habsz
  · have hexact := (h.inRange hne hlo hhi).1
    rw [hval, vaxRound, hx, signed_neg_iff hpos, abs_signed, abs_of_pos hpos] at hexact
    exact signed_ne_signed_not hcodePos (roundMag_pos hp chop hpos) a.sign hexact

/-- A difference with bits shifted out is computed from its fraction rounded up to a whole unit: it
is right iff that is not a breakpoint. -/
theorem rounded_addAligned_shiftedOut (ha : g.Holds a) (hb : g.Holds b) (hle : b.exp ≤ a.exp)
    (hsign : b.sign = !a.sign) (hout : shiftedOut a b ≠ 0) :
    Rounded g chop unfEnable (a.value + b.value) exc
        (rpack (norm (addAligned a b)) g chop unfEnable exc) ↔
      ¬ 2 ^ g.roundShift ∣
        leadingFrac (a.frac.toNat - alignedFrac a b) + halfOf g.roundShift chop := by
  obtain ⟨h11, h62, h64⟩ := g.roundShift_bounds
  obtain ⟨hsh, hq52⟩ := alignShift_of_shiftedOut hb hout
  have hA := ha.normalized
  have hAlt := a.frac.isLt
  have hq : alignedFrac a b ≤ a.frac.toNat := by omega
  have hqlo := alignedFrac_lt hout
  have hqhi := (alignedFrac_bounds a b).2
  have hs : (0 : ℝ) < 2 ^ (a.exp - 1088) := zpow_pos two_pos _
  -- `d` is the difference of the fractions, `y` the exact difference: one unit below, or less
  obtain ⟨d, hd⟩ : ∃ d, d = a.frac.toNat - alignedFrac a b := ⟨_, rfl⟩
  obtain ⟨y, hy⟩ : ∃ y : ℝ, y = a.frac.toNat - (b.frac.toNat : ℝ) / (2 ^ alignShift a b : ℕ) :=
    ⟨_, rfl⟩
  have hdcast : (d : ℝ) = a.frac.toNat - alignedFrac a b := by rw [hd, Nat.cast_sub hq]
  have hylo : (d : ℝ) - 1 < y := by
    rw [hdcast, hy]
    linarith
  have hyhi : y < d := by
    rw [hdcast, hy]
    linarith
  have hdge : 2 ^ 62 < d := by omega
  have hdgeR : (2 : ℝ) ^ 62 + 1 ≤ d := by exact_mod_cast hdge
  have hyge : (2 : ℝ) ^ 62 ≤ y := by linarith
  have hypos : 0 < y := lt_of_lt_of_le (by positivity) hyge
  have hdpos : (0 : ℝ) < d := hypos.trans hyhi
  have hdA : (d : ℝ) ≤ a.frac.toNat := by exact_mod_cast (by omega : d ≤ a.frac.toNat)
  have hx : a.value + b.value = signed a.sign (y * 2 ^ (a.exp - 1088)) := by
    rw [value_add_of_ne hsign hle, hy]
  have hcode : (addAligned a b).value = signed a.sign (d * 2 ^ (a.exp - 1088)) := by
    rw [value_addAligned hsign hq, hdcast]
  have hr := rounded_norm (addAligned a b) g chop unfEnable exc
  -- both lie in the window
  have hlow : (2 : ℝ) ^ (a.exp - 1 - 1025) = 2 ^ 62 * 2 ^ (a.exp - 1088) := by
    rw [← zpow_natCast (2 : ℝ) 62, ← zpow_add₀ two_ne_zero]
    congr 1
    push_cast
    ring
  have hwin : ∀ z : ℝ, (2 : ℝ) ^ 62 ≤ z → z ≤ a.frac.toNat →
      signed a.sign (z * 2 ^ (a.exp - 1088)) ≠ 0 ∧
      |signed a.sign (z * 2 ^ (a.exp - 1088))| = z * 2 ^ (a.exp - 1088) ∧
      g.expLo ≤ vaxExp g chop (signed a.sign (z * 2 ^ (a.exp - 1088))) ∧
      vaxExp g chop (signed a.sign (z * 2 ^ (a.exp - 1088))) ≤ g.expHi := by
    intro z hz hzA
    have hzpos : 0 < z * 2 ^ (a.exp - 1088) :=
      mul_pos (lt_of_lt_of_le (by positivity) hz) hs
    have habs : |signed a.sign (z * 2 ^ (a.exp - 1088))| = z * 2 ^ (a.exp - 1088) := by
      rw [abs_signed, abs_of_pos hzpos]
    have hne : signed a.sign (z * 2 ^ (a.exp - 1088)) ≠ 0 := by
      rw [← abs_ne_zero, habs]
      exact hzpos.ne'
    have hge : a.exp - 1 ≤ vaxExp g chop (signed a.sign (z * 2 ^ (a.exp - 1088))) := by
      apply le_vaxExp
      rw [habs, hlow]
      exact mul_le_mul_of_nonneg_right hz hs.le
    have hle' := vaxExp_le g chop ha.normalized ha.dvd hne
      (by rw [habs, Ufp.mag, scaled]; exact mul_le_mul_of_nonneg_right hzA hs.le)
    have hblo := hb.lo
    have haHi := ha.hi
    have hshift : (alignShift a b : ℤ) = a.exp - b.exp := by
      unfold alignShift
      omega
    exact ⟨hne, habs, by omega, by omega⟩
  obtain ⟨hxne, hxabs, hxlo, hxhi⟩ := hwin y hyge (hyhi.le.trans hdA)
  obtain ⟨hdne, hdabs, hdlo, hdhi⟩ := hwin d (by linarith) hdA
  rw [hcode] at hr
  rw [hx, hr.iff_of_inRange g chop hxne hdne
    (by rw [signed_neg_iff (mul_pos hypos hs), signed_neg_iff (mul_pos hdpos hs)])
    hxlo hxhi hdlo hdhi, hxabs, hdabs]
  -- bring the leading bit of the difference to bit 63
  obtain ⟨s, hs1, hlead⟩ : ∃ s, s ≤ 1 ∧ leadingFrac d = d * 2 ^ s := by
    unfold leadingFrac
    split
    · exact ⟨1, le_rfl, by rw [pow_one, mul_comm]⟩
    · exact ⟨0, Nat.zero_le _, by rw [pow_zero, mul_one]⟩
  have hleadLo : 2 ^ 63 ≤ leadingFrac d := by
    unfold leadingFrac
    split <;> omega
  have hleadHi : leadingFrac d < 2 ^ 64 := by
    unfold leadingFrac
    split <;> omega
  have hscale : ∀ z : ℝ, z * 2 ^ (a.exp - 1088) = z * 2 ^ s * 2 ^ (a.exp - 1088 - s) := by
    intro z
    rw [mul_assoc, ← zpow_natCast (2 : ℝ) s, ← zpow_add₀ two_ne_zero]
    congr 2
    ring
  have h2s : (0 : ℝ) < 2 ^ s := pow_pos two_pos s
  have hunit : (0 : ℝ) < 2 ^ (a.exp - 1088 - s) := zpow_pos two_pos _
  have hleadCast : (leadingFrac d : ℝ) = d * 2 ^ s := by rw [hlead, Nat.cast_mul]; push_cast; rfl
  rw [hscale y, hscale d, roundMag_mul_zpow _ _ (mul_pos hypos h2s),
    roundMag_mul_zpow _ _ (mul_pos hdpos h2s), mul_left_inj' hunit.ne', ← hleadCast, ← hd]
  apply roundMag_below_iff (s := s) (Nat.add_one_pos g.fracBits) (by omega) chop
  · rw [h64]
    exact hleadLo
  · rw [h64]
    exact hleadHi
  · rw [hlead]
    exact Dvd.intro_left _ rfl
  · rw [hleadCast, ← sub_one_mul]
    exact mul_le_mul_of_nonneg_right hylo.le h2s.le
  · rw [hleadCast]
    exact mul_lt_mul_of_pos_right hyhi h2s

/-- An aligned addition is right exactly on the operands of `AlignedOk`. -/
theorem rounded_addAligned_iff (ha : g.Holds a) (hb : g.Holds b) (hle : b.exp ≤ a.exp) :
    Rounded g chop unfEnable (a.value + b.value) exc
        (rpack (norm (addAligned a b)) g chop unfEnable exc) ↔
      AlignedOk g chop a b := by
  have h11 := g.roundShift_bounds.1
  by_cases hsign : a.sign = b.sign
  · have hkeeps := keeps_addAligned ha.normalized hle hsign
    rw [norm_of_normalized hkeeps.normalized]
    exact iff_of_true (rpack_of_keeps hkeeps g chop unfEnable exc (by omega)) (Or.inl hsign)
  · have hnot : b.sign = !a.sign := by
      revert hsign
      cases a.sign <;> cases b.sign <;> decide
    rw [AlignedOk, or_iff_right hsign]
    by_cases hout : shiftedOut a b = 0
    · rw [if_pos hout]
      by_cases hq : alignedFrac a b ≤ a.frac.toNat
      · rw [← value_addAligned_exact hnot hle hout hq]
        exact iff_of_true (rounded_norm _ g chop unfEnable exc) hq
      · exact iff_of_false
          (not_rounded_addAligned chop unfEnable exc ha hb hle hnot (Nat.lt_of_not_le hq)) hq
    · rw [if_neg hout]
      exact rounded_addAligned_shiftedOut chop unfEnable exc ha hb hle hnot hout

end Aligned

/-! ## ADDF, ADDG, SUBF and SUBG -/

/-- The second operand of an addition, or of a subtraction with its sign changed. -/
def addend (sub : Bool) (opb : Word) : Ufp := { unpacked opb with sign := signOf opb ^^ sub }

/-- What the operands satisfy when the sum or difference is right: one of them is zero, or they
align, the one with the larger exponent first, and the first operand first when the exponents are
equal. -/
def AddOk (g : VaxGeom) (chop sub : Bool) (opa opb : Word) : Prop :=
  expOf opa = 0 ∨ expOf opb = 0 ∨
    if expOf opa < expOf opb then AlignedOk g chop (addend sub opb) (unpacked opa)
    else AlignedOk g chop (unpacked opa) (addend sub opb)

instance (g : VaxGeom) (chop sub : Bool) (opa opb : Word) : Decidable (AddOk g chop sub opa opb) :=
  inferInstanceAs (Decidable (_ ∨ _ ∨ _))

/-- The second operand, with its sign turned in a subtraction. -/
theorem value_addend (sub : Bool) {opb : Word} (hb : expOf opb ≠ 0) :
    (addend sub opb).value = if sub then -vaxValue opb else vaxValue opb := by
  have h : (addend sub opb).mag = (unpacked opb).mag := rfl
  rw [← value_unpacked hb, Ufp.value, Ufp.value, h]
  cases sub with
  | false => simp [addend, unpacked]
  | true =>
    simp only [addend, unpacked, Bool.xor_true, if_true]
    exact signed_not _ _

/-- On two nonzero operands `addsub` packs the normalized sum. -/
theorem addsub_eq {opa opb : Word} (ha : expOf opa ≠ 0) (hb : expOf opb ≠ 0) (sub : Bool)
    (g : VaxGeom) (chop unfEnable : Bool) (exc : Exc) :
    addsub opa opb sub g chop unfEnable exc =
      rpack (norm (if expOf opa < expOf opb then addAligned (addend sub opb) (unpacked opa)
        else addAligned (unpacked opa) (addend sub opb))) g chop unfEnable exc := by
  have hea : ¬ (unpacked opa).exp = 0 := by
    simp only [unpacked]
    omega
  have heb : ¬ (unpacked opb).exp = 0 := by
    simp only [unpacked]
    omega
  have hlt : (unpacked opa).exp < (unpacked opb).exp ↔ expOf opa < expOf opb := by
    simp only [unpacked, Int.ofNat_lt]
  simp only [addsub, unpack_of_pos ha, unpack_of_pos hb, if_neg hea, if_neg heb, hlt]
  rfl

/-- Adding to or from a zero packs the other operand. -/
theorem rounded_addsub_of_zero (g : VaxGeom) (chop unfEnable sub : Bool) (exc : Exc)
    {opa opb : Word} (ha : ¬ Reserved opa) (hb : ¬ Reserved opb)
    (hz : expOf opa = 0 ∨ expOf opb = 0) :
    Rounded g chop unfEnable (if sub then vaxValue opa - vaxValue opb else vaxValue opa + vaxValue opb)
      exc (addsub opa opb sub g chop unfEnable exc) := by
  have hself : ∀ (u : Ufp), 2 ^ 63 ≤ u.frac.toNat →
      Rounded g chop unfEnable u.value exc (rpack u g chop unfEnable exc) := fun u hu => by
    have h := rounded_norm u g chop unfEnable exc
    rwa [norm_of_normalized hu] at h
  by_cases hza : expOf opa = 0
  · by_cases hzb : expOf opb = 0
    · have hcode : addsub opa opb sub g chop unfEnable exc = (0, exc) := by
        simp only [addsub, unpack_of_not_reserved ha, unpack_of_not_reserved hb, if_pos hza,
          if_pos hzb, if_true, rpack]
      rw [hcode, vaxValue_of_zero hza, vaxValue_of_zero hzb]
      have h := Rounded.of_zero g chop unfEnable exc
      cases sub <;> simpa using h
    · have hcode : addsub opa opb sub g chop unfEnable exc =
          rpack (addend sub opb) g chop unfEnable exc := by
        simp only [addsub, unpack_of_not_reserved ha, unpack_of_pos hzb, if_pos hza, if_true]
        rfl
      have hvalue := value_addend sub hzb
      have h := hself (addend sub opb) (unpacked_frac opb).1
      rw [hcode, vaxValue_of_zero hza, zero_sub, zero_add, ← hvalue]
      exact h
  · have hzb := hz.resolve_left hza
    have hea : ¬ (unpacked opa).exp = 0 := by
      simp only [unpacked]
      omega
    have hcode : addsub opa opb sub g chop unfEnable exc =
        rpack (unpacked opa) g chop unfEnable exc := by
      simp only [addsub, unpack_of_pos hza, unpack_of_not_reserved hb, if_pos hzb, if_neg hea,
        if_true]
    have h := hself (unpacked opa) (unpacked_frac opa).1
    rw [value_unpacked hza] at h
    rw [hcode, vaxValue_of_zero hzb, sub_zero, add_zero, ite_self]
    exact h

/-- Adding two numbers neither of which is zero. -/
theorem rounded_addsub_iff_aligned (g : VaxGeom) (chop unfEnable sub : Bool) (exc : Exc)
    {opa opb : Word} (ha : IsImage g opa) (hb : IsImage g opb) (hza : expOf opa ≠ 0)
    (hzb : expOf opb ≠ 0) :
    Rounded g chop unfEnable (if sub then vaxValue opa - vaxValue opb else vaxValue opa + vaxValue opb)
        exc (addsub opa opb sub g chop unfEnable exc) ↔
      AddOk g chop sub opa opb := by
  have hHa := ha.holds hza
  have hHb : g.Holds (addend sub opb) := by
    obtain ⟨h1, h2, h3, h4⟩ := hb.holds hzb
    exact ⟨h1, h2, h3, h4⟩
  have hx : (if sub then vaxValue opa - vaxValue opb else vaxValue opa + vaxValue opb) =
      (unpacked opa).value + (addend sub opb).value := by
    rw [value_unpacked hza, value_addend sub hzb]
    cases sub <;> simp [sub_eq_add_neg]
  rw [hx, addsub_eq hza hzb, AddOk, or_iff_right hza, or_iff_right hzb]
  by_cases hlt : expOf opa < expOf opb
  · rw [if_pos hlt, if_pos hlt, add_comm]
    apply rounded_addAligned_iff chop unfEnable exc hHb hHa
    simp only [unpacked, addend]
    omega
  · rw [if_neg hlt, if_neg hlt]
    apply rounded_addAligned_iff chop unfEnable exc hHa hHb
    simp only [unpacked, addend]
    omega

/-- Addition and subtraction return the exact result rounded once iff the operands are such as
`AddOk` says. -/
theorem rounded_addsub_iff (g : VaxGeom) (chop unfEnable sub : Bool) (exc : Exc) {opa opb : Word}
    (ha : IsImage g opa) (hb : IsImage g opb) :
    Rounded g chop unfEnable (if sub then vaxValue opa - vaxValue opb else vaxValue opa + vaxValue opb)
        exc (addsub opa opb sub g chop unfEnable exc) ↔
      AddOk g chop sub opa opb := by
  by_cases hza : expOf opa = 0
  · exact iff_of_true
      (rounded_addsub_of_zero g chop unfEnable sub exc ha.1 hb.1 (Or.inl hza)) (Or.inl hza)
  · by_cases hzb : expOf opb = 0
    · exact iff_of_true (rounded_addsub_of_zero g chop unfEnable sub exc ha.1 hb.1 (Or.inr hzb))
        (Or.inr (Or.inl hzb))
    · exact rounded_addsub_iff_aligned g chop unfEnable sub exc ha hb hza hzb

/-- 1.0 less a number far below its last place, chopped: all its bits are shifted out. -/
example : ¬ AddOk G true true 0x4010000000000000 0x3C00000000000000 := by decide

/-- 1.5 + (-4.0), in G_floating: the signs differ, and 1.5 is aligned. -/
theorem rounded_addG_signs : Rounded G false true
    (if false then vaxValue 0x4018000000000000 - vaxValue 0xC030000000000000
      else vaxValue 0x4018000000000000 + vaxValue 0xC030000000000000) 0
    (addsub 0x4018000000000000 0xC030000000000000 false G false true 0) :=
  (rounded_addsub_iff G false true false 0 (isImage_G (by decide)) (isImage_G (by decide))).2
    (by decide)

/-- 1.0 - 1.5 returns 1.5. -/
theorem not_rounded_subG_one :
    addsub 0x4010000000000000 0x4018000000000000 true G false true 0 = (0x4018000000000000, 0) ∧
    ¬ Rounded G false true
      (if true then vaxValue 0x4010000000000000 - vaxValue 0x4018000000000000
        else vaxValue 0x4010000000000000 + vaxValue 0x4018000000000000) 0
      (addsub 0x4010000000000000 0x4018000000000000 true G false true 0) := by
  refine ⟨by decide, ?_⟩
  rw [rounded_addsub_iff_aligned G false true true 0 (isImage_G (by decide))
    (isImage_G (by decide)) (by decide) (by decide)]
  decide

end Vax

end EmulatR
