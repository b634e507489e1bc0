import Mathlib.Data.Nat.Cast.Order.Field
import EmulatR.Fp.VaxRound

/-! # VAX multiplication and division

The product and the quotient of two register images are rounded correctly. The product keeps 64 of
its 128 bits, the quotient its leading 55 (fpBoxLib/vax_float.h, `mul`, `div` and `ufdiv`): in both
cases what is dropped lies below the bit that rounds the longer of the two formats.

`rounded_mul_div` is the result. -/

namespace EmulatR

open Library

namespace Vax

/-! ## The quotient bits -/

/-- A restoring division keeps `dividend = 2 * divisor * quotient + remainder`, all scaled by the
steps taken, with the remainder below twice the divisor: one bit of headroom is enough. -/
theorem ufdivLoop_spec (n : ℕ) (dvd dvr quo : Word) (i : ℕ) (hdvr : dvr.toNat < 2 ^ 63)
    (hdvd : dvd.toNat < 2 * dvr.toNat) (hquo : quo.toNat < 2 ^ i) (hi : i + n ≤ 64) :
    ∃ rem < 2 * dvr.toNat, ∃ k ≤ n,
      (ufdivLoop n dvd dvr quo i).2 = i + k ∧
      (ufdivLoop n dvd dvr quo i).1.toNat < 2 ^ (i + k) ∧
      (2 * dvr.toNat * quo.toNat + dvd.toNat) * 2 ^ k =
        2 * dvr.toNat * (ufdivLoop n dvd dvr quo i).1.toNat + rem ∧
      (rem = 0 ∨ k = n) := by
  induction n generalizing dvd quo i with
  | zero => exact ⟨dvd.toNat, hdvd, 0, le_rfl, rfl, hquo, by rw [pow_zero, mul_one]; rfl, Or.inr rfl⟩
  | succ n ih =>
    rw [ufdivLoop]
    by_cases hz : dvd = 0
    · rw [if_pos hz]
      have hnat : dvd.toNat = 0 := by rw [hz]; rfl
      refine ⟨0, by omega, 0, Nat.zero_le _, rfl, hquo, ?_, Or.inl rfl⟩
      rw [hnat, pow_zero, mul_one]
    · have hpow : 2 ^ (i + 1) ≤ 2 ^ 64 := Nat.pow_le_pow_right two_pos (by omega)
      have hsucc : 2 ^ (i + 1) = 2 ^ i * 2 := pow_succ 2 i
      have hshift : (quo <<< 1).toNat = 2 * quo.toNat := by
        rw [BitVec.toNat_shiftLeft, Nat.shiftLeft_eq, pow_one, Nat.mod_eq_of_lt (by omega),
          mul_comm]
      rw [if_neg hz]
      by_cases hle : dvr ≤ dvd
      · -- a one: the remainder after the subtraction is below the divisor
        have hnat : dvr.toNat ≤ dvd.toNat := hle
        have hone : ((quo <<< 1) + 1).toNat = 2 * quo.toNat + 1 := by
          have h1 : (1 : Word).toNat = 1 := rfl
          rw [BitVec.toNat_add, hshift, h1, Nat.mod_eq_of_lt (by omega)]
        have hrest : ((dvd - dvr) <<< 1).toNat = 2 * (dvd.toNat - dvr.toNat) := by
          rw [BitVec.toNat_shiftLeft, BitVec.toNat_sub_of_le hle, Nat.shiftLeft_eq, pow_one,
            Nat.mod_eq_of_lt (by omega), mul_comm]
        obtain ⟨rem, hrem, k, hk, h1, h2, h3, h4⟩ := ih ((dvd - dvr) <<< 1) ((quo <<< 1) + 1)
          (i + 1) (by rw [hrest]; omega) (by rw [hone]; omega) (by omega)
        rw [if_pos hle]
        refine ⟨rem, hrem, k + 1, Nat.succ_le_succ hk, by rw [h1]; ring, ?_, ?_, ?_⟩
        · rwa [show i + (k + 1) = i + 1 + k by ring]
        · rw [← h3, hone, hrest, pow_succ]
          zify [hnat]
          ring
        · exact h4.imp_right (congrArg Nat.succ)
      · -- a zero: the remainder is below the divisor already
        have hnat : dvd.toNat < dvr.toNat := Nat.lt_of_not_le hle
        have hrest : (dvd <<< 1).toNat = 2 * dvd.toNat := by
          rw [BitVec.toNat_shiftLeft, Nat.shiftLeft_eq, pow_one, Nat.mod_eq_of_lt (by omega),
            mul_comm]
        obtain ⟨rem, hrem, k, hk, h1, h2, h3, h4⟩ := ih (dvd <<< 1) (quo <<< 1) (i + 1)
          (by rw [hrest]; omega) (by rw [hshift]; omega) (by omega)
        rw [if_neg hle]
        refine ⟨rem, hrem, k + 1, Nat.succ_le_succ hk, by rw [h1]; ring, ?_, ?_, ?_⟩
        · rwa [show i + (k + 1) = i + 1 + k by ring]
        · rw [← h3, hshift, hrest, pow_succ]
          ring
        · exact h4.imp_right (congrArg Nat.succ)

/-- Dividing two fractions with a bit of headroom gives the leading quotient bits, in place. -/
theorem toNat_ufdiv {dvd dvr : Word} {prec : ℕ} (hprec : 0 < prec) (h64 : prec < 64)
    (hdvr : dvr.toNat < 2 ^ 63) (hdvd : dvd.toNat < 2 * dvr.toNat) :
    (ufdiv dvd dvr prec).toNat =
      dvd.toNat * 2 ^ (prec - 1) / dvr.toNat * 2 ^ (64 - prec) := by
  obtain ⟨rem, hrem, k, hk, hi, hq, heq, hend⟩ :=
    ufdivLoop_spec prec dvd dvr 0 0 hdvr hdvd (by decide) (by omega)
  have hpos : 0 < dvr.toNat := by omega
  generalize hloop : ufdivLoop prec dvd dvr 0 0 = r at hi hq heq
  obtain ⟨quo, i⟩ := r
  simp only [Nat.zero_add] at hi hq heq
  have hzero : (0 : Word).toNat = 0 := rfl
  rw [hzero, mul_zero, zero_add] at heq
  rw [ufdiv, hloop]
  simp only [hi]
  rcases Nat.eq_zero_or_pos k with hk0 | hkpos
  · -- nothing to divide
    have hdvd0 : dvd.toNat = 0 := by
      rw [hk0, pow_zero, mul_one] at heq
      rcases hend with h0 | h0
      · rw [hk0, pow_zero, Nat.lt_one_iff] at hq
        rw [heq, hq, h0, mul_zero]
      · omega
    have hquo : quo.toNat = 0 := by
      rw [hk0, pow_zero] at hq
      omega
    rw [BitVec.toNat_shiftLeft, hquo, hdvd0]
    simp
  have hshift : 63 - k + 1 = 64 - k := by omega
  have hfit : quo.toNat * 2 ^ (64 - k) < 2 ^ 64 := by
    calc quo.toNat * 2 ^ (64 - k) < 2 ^ k * 2 ^ (64 - k) :=
          Nat.mul_lt_mul_of_pos_right hq (Nat.two_pow_pos _)
      _ = 2 ^ 64 := by rw [← pow_add, Nat.add_sub_cancel' (by omega)]
  have hstep : 2 ^ k = 2 * 2 ^ (k - 1) := by
    rw [← pow_succ', Nat.sub_add_cancel hkpos]
  -- the steps taken give the quotient to `k` bits
  have hquo : dvd.toNat * 2 ^ (k - 1) / dvr.toNat = quo.toNat := by
    rw [hstep] at heq
    have hhalf : 2 * (dvd.toNat * 2 ^ (k - 1)) = 2 * (quo.toNat * dvr.toNat) + rem := by
      rw [← mul_left_comm, heq]
      ring
    apply Nat.div_eq_of_lt_le
    · omega
    · rw [Nat.succ_mul]
      omega
  rw [BitVec.toNat_shiftLeft, Nat.shiftLeft_eq, hshift, Nat.mod_eq_of_lt hfit]
  rcases hend with h0 | hkn
  · -- a division that came out even has no further bits
    have hexact : dvd.toNat * 2 ^ (k - 1) = dvr.toNat * quo.toNat := by
      rw [h0, hstep] at heq
      linarith
    have hsplit : 2 ^ (prec - 1) = 2 ^ (k - 1) * 2 ^ (prec - k) := by
      rw [← pow_add]
      congr 1
      omega
    have hjoin : 2 ^ (64 - k) = 2 ^ (prec - k) * 2 ^ (64 - prec) := by
      rw [← pow_add]
      congr 1
      omega
    rw [hsplit, ← mul_assoc, hexact, mul_assoc, Nat.mul_div_cancel_left _ hpos, hjoin, mul_assoc]
  · rw [← hkn, hquo]

/-! ## The product -/

/-- The 64 bits kept of a product, from its leading bit. -/
def mulLeading (a b : Ufp) : Ufp :=
  if (umul128 a.frac b.frac).1 >>> 63 ≠ 0 then
    ⟨a.sign ^^ b.sign, a.exp + b.exp - kExpBias - 1 + 1, (umul128 a.frac b.frac).1⟩
  else
    ⟨a.sign ^^ b.sign, a.exp + b.exp - kExpBias - 1,
      ((umul128 a.frac b.frac).1 <<< 1) ||| ((umul128 a.frac b.frac).2 >>> 63)⟩

/-- On two nonzero operands `mul` packs the normalized product. -/
theorem mul_eq {opa opb : Word} (ha : expOf opa ≠ 0) (hb : expOf opb ≠ 0) (g : VaxGeom)
    (chop unfEnable : Bool) (exc : Exc) :
    mul opa opb g chop unfEnable exc =
      rpack (norm (mulLeading (unpacked opa) (unpacked opb))) g chop unfEnable exc := by
  have hea : ¬ ((unpacked opa).exp = 0 ∨ (unpacked opb).exp = 0) := by
    simp only [unpacked]
    omega
  simp only [mul, unpack_of_pos ha, unpack_of_pos hb, if_neg hea, mulLeading]

/-- The leading 64 bits of the product of two normalized fractions, and the power of two they were
moved by. -/
theorem mulLeading_frac {a b : Ufp} (ha : 2 ^ 63 ≤ a.frac.toNat) (hb : 2 ^ 63 ≤ b.frac.toNat) :
    ∃ k : ℕ, k ≤ 1 ∧ (mulLeading a b).exp = a.exp + b.exp - 1025 + k ∧
      2 ^ 63 ≤ (mulLeading a b).frac.toNat ∧
      (mulLeading a b).frac.toNat = a.frac.toNat * b.frac.toNat / 2 ^ (63 + k) := by
  obtain ⟨hhi, hlo⟩ := toNat_umul128 a.frac b.frac
  have hA := a.frac.isLt
  have hB := b.frac.isLt
  have hge : 2 ^ 126 ≤ a.frac.toNat * b.frac.toNat :=
    calc 2 ^ 126 = 2 ^ 63 * 2 ^ 63 := by norm_num
      _ ≤ a.frac.toNat * b.frac.toNat := Nat.mul_le_mul ha hb
  have hlt : a.frac.toNat * b.frac.toNat < 2 ^ 128 :=
    calc a.frac.toNat * b.frac.toNat < 2 ^ 64 * 2 ^ 64 := Nat.mul_lt_mul'' hA hB
      _ = 2 ^ 128 := by norm_num
  have htop : (umul128 a.frac b.frac).1 >>> 63 = 0 ↔ a.frac.toNat * b.frac.toNat < 2 ^ 127 := by
    rw [← BitVec.toNat_inj, BitVec.toNat_ushiftRight, hhi, Nat.shiftRight_eq_div_pow]
    change _ = 0 ↔ _
    omega
  unfold mulLeading
  by_cases h : (umul128 a.frac b.frac).1 >>> 63 = 0
  · have hsmall := htop.1 h
    have hshift : ((umul128 a.frac b.frac).1 <<< 1).toNat =
        2 ^ 1 * (a.frac.toNat * b.frac.toNat / 2 ^ 64) := by
      rw [BitVec.toNat_shiftLeft, hhi, Nat.shiftLeft_eq]
      omega
    have hbit : ((umul128 a.frac b.frac).2 >>> 63).toNat =
        a.frac.toNat * b.frac.toNat % 2 ^ 64 / 2 ^ 63 := by
      rw [BitVec.toNat_ushiftRight, hlo, Nat.shiftRight_eq_div_pow]
    have hbitLt : a.frac.toNat * b.frac.toNat % 2 ^ 64 / 2 ^ 63 < 2 ^ 1 := by omega
    have hfrac : (((umul128 a.frac b.frac).1 <<< 1) |||
        ((umul128 a.frac b.frac).2 >>> 63)).toNat = a.frac.toNat * b.frac.toNat / 2 ^ 63 := by
      rw [BitVec.toNat_or, hshift, hbit, ← Nat.two_pow_add_eq_or_of_lt hbitLt]
      omega
    rw [if_neg (not_not_intro h)]
    refine ⟨0, Nat.zero_le _, ?_, ?_, hfrac⟩
    · simp only [kExpBias]
      omega
    · rw [hfrac]
      omega
  · have hbig : 2 ^ 127 ≤ a.frac.toNat * b.frac.toNat := Nat.le_of_not_lt (mt htop.2 h)
    rw [if_pos h]
    refine ⟨1, le_rfl, ?_, ?_, hhi⟩
    · simp only [kExpBias]
      omega
    · rw [hhi]
      omega

/-- The leading bits of the product keep it for the rounding. -/
theorem keeps_mulLeading {a b : Ufp} (ha : 2 ^ 63 ≤ a.frac.toNat) (hb : 2 ^ 63 ≤ b.frac.toNat) :
    Keeps 0 (mulLeading a b) (a.value * b.value) := by
  obtain ⟨k, -, hexp, hn, hfrac⟩ := mulLeading_frac ha hb
  have hpos : 0 < a.mag * b.mag :=
    mul_pos (Ufp.mag_pos (lt_of_lt_of_le (by decide) ha))
      (Ufp.mag_pos (lt_of_lt_of_le (by decide) hb))
  have hvalue : a.value * b.value = signed (a.sign ^^ b.sign) (a.mag * b.mag) :=
    (signed_xor _ _ _ _).symm
  have hsign : (mulLeading a b).sign = (a.sign ^^ b.sign) := by
    unfold mulLeading
    split <;> rfl
  have hs : (0 : ℝ) < 2 ^ (a.exp + b.exp - 1025 + k - 1088) := zpow_pos two_pos _
  have hmag : a.mag * b.mag =
      ((a.frac.toNat * b.frac.toNat : ℕ) : ℝ) / (2 ^ (63 + k) : ℕ) *
        2 ^ (a.exp + b.exp - 1025 + k - 1088) := by
    have hsplit : (2 : ℝ) ^ (a.exp - 1088) * 2 ^ (b.exp - 1088) * 2 ^ (63 + k) =
        2 ^ (a.exp + b.exp - 1025 + k - 1088) := by
      rw [← zpow_natCast (2 : ℝ) (63 + k), ← zpow_add₀ two_ne_zero, ← zpow_add₀ two_ne_zero]
      congr 1
      push_cast
      ring
    have h2 : (2 : ℝ) ^ (63 + k) ≠ 0 := (pow_pos two_pos _).ne'
    rw [Ufp.mag, Ufp.mag, scaled, scaled, ← hsplit]
    push_cast
    field_simp
  refine ⟨⟨one_dvd _, ?_, ?_, ?_⟩, hn⟩
  · rw [hvalue, signed_neg_iff hpos, hsign]
  · rw [hvalue, abs_signed, abs_of_pos hpos, hmag, hexp, hfrac]
    exact mul_le_mul_of_nonneg_right Nat.cast_div_le hs.le
  · have hfloor := Nat.lt_div_mul_add (a := a.frac.toNat * b.frac.toNat) (Nat.two_pow_pos (63 + k))
    rw [hvalue, abs_signed, abs_of_pos hpos, hmag, hexp, hfrac, pow_zero]
    apply mul_lt_mul_of_pos_right _ hs
    rw [div_lt_iff₀ (by positivity)]
    exact_mod_cast (by rw [add_mul, one_mul]; exact hfloor :
      a.frac.toNat * b.frac.toNat <
        (a.frac.toNat * b.frac.toNat / 2 ^ (63 + k) + 1) * 2 ^ (63 + k))

/-- Multiplication returns the exact product rounded once. -/
theorem rounded_mul (g : VaxGeom) (chop unfEnable : Bool) (exc : Exc) {opa opb : Word}
    (ha : ¬ Reserved opa) (hb : ¬ Reserved opb) :
    Rounded g chop unfEnable (vaxValue opa * vaxValue opb) exc
      (mul opa opb g chop unfEnable exc) := by
  have h11 := g.roundShift_bounds.1
  by_cases hz : expOf opa = 0 ∨ expOf opb = 0
  · have hx : vaxValue opa * vaxValue opb = 0 := by
      rcases hz with h | h <;> simp [vaxValue_of_zero h]
    have hzero : mul opa opb g chop unfEnable exc = (0, exc) := by
      simp only [mul, unpack_of_not_reserved ha, unpack_of_not_reserved hb]
      rcases hz with h | h <;> simp [h]
    rw [hx, hzero]
    exact Rounded.of_zero g chop unfEnable exc
  · obtain ⟨hea, heb⟩ := not_or.1 hz
    have hkeeps := keeps_mulLeading (unpacked_frac opa).1 (unpacked_frac opb).1
    rw [mul_eq hea heb, norm_of_normalized hkeeps.normalized, ← value_unpacked hea,
      ← value_unpacked heb]
    exact rpack_of_keeps hkeeps g chop unfEnable exc (by omega)

/-! ## The quotient -/

/-- The 55 bits of a quotient, in place. -/
def divLeading (a b : Ufp) : Ufp :=
  ⟨a.sign ^^ b.sign, a.exp - b.exp + kExpBias + 1, ufdiv (a.frac >>> 1) (b.frac >>> 1) 55⟩

/-- On two nonzero operands `div` packs the normalized quotient. -/
theorem div_eq {opa opb : Word} (ha : expOf opa ≠ 0) (hb : expOf opb ≠ 0) (g : VaxGeom)
    (chop unfEnable : Bool) (exc : Exc) :
    div opa opb g chop unfEnable exc =
      rpack (norm (divLeading (unpacked opa) (unpacked opb))) g chop unfEnable exc := by
  have hea : ¬ (unpacked opa).exp = 0 := by
    simp only [unpacked]
    omega
  have heb : ¬ (unpacked opb).exp = 0 := by
    simp only [unpacked]
    omega
  simp only [div, unpack_of_pos ha, unpack_of_pos hb, if_neg hea, if_neg heb, divLeading]

/-- The quotient of two halved fractions: its 55 leading bits, in place. -/
theorem divLeading_frac {a b : Ufp} (ha : 2 ^ 63 ≤ a.frac.toNat) (hb : 2 ^ 63 ≤ b.frac.toNat) :
    (divLeading a b).frac.toNat =
        a.frac.toNat / 2 * 2 ^ 54 / (b.frac.toNat / 2) * 2 ^ 9 ∧
      2 ^ 62 ≤ (divLeading a b).frac.toNat := by
  have hA := a.frac.isLt
  have hB := b.frac.isLt
  have hhalf : ∀ x : Word, (x >>> 1).toNat = x.toNat / 2 := fun x => by
    rw [BitVec.toNat_ushiftRight, Nat.shiftRight_eq_div_pow, pow_one]
  have hfrac : (divLeading a b).frac.toNat =
      a.frac.toNat / 2 * 2 ^ 54 / (b.frac.toNat / 2) * 2 ^ 9 := by
    rw [divLeading, toNat_ufdiv (by decide) (by decide) (by rw [hhalf]; omega)
      (by rw [hhalf, hhalf]; omega), hhalf, hhalf]
  have hquo : 2 ^ 53 ≤ a.frac.toNat / 2 * 2 ^ 54 / (b.frac.toNat / 2) := by
    rw [Nat.le_div_iff_mul_le (by omega)]
    omega
  exact ⟨hfrac, by omega⟩

/-- The bits of the restoring division are the leading bits of the quotient. -/
theorem leads_divLeading {a b : Ufp} (ha : 2 ^ 63 ≤ a.frac.toNat) (hb : 2 ^ 63 ≤ b.frac.toNat)
    (hda : 2 ∣ a.frac.toNat) (hdb : 2 ∣ b.frac.toNat) :
    Leads 9 (divLeading a b) (a.value / b.value) := by
  obtain ⟨hfrac, -⟩ := divLeading_frac ha hb
  obtain ⟨d, hd⟩ := hda
  obtain ⟨v, hv⟩ := hdb
  have hvpos : 0 < v := by omega
  have hvreal : (0 : ℝ) < v := Nat.cast_pos.2 hvpos
  have hmb : 0 < b.mag := Ufp.mag_pos (lt_of_lt_of_le (by decide) hb)
  have hpos : 0 < a.mag / b.mag := div_pos (Ufp.mag_pos (lt_of_lt_of_le (by decide) ha)) hmb
  have hvalue : a.value / b.value = signed (a.sign ^^ b.sign) (a.mag / b.mag) := by
    have h := signed_xor (a.sign ^^ b.sign) b.sign (a.mag / b.mag) b.mag
    rw [Bool.xor_assoc, Bool.xor_self, Bool.xor_false, div_mul_cancel₀ _ hmb.ne'] at h
    have hne : b.value ≠ 0 := by
      rw [← abs_ne_zero, Ufp.value, abs_signed, abs_of_pos hmb]
      exact hmb.ne'
    rw [div_eq_iff hne]
    exact h
  have hexp : (divLeading a b).exp - 1088 = a.exp - b.exp - 63 := by
    simp only [divLeading, kExpBias]
    omega
  have hs : (0 : ℝ) < 2 ^ (a.exp - b.exp - 63) := zpow_pos two_pos _
  have hmag : a.mag / b.mag =
      ((d * 2 ^ 54 : ℕ) : ℝ) / v * 2 ^ 9 * 2 ^ (a.exp - b.exp - 63) := by
    have hsplit : (2 : ℝ) ^ (a.exp - 1088) =
        2 ^ 63 * 2 ^ (a.exp - b.exp - 63) * 2 ^ (b.exp - 1088) := by
      rw [← zpow_natCast (2 : ℝ) 63, ← zpow_add₀ two_ne_zero, ← zpow_add₀ two_ne_zero]
      congr 1
      push_cast
      ring
    have h2 : (2 : ℝ) ^ (b.exp - 1088) ≠ 0 := (zpow_pos two_pos _).ne'
    rw [Ufp.mag, Ufp.mag, scaled, scaled, hsplit, hd, hv]
    push_cast
    field_simp
    ring
  rw [hd, hv, Nat.mul_div_cancel_left _ two_pos, Nat.mul_div_cancel_left _ two_pos] at hfrac
  have hqlo : ((d * 2 ^ 54 / v : ℕ) : ℝ) ≤ (d * 2 ^ 54 : ℕ) / v := Nat.cast_div_le
  have hqhi : ((d * 2 ^ 54 : ℕ) : ℝ) / v < (d * 2 ^ 54 / v : ℕ) + 1 := by
    rw [div_lt_iff₀ hvreal]
    have h := Nat.lt_div_mul_add (a := d * 2 ^ 54) hvpos
    exact_mod_cast (by rw [add_mul, one_mul]; exact h : d * 2 ^ 54 < (d * 2 ^ 54 / v + 1) * v)
  have hcast : ((divLeading a b).frac.toNat : ℝ) = (d * 2 ^ 54 / v : ℕ) * 2 ^ 9 := by
    rw [hfrac, Nat.cast_mul, Nat.cast_pow, Nat.cast_ofNat]
  refine ⟨?_, ?_, ?_, ?_⟩
  · rw [hfrac]
    exact Dvd.intro_left _ rfl
  · rw [hvalue, signed_neg_iff hpos, divLeading]
  · rw [hvalue, abs_signed, abs_of_pos hpos, hmag, hexp, hcast]
    exact mul_le_mul_of_nonneg_right (mul_le_mul_of_nonneg_right hqlo (by positivity)) hs.le
  · rw [hvalue, abs_signed, abs_of_pos hpos, hmag, hexp, hcast, ← add_one_mul]
    exact mul_lt_mul_of_pos_right (mul_lt_mul_of_pos_right hqhi (by positivity)) hs

/-- Division by a number other than zero returns the exact quotient rounded once. -/
theorem rounded_div (g : VaxGeom) (chop unfEnable : Bool) (exc : Exc) {opa opb : Word}
    (ha : ¬ Reserved opa) (hb : expOf opb ≠ 0) :
    Rounded g chop unfEnable (vaxValue opa / vaxValue opb) exc
      (div opa opb g chop unfEnable exc) := by
  have h11 := g.roundShift_bounds.1
  by_cases hz : expOf opa = 0
  · have hea : ¬ (unpacked opb).exp = 0 := by
      simp only [unpacked]
      omega
    have hzero : div opa opb g chop unfEnable exc = (0, exc) := by
      simp only [div, unpack_of_not_reserved ha, unpack_of_pos hb, if_pos hz, if_neg hea]
      simp
    rw [vaxValue_of_zero hz, zero_div, hzero]
    exact Rounded.of_zero g chop unfEnable exc
  · obtain ⟨hna, hda⟩ := unpacked_frac opa
    obtain ⟨hnb, hdb⟩ := unpacked_frac opb
    have hleads := leads_divLeading hna hnb (dvd_trans (by decide) hda) (dvd_trans (by decide) hdb)
    -- a quotient below one moves up by one place
    obtain ⟨s, hs, hkeeps⟩ := hleads.norm (k := 1) (divLeading_frac hna hnb).2 (by decide)
    rw [div_eq hz hb, ← value_unpacked hz, ← value_unpacked hb]
    exact rpack_of_keeps hkeeps g chop unfEnable exc (by omega)

/-- Multiplication and division return the exact result rounded once, and the division loop gives
the 55 leading bits of the quotient of any two fractions with a bit of headroom. -/
theorem rounded_mul_div (g : VaxGeom) (chop unfEnable : Bool) (exc : Exc) {opa opb : Word}
    (ha : ¬ Reserved opa) (hb : ¬ Reserved opb) :
    Rounded g chop unfEnable (vaxValue opa * vaxValue opb) exc
        (mul opa opb g chop unfEnable exc) ∧
      (vaxValue opb ≠ 0 → Rounded g chop unfEnable (vaxValue opa / vaxValue opb) exc
        (div opa opb g chop unfEnable exc)) ∧
      ∀ dvd dvr : Word, dvr.toNat < 2 ^ 63 → dvd.toNat < 2 * dvr.toNat →
        (ufdiv dvd dvr 55).toNat = dvd.toNat * 2 ^ 54 / dvr.toNat * 2 ^ 9 := by
  refine ⟨rounded_mul g chop unfEnable exc ha hb, fun hne => ?_, fun dvd dvr hdvr hdvd => ?_⟩
  · exact rounded_div g chop unfEnable exc ha (mt vaxValue_of_zero hne)
  · exact toNat_ufdiv (by decide) (by decide) hdvr hdvd

/-- One and three, in F_floating. -/
theorem rounded_mul_div_one_three :
    div 0x4010000000000000 0x4028000000000000 F false true 0 = (0x3FF5555560000000, 0) ∧
      Rounded F false true (vaxValue 0x4010000000000000 / vaxValue 0x4028000000000000) 0
        (div 0x4010000000000000 0x4028000000000000 F false true 0) :=
  ⟨by decide +kernel, (rounded_mul_div F false true 0 (by decide) (by decide)).2.1
    (vaxValue_ne_zero (by decide))⟩

end Vax

end EmulatR
