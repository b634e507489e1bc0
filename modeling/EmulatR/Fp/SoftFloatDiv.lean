import EmulatR.Fp.SoftFloatMul

/-! # Quotients in SoftFloat

Division delivers the exact quotient, rounded once (`outcome_div`). The routine for doubles
estimates the quotient by a reciprocal of half the divisor, twice, each time from below and by less
than a few units (`recip_estimate`); where the estimate leaves a tie in doubt the sign of the
remainder decides (`sameCuts_divSig64`). -/

namespace EmulatR

namespace SoftFloat

open Library

/-! ## The quotient of two doubles -/

/-- The reciprocal, less two, lies below the exact one by less than four. -/
theorem approxRecip32_bounds {d r : Nat} (hlo : 2 ^ 31 ≤ d) (hhi : d < 2 ^ 32)
    (hr : r = approxRecip32 d - 2) :
    0 < r ∧ r < 2 ^ 32 ∧ r * (d + 1) < 2 ^ 63 ∧ 2 ^ 63 ≤ (r + 3) * d := by
  have hfloor := Nat.div_add_mod (2 ^ 63 - 1) d
  have hmod := Nat.mod_lt (2 ^ 63 - 1) (by omega : 0 < d)
  have hrecip : approxRecip32 d = (2 ^ 63 - 1) / d := rfl
  have hlow : 2 ^ 31 ≤ (2 ^ 63 - 1) / d :=
    (Nat.le_div_iff_mul_le (by omega)).2 (by omega)
  have hhigh : (2 ^ 63 - 1) / d < 2 ^ 32 :=
    (Nat.div_lt_iff_lt_mul (by omega)).2 (by omega)
  obtain ⟨r', hr'⟩ : ∃ r', (2 ^ 63 - 1) / d = r' + 2 := ⟨(2 ^ 63 - 1) / d - 2, by omega⟩
  have hrr : r = r' := by omega
  rw [hr', Nat.mul_add] at hfloor
  subst hrr
  rw [Nat.mul_add, Nat.add_mul, Nat.mul_comm r d]
  omega

/-- A number over the divisor, estimated by the reciprocal: `w` is the estimate and `B` a sixteenth
of the divisor. -/
theorem recip_estimate {d l r n w B c : Nat} (hlo : 2 ^ 31 ≤ d) (hhi : d < 2 ^ 32)
    (hl : l < 2 ^ 28) (hr : r = approxRecip32 d - 2) (hw : w = n / 2 ^ 32 * r / 2 ^ 32)
    (hB : B = d * 2 ^ 28 + l) (hn : 0 < n) (hc : 3 * n ≤ c * 2 ^ 64) :
    2 * (w * B) < n * 2 ^ 28 ∧ n * 2 ^ 28 < 2 * ((w + 2 + c) * B) := by
  obtain ⟨hr0, hr32, hbelow, habove⟩ := approxRecip32_bounds hlo hhi hr
  have hh := Nat.div_add_mod n (2 ^ 32)
  have hhmod := Nat.mod_lt n (Nat.two_pow_pos 32)
  have hww := Nat.div_add_mod (n / 2 ^ 32 * r) (2 ^ 32)
  have hwmod := Nat.mod_lt (n / 2 ^ 32 * r) (Nat.two_pow_pos 32)
  rw [← hw] at hww
  generalize n / 2 ^ 32 = h at hh hww hwmod
  constructor
  · have hrB : 2 * r * B < 2 ^ 92 := by
      calc 2 * r * B < 2 * r * ((d + 1) * 2 ^ 28) :=
            Nat.mul_lt_mul_of_pos_left (by omega) (by omega)
        _ = r * (d + 1) * 2 ^ 29 := by ring
        _ ≤ 2 ^ 63 * 2 ^ 29 := Nat.mul_le_mul_right _ hbelow.le
        _ = 2 ^ 92 := by norm_num
    have hwn : w * 2 ^ 64 ≤ n * r := by
      calc w * 2 ^ 64 = 2 ^ 32 * w * 2 ^ 32 := by ring
        _ ≤ h * r * 2 ^ 32 := Nat.mul_le_mul_right _ (by omega)
        _ = 2 ^ 32 * h * r := by ring
        _ ≤ n * r := Nat.mul_le_mul_right _ (by omega)
    apply Nat.lt_of_mul_lt_mul_right (a := 2 ^ 64)
    calc 2 * (w * B) * 2 ^ 64 = 2 * B * (w * 2 ^ 64) := by ring
      _ ≤ 2 * B * (n * r) := Nat.mul_le_mul_left _ hwn
      _ = n * (2 * r * B) := by ring
      _ < n * 2 ^ 92 := Nat.mul_lt_mul_of_pos_left hrB hn
      _ = n * 2 ^ 28 * 2 ^ 64 := by ring
  · have hnr : n * r < (w + 2) * 2 ^ 64 := by
      have hlow : n % 2 ^ 32 * r < 2 ^ 32 * 2 ^ 32 := Nat.mul_lt_mul'' hhmod hr32
      have hsplit : n * r = 2 ^ 32 * (h * r) + n % 2 ^ 32 * r := by
        conv_lhs => rw [← hh]
        ring
      omega
    apply Nat.lt_of_mul_lt_mul_right (a := 2 ^ 64)
    calc n * 2 ^ 28 * 2 ^ 64 = 2 * n * 2 ^ 28 * 2 ^ 63 := by ring
      _ ≤ 2 * n * 2 ^ 28 * ((r + 3) * d) := Nat.mul_le_mul_left _ habove
      _ = 2 * (d * 2 ^ 28) * (n * r + 3 * n) := by ring
      _ ≤ 2 * B * (n * r + 3 * n) := Nat.mul_le_mul_right _ (by omega)
      _ < 2 * B * ((w + 2) * 2 ^ 64 + c * 2 ^ 64) :=
          Nat.mul_lt_mul_of_pos_left (by omega) (by omega)
      _ = 2 * ((w + 2 + c) * B) * 2 ^ 64 := by ring

/-- The remainder of a word is the remainder of a whole number. -/
theorem divRemainder_eq {sigB : Nat} (hB : sigB % 2 ^ 4 = 0) (n doubleTerm : Nat) :
    divRemainder sigB n doubleTerm =
      BitVec.ofInt 64 (n * 2 ^ 28 - doubleTerm * (sigB / 2 ^ 4 : ℕ)) := by
  have hsplit : sigB / 2 ^ 4 = sigB / 2 ^ 32 * 2 ^ 28 + sigB % 2 ^ 32 / 2 ^ 4 := by omega
  have hmul : doubleTerm * (sigB / 2 ^ 4) =
      doubleTerm * (sigB / 2 ^ 32) * 2 ^ 28 + doubleTerm * (sigB % 2 ^ 32 / 2 ^ 4) := by
    rw [hsplit]
    ring
  have hcast : (n : ℤ) * 2 ^ 28 - doubleTerm * (sigB / 2 ^ 4 : ℕ) =
      (n + -(doubleTerm * (sigB / 2 ^ 32) : ℕ)) * (2 ^ 28 : ℕ) +
        -(doubleTerm * (sigB % 2 ^ 32 / 2 ^ 4) : ℕ) := by
    rw [← Nat.cast_mul, hmul]
    push_cast
    ring
  rw [hcast, divRemainder, BitVec.shiftLeft_eq_mul_twoPow, BitVec.sub_eq_add_neg,
    BitVec.sub_eq_add_neg, BitVec.ofInt_add, BitVec.ofInt_mul, BitVec.ofInt_add, BitVec.ofInt_neg,
    BitVec.ofInt_neg, BitVec.ofInt_natCast, BitVec.ofInt_natCast, BitVec.ofInt_natCast,
    BitVec.ofInt_natCast]
  rfl

/-- A quotient and a number between the same two multiples of a unit. -/
theorem sameCuts_div {N D u m z : Nat} (hN : m * u * D < N) (hN' : N < (m + 1) * u * D)
    (hz : m * u < z) (hz' : z < (m + 1) * u) : SameCuts (u : ℚ) ((N : ℚ) / D) z := by
  have hD : 0 < D := by
    rcases Nat.eq_zero_or_pos D with rfl | hpos
    · omega
    · exact hpos
  have hDQ : (0 : ℚ) < D := Nat.cast_pos.2 hD
  refine SameCuts.of_between m ?_ ?_ ?_ ?_
  · rw [lt_div_iff₀ hDQ]
    exact_mod_cast hN
  · rw [div_lt_iff₀ hDQ]
    exact_mod_cast hN'
  · exact_mod_cast hz
  · exact_mod_cast hz'

/-- An estimate from above by less than 64, not too close above a tie. -/
theorem sameCuts_estimate {N D z : Nat} (hz : 64 ≤ z % 2 ^ 9) (hN : z * D < N + 64 * D)
    (hN' : N < z * D) : SameCuts ((2 ^ 9 : ℕ) : ℚ) ((N : ℚ) / D) z := by
  have hm : z / 2 ^ 9 * 2 ^ 9 + 64 ≤ z := by omega
  have hm' : z < (z / 2 ^ 9 + 1) * 2 ^ 9 := by omega
  have hlow : (z / 2 ^ 9 * 2 ^ 9 + 64) * D ≤ z * D := Nat.mul_le_mul_right _ hm
  rw [Nat.add_mul] at hlow
  exact sameCuts_div (by omega) (hN'.trans_le (Nat.mul_le_mul_right _ hm'.le)) (by omega) hm'

/-- A tie the quotient is close to, corrected by the sign of the remainder. -/
theorem sameCuts_tie {N D z : Nat} {x : ℤ} (hz : z % 2 ^ 9 = 0) (hN : (N : ℤ) = z * D + 8 * x)
    (hlo : -(8 * D) < x) (hhi : x < 8 * D) :
    SameCuts ((2 ^ 9 : ℕ) : ℚ) ((N : ℚ) / D)
      (if x < 0 then z - 2 ^ 7 else z ||| if x ≠ 0 then 1 else 0 : ℕ) := by
  obtain ⟨j, rfl⟩ := Nat.dvd_of_mod_eq_zero hz
  have hcomm : ((2 ^ 9 * j : ℕ) : ℤ) * D = 2 ^ 9 * (j * D : ℕ) := by
    push_cast
    ring
  rw [hcomm] at hN
  rcases lt_trichotomy x 0 with hneg | rfl | hpos
  · rw [if_pos hneg]
    obtain ⟨i, rfl⟩ : ∃ i, j = i + 1 := by
      rcases Nat.eq_zero_or_pos j with rfl | hj
      · omega
      · exact ⟨j - 1, by omega⟩
    rw [Nat.succ_mul] at hN
    apply sameCuts_div (m := i)
    · rw [Nat.mul_right_comm]
      omega
    · rw [Nat.mul_right_comm, Nat.succ_mul]
      omega
    · omega
    · omega
  · rw [if_neg (lt_irrefl _), if_neg (by simp), Nat.or_zero]
    have hD : 0 < D := by omega
    have hNn : N = 2 ^ 9 * j * D := by
      rw [Nat.mul_assoc]
      omega
    rw [hNn, Nat.cast_mul, mul_div_cancel_right₀ _ (Nat.cast_ne_zero.2 hD.ne')]
    exact SameCuts.refl _ _
  · rw [if_neg hpos.not_gt, if_pos hpos.ne', or_one_eq]
    apply sameCuts_div (m := j)
    · rw [Nat.mul_right_comm]
      omega
    · rw [Nat.mul_right_comm, Nat.succ_mul]
      omega
    · omega
    · omega

/-- The sign and the value of a small whole number in a word. -/
theorem ofInt_sign {x : ℤ} (hlo : -2 ^ 63 ≤ x) (hhi : x < 2 ^ 63) :
    ((BitVec.ofInt 64 x).getLsbD 63 = true ↔ x < 0) ∧ (BitVec.ofInt 64 x ≠ 0 ↔ x ≠ 0) := by
  have hx : (BitVec.ofInt 64 x).toInt = x :=
    BitVec.toInt_ofInt_eq_self (by decide) hlo hhi
  constructor
  · have hmsb : (BitVec.ofInt 64 x).getLsbD 63 = (BitVec.ofInt 64 x).msb :=
      (BitVec.msb_eq_getLsbD_last _).symm
    rw [hmsb, BitVec.msb_eq_toInt, hx, decide_eq_true_iff]
  · rw [Ne, ← BitVec.toInt_inj, hx]
    rfl

/-- From an estimate of the quotient to a fraction that lies where the quotient lies among the ties:
`s` and `q` are the two parts of the estimate and `rem` what the first part leaves. -/
theorem sameCuts_divFix {sigB D N s rem q : Nat} (hD16 : sigB / 2 ^ 4 = D) (hB0 : sigB % 2 ^ 4 = 0)
    (hD : D < 2 ^ 60) (hN : N = 2 ^ 32 * (s * D) + 2 ^ 31 * rem)
    (hbelow : 2 * (q * D) < rem * 2 ^ 28) (habove : rem * 2 ^ 28 < 2 * ((q + 2 + 2) * D)) :
    SameCuts ((2 ^ 9 : ℕ) : ℚ) ((N : ℚ) / D)
      (if (s * 2 ^ 32 + (q + 4) * 2 ^ 4) % 2 ^ 9 < 4 * 2 ^ 4 then
        if (divRemainder sigB rem ((q + 4 - (q + 4) % 8) * 2)).getLsbD 63 = true then
          s * 2 ^ 32 + (q + 4) * 2 ^ 4 - (s * 2 ^ 32 + (q + 4) * 2 ^ 4) % 2 ^ 7 - 2 ^ 7
        else s * 2 ^ 32 + (q + 4) * 2 ^ 4 - (s * 2 ^ 32 + (q + 4) * 2 ^ 4) % 2 ^ 7 |||
          if divRemainder sigB rem ((q + 4 - (q + 4) % 8) * 2) ≠ 0 then 1 else 0
      else s * 2 ^ 32 + (q + 4) * 2 ^ 4 : ℕ) := by
  have hqD : (q + 4) * D = q * D + 4 * D := Nat.add_mul _ _ _
  replace habove : rem * 2 ^ 28 < 2 * ((q + 4) * D) := habove
  obtain ⟨z, hz⟩ : ∃ z, z = s * 2 ^ 32 + (q + 4) * 2 ^ 4 := ⟨_, rfl⟩
  rw [← hz]
  split
  · rename_i hdoubt
    obtain ⟨q', hq'⟩ : ∃ q', q' = q + 4 - (q + 4) % 8 := ⟨_, rfl⟩
    have hz' : z - z % 2 ^ 7 = s * 2 ^ 32 + q' * 2 ^ 4 := by omega
    have hle : q' * D ≤ (q + 4) * D := Nat.mul_le_mul_right _ (by omega)
    have hge : (q + 1) * D ≤ q' * D := Nat.mul_le_mul_right _ (by omega)
    obtain ⟨x, hx⟩ : ∃ x : ℤ, x = rem * 2 ^ 28 - 2 * (q' * D : ℕ) := ⟨_, rfl⟩
    have hrem : (rem : ℤ) * 2 ^ 28 - (q' * 2 : ℕ) * D = x := by
      rw [hx]
      push_cast
      ring
    rw [Nat.add_mul] at hge
    obtain ⟨hneg, hzero⟩ := ofInt_sign (x := x) (by omega) (by omega)
    rw [← hq', divRemainder_eq hB0, hD16, hrem, hz']
    simp only [hneg, hzero]
    have hzD : ((s * 2 ^ 32 + q' * 2 ^ 4 : ℕ) : ℤ) * D =
        2 ^ 32 * (s * D : ℕ) + 16 * (q' * D : ℕ) := by
      push_cast
      ring
    exact sameCuts_tie (by omega) (by omega) (by omega) (by omega)
  · rename_i hsure
    have hzD : z * D = 2 ^ 32 * (s * D) + 16 * ((q + 4) * D) := by
      rw [hz]
      ring
    exact sameCuts_estimate (by omega) (by omega) (by omega)

/-- The quotient of two fractions of doubles, and the fraction returned for it, lie alike among the
ties. -/
theorem sameCuts_divSig64 {a b : Nat} (hlo : 2 ^ 52 ≤ b) (hhi : b < 2 ^ 53) (hba : b ≤ a)
    (hab : a < 2 * b) : SameCuts (2 ^ 9 : ℚ) ((a : ℚ) * 2 ^ 62 / b) (divSig64 a b : ℕ) := by
  obtain ⟨D, hD⟩ : ∃ D, D = b * 2 ^ 7 := ⟨_, rfl⟩
  obtain ⟨A, hA⟩ : ∃ A, A = a * 2 ^ 10 := ⟨_, rfl⟩
  obtain ⟨r, hr⟩ : ∃ r, r = approxRecip32 (b * 2 ^ 11 / 2 ^ 32) - 2 := ⟨_, rfl⟩
  obtain ⟨s, hs⟩ : ∃ s, s = A / 2 ^ 32 * r / 2 ^ 32 := ⟨_, rfl⟩
  have hD16 : b * 2 ^ 11 / 2 ^ 4 = D := by omega
  have hB0 : b * 2 ^ 11 % 2 ^ 4 = 0 := by omega
  have hsplit : D = b * 2 ^ 11 / 2 ^ 32 * 2 ^ 28 + b * 2 ^ 11 % 2 ^ 32 / 2 ^ 4 := by omega
  -- the first estimate, and its remainder
  obtain ⟨hbelow, habove⟩ := recip_estimate (c := 3) (by omega) (by omega) (by omega) hr hs hsplit
    (by omega) (by omega)
  obtain ⟨rem, hrem⟩ : ∃ rem, rem + 2 * (s * D) = A * 2 ^ 28 :=
    ⟨A * 2 ^ 28 - 2 * (s * D), by omega⟩
  have hremlt : rem < 10 * D := by
    rw [show (s + 2 + 3) * D = s * D + 5 * D by ring] at habove
    omega
  have hword : (divRemainder (b * 2 ^ 11) A (s * 2)).toNat = rem := by
    have hint : (A : ℤ) * 2 ^ 28 - (s * 2 : ℕ) * (b * 2 ^ 11 / 2 ^ 4 : ℕ) = rem := by
      rw [hD16]
      push_cast
      have hcast := congrArg (Nat.cast (R := ℤ)) hrem
      push_cast at hcast
      linarith
    have hrem64 : rem < 2 ^ 64 := by omega
    rw [divRemainder_eq hB0, hint, BitVec.ofInt_natCast, BitVec.toNat_ofNat, Nat.mod_eq_of_lt hrem64]
  -- the second one
  obtain ⟨q, hq⟩ : ∃ q, q = rem / 2 ^ 32 * r / 2 ^ 32 := ⟨_, rfl⟩
  obtain ⟨hbelow', habove'⟩ := recip_estimate (c := 2) (by omega) (by omega) (by omega) hr hq hsplit
    (by omega) (by omega)
  have hN : A * 2 ^ 59 = 2 ^ 32 * (s * D) + 2 ^ 31 * rem := by omega
  have hy : (a : ℚ) * 2 ^ 62 / b = (A * 2 ^ 59 : ℕ) / D := by
    rw [hA, hD]
    push_cast
    rw [div_eq_div_iff (Nat.cast_ne_zero.2 (by omega))
      (mul_ne_zero (Nat.cast_ne_zero.2 (by omega)) (by norm_num))]
    ring
  have hu : (2 ^ 9 : ℚ) = (2 ^ 9 : ℕ) := by norm_num
  rw [hy, hu]
  simp only [divSig64, ← hA, ← hr, ← hs, hword, ← hq]
  exact sameCuts_divFix hD16 hB0 (by omega) hN hbelow' habove'

/-- The quotient of two single significands is rounded as their exact quotient is. -/
theorem sameCuts_divSig32 {a b : Nat} (hb : 0 < b) :
    SameCuts (2 ^ 6 : ℚ) ((a : ℚ) * 2 ^ 30 / b) (divSig32 a b : ℕ) := by
  have hbQ : (b : ℚ) ≠ 0 := Nat.cast_ne_zero.2 hb.ne'
  have hnum : (a : ℚ) * 2 ^ 30 = (a * 2 ^ 30 : ℕ) := by
    push_cast
    rfl
  have hu : (2 ^ 6 : ℚ) = (2 ^ 6 : ℕ) := by norm_num
  rw [hnum, hu]
  simp only [divSig32]
  generalize a * 2 ^ 30 = N
  have hdiv := Nat.div_add_mod N b
  have hmod := Nat.mod_lt N hb
  generalize N / b = z at hdiv
  have hlow : z * b ≤ N := by
    rw [Nat.mul_comm]
    omega
  have hhigh : N < (z + 1) * b := by
    rw [Nat.succ_mul, Nat.mul_comm]
    omega
  split
  · rename_i htie
    obtain ⟨j, rfl⟩ := Nat.dvd_of_mod_eq_zero htie
    by_cases hexact : b * (2 ^ 6 * j) = N
    · rw [if_neg (not_not.2 hexact), Nat.or_zero, ← hexact, Nat.cast_mul, mul_comm (b : ℚ),
        mul_div_cancel_right₀ _ hbQ]
      exact SameCuts.refl _ _
    · rw [if_pos hexact, or_one_eq]
      have hlt : 2 ^ 6 * j * b < N := lt_of_le_of_ne hlow (by rwa [Nat.mul_comm])
      refine sameCuts_div (m := j) (by rwa [Nat.mul_comm j]) (hhigh.trans_le ?_) (by omega) (by omega)
      exact Nat.mul_le_mul_right _ (by omega)
  · rename_i hsure
    apply sameCuts_div (m := z / 2 ^ 6) _ (hhigh.trans_le (Nat.mul_le_mul_right _ (by omega)))
      (by omega) (by omega)
    exact (Nat.mul_lt_mul_of_pos_right (by omega) hb).trans_le hlow

namespace Fmt

variable {k : Fmt}

/-! ## Division -/

section Division

variable (hk : k.Valid)
include hk

/-- A quotient that has been brought between one and two. -/
theorem outcome_quotient {divSig : Nat → Nat → Nat}
    (hdiv : ∀ a b : Nat, 2 ^ k.fracBits ≤ b → b < 2 ^ (k.fracBits + 1) → b ≤ a → a < 2 * b →
      SameCuts (2 ^ (k.guard - 1) : ℚ) ((a : ℚ) * 2 ^ (k.fracBits + k.guard) / b) (divSig a b : ℕ))
    (mode : RoundingMode) (sign : Bool) (exp : ℤ) {a b : Nat} (hlo : 2 ^ k.fracBits ≤ b)
    (hhi : b < 2 ^ (k.fracBits + 1)) (hba : b ≤ a) (hab : a < 2 * b) :
    k.outcome (k.roundPack mode sign exp (divSig a b)) =
      Ieee.deliver k.format mode.attribute sign
        ((a : ℚ) * 2 ^ (k.fracBits + k.guard) / b * 2 ^ (exp + k.format.minUnit - k.guard)) := by
  have hcut := hdiv a b hlo hhi hba hab
  have hg := four_le_guard hk
  have hb : (0 : ℚ) < b := Nat.cast_pos.2 ((Nat.two_pow_pos _).trans_le hlo)
  have hlead : (k.lead : ℚ) = ((2 ^ (k.fracBits + 1) : ℤ) : ℚ) * 2 ^ (k.guard - 1) := by
    rw [lead_eq, ← pow_add]
    push_cast
    rw [← pow_add]
    congr 1
    omega
  have hlead2 : (2 * k.lead : ℚ) = ((2 ^ (k.fracBits + 2) : ℤ) : ℚ) * 2 ^ (k.guard - 1) := by
    rw [hlead]
    push_cast
    ring
  have hlow : (k.lead : ℚ) ≤ (a : ℚ) * 2 ^ (k.fracBits + k.guard) / b := by
    rw [le_div_iff₀ hb, lead_eq, ← pow_add, mul_comm]
    exact mul_le_mul_of_nonneg_right (Nat.cast_le.2 hba) (by positivity)
  have hhigh : (a : ℚ) * 2 ^ (k.fracBits + k.guard) / b < 2 * k.lead := by
    rw [div_lt_iff₀ hb, lead_eq, ← pow_add, mul_right_comm]
    apply mul_lt_mul_of_pos_right _ (by positivity)
    exact_mod_cast hab
  apply outcome_roundPack hk mode sign exp _ _ hcut
  · rw [hlead, hcut.ge_iff, ← hlead] at hlow
    exact_mod_cast hlow
  · rw [hlead2, (hcut _).1, ← hlead2] at hhigh
    exact_mod_cast hhigh

/-- The quotient of two normalized fractions. -/
theorem outcome_normDiv {divSig : Nat → Nat → Nat}
    (hdiv : ∀ a b : Nat, 2 ^ k.fracBits ≤ b → b < 2 ^ (k.fracBits + 1) → b ≤ a → a < 2 * b →
      SameCuts (2 ^ (k.guard - 1) : ℚ) ((a : ℚ) * 2 ^ (k.fracBits + k.guard) / b) (divSig a b : ℕ))
    (mode : RoundingMode) (sign : Bool) {a b : Int × Nat}
    (ha : 2 ^ k.fracBits ≤ a.2 ∧ a.2 < 2 ^ (k.fracBits + 1))
    (hb : 2 ^ k.fracBits ≤ b.2 ∧ b.2 < 2 ^ (k.fracBits + 1)) :
    k.outcome (if a.2 < b.2 then
        k.roundPack mode sign (a.1 - b.1 + (k.bias - 1) - 1) (divSig (a.2 * 2) b.2)
      else k.roundPack mode sign (a.1 - b.1 + (k.bias - 1)) (divSig a.2 b.2)) =
      Ieee.deliver k.format mode.attribute sign
        ((a.2 : ℚ) * 2 ^ (a.1 - 1 + k.format.minUnit) /
          (b.2 * 2 ^ (b.1 - 1 + k.format.minUnit))) := by
  have hmin : k.format.minUnit = 1 - k.bias - k.fracBits := rfl
  have hbQ : (0 : ℚ) < b.2 := Nat.cast_pos.2 ((Nat.two_pow_pos _).trans_le hb.1)
  -- the exponents cancel
  have hunits : ∀ e : ℤ, (a.2 : ℚ) * 2 ^ (k.fracBits + k.guard) / b.2 *
      2 ^ (e + k.format.minUnit - k.guard) = a.2 / b.2 * 2 ^ (e + 1 - k.bias) := by
    intro e
    rw [mul_div_right_comm, mul_assoc, ← zpow_natCast, ← zpow_add₀ two_ne_zero]
    congr 2
    push_cast
    rw [hmin]
    ring
  have hval : (a.2 : ℚ) * 2 ^ (a.1 - 1 + k.format.minUnit) /
      (b.2 * 2 ^ (b.1 - 1 + k.format.minUnit)) = a.2 / b.2 * 2 ^ (a.1 - b.1) := by
    rw [mul_div_mul_comm, ← zpow_sub₀ two_ne_zero]
    congr 2
    ring
  split
  · rename_i hlt
    rw [outcome_quotient hk hdiv mode sign _ hb.1 hb.2 (by rw [pow_succ] at hb; omega) (by omega), hval]
    congr 1
    rw [Nat.cast_mul, Nat.cast_ofNat, mul_comm (a.2 : ℚ) 2, mul_assoc 2, mul_div_assoc, mul_assoc 2,
      hunits, mul_left_comm, ← zpow_one_add₀ two_ne_zero]
    congr 2
    ring
  · rename_i hge
    rw [outcome_quotient hk hdiv mode sign _ hb.1 hb.2 (by omega) (by rw [pow_succ] at ha; omega), hval,
      hunits]
    congr 3
    ring

/-- Division is the division of the standard. -/
theorem outcome_div {divSig : Nat → Nat → Nat}
    (hdiv : ∀ a b : Nat, 2 ^ k.fracBits ≤ b → b < 2 ^ (k.fracBits + 1) → b ≤ a → a < 2 * b →
      SameCuts (2 ^ (k.guard - 1) : ℚ) ((a : ℚ) * 2 ^ (k.fracBits + k.guard) / b) (divSig a b : ℕ))
    (mode : RoundingMode) (uiA uiB : Nat) :
    k.outcome (k.div divSig mode uiA uiB) =
      Ieee.div k.format mode.attribute (k.datum uiA) (k.datum uiB) := by
  have hfA := fracUI_lt (k := k) uiA
  have hfB := fracUI_lt (k := k) uiB
  obtain ⟨-, hmax⟩ := two_pow_expBits hk
  have hnan : k.isNaNUI uiA = true ∨ k.isNaNUI uiB = true →
      k.outcome (k.propagateNaNUI uiA uiB) =
        Ieee.div k.format mode.attribute (k.datum uiA) (k.datum uiB) :=
    outcome_propagateNaNUI hk (Ieee.propagatesNaN_div _ _) _ _
  simp only [div]
  split
  · rename_i hinfA
    split
    · rename_i hfracA
      exact hnan (Or.inl (isNaNUI_iff.2 ⟨hinfA, hfracA⟩))
    · rename_i hfracA
      rw [not_not] at hfracA
      split
      · rename_i hinfB
        split
        · rename_i hfracB
          exact hnan (Or.inr (isNaNUI_iff.2 ⟨hinfB, hfracB⟩))
        · rename_i hfracB
          rw [not_not] at hfracB
          rw [datum, datum, datumOf_inf hinfA hfracA, datumOf_inf hinfB hfracB]
          exact outcome_invalid hk
      · rename_i hinfB
        rw [datum, datum, datumOf_inf hinfA hfracA, datumOf_finite hinfB]
        simp only [outcome, datum_packUI_inf hk, Ieee.div]
  · rename_i hinfA
    split
    · rename_i hinfB
      split
      · rename_i hfracB
        exact hnan (Or.inr (isNaNUI_iff.2 ⟨hinfB, hfracB⟩))
      · rename_i hfracB
        rw [not_not] at hfracB
        rw [datum, datum, datumOf_finite hinfA, datumOf_inf hinfB hfracB, outcome_packUI_zero hk]
        rfl
    · rename_i hinfB
      rw [datum, datum, datumOf_finite hinfA, datumOf_finite hinfB, Ieee.div]
      simp only [mag_eq_zero_iff]
      split
      · simp only [Nat.or_eq_zero_iff]
        split
        · exact outcome_invalid hk
        · simp only [outcome, datum_packUI_inf hk]
      · rename_i hzeroB
        split
        · rename_i hzeroA
          rw [outcome_packUI_zero hk, (mag_eq_zero_iff (k := k) _ _).2 hzeroA, zero_div,
            Ieee.deliver_zero]
        · rename_i hzeroA
          obtain ⟨hnA, hvA⟩ := normUI_spec hfA hzeroA
          obtain ⟨hnB, hvB⟩ := normUI_spec hfB hzeroB
          rw [hvA, hvB]
          exact outcome_normDiv hk hdiv mode _ hnA hnB

end Division

end Fmt

/-! ## The routines on words -/

section Routines

variable (mode : RoundingMode)

/-- **f64_div** is the standard's division. -/
theorem wordOutcome_f64Div (a b : Word) :
    f64.wordOutcome (f64Div mode a b) =
      Ieee.div f64.format mode.attribute (f64.datum a.toNat) (f64.datum b.toNat) := by
  rw [f64Div, wordOutcome_onWords]
  exact Fmt.outcome_div Fmt.valid_f64 (fun _ _ => sameCuts_divSig64) mode _ _

/-- **f32_div** is the standard's division. -/
theorem wordOutcome_f32Div (a b : BitVec 32) :
    f32.wordOutcome (f32Div mode a b) =
      Ieee.div f32.format mode.attribute (f32.datum a.toNat) (f32.datum b.toNat) := by
  rw [f32Div, wordOutcome_onSingles]
  refine Fmt.outcome_div Fmt.valid_f32 (fun _ _ hb _ _ _ => ?_) mode _ _
  exact sameCuts_divSig32 ((Nat.two_pow_pos _).trans_le hb)

end Routines

end SoftFloat

end EmulatR
