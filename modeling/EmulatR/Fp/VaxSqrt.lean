import EmulatR.Fp.VaxRound

/-! # VAX square root

The digit recurrence is exact: it gives the integer square root of its 128-bit radicand. The
radicand is one place short (fpBoxLib/vax_float.h, `sqrt`: the fraction shifted by 62 and not by
63), so that the operation returns, correctly rounded, the root of half its operand. Only the zero
and the negative operands come out right.

`sqrtOk_iff` is the exact condition; `not_sqrtOk_one` is the root of one. -/

namespace EmulatR

open Library

namespace Vax

/-! ## The recurrence -/

/-- The comparison of two double words, high words first. -/
theorem le_double_iff {hi lo hi' lo' : Word} :
    hi < hi' ∨ (hi = hi' ∧ lo ≤ lo') ↔
      hi.toNat * 2 ^ 64 + lo.toNat ≤ hi'.toNat * 2 ^ 64 + lo'.toNat := by
  have h1 := lo.isLt
  have h2 := lo'.isLt
  rw [BitVec.lt_def, BitVec.le_def, ← BitVec.toNat_inj]
  omega

/-- The recurrence keeps a root, of its bits from `n` up, with the radicand between its square and
the square of the next. -/
theorem sqrtLoop_spec (radHi radLo : Word) (n : ℕ) (root : Word) (hdvd : 2 ^ n ∣ root.toNat)
    (hfit : root.toNat + 2 ^ n ≤ 2 ^ 64)
    (hlo : root.toNat * root.toNat ≤ radHi.toNat * 2 ^ 64 + radLo.toNat)
    (hhi : radHi.toNat * 2 ^ 64 + radLo.toNat <
      (root.toNat + 2 ^ n) * (root.toNat + 2 ^ n)) :
    (sqrtLoop radHi radLo n root).toNat * (sqrtLoop radHi radLo n root).toNat ≤
        radHi.toNat * 2 ^ 64 + radLo.toNat ∧
      radHi.toNat * 2 ^ 64 + radLo.toNat <
        ((sqrtLoop radHi radLo n root).toNat + 1) * ((sqrtLoop radHi radLo n root).toNat + 1) := by
  induction n generalizing root with
  | zero => exact ⟨hlo, hhi⟩
  | succ n ih =>
    have hpow : 2 ^ (n + 1) = 2 ^ n * 2 := pow_succ 2 n
    have hpos := Nat.two_pow_pos n
    have hn : n < 64 := by
      by_contra h
      have hle : 2 ^ 64 ≤ 2 ^ n := Nat.pow_le_pow_right two_pos (Nat.le_of_not_lt h)
      omega
    have htrial : (root ||| ((1 : Word) <<< n)).toNat = root.toNat + 2 ^ n := by
      obtain ⟨a, ha⟩ := hdvd
      have hlt : 2 ^ n < 2 ^ (n + 1) := by omega
      rw [BitVec.toNat_or, toNat_one_shiftLeft hn, ha, ← Nat.two_pow_add_eq_or_of_lt hlt]
    have hsquare : (umul128 (root ||| ((1 : Word) <<< n)) (root ||| ((1 : Word) <<< n))).1.toNat *
          2 ^ 64 + (umul128 (root ||| ((1 : Word) <<< n)) (root ||| ((1 : Word) <<< n))).2.toNat =
        (root.toNat + 2 ^ n) * (root.toNat + 2 ^ n) := by
      obtain ⟨h1, h2⟩ := toNat_umul128 (root ||| ((1 : Word) <<< n)) (root ||| ((1 : Word) <<< n))
      rw [h1, h2, htrial, mul_comm, Nat.div_add_mod]
    have hdvdRoot : 2 ^ n ∣ root.toNat := dvd_trans (Nat.pow_dvd_pow 2 (Nat.le_succ n)) hdvd
    simp only [sqrtLoop, le_double_iff, hsquare]
    by_cases hbit : (root.toNat + 2 ^ n) * (root.toNat + 2 ^ n) ≤
        radHi.toNat * 2 ^ 64 + radLo.toNat
    · rw [if_pos hbit]
      apply ih
      · rw [htrial]
        exact Nat.dvd_add hdvdRoot (dvd_refl _)
      · rw [htrial]
        omega
      · rw [htrial]
        exact hbit
      · rw [htrial, add_assoc, ← mul_two, ← hpow]
        exact hhi
    · rw [if_neg hbit]
      exact ih root hdvdRoot (by omega) hlo (Nat.lt_of_not_le hbit)

/-- The integer square root of a word shifted by 62. -/
theorem sqrtLoop_shifted (m : Word) :
    (sqrtLoop (m >>> 2) (m <<< 62) 64 0).toNat = Nat.sqrt (m.toNat * 2 ^ 62) := by
  have hrad : (m >>> 2).toNat * 2 ^ 64 + (m <<< 62).toNat = m.toNat * 2 ^ 62 := by
    rw [BitVec.toNat_ushiftRight, BitVec.toNat_shiftLeft, Nat.shiftRight_eq_div_pow,
      Nat.shiftLeft_eq]
    omega
  have hm := m.isLt
  have hzero : (0 : Word).toNat = 0 := rfl
  have h := sqrtLoop_spec (m >>> 2) (m <<< 62) 64 0 (dvd_zero _) (by rw [hzero, zero_add])
    (by rw [hzero]; exact Nat.zero_le _) (by rw [hrad, hzero]; omega)
  rw [hrad] at h
  exact Nat.eq_sqrt.2 h

/-! ## What the operation returns -/

/-- The fraction of the radicand: the operand's, halved when its exponent is odd. -/
def sqrtFrac (op : Word) : Word :=
  if ((unpacked op).exp - kExpBias - 1) % 2 = 1 then (unpacked op).frac >>> 1 else (unpacked op).frac

/-- The even exponent that goes with it. -/
def sqrtExp (op : Word) : Int :=
  if ((unpacked op).exp - kExpBias - 1) % 2 = 1 then (unpacked op).exp - kExpBias - 1 + 1
  else (unpacked op).exp - kExpBias - 1

/-- The root before it is normalized. -/
def sqrtRoot (op : Word) : Ufp :=
  ⟨signOf op, sqrtExp op / 2 + kExpBias + 1, sqrtLoop (sqrtFrac op >>> 2) (sqrtFrac op <<< 62) 64 0⟩

/-- On a positive operand `sqrt` packs the normalized root. -/
theorem sqrt_eq {op : Word} (hz : expOf op ≠ 0) (hs : signOf op = false) (g : VaxGeom)
    (chop unfEnable : Bool) (exc : Exc) :
    sqrt op g chop unfEnable exc = rpack (norm (sqrtRoot op)) g chop unfEnable exc := by
  have he : ¬ (unpacked op).exp = 0 := by
    simp only [unpacked]
    omega
  have hsign : (unpacked op).sign = false := hs
  simp only [sqrt, unpack_of_pos hz, hsign, if_neg he, Bool.false_eq_true, false_and, if_false,
    sqrtRoot, hs]
  rfl

/-- The operand is the fraction of the radicand times an even power of two. -/
theorem sqrtFrac_spec (op : Word) :
    sqrtExp op % 2 = 0 ∧ 2 ^ 62 ≤ (sqrtFrac op).toNat ∧
      (unpacked op).mag = (sqrtFrac op).toNat * 2 ^ (sqrtExp op - 63) := by
  obtain ⟨hn, hd⟩ := unpacked_frac op
  unfold sqrtExp sqrtFrac
  by_cases hodd : ((unpacked op).exp - kExpBias - 1) % 2 = 1
  · obtain ⟨a, ha⟩ := dvd_trans (show 2 ∣ 2 ^ 11 by decide) hd
    have hhalf : ((unpacked op).frac >>> 1).toNat = a := by
      rw [BitVec.toNat_ushiftRight, Nat.shiftRight_eq_div_pow, pow_one, ha,
        Nat.mul_div_cancel_left _ two_pos]
    rw [if_pos hodd, if_pos hodd, hhalf]
    refine ⟨by omega, by omega, ?_⟩
    have hexp : (unpacked op).exp - kExpBias - 1 + 1 - 63 = (unpacked op).exp - 1088 + 1 := by
      simp only [kExpBias]
      ring
    rw [Ufp.mag, scaled, ha, hexp, zpow_add_one₀ two_ne_zero]
    push_cast
    ring
  · rw [if_neg hodd, if_neg hodd]
    refine ⟨by omega, by omega, ?_⟩
    have hexp : (unpacked op).exp - kExpBias - 1 - 63 = (unpacked op).exp - 1088 := by
      simp only [kExpBias]
      ring
    rw [Ufp.mag, scaled, hexp]

/-- The root has the bits of the square root of half the operand. -/
theorem leads_sqrtRoot {op : Word} (hz : expOf op ≠ 0) (hs : signOf op = false) :
    2 ^ 62 ≤ (sqrtRoot op).frac.toNat ∧ Leads 0 (sqrtRoot op) (√(vaxValue op / 2)) := by
  obtain ⟨heven, hm, hmag⟩ := sqrtFrac_spec op
  have hroot : (sqrtRoot op).frac.toNat = Nat.sqrt ((sqrtFrac op).toNat * 2 ^ 62) :=
    sqrtLoop_shifted (sqrtFrac op)
  have hsq : (sqrtRoot op).frac.toNat * (sqrtRoot op).frac.toNat ≤ (sqrtFrac op).toNat * 2 ^ 62 := by
    rw [hroot]
    exact Nat.sqrt_le _
  have hsqlt : (sqrtFrac op).toNat * 2 ^ 62 <
      ((sqrtRoot op).frac.toNat + 1) * ((sqrtRoot op).frac.toNat + 1) := by
    rw [hroot]
    exact Nat.lt_succ_sqrt _
  have hunit : (sqrtRoot op).exp - 1088 = sqrtExp op / 2 - 63 := by
    simp only [sqrtRoot, kExpBias]
    ring
  have hscale : (0 : ℝ) < 2 ^ (sqrtExp op / 2 - 63) := zpow_pos two_pos _
  -- the radicand is half the operand in squared units of the root
  have hhalf : vaxValue op / 2 =
      ((sqrtFrac op).toNat * 2 ^ 62 : ℕ) * (2 ^ (sqrtExp op / 2 - 63)) ^ 2 := by
    have hvalue : vaxValue op = (unpacked op).mag := by
      rw [← value_unpacked hz, Ufp.value]
      simp only [unpacked, hs, signed, Bool.false_eq_true, if_false]
    have hpow : (2 : ℝ) ^ (sqrtExp op - 63) = 2 * 2 ^ 62 * (2 ^ (sqrtExp op / 2 - 63)) ^ 2 := by
      rw [← zpow_natCast (2 : ℝ) 62, ← zpow_natCast ((2 : ℝ) ^ (sqrtExp op / 2 - 63)) 2, ← zpow_mul,
        ← zpow_one_add₀ two_ne_zero, ← zpow_add₀ two_ne_zero]
      congr 1
      push_cast
      omega
    rw [hvalue, hmag, hpow]
    push_cast
    ring
  have hsqrt : √(vaxValue op / 2) =
      √((sqrtFrac op).toNat * 2 ^ 62 : ℕ) * 2 ^ (sqrtExp op / 2 - 63) := by
    rw [hhalf, Real.sqrt_mul (Nat.cast_nonneg _), Real.sqrt_sq hscale.le]
  have hnonneg : 0 ≤ √(vaxValue op / 2) := Real.sqrt_nonneg _
  refine ⟨?_, one_dvd _, ?_, ?_, ?_⟩
  · rw [hroot, Nat.le_sqrt]
    exact Nat.mul_le_mul_right _ hm
  · rw [decide_eq_false (not_lt.2 hnonneg)]
    exact hs
  · rw [abs_of_nonneg hnonneg, hsqrt, hunit]
    apply mul_le_mul_of_nonneg_right _ hscale.le
    apply Real.le_sqrt_of_sq_le
    rw [sq]
    exact_mod_cast hsq
  · rw [abs_of_nonneg hnonneg, hsqrt, hunit, pow_zero]
    apply mul_lt_mul_of_pos_right _ hscale
    rw [Real.sqrt_lt' (by positivity), sq]
    exact_mod_cast hsqlt

/-- Square root returns the root of half its operand, correctly rounded. -/
theorem rounded_sqrt_half (g : VaxGeom) (chop unfEnable : Bool) (exc : Exc) {op : Word}
    (hz : expOf op ≠ 0) (hs : signOf op = false) :
    Rounded g chop unfEnable (√(vaxValue op / 2)) exc (sqrt op g chop unfEnable exc) := by
  have h11 := g.roundShift_bounds.1
  obtain ⟨hge, hleads⟩ := leads_sqrtRoot hz hs
  obtain ⟨s, hs1, hkeeps⟩ := hleads.norm (k := 1) hge (by decide)
  rw [sqrt_eq hz hs]
  exact rpack_of_keeps hkeeps g chop unfEnable exc (by omega)

/-! ## When that is the square root -/

/-- Square root is right: INV for a negative operand, and otherwise the exact root rounded once. -/
def SqrtOk (g : VaxGeom) (chop unfEnable : Bool) (exc : Exc) (op : Word) (r : Word × Exc) : Prop :=
  if vaxValue op < 0 then r = (0, exc ||| VaxExc.Inv)
  else Rounded g chop unfEnable (√(vaxValue op)) exc r

/-- A number and its root over the square root of two do not round alike. -/
theorem roundMag_sqrt_ne {p : ℕ} (hp : 4 ≤ p) (chop : Bool) {x : ℝ} (hx : 0 < x) :
    roundMag p chop √x ≠ roundMag p chop √(x / 2) := by
  have hz : 0 < √(x / 2) := Real.sqrt_pos.2 (half_pos hx)
  have hr : 0 < √x := Real.sqrt_pos.2 hx
  have hulp : ∀ w : ℝ, 0 < w → (2 : ℝ) ^ (binade w - p) ≤ w / 8 := by
    intro w hw
    have hpow : (2 : ℝ) ^ (1 - (p : ℤ)) ≤ 2 ^ (-3 : ℤ) :=
      zpow_le_zpow_right₀ one_le_two (by omega)
    calc (2 : ℝ) ^ (binade w - p) ≤ w * 2 ^ (1 - (p : ℤ)) := ulp_le p hw
      _ ≤ w * 2 ^ (-3 : ℤ) := mul_le_mul_of_nonneg_left hpow hw.le
      _ = w / 8 := by norm_num [zpow_neg, div_eq_mul_inv]
  have hlow := lt_roundMag p chop √x
  have hhigh := roundMag_le p chop hz
  -- the root is at least 5/4 of the other, and rounding moves neither by an eighth
  have hgap : 5 / 4 * √(x / 2) ≤ √x := by
    apply Real.le_sqrt_of_sq_le
    rw [mul_pow, Real.sq_sqrt (half_pos hx).le]
    linarith
  have h1 := hulp √x hr
  have h2 := hulp √(x / 2) hz
  apply ne_of_gt
  linarith

/-- The window of exponents is wide enough for the roots of the numbers of F_floating and of
G_floating. -/
theorem exists_sqrt_window {g : VaxGeom} (hg : g = F ∨ g = G) {op : Word} (h : IsImage g op)
    (hz : expOf op ≠ 0) :
    ∃ k : ℤ, (2 : ℝ) ^ (-(2 * k)) ≤ |vaxValue op| ∧ |vaxValue op| < 2 ^ (2 * k) ∧
      g.expLo ≤ 1024 - k ∧ k + 1025 ≤ g.expHi ∧ 4 ≤ g.fracBits + 1 := by
  obtain ⟨hn, -, hlo, hhi⟩ := h.holds hz
  have hpos := Ufp.mag_pos (u := unpacked op) (lt_of_lt_of_le (by decide) hn)
  have habs : |vaxValue op| = (unpacked op).mag := by
    rw [← value_unpacked hz, Ufp.value, abs_signed, abs_of_pos hpos]
  have hs : (0 : ℝ) < 2 ^ ((unpacked op).exp - 1088) := zpow_pos two_pos _
  have hscale : ∀ j : ℕ, (2 : ℝ) ^ j * 2 ^ ((unpacked op).exp - 1088) =
      2 ^ ((unpacked op).exp - 1088 + j) := fun j => by
    rw [← zpow_natCast (2 : ℝ) j, ← zpow_add₀ two_ne_zero, add_comm]
  have hge : (2 : ℝ) ^ ((unpacked op).exp - 1088 + (63 : ℕ)) ≤ |vaxValue op| := by
    rw [habs, ← hscale, Ufp.mag, scaled]
    exact mul_le_mul_of_nonneg_right (by exact_mod_cast hn) hs.le
  have hlt : |vaxValue op| < (2 : ℝ) ^ ((unpacked op).exp - 1088 + (64 : ℕ)) := by
    rw [habs, ← hscale, Ufp.mag, scaled]
    exact mul_lt_mul_of_pos_right (by exact_mod_cast (unpacked op).frac.isLt) hs
  rcases hg with rfl | rfl
  · simp only [F] at hlo hhi ⊢
    refine ⟨64, le_trans (zpow_le_zpow_right₀ one_le_two ?_) hge,
      lt_of_lt_of_le hlt (zpow_le_zpow_right₀ one_le_two ?_), ?_, ?_, ?_⟩ <;> omega
  · simp only [G] at hlo hhi ⊢
    refine ⟨512, le_trans (zpow_le_zpow_right₀ one_le_two ?_) hge,
      lt_of_lt_of_le hlt (zpow_le_zpow_right₀ one_le_two ?_), ?_, ?_, ?_⟩ <;> omega

/-- A number below a power of two has at most its exponent, or the next, when rounded. -/
theorem vaxExp_le_of_lt (g : VaxGeom) (chop : Bool) {x : ℝ} {k : ℤ} (hx : 0 < x)
    (hlt : x < 2 ^ k) : vaxExp g chop x ≤ k + 1025 := by
  have hb : binade x ≤ k := by
    by_contra h
    have hle : (2 : ℝ) ^ k ≤ 2 ^ (binade x - 1) := zpow_le_zpow_right₀ one_le_two (by omega)
    exact absurd (hle.trans (binade_bounds hx).1) (not_le.2 hlt)
  have hround := (binade_roundMag (Nat.add_one_pos g.fracBits) chop hx).2
  rw [vaxExp, abs_of_pos hx]
  omega

/-- The root of a number that is not zero is never right. -/
theorem not_rounded_sqrt {g : VaxGeom} (hg : g = F ∨ g = G) (chop unfEnable : Bool) (exc : Exc)
    {op : Word} (h : IsImage g op) (hx : 0 < vaxValue op) :
    ¬ Rounded g chop unfEnable (√(vaxValue op)) exc (sqrt op g chop unfEnable exc) := by
  have hz : expOf op ≠ 0 := fun h0 => hx.ne' (vaxValue_of_zero h0)
  have hs : signOf op = false := by
    rw [← vaxValue_neg_iff hz]
    exact decide_eq_false (not_lt.2 hx.le)
  obtain ⟨k, hlo, hhi, hwlo, hwhi, hbits⟩ := exists_sqrt_window hg h hz
  rw [abs_of_pos hx] at hlo hhi
  have hsq : ∀ j : ℤ, (2 : ℝ) ^ (2 * j) = (2 ^ j) ^ 2 := fun j => by
    rw [← zpow_natCast ((2 : ℝ) ^ j) 2, ← zpow_mul, mul_comm]
    norm_num
  have hr : 0 < √(vaxValue op) := Real.sqrt_pos.2 hx
  have hz2 : 0 < √(vaxValue op / 2) := Real.sqrt_pos.2 (half_pos hx)
  have hrhi : √(vaxValue op) < 2 ^ k := by
    rw [Real.sqrt_lt' (zpow_pos two_pos _), ← hsq]
    exact hhi
  have hmono : √(vaxValue op / 2) ≤ √(vaxValue op) := Real.sqrt_le_sqrt (by linarith)
  have hzlo : (2 : ℝ) ^ (-k - 1) ≤ √(vaxValue op / 2) := by
    apply Real.le_sqrt_of_sq_le
    have hquarter : (2 : ℝ) ^ (2 * (-k - 1)) = 2 ^ (-(2 * k)) / 4 := by
      rw [show 2 * (-k - 1) = -(2 * k) - 2 by ring, zpow_sub₀ two_ne_zero]
      norm_num
    rw [← hsq, hquarter]
    linarith
  have hexpLo : ∀ w : ℝ, √(vaxValue op / 2) ≤ w → g.expLo ≤ vaxExp g chop w := by
    intro w hw
    refine hwlo.trans (le_vaxExp g chop ?_)
    rw [abs_of_pos (lt_of_lt_of_le hz2 hw), show 1024 - k - 1025 = -k - 1 by ring]
    exact hzlo.trans hw
  have hexpHi : ∀ w : ℝ, 0 < w → w ≤ √(vaxValue op) → vaxExp g chop w ≤ g.expHi := fun w hw hle =>
    (vaxExp_le_of_lt g chop hw (lt_of_le_of_lt hle hrhi)).trans hwhi
  have hsign : decide (√(vaxValue op) < 0) = decide (√(vaxValue op / 2) < 0) := by
    rw [decide_eq_false (not_lt.2 hr.le), decide_eq_false (not_lt.2 hz2.le)]
  have hhalf := rounded_sqrt_half g chop unfEnable exc hz hs
  rw [hhalf.iff_of_inRange g chop hr.ne' hz2.ne' hsign (hexpLo _ hmono) (hexpHi _ hr le_rfl)
    (hexpLo _ le_rfl) (hexpHi _ hz2 hmono), abs_of_pos hr, abs_of_pos hz2]
  exact roundMag_sqrt_ne hbits chop hx

/-- Square root is right on the zero and on the negative numbers, and on no other. -/
theorem sqrtOk_iff {g : VaxGeom} (hg : g = F ∨ g = G) (chop unfEnable : Bool) (exc : Exc)
    {op : Word} (h : IsImage g op) :
    SqrtOk g chop unfEnable exc op (sqrt op g chop unfEnable exc) ↔
      expOf op = 0 ∨ signOf op = true := by
  by_cases hz : expOf op = 0
  · have hcode : sqrt op g chop unfEnable exc = (0, exc) := by
      simp only [sqrt, unpack_of_not_reserved h.1, if_pos hz]
      simp
    have hvalue := vaxValue_of_zero hz
    rw [SqrtOk, hvalue, if_neg (lt_irrefl _), Real.sqrt_zero, hcode]
    exact iff_of_true (Rounded.of_zero g chop unfEnable exc) (Or.inl hz)
  · have hsign := vaxValue_neg_iff hz
    rw [SqrtOk, or_iff_right hz]
    cases hs : signOf op with
    | true =>
      have hneg : vaxValue op < 0 := of_decide_eq_true (hsign.trans hs)
      have he : (unpacked op).exp ≠ 0 := by
        simp only [unpacked]
        omega
      have hcode : sqrt op g chop unfEnable exc = (0, exc ||| VaxExc.Inv) := by
        simp only [sqrt, unpack_of_pos hz]
        rw [if_pos ⟨hs, he⟩]
      rw [if_pos hneg, hcode]
      exact iff_of_true rfl rfl
    | false =>
      have hnonneg : ¬ vaxValue op < 0 := of_decide_eq_false (hsign.trans hs)
      have hpos : 0 < vaxValue op :=
        lt_of_le_of_ne (not_lt.1 hnonneg) (vaxValue_ne_zero hz).symm
      rw [if_neg hnonneg]
      exact iff_of_false (not_rounded_sqrt hg chop unfEnable exc h hpos) Bool.false_ne_true

/-- The zero and minus one. -/
theorem sqrtOk_zero_neg_one : SqrtOk F false true 0 0 (sqrt 0 F false true 0) ∧
    SqrtOk G false true 0 0xC010000000000000 (sqrt 0xC010000000000000 G false true 0) := by
  have h0 : IsImage F 0 := ⟨by decide, fun h => absurd (by decide) h⟩
  exact ⟨(sqrtOk_iff (Or.inl rfl) false true 0 h0).2 (by decide),
    (sqrtOk_iff (Or.inr rfl) false true 0 (isImage_G (by decide))).2 (by decide)⟩

/-- The square root of one comes out as 0.7071. -/
theorem not_sqrtOk_one :
    sqrt 0x4010000000000000 G false true 0 = (0x4006A09E667F3BCD, 0) ∧
      ¬ SqrtOk G false true 0 0x4010000000000000 (sqrt 0x4010000000000000 G false true 0) := by
  have hpos : 0 < vaxValue 0x4010000000000000 := by
    have hz : expOf 0x4010000000000000 ≠ 0 := by decide
    have hs := vaxValue_neg_iff hz
    rw [show signOf 0x4010000000000000 = false by decide, decide_eq_false_iff_not, not_lt] at hs
    exact lt_of_le_of_ne hs (vaxValue_ne_zero hz).symm
  refine ⟨by decide +kernel, ?_⟩
  rw [SqrtOk, if_neg (not_lt.2 hpos.le)]
  exact not_rounded_sqrt (Or.inr rfl) false true 0 (isImage_G (by decide)) hpos

end Vax

end EmulatR
