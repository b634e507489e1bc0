import Mathlib.Data.Int.Log
import Mathlib.Algebra.Order.Floor.Semifield
import Mathlib.Algebra.GroupWithZero.Nat
import Mathlib.Tactic.FieldSimp
import Mathlib.Tactic.NormNum
import Mathlib.Tactic.Positivity
import Mathlib.Tactic.Ring

/-! # Rounding to a precision

A positive number lies in one binade `[2 ^ (e - 1), 2 ^ e)`, and to round it to `p` significant bits
is to round it to a multiple of `2 ^ (e - p)`: down, or to the nearest with halves going up. The
exponent is not bounded.

A computation that keeps `k > p` leading bits of a number keeps enough of it: `roundMag_of_trunc`
says when rounding the kept bits rounds the number. -/

namespace EmulatR.Library

section Rounding

variable {K : Type*} [Field K] [LinearOrder K] [IsStrictOrderedRing K] [FloorSemiring K]

/-! ## The binade -/

/-- The exponent of a positive number, with the leading bit just below the point. -/
def binade (x : K) : ℤ := Int.log 2 x + 1

/-- A positive number lies in its binade. -/
theorem binade_bounds {x : K} (hx : 0 < x) :
    (2 : K) ^ (binade x - 1) ≤ x ∧ x < (2 : K) ^ binade x := by
  have hlo := Int.zpow_log_le_self (b := 2) one_lt_two hx
  have hhi := Int.lt_zpow_succ_log_self (b := 2) one_lt_two x
  rw [Nat.cast_ofNat] at hlo hhi
  rw [binade, add_sub_cancel_right]
  exact ⟨hlo, hhi⟩

/-- A number lies in no other binade. -/
theorem binade_eq {x : K} {e : ℤ} (hlo : (2 : K) ^ (e - 1) ≤ x) (hhi : x < (2 : K) ^ e) :
    binade x = e := by
  have hx : 0 < x := lt_of_lt_of_le (zpow_pos two_pos _) hlo
  have h1 := (Int.zpow_le_iff_le_log (b := 2) one_lt_two hx (x := e - 1)).1 (by simpa using hlo)
  have h2 := (Int.lt_zpow_iff_log_lt (b := 2) one_lt_two hx (x := e)).1 (by simpa using hhi)
  unfold binade
  omega

/-- Scaling by a power of two moves the binade. -/
theorem binade_mul_zpow {x : K} (hx : 0 < x) (j : ℤ) : binade (x * 2 ^ j) = binade x + j := by
  obtain ⟨hlo, hhi⟩ := binade_bounds hx
  have hj : (0 : K) < 2 ^ j := zpow_pos two_pos j
  apply binade_eq
  · rw [show binade x + j - 1 = binade x - 1 + j by ring, zpow_add₀ two_ne_zero]
    exact mul_le_mul_of_nonneg_right hlo hj.le
  · rw [zpow_add₀ two_ne_zero]
    exact mul_lt_mul_of_pos_right hhi hj

/-! ## Rounding a magnitude -/

/-- So many units of `2 ^ e`. -/
def scaled (n : ℕ) (e : ℤ) : K := n * 2 ^ e

/-- A positive count of positive units. -/
theorem scaled_pos {n : ℕ} (hn : 0 < n) (e : ℤ) : (0 : K) < scaled n e :=
  mul_pos (Nat.cast_pos.2 hn) (zpow_pos two_pos e)

/-- Units of a larger power are more of a smaller one. -/
theorem scaled_mul_two_pow (n k : ℕ) (e : ℤ) :
    (scaled (n * 2 ^ k) e : K) = scaled n (e + k) := by
  rw [scaled, scaled, Nat.cast_mul, Nat.cast_pow, Nat.cast_ofNat,
    zpow_add₀ (two_pos : (0 : K) < 2).ne', zpow_natCast, mul_assoc, mul_comm ((2 : K) ^ k)]

/-- A positive number to `p` significant bits: down, or half up. -/
def roundMag (p : ℕ) (chop : Bool) (x : K) : K :=
  ⌊x / 2 ^ (binade x - p) + (if chop then 0 else 1 / 2)⌋₊ * 2 ^ (binade x - p)

/-- Rounding does not depend on the scale. -/
theorem roundMag_mul_zpow (p : ℕ) (chop : Bool) {x : K} (hx : 0 < x) (j : ℤ) :
    roundMag p chop (x * 2 ^ j) = roundMag p chop x * 2 ^ j := by
  have hscale : (2 : K) ^ (binade x + j - p) = 2 ^ (binade x - p) * 2 ^ j := by
    rw [← zpow_add₀ two_ne_zero]
    congr 1
    ring
  have hj : (2 : K) ^ j ≠ 0 := (zpow_pos two_pos j).ne'
  rw [roundMag, roundMag, binade_mul_zpow hx, hscale, mul_div_mul_right _ _ hj, mul_assoc]

/-- The weight added before the low `r` bits are cleared. -/
def halfOf (r : ℕ) (chop : Bool) : ℕ := if chop then 0 else 2 ^ (r - 1)

/-- A whole number to the bits from `r` up, in units of bit `r`. -/
def roundNat (r : ℕ) (chop : Bool) (n : ℕ) : ℕ := (n + halfOf r chop) / 2 ^ r

/-- A whole number clear below bit `r` is not moved. -/
theorem roundNat_of_dvd {r n : ℕ} (hr : 0 < r) (chop : Bool) (hdvd : 2 ^ r ∣ n) :
    roundNat r chop n = n / 2 ^ r := by
  have hhalf : halfOf r chop < 2 ^ r := by
    unfold halfOf
    split
    · exact Nat.two_pow_pos r
    · exact Nat.pow_lt_pow_right one_lt_two (by omega)
  obtain ⟨a, rfl⟩ := hdvd
  rw [roundNat, Nat.mul_add_div (Nat.two_pow_pos r), Nat.div_eq_of_lt hhalf, Nat.add_zero,
    Nat.mul_div_cancel_left _ (Nat.two_pow_pos r)]

/-- Rounding a number with `p + r` bits before the point clears `r` of them. -/
theorem roundMag_eq_floor {p r : ℕ} (hr : 0 < r) (chop : Bool) {y : K}
    (hlo : (2 : K) ^ (p + r - 1) ≤ y) (hhi : y < (2 : K) ^ (p + r)) :
    roundMag p chop y = ⌊(y + halfOf r chop) / (2 ^ r : ℕ)⌋₊ * 2 ^ r := by
  have hb : binade y = p + r := by
    apply binade_eq
    · rw [show (p : ℤ) + r - 1 = ((p + r - 1 : ℕ) : ℤ) by omega, zpow_natCast]
      exact hlo
    · rw [show (p : ℤ) + r = ((p + r : ℕ) : ℤ) by omega, zpow_natCast]
      exact hhi
  have hunit : (2 : K) ^ (binade y - p) = 2 ^ r := by
    rw [hb, add_sub_cancel_left, zpow_natCast]
  have hhalf : (2 : K) ^ r = 2 ^ (r - 1) * 2 := by
    rw [← pow_succ, Nat.sub_add_cancel hr]
  have hsum : y / 2 ^ r + (if chop then 0 else 1 / 2) = (y + halfOf r chop) / (2 ^ r : ℕ) := by
    unfold halfOf
    cases chop with
    | true => simp
    | false =>
      rw [if_neg Bool.false_ne_true, if_neg Bool.false_ne_true]
      push_cast
      rw [add_div, hhalf]
      congr 1
      field_simp
  rw [roundMag, hunit, hsum]

/-- The bits below a kept bit `t` do not matter to a rounding at a higher bit. -/
theorem roundNat_of_trunc {r t n m : ℕ} (ht : t + 1 ≤ r) (chop : Bool) (hdvd : 2 ^ t ∣ n)
    (hlo : n ≤ m) (hhi : m < n + 2 ^ t) : roundNat r chop m = roundNat r chop n := by
  have hhalf : 2 ^ t ∣ halfOf r chop := by
    unfold halfOf
    split
    · exact dvd_zero _
    · exact Nat.pow_dvd_pow 2 (by omega)
  have hr : 2 ^ r = 2 ^ t * 2 ^ (r - t) := by
    rw [← pow_add, Nat.add_sub_cancel' (by omega)]
  obtain ⟨a, ha⟩ := Nat.dvd_add hdvd hhalf
  have hpos : 0 < 2 ^ t := Nat.two_pow_pos t
  have hm : m + halfOf r chop = 2 ^ t * a + (m - n) := by omega
  have hrest : m - n < 2 ^ t := by omega
  unfold roundNat
  rw [hr, ← Nat.div_div_eq_div_mul, ← Nat.div_div_eq_div_mul, ha, hm, Nat.mul_add_div hpos,
    Nat.mul_div_cancel_left _ hpos, Nat.div_eq_of_lt hrest, Nat.add_zero]

/-- Rounding the leading bits of a number, down to a bit `t` below the last one that counts, rounds
the number. -/
theorem roundMag_of_trunc {p r t n : ℕ} (ht : t + 1 ≤ r) (chop : Bool) {y : K}
    (hn : 2 ^ (p + r - 1) ≤ n) (hdvd : 2 ^ t ∣ n) (hlo : (n : K) ≤ y) (hhi : y < n + 2 ^ t)
    (hlt : y < (2 : K) ^ (p + r)) : roundMag p chop y = roundNat r chop n * 2 ^ r := by
  have hy : (2 : K) ^ (p + r - 1) ≤ y := le_trans (by exact_mod_cast hn) hlo
  have hy0 : 0 ≤ y := le_trans (Nat.cast_nonneg n) hlo
  rw [roundMag_eq_floor (by omega) chop hy hlt, Nat.floor_div_natCast, Nat.floor_add_natCast hy0]
  have hfloor : roundNat r chop ⌊y⌋₊ = roundNat r chop n := by
    apply roundNat_of_trunc ht chop hdvd (Nat.le_floor hlo)
    rw [Nat.floor_lt hy0]
    exact_mod_cast hhi
  rw [← hfloor, roundNat]

/-- Rounding a whole number of `p + r` bits gives `p` bits, or the next power of two. -/
theorem roundNat_bounds {p r n : ℕ} (hp : 0 < p) (hr : 0 < r) (chop : Bool)
    (hlo : 2 ^ (p + r - 1) ≤ n) (hhi : n < 2 ^ (p + r)) :
    2 ^ (p - 1) ≤ roundNat r chop n ∧ roundNat r chop n ≤ 2 ^ p := by
  have hsplit : 2 ^ (p + r - 1) = 2 ^ (p - 1) * 2 ^ r := by
    rw [← pow_add]
    congr 1
    omega
  have hwhole : 2 ^ (p + r) = 2 ^ p * 2 ^ r := pow_add 2 p r
  have hpos : 0 < 2 ^ r := Nat.two_pow_pos r
  have hhalf : halfOf r chop < 2 ^ r := by
    unfold halfOf
    split
    · exact hpos
    · exact Nat.pow_lt_pow_right one_lt_two (by omega)
  constructor
  · rw [roundNat, Nat.le_div_iff_mul_le hpos]
    omega
  · apply Nat.le_of_lt_succ
    rw [roundNat, Nat.div_lt_iff_lt_mul hpos, Nat.succ_mul]
    omega

/-- The binade of a rounded number is its own, or the next one after a carry. -/
theorem binade_roundNat {p r n : ℕ} (hp : 0 < p) (hr : 0 < r) (chop : Bool)
    (hlo : 2 ^ (p + r - 1) ≤ n) (hhi : n < 2 ^ (p + r)) :
    binade ((roundNat r chop n : K) * 2 ^ r) =
      if roundNat r chop n = 2 ^ p then (p : ℤ) + r + 1 else p + r := by
  obtain ⟨h1, h2⟩ := roundNat_bounds hp hr chop hlo hhi
  have hpow : (2 : K) ^ (r : ℕ) = 2 ^ (r : ℤ) := (zpow_natCast _ _).symm
  have hcast : (0 : K) < roundNat r chop n :=
    Nat.cast_pos.2 (lt_of_lt_of_le (Nat.two_pow_pos _) h1)
  rw [hpow, binade_mul_zpow hcast]
  split
  · rename_i hcarry
    rw [binade_eq (e := p + 1)]
    · ring
    · rw [hcarry, add_sub_cancel_right, zpow_natCast, Nat.cast_pow, Nat.cast_ofNat]
    · rw [hcarry, Nat.cast_pow, Nat.cast_ofNat, ← zpow_natCast]
      exact zpow_lt_zpow_right₀ one_lt_two (by omega)
  · rename_i hcarry
    rw [binade_eq (e := p)]
    · rw [show (p : ℤ) - 1 = ((p - 1 : ℕ) : ℤ) by omega, zpow_natCast]
      exact_mod_cast h1
    · rw [zpow_natCast]
      exact_mod_cast lt_of_le_of_ne h2 hcarry

/-- Every positive number is, up to its scale, a number with one bit more than is kept. -/
theorem roundMag_eq_roundNat (p : ℕ) (chop : Bool) {x : K} (hx : 0 < x) :
    ∃ n : ℕ, 2 ^ p ≤ n ∧ n < 2 ^ (p + 1) ∧
      roundMag p chop x = roundNat 1 chop n * 2 ^ 1 * 2 ^ (binade x - (p + 1)) := by
  obtain ⟨hlo, hhi⟩ := binade_bounds hx
  have hs : (0 : K) < 2 ^ (binade x - (p + 1)) := zpow_pos two_pos _
  have hy : x = x / 2 ^ (binade x - (p + 1)) * 2 ^ (binade x - (p + 1)) :=
    (div_mul_cancel₀ _ hs.ne').symm
  have hylo : (2 : K) ^ p ≤ x / 2 ^ (binade x - (p + 1)) := by
    rw [le_div_iff₀ hs, ← zpow_natCast, ← zpow_add₀ two_ne_zero]
    convert hlo using 2
    ring
  have hyhi : x / 2 ^ (binade x - (p + 1)) < 2 ^ (p + 1) := by
    rw [div_lt_iff₀ hs, ← zpow_natCast, ← zpow_add₀ two_ne_zero]
    convert hhi using 2
    push_cast
    ring
  have hy0 : 0 ≤ x / 2 ^ (binade x - (p + 1)) := (div_pos hx hs).le
  have hn : 2 ^ p ≤ ⌊x / 2 ^ (binade x - (p + 1))⌋₊ := Nat.le_floor (by exact_mod_cast hylo)
  refine ⟨⌊x / 2 ^ (binade x - (p + 1))⌋₊, hn, ?_, ?_⟩
  · rw [Nat.floor_lt hy0]
    exact_mod_cast hyhi
  · have hround := roundMag_of_trunc (t := 0) le_rfl chop hn (one_dvd _) (Nat.floor_le hy0)
      (by simpa using Nat.lt_floor_add_one _) hyhi
    rw [← hround, ← roundMag_mul_zpow p chop (div_pos hx hs), ← hy]

/-- Rounding leaves a number in its binade, up to the next power of two. -/
theorem roundMag_bounds {p : ℕ} (hp : 0 < p) (chop : Bool) {x : K} (hx : 0 < x) :
    (2 : K) ^ (binade x - 1) ≤ roundMag p chop x ∧ roundMag p chop x ≤ 2 ^ binade x := by
  obtain ⟨n, hlo, hhi, heq⟩ := roundMag_eq_roundNat p chop hx
  obtain ⟨h1, h2⟩ := roundNat_bounds hp one_pos chop (by simpa using hlo) hhi
  have hs : (0 : K) < 2 ^ 1 * 2 ^ (binade x - (p + 1)) :=
    mul_pos (pow_pos two_pos _) (zpow_pos two_pos _)
  have hscale : ∀ e : ℕ, (2 : K) ^ e * (2 ^ 1 * 2 ^ (binade x - (p + 1))) =
      2 ^ (binade x - p + e) := fun e => by
    rw [← zpow_natCast (2 : K) e, ← zpow_natCast (2 : K) 1, ← zpow_add₀ two_ne_zero,
      ← zpow_add₀ two_ne_zero]
    congr 1
    push_cast
    ring
  rw [heq, mul_assoc]
  constructor
  · calc (2 : K) ^ (binade x - 1) = 2 ^ (p - 1) * (2 ^ 1 * 2 ^ (binade x - (p + 1))) := by
          rw [hscale]
          congr 1
          omega
      _ ≤ roundNat 1 chop n * (2 ^ 1 * 2 ^ (binade x - (p + 1))) :=
          mul_le_mul_of_nonneg_right (by exact_mod_cast h1) hs.le
  · calc (roundNat 1 chop n : K) * (2 ^ 1 * 2 ^ (binade x - (p + 1)))
          ≤ 2 ^ p * (2 ^ 1 * 2 ^ (binade x - (p + 1))) :=
          mul_le_mul_of_nonneg_right (by exact_mod_cast h2) hs.le
      _ = 2 ^ binade x := by
          rw [hscale]
          congr 1
          ring

/-- Rounding a positive number does not end in zero. -/
theorem roundMag_pos {p : ℕ} (hp : 0 < p) (chop : Bool) {x : K} (hx : 0 < x) :
    0 < roundMag p chop x :=
  lt_of_lt_of_le (zpow_pos two_pos _) (roundMag_bounds hp chop hx).1

/-- Larger numbers lie in later binades. -/
theorem binade_mono {x y : K} (hx : 0 < x) (hxy : x ≤ y) : binade x ≤ binade y :=
  Int.add_le_add_right (Int.log_mono_right hx hxy) 1

/-- The binade of a rounded number is its own or the next. -/
theorem binade_roundMag {p : ℕ} (hp : 0 < p) (chop : Bool) {x : K} (hx : 0 < x) :
    binade x ≤ binade (roundMag p chop x) ∧ binade (roundMag p chop x) ≤ binade x + 1 := by
  obtain ⟨h1, h2⟩ := roundMag_bounds hp chop hx
  have hpos := roundMag_pos hp chop hx
  have hpow : ∀ e : ℤ, binade ((2 : K) ^ e) = e + 1 := fun e =>
    binade_eq (by rw [add_sub_cancel_right])
      (zpow_lt_zpow_right₀ one_lt_two (by omega))
  have hlo := binade_mono (zpow_pos two_pos _) h1
  have hhi := binade_mono hpos h2
  rw [hpow] at hlo hhi
  omega

/-- Rounding is monotone. -/
theorem roundMag_mono {p : ℕ} (hp : 0 < p) (chop : Bool) {x y : K} (hx : 0 < x) (hxy : x ≤ y) :
    roundMag p chop x ≤ roundMag p chop y := by
  have hy := lt_of_lt_of_le hx hxy
  rcases (binade_mono hx hxy).lt_or_eq with hlt | heq
  · -- a power of two lies between the two binades
    calc roundMag p chop x ≤ 2 ^ binade x := (roundMag_bounds hp chop hx).2
      _ ≤ 2 ^ (binade y - 1) := zpow_le_zpow_right₀ one_le_two (by omega)
      _ ≤ roundMag p chop y := (roundMag_bounds hp chop hy).1
  · have hu : (0 : K) < 2 ^ (binade y - p) := zpow_pos two_pos _
    rw [roundMag, roundMag, heq]
    gcongr

/-! ## Just below a whole number -/

section Below

variable {p r s n : ℕ} {y : K}

/-- The weight of a rounding, and the carry of a whole number over a breakpoint. -/
theorem roundNat_sub_eq_iff (hr : s + 2 ≤ r) (chop : Bool) (hdvd : 2 ^ s ∣ n) (hn : 2 ^ s ≤ n) :
    roundNat r chop (n - 2 ^ s) = roundNat r chop n ↔ ¬ 2 ^ r ∣ n + halfOf r chop := by
  have hspos : 0 < 2 ^ s := Nat.two_pow_pos s
  have hhalf : 2 ^ s ∣ halfOf r chop := by
    unfold halfOf
    split
    · exact dvd_zero _
    · exact Nat.pow_dvd_pow 2 (by omega)
  have hrs : 2 ^ r = 2 ^ s * 2 ^ (r - s) := by
    rw [← pow_add]
    congr 1
    omega
  obtain ⟨a, ha⟩ := Nat.dvd_add hdvd hhalf
  have hapos : 0 < a := by
    rcases Nat.eq_zero_or_pos a with h0 | h0
    · rw [h0, mul_zero] at ha
      omega
    · exact h0
  have hpred : n - 2 ^ s + halfOf r chop = 2 ^ s * (a - 1) := by
    rw [Nat.mul_sub, mul_one, ← ha]
    omega
  rw [roundNat, roundNat, ha, hpred, hrs, Nat.mul_div_mul_left _ _ hspos,
    Nat.mul_div_mul_left _ _ hspos, Nat.mul_dvd_mul_iff_left hspos]
  obtain ⟨b, rfl⟩ := Nat.exists_eq_succ_of_ne_zero hapos.ne'
  rw [Nat.succ_sub_one, Nat.succ_div]
  split
  · rename_i hd
    exact iff_of_false (by omega) (not_not_intro hd)
  · rename_i hd
    exact iff_of_true rfl hd

/-- Twice a power of two, less a little, rounds up to it, but chops to less. -/
theorem roundNat_sub_two_pow (hp : 0 < p) (hr : s + 2 ≤ r) (chop : Bool) :
    roundNat r chop (2 * 2 ^ (p + r - 1) - 2 ^ (s + 1)) = 2 * roundNat r chop (2 ^ (p + r - 1)) ↔
      ¬ 2 ^ r ∣ 2 ^ (p + r - 1) + halfOf r chop := by
  have hrpos : 0 < 2 ^ r := Nat.two_pow_pos r
  have hspos : 0 < 2 ^ (s + 1) := Nat.two_pow_pos _
  have hhalf : 2 ^ r = 2 * 2 ^ (r - 1) := by
    rw [← pow_succ', Nat.sub_add_cancel (by omega)]
  have hs : 2 ^ (s + 1) ≤ 2 ^ (r - 1) := Nat.pow_le_pow_right two_pos (by omega)
  have hnr : 2 ^ (p + r - 1) = 2 ^ (p - 1) * 2 ^ r := by
    rw [← pow_add]
    congr 1
    omega
  have hbig : 2 ^ r ≤ 2 ^ (p - 1) * 2 ^ r := Nat.le_mul_of_pos_left _ (Nat.two_pow_pos _)
  unfold roundNat halfOf
  cases chop with
  | true =>
    rw [if_pos rfl, hnr]
    simp only [Nat.add_zero, Nat.mul_div_cancel _ hrpos]
    refine iff_of_false (Nat.ne_of_lt ?_) (not_not_intro (Dvd.intro_left _ rfl))
    rw [Nat.div_lt_iff_lt_mul hrpos, mul_assoc]
    omega
  | false =>
    rw [if_neg Bool.false_ne_true, hnr]
    refine iff_of_true ?_ ?_
    · have hdiv : (2 ^ (p - 1) * 2 ^ r + 2 ^ (r - 1)) / 2 ^ r = 2 ^ (p - 1) := by
        rw [mul_comm, Nat.mul_add_div hrpos, Nat.div_eq_of_lt (by omega), Nat.add_zero]
      have hnext : (2 * 2 ^ (p - 1) + 1) * 2 ^ r = 2 * (2 ^ (p - 1) * 2 ^ r) + 2 ^ r := by ring
      rw [hdiv]
      apply Nat.div_eq_of_lt_le
      · rw [mul_assoc]
        omega
      · rw [hnext]
        omega
    · intro hd
      have h := (Nat.dvd_add_right (Dvd.intro_left _ rfl)).1 hd
      have hle := Nat.le_of_dvd (Nat.two_pow_pos _) h
      omega

/-- A number less than `2 ^ s` below a whole number rounds as the whole number does, unless the
whole number lies on a breakpoint: half way when rounding, in place when chopping. -/
theorem roundMag_below_iff (hp : 0 < p) (hr : s + 2 ≤ r) (chop : Bool)
    (hlo : 2 ^ (p + r - 1) ≤ n) (hhi : n < 2 ^ (p + r)) (hdvd : 2 ^ s ∣ n)
    (hy : (n : K) - 2 ^ s ≤ y) (hyn : y < n) :
    roundMag p chop y = roundMag p chop (n : K) ↔ ¬ 2 ^ r ∣ n + halfOf r chop := by
  have hsr : 2 ^ s * 4 ≤ 2 ^ r := by
    rw [show 4 = 2 ^ 2 by rfl, ← pow_add]
    exact Nat.pow_le_pow_right two_pos hr
  have hrn : 2 ^ r ≤ n := le_trans (Nat.pow_le_pow_right two_pos (by omega)) hlo
  have hsn : 2 ^ s ≤ n := by omega
  have h2 : (2 : K) ^ r ≠ 0 := (pow_pos two_pos r).ne'
  have hwhole : roundMag p chop (n : K) = roundNat r chop n * 2 ^ r :=
    roundMag_of_trunc (t := 0) (by omega) chop hlo (one_dvd _) le_rfl (by simp)
      (by exact_mod_cast hhi)
  have hsub : ((n - 2 ^ s : ℕ) : K) = n - 2 ^ s := by
    rw [Nat.cast_sub hsn, Nat.cast_pow, Nat.cast_ofNat]
  rcases hlo.lt_or_eq with hgt | heq
  · -- the same binade: the whole parts round alike
    have hstep : 2 ^ (p + r - 1) ≤ n - 2 ^ s := by
      obtain ⟨a, ha⟩ := hdvd
      have hsplit : 2 ^ (p + r - 1) = 2 ^ s * 2 ^ (p + r - 1 - s) := by
        rw [← pow_add]
        congr 1
        omega
      rw [ha, hsplit] at hgt ⊢
      have hlt := Nat.lt_of_mul_lt_mul_left hgt
      calc 2 ^ s * 2 ^ (p + r - 1 - s) ≤ 2 ^ s * (a - 1) := Nat.mul_le_mul_left _ (by omega)
        _ = 2 ^ s * a - 2 ^ s := by rw [Nat.mul_sub, mul_one]
    have hround : roundMag p chop y = roundNat r chop (n - 2 ^ s) * 2 ^ r :=
      roundMag_of_trunc (t := s) (by omega) chop hstep (Nat.dvd_sub hdvd (dvd_refl _))
        (by rw [hsub]; exact hy) (by rw [hsub, sub_add_cancel]; exact hyn)
        (lt_trans hyn (by exact_mod_cast hhi))
    rw [hround, hwhole, mul_left_inj' h2, Nat.cast_inj]
    exact roundNat_sub_eq_iff hr chop hdvd hsn
  · -- a power of two: what is below it lies in the binade before
    have hypos : 0 < y := by
      have hcast : (2 : K) ^ s * 4 ≤ n := by exact_mod_cast hsr.trans hrn
      have hpow : (0 : K) < 2 ^ s := pow_pos two_pos s
      linarith
    have hsub2 : ((2 * n - 2 ^ (s + 1) : ℕ) : K) = (n - 2 ^ s) * 2 := by
      have hle : 2 ^ (s + 1) ≤ 2 * n := by
        rw [pow_succ]
        omega
      rw [Nat.cast_sub hle]
      push_cast
      ring
    have htwo : (2 : K) ^ (p + r) = n * 2 := by
      have h : 2 ^ (p + r) = n * 2 := by
        rw [← heq, ← pow_succ]
        congr 1
        omega
      exact_mod_cast h
    have hround : roundMag p chop (y * 2) =
        roundNat r chop (2 * n - 2 ^ (s + 1)) * 2 ^ r := by
      apply roundMag_of_trunc (t := s + 1) (by omega) chop
      · rw [heq, pow_succ]
        omega
      · exact Nat.dvd_sub (by rw [pow_succ, mul_comm]; exact Nat.mul_dvd_mul_left 2 hdvd)
          (dvd_refl _)
      · rw [hsub2]
        exact mul_le_mul_of_nonneg_right hy two_pos.le
      · rw [hsub2, pow_succ, ← add_mul, sub_add_cancel]
        exact mul_lt_mul_of_pos_right hyn two_pos
      · rw [htwo]
        exact mul_lt_mul_of_pos_right hyn two_pos
    have hdouble : roundMag p chop y * 2 = roundMag p chop (y * 2) := by
      have h := roundMag_mul_zpow p chop hypos 1
      rw [zpow_one] at h
      exact h.symm
    rw [← heq] at hround
    rw [hwhole, ← mul_left_inj' (two_ne_zero (α := K)), hdouble, hround, mul_right_comm,
      mul_left_inj' h2, mul_comm _ (2 : K), ← heq]
    have hcast := roundNat_sub_two_pow (s := s) hp hr chop
    exact_mod_cast hcast

end Below

/-! ## Error -/

/-- Rounding to `p` bits moves a number up by at most one half in its last place. -/
theorem roundMag_le (p : ℕ) (chop : Bool) {x : K} (hx : 0 < x) :
    roundMag p chop x ≤ x + 2 ^ (binade x - p) / 2 := by
  have hu : (0 : K) < 2 ^ (binade x - p) := zpow_pos two_pos _
  have hle : x / 2 ^ (binade x - p) + (if chop then 0 else 1 / 2 : K)
      ≤ x / 2 ^ (binade x - p) + 1 / 2 := by
    gcongr
    split
    · positivity
    · exact le_rfl
  have hnonneg : (0 : K) ≤ (if chop then 0 else 1 / 2 : K) := by positivity
  have hfloor := Nat.floor_le (add_nonneg (div_nonneg hx.le hu.le) hnonneg)
  calc roundMag p chop x
      ≤ (x / 2 ^ (binade x - p) + 1 / 2) * 2 ^ (binade x - p) :=
        mul_le_mul_of_nonneg_right (hfloor.trans hle) hu.le
    _ = x + 2 ^ (binade x - p) / 2 := by field_simp

/-- Rounding moves a number down by less than one in the last place. -/
theorem lt_roundMag (p : ℕ) (chop : Bool) (x : K) :
    x - 2 ^ (binade x - p) < roundMag p chop x := by
  have hu : (0 : K) < 2 ^ (binade x - p) := zpow_pos two_pos _
  have hfloor := Nat.lt_floor_add_one (x / 2 ^ (binade x - p) + (if chop then 0 else 1 / 2 : K))
  have hle : x / 2 ^ (binade x - p) ≤ x / 2 ^ (binade x - p) + (if chop then 0 else 1 / 2 : K) := by
    apply le_add_of_nonneg_right
    positivity
  have hlt := mul_lt_mul_of_pos_right (hle.trans_lt hfloor) hu
  rw [div_mul_cancel₀ _ hu.ne', add_mul, one_mul] at hlt
  rw [sub_lt_iff_lt_add]
  exact hlt

/-- One in the last place of a number, against the number. -/
theorem ulp_le (p : ℕ) {x : K} (hx : 0 < x) : (2 : K) ^ (binade x - p) ≤ x * 2 ^ (1 - (p : ℤ)) := by
  have hb := (binade_bounds hx).1
  have hs : (2 : K) ^ (binade x - p) = 2 ^ (binade x - 1) * 2 ^ (1 - (p : ℤ)) := by
    rw [← zpow_add₀ two_ne_zero]
    congr 1
    ring
  rw [hs]
  exact mul_le_mul_of_nonneg_right hb (zpow_pos two_pos _).le

end Rounding

end EmulatR.Library
