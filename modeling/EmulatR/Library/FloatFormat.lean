import Mathlib.Algebra.Ring.Int.Parity
import EmulatR.Library.Rounding

/-! # Floating-point formats

To round a positive number to a format is to round it to a multiple of a unit that follows the
binade of the number, down to the unit of the subnormals. What comes out too large is delivered as
an infinity, or as the largest number where the direction points to zero (`FloatFormat.deliver`).

Two numbers that lie alike among the multiples of half a unit round alike (`SameCuts`). This is why
a computation may drop bits and keep of them one bit that says whether they were all zero
(`SameCuts.of_odd`).

`Ieee` states the operations on data with signs, infinities and NaNs, by exact arithmetic and one
rounding. -/

namespace EmulatR.Library

-- the numeral 2 of every field below rests on this one fact
/-- The instance for the numeral two, fixed once for all fields. -/
theorem atLeastTwo_two : Nat.AtLeastTwo 2 := inferInstance

attribute [local instance] atLeastTwo_two

/-! ## Cuts -/

section Cuts

variable {K : Type*} [Field K] [LinearOrder K]

/-- Two numbers lie alike among the multiples of a unit. -/
def SameCuts (u x y : K) : Prop :=
  ∀ m : ℤ, (x < m * u ↔ y < m * u) ∧ (m * u < x ↔ m * u < y)

variable {u x y z : K}

/-- A number is cut as itself. -/
theorem SameCuts.refl (u x : K) : SameCuts u x x := fun _ => ⟨Iff.rfl, Iff.rfl⟩

/-- Being cut alike is symmetric. -/
theorem SameCuts.symm (h : SameCuts u x y) : SameCuts u y x :=
  fun m => ⟨(h m).1.symm, (h m).2.symm⟩

/-- Having the same cuts is transitive. -/
theorem SameCuts.trans (h : SameCuts u x y) (h' : SameCuts u y z) : SameCuts u x z :=
  fun m => ⟨(h m).1.trans (h' m).1, (h m).2.trans (h' m).2⟩

/-- Among fewer multiples. -/
theorem SameCuts.coarsen (h : SameCuts u x y) (k : ℤ) : SameCuts (k * u) x y := by
  intro m
  have hm : (m : K) * (k * u) = (m * k : ℤ) * u := by
    push_cast
    ring
  rw [hm]
  exact h (m * k)

/-- Numbers that are cut alike are so on a lattice coarser by a power of two. -/
theorem SameCuts.coarsen_two_pow (h : SameCuts u x y) (k : ℕ) : SameCuts (2 ^ k * u) x y := by
  have hk := h.coarsen (2 ^ k)
  rwa [Int.cast_pow, Int.cast_ofNat] at hk

/-- Numbers with the same cuts are below the same multiples of the unit. -/
theorem SameCuts.le_iff (h : SameCuts u x y) (m : ℤ) : x ≤ m * u ↔ y ≤ m * u := by
  rw [← not_lt, ← not_lt, (h m).2]

/-- Numbers with the same cuts are above the same multiples of the unit. -/
theorem SameCuts.ge_iff (h : SameCuts u x y) (m : ℤ) : m * u ≤ x ↔ m * u ≤ y := by
  rw [← not_lt, ← not_lt, (h m).1]

/-- Numbers with the same cuts are multiples of the unit together. -/
theorem SameCuts.eq_iff (h : SameCuts u x y) (m : ℤ) : x = m * u ↔ y = m * u := by
  rw [le_antisymm_iff, le_antisymm_iff, h.le_iff, h.ge_iff]

variable [IsStrictOrderedRing K]

/-- On another scale. -/
theorem SameCuts.scale (h : SameCuts u x y) {c : K} (hc : 0 < c) :
    SameCuts (u * c) (x * c) (y * c) := by
  intro m
  rw [← mul_assoc, mul_lt_mul_iff_left₀ hc, mul_lt_mul_iff_left₀ hc, mul_lt_mul_iff_left₀ hc,
    mul_lt_mul_iff_left₀ hc]
  exact h m

/-- Moved by a multiple of the unit. -/
theorem SameCuts.add_mul (h : SameCuts u x y) (a : ℤ) : SameCuts u (x + a * u) (y + a * u) := by
  intro m
  have hm : (m : K) * u = (m - a : ℤ) * u + a * u := by
    push_cast
    ring
  rw [hm, add_lt_add_iff_right, add_lt_add_iff_right, add_lt_add_iff_right, add_lt_add_iff_right]
  exact h (m - a)

/-- The negatives of numbers with the same cuts have the same cuts. -/
theorem SameCuts.neg (h : SameCuts u x y) : SameCuts u (-x) (-y) := by
  intro m
  obtain ⟨hlt, hgt⟩ := h (-m)
  rw [Int.cast_neg, neg_mul] at hlt hgt
  rw [neg_lt, neg_lt (b := (m : K) * u), lt_neg, lt_neg (b := y)]
  exact ⟨hgt, hlt⟩

/-- Numbers less than the unit, zero together. -/
theorem SameCuts.of_small (hx : 0 ≤ x) (hy : 0 ≤ y) (hxu : x < u) (hyu : y < u)
    (h0 : x = 0 ↔ y = 0) : SameCuts u x y := by
  intro m
  have hu : 0 < u := hx.trans_lt hxu
  have hpos : 0 < x ↔ 0 < y := by
    rw [hx.lt_iff_ne', hy.lt_iff_ne', Ne, Ne, h0]
  rcases lt_trichotomy m 0 with hm | rfl | hm
  · have hneg : (m : K) * u < 0 := mul_neg_of_neg_of_pos (Int.cast_lt_zero.2 hm) hu
    exact ⟨iff_of_false (hneg.le.trans hx).not_gt (hneg.le.trans hy).not_gt,
      iff_of_true (hneg.trans_le hx) (hneg.trans_le hy)⟩
  · rw [Int.cast_zero, zero_mul]
    exact ⟨iff_of_false hx.not_gt hy.not_gt, hpos⟩
  · have hle : u ≤ m * u := by
      have hone : (1 : K) ≤ m := by exact_mod_cast hm
      exact le_mul_of_one_le_left hu.le hone
    exact ⟨iff_of_true (hxu.trans_le hle) (hyu.trans_le hle),
      iff_of_false (hxu.le.trans hle).not_gt (hyu.le.trans hle).not_gt⟩

/-- Numbers strictly between the same two multiples. -/
theorem SameCuts.of_between (m : ℤ) (hx : m * u < x) (hxu : x < (m + 1) * u) (hy : m * u < y)
    (hyu : y < (m + 1) * u) : SameCuts u x y := by
  have hu : 0 < u := by linarith
  intro j
  rcases le_or_gt j m with hj | hj
  · have hle : (j : K) * u ≤ m * u := mul_le_mul_of_nonneg_right (Int.cast_le.2 hj) hu.le
    exact ⟨iff_of_false (hle.trans hx.le).not_gt (hle.trans hy.le).not_gt,
      iff_of_true (hle.trans_lt hx) (hle.trans_lt hy)⟩
  · have hle : ((m : K) + 1) * u ≤ j * u := by
      apply mul_le_mul_of_nonneg_right _ hu.le
      exact_mod_cast hj
    exact ⟨iff_of_true (hxu.trans_le hle) (hyu.trans_le hle),
      iff_of_false (hxu.le.trans hle).not_gt (hyu.le.trans hle).not_gt⟩

/-- Taken from a multiple of the unit. -/
theorem SameCuts.mul_sub (h : SameCuts u x y) (a : ℤ) : SameCuts u (a * u - x) (a * u - y) := by
  have hn := h.neg.add_mul a
  rwa [neg_add_eq_sub, neg_add_eq_sub] at hn

/-- An odd number stands for all that lies between its even neighbours. -/
theorem SameCuts.of_odd {n : ℤ} (hn : Odd n) (hlo : (n : K) - 1 < y) (hhi : y < n + 1) :
    SameCuts 2 y (n : K) := by
  obtain ⟨j, rfl⟩ := hn
  intro m
  have hm : (m : K) * 2 = (2 * m : ℤ) := by
    push_cast
    ring
  rw [hm, Int.cast_lt, Int.cast_lt]
  constructor
  · constructor
    · intro h
      have hlt : ((2 * j + 1 : ℤ) : K) - 1 < (2 * m : ℤ) := hlo.trans h
      have hint : 2 * j + 1 - 1 < 2 * m := by exact_mod_cast hlt
      omega
    · intro h
      have hle : ((2 * j + 1 : ℤ) : K) + 1 ≤ (2 * m : ℤ) := by exact_mod_cast h
      exact hhi.trans_le hle
  · constructor
    · intro h
      have hlt : ((2 * m : ℤ) : K) < (2 * j + 1 : ℤ) + 1 := h.trans hhi
      have hint : 2 * m < 2 * j + 1 + 1 := by exact_mod_cast hlt
      omega
    · intro h
      have hle : ((2 * m : ℤ) : K) ≤ (2 * j + 1 : ℤ) - 1 := by
        have hint : 2 * m ≤ 2 * j + 1 - 1 := by omega
        exact_mod_cast hint
      exact hle.trans_lt hlo

end Cuts

/-! ## Rounding to a whole number -/

/-- The directions in which a magnitude is rounded. -/
inductive Direction
  | nearest | down | up
  deriving DecidableEq, Repr

section RoundInt

variable {K : Type*} [Field K] [LinearOrder K] [FloorSemiring K]

/-- A number to a whole one; a tie goes to the even neighbour. -/
def roundInt (d : Direction) (y : K) : ℕ :=
  match d with
  | .down => ⌊y⌋₊
  | .up => ⌈y⌉₊
  | .nearest =>
    if y < ⌊y⌋₊ + 1 / 2 ∨ (y = ⌊y⌋₊ + 1 / 2 ∧ ⌊y⌋₊ % 2 = 0) then ⌊y⌋₊ else ⌊y⌋₊ + 1

/-- Numbers that lie alike among the halves round alike. -/
theorem roundInt_congr {x y : K} (h : SameCuts (1 / 2) x y) (hx : 0 ≤ x) (hy : 0 ≤ y)
    (d : Direction) : roundInt d x = roundInt d y := by
  have hwhole : ∀ n : ℕ, (n : K) = ((2 * n : ℤ) : K) * (1 / 2) := fun n => by
    push_cast
    ring
  have hfloor : ⌊x⌋₊ = ⌊y⌋₊ := by
    apply eq_of_forall_le_iff
    intro n
    rw [Nat.le_floor_iff hx, Nat.le_floor_iff hy, hwhole, h.ge_iff]
  cases d with
  | down => exact hfloor
  | up =>
    apply eq_of_forall_ge_iff
    intro n
    rw [roundInt, roundInt, Nat.ceil_le, Nat.ceil_le, hwhole, h.le_iff]
  | nearest =>
    have hhalf : (⌊y⌋₊ : K) + 1 / 2 = ((2 * ⌊y⌋₊ + 1 : ℤ) : K) * (1 / 2) := by
      push_cast
      ring
    simp only [roundInt, hfloor, hhalf, (h _).1, h.eq_iff]

variable [IsStrictOrderedRing K]

/-- Zero is not rounded. -/
@[simp] theorem roundInt_zero (d : Direction) : roundInt d (0 : K) = 0 := by
  cases d <;> simp [roundInt]

/-- A number over a power of two is its quotient and the rest over it. -/
theorem natCast_div_two_pow (r n : ℕ) :
    (n : K) / 2 ^ r = (n / 2 ^ r : ℕ) + ((n % 2 ^ r : ℕ) : K) / 2 ^ r := by
  have h2 : (2 : K) ^ r ≠ 0 := (pow_pos two_pos r).ne'
  rw [eq_comm, ← mul_left_inj' h2, add_mul, div_mul_cancel₀ _ h2, div_mul_cancel₀ _ h2]
  exact_mod_cast Nat.div_add_mod' n (2 ^ r)

/-- Its floor is the quotient. -/
theorem floor_natCast_div_two_pow (r n : ℕ) : ⌊(n : K) / 2 ^ r⌋₊ = n / 2 ^ r := by
  have h := Nat.floor_div_eq_div (K := K) n (2 ^ r)
  rwa [Nat.cast_pow, Nat.cast_ofNat] at h

/-- A natural number is not rounded. -/
@[simp] theorem roundInt_natCast (d : Direction) (n : ℕ) : roundInt d (n : K) = n := by
  cases d <;> simp [roundInt]

/-- A whole number over `2 ^ r`, down. -/
theorem roundInt_down_div (r n : ℕ) : roundInt .down ((n : K) / 2 ^ r) = n / 2 ^ r :=
  floor_natCast_div_two_pow r n

/-- A whole number over `2 ^ r`, up. -/
theorem roundInt_up_div (r n : ℕ) :
    roundInt .up ((n : K) / 2 ^ r) = n / 2 ^ r + if n % 2 ^ r = 0 then 0 else 1 := by
  have h2 : (0 : K) < 2 ^ r := pow_pos two_pos r
  change ⌈(n : K) / 2 ^ r⌉₊ = _
  by_cases hmod : n % 2 ^ r = 0
  · rw [if_pos hmod, natCast_div_two_pow, hmod, Nat.cast_zero, zero_div, add_zero,
      Nat.ceil_natCast, Nat.add_zero]
  · rw [if_neg hmod, Nat.ceil_eq_iff (Nat.succ_ne_zero _), natCast_div_two_pow, Nat.succ_sub_one]
    have hpos : (0 : K) < (n % 2 ^ r : ℕ) := Nat.cast_pos.2 (Nat.pos_of_ne_zero hmod)
    have hlt : ((n % 2 ^ r : ℕ) : K) < 2 ^ r := by
      exact_mod_cast Nat.mod_lt n (Nat.two_pow_pos r)
    refine ⟨lt_add_of_pos_right _ (div_pos hpos h2), ?_⟩
    rw [Nat.cast_succ]
    gcongr
    exact (div_le_one h2).2 hlt.le

/-- A whole number over `2 ^ r`, to the nearest. -/
theorem roundInt_nearest_div {r : ℕ} (hr : 0 < r) (n : ℕ) :
    roundInt .nearest ((n : K) / 2 ^ r) = n / 2 ^ r +
      if n % 2 ^ r < 2 ^ (r - 1) ∨ (n % 2 ^ r = 2 ^ (r - 1) ∧ n / 2 ^ r % 2 = 0) then 0 else 1 := by
  have h2 : (0 : K) < 2 ^ r := pow_pos two_pos r
  have hpow : (2 : K) ^ r = 2 ^ (r - 1) * 2 := by
    rw [← pow_succ, Nat.sub_add_cancel hr]
  have hhalf : (1 / 2 : K) = (2 ^ (r - 1) : ℕ) / 2 ^ r := by
    rw [hpow, Nat.cast_pow, Nat.cast_ofNat]
    field_simp
  have hcut : ((n : K) / 2 ^ r < (n / 2 ^ r : ℕ) + 1 / 2 ↔ n % 2 ^ r < 2 ^ (r - 1)) ∧
      ((n : K) / 2 ^ r = (n / 2 ^ r : ℕ) + 1 / 2 ↔ n % 2 ^ r = 2 ^ (r - 1)) := by
    rw [natCast_div_two_pow, hhalf, add_lt_add_iff_left, add_right_inj,
      div_lt_div_iff_of_pos_right h2, div_left_inj' h2.ne', Nat.cast_lt, Nat.cast_inj]
    exact ⟨Iff.rfl, Iff.rfl⟩
  simp only [roundInt, floor_natCast_div_two_pow, hcut.1, hcut.2]
  split <;> rfl

/-- The least whole number not below a number bounds its rounding. -/
theorem roundInt_le {y : K} {n : ℕ} (d : Direction) (h : y ≤ n) : roundInt d y ≤ n := by
  have hdown : ⌊y⌋₊ ≤ n := Nat.floor_le_of_le h
  cases d with
  | down => exact hdown
  | up => exact Nat.ceil_le.2 h
  | nearest =>
    rcases hdown.lt_or_eq with hlt | heq
    · rw [roundInt]
      split <;> omega
    · have hlt : y < n + 1 / 2 := h.trans_lt (lt_add_of_pos_right _ one_half_pos)
      simp only [roundInt, heq, hlt, true_or, if_true, le_refl]

/-- A whole number not above a number bounds its rounding. -/
theorem le_roundInt {y : K} {n : ℕ} (d : Direction) (h : n ≤ y) : n ≤ roundInt d y := by
  have hdown : n ≤ ⌊y⌋₊ := Nat.le_floor h
  cases d with
  | down => exact hdown
  | up => exact hdown.trans (Nat.floor_le_ceil y)
  | nearest =>
    rw [roundInt]
    split <;> omega

end RoundInt

/-! ## Rounding to a format -/

/-- A floating-point format. -/
structure FloatFormat where
  /-- Significant bits. -/
  prec : ℕ
  /-- The exponent of the unit of the subnormals. -/
  minUnit : ℤ
  /-- From this power of two on, a number is too large. -/
  maxExp : ℤ
  deriving DecidableEq, Repr

namespace FloatFormat

variable {K : Type*} [Field K] [LinearOrder K] [FloorSemiring K] (f : FloatFormat)

/-- The exponent of the unit of a number. -/
def unitExp (x : K) : ℤ := max (binade x - f.prec) f.minUnit

/-- A number to the format, its size unbounded. -/
def round (d : Direction) (x : K) : K := roundInt d (x / 2 ^ f.unitExp x) * 2 ^ f.unitExp x

/-- Rounded to the precision alone, a number stays below the normal numbers. -/
def Tiny (d : Direction) (x : K) : Prop :=
  (roundInt d (x / 2 ^ (binade x - f.prec)) * 2 ^ (binade x - f.prec) : K) <
    2 ^ (f.minUnit + f.prec - 1)

instance (d : Direction) (x : K) : Decidable (f.Tiny d x) := by
  unfold Tiny
  infer_instance

/-- The largest number. -/
def largest : K := (2 ^ f.prec - 1) * 2 ^ (f.maxExp - f.prec)

variable [IsStrictOrderedRing K] {f} {x : K}

/-- A number of full precision, above the subnormals. -/
theorem unitExp_eq {e : ℤ} (he : f.minUnit ≤ e) (hlo : (2 : K) ^ (e + f.prec - 1) ≤ x)
    (hhi : x < (2 : K) ^ (e + f.prec)) : f.unitExp x = e := by
  rw [unitExp, binade_eq hlo hhi, add_sub_cancel_right, max_eq_left he]

/-- A number below a power of two is in its binade or a lower one. -/
theorem binade_le {e : ℤ} (hx : 0 < x) (hhi : x < (2 : K) ^ e) : binade x ≤ e := by
  have h := (zpow_lt_zpow_iff_right₀ one_lt_two).1 ((binade_bounds hx).1.trans_lt hhi)
  omega

/-- A number from that power on is in a higher one. -/
theorem lt_binade {e : ℤ} (hlo : (2 : K) ^ e ≤ x) : e < binade x := by
  have hx : 0 < x := (zpow_pos two_pos e).trans_le hlo
  exact (zpow_lt_zpow_iff_right₀ one_lt_two).1 (hlo.trans_lt (binade_bounds hx).2)

/-- The subnormals, and the binade above them, share a unit. -/
theorem unitExp_eq_minUnit (hx : 0 < x) (hhi : x < (2 : K) ^ (f.minUnit + f.prec)) :
    f.unitExp x = f.minUnit := by
  have h := binade_le hx hhi
  rw [unitExp, max_eq_right (by omega)]

/-- A number of full precision, in units of a large enough power of two, is not moved. -/
theorem round_scaled {n : ℕ} {e : ℤ} (d : Direction) (he : f.minUnit ≤ e) (hn : n < 2 ^ f.prec) :
    f.round d ((n : K) * 2 ^ e) = n * 2 ^ e := by
  rcases Nat.eq_zero_or_pos n with rfl | hpos
  · rw [round, Nat.cast_zero, zero_mul, zero_div, roundInt_zero, Nat.cast_zero, zero_mul]
  have hx : (0 : K) < n * 2 ^ e := mul_pos (Nat.cast_pos.2 hpos) (zpow_pos two_pos e)
  have hlt : (n : K) * 2 ^ e < 2 ^ (f.prec + e) := by
    rw [zpow_add₀ two_ne_zero, zpow_natCast]
    exact mul_lt_mul_of_pos_right (by exact_mod_cast hn) (zpow_pos two_pos e)
  have hu : f.unitExp ((n : K) * 2 ^ e) ≤ e := by
    have hb := binade_le hx hlt
    exact max_le (by omega) he
  obtain ⟨j, hj⟩ := Int.eq_ofNat_of_zero_le (sub_nonneg.2 hu)
  have hdiv : (n : K) * 2 ^ e / 2 ^ f.unitExp ((n : K) * 2 ^ e) = (n * 2 ^ j : ℕ) := by
    rw [mul_div_assoc, ← zpow_sub₀ two_ne_zero, hj, Nat.cast_mul, Nat.cast_pow, Nat.cast_ofNat]
    exact congrArg _ (zpow_natCast _ _)
  rw [round, hdiv, roundInt_natCast, ← hdiv, div_mul_cancel₀ _ (zpow_pos two_pos _).ne']

/-- A number of the size of the normal numbers is not tiny. -/
theorem not_tiny (hp : 0 < f.prec) (d : Direction) (hlo : (2 : K) ^ (f.minUnit + f.prec - 1) ≤ x) :
    ¬ f.Tiny d x := by
  have hx : 0 < x := (zpow_pos two_pos _).trans_le hlo
  have hb := lt_binade hlo
  have hu : (0 : K) < 2 ^ (binade x - f.prec) := zpow_pos two_pos _
  have hscale : (2 : K) ^ (binade x - 1) = (2 ^ (f.prec - 1) : ℕ) * 2 ^ (binade x - f.prec) := by
    rw [Nat.cast_pow, Nat.cast_ofNat, ← zpow_natCast, ← zpow_add₀ two_ne_zero]
    congr 1
    omega
  have hround : 2 ^ (f.prec - 1) ≤ roundInt d (x / 2 ^ (binade x - f.prec)) := by
    apply le_roundInt
    rw [le_div_iff₀ hu, ← hscale]
    exact (binade_bounds hx).1
  rw [Tiny, not_lt]
  calc (2 : K) ^ (f.minUnit + f.prec - 1) ≤ 2 ^ (binade x - 1) :=
        zpow_le_zpow_right₀ one_le_two (by omega)
    _ ≤ roundInt d (x / 2 ^ (binade x - f.prec)) * 2 ^ (binade x - f.prec) := by
        rw [hscale]
        exact mul_le_mul_of_nonneg_right (by exact_mod_cast hround) hu.le

/-- A number two binades below the normal numbers is tiny. -/
theorem tiny_of_lt (d : Direction) (hx : 0 < x) (hhi : x < (2 : K) ^ (f.minUnit + f.prec - 2)) :
    f.Tiny d x := by
  have hb := binade_le hx hhi
  have hu : (0 : K) < 2 ^ (binade x - f.prec) := zpow_pos two_pos _
  have hscale : (2 : K) ^ binade x = (2 ^ f.prec : ℕ) * 2 ^ (binade x - f.prec) := by
    rw [Nat.cast_pow, Nat.cast_ofNat, ← zpow_natCast, ← zpow_add₀ two_ne_zero]
    congr 1
    omega
  have hround : roundInt d (x / 2 ^ (binade x - f.prec)) ≤ 2 ^ f.prec := by
    apply roundInt_le
    rw [div_le_iff₀ hu, ← hscale]
    exact (binade_bounds hx).2.le
  calc (roundInt d (x / 2 ^ (binade x - f.prec)) * 2 ^ (binade x - f.prec) : K)
      ≤ 2 ^ binade x := by
        rw [hscale]
        exact mul_le_mul_of_nonneg_right (by exact_mod_cast hround) hu.le
    _ < 2 ^ (f.minUnit + f.prec - 1) := zpow_lt_zpow_right₀ one_lt_two (by omega)

/-- In the binade below the normal numbers, a number is tiny unless it rounds to the least of
them. -/
theorem tiny_iff (d : Direction) (hlo : (2 : K) ^ (f.minUnit + f.prec - 2) ≤ x)
    (hhi : x < (2 : K) ^ (f.minUnit + f.prec - 1)) :
    f.Tiny d x ↔ roundInt d (x / 2 ^ (f.minUnit - 1)) < 2 ^ f.prec := by
  have hb : binade x = f.minUnit + f.prec - 1 :=
    binade_eq (by rwa [show f.minUnit + f.prec - 1 - 1 = f.minUnit + f.prec - 2 by ring]) hhi
  have hu : (0 : K) < 2 ^ (f.minUnit - 1) := zpow_pos two_pos _
  have hscale : (2 : K) ^ (f.minUnit + f.prec - 1) = (2 ^ f.prec : ℕ) * 2 ^ (f.minUnit - 1) := by
    rw [Nat.cast_pow, Nat.cast_ofNat, ← zpow_natCast, ← zpow_add₀ two_ne_zero]
    congr 1
    ring
  rw [Tiny, hb, show f.minUnit + f.prec - 1 - (f.prec : ℤ) = f.minUnit - 1 by ring, hscale,
    mul_lt_mul_iff_left₀ hu, Nat.cast_lt]

end FloatFormat

/-! ## Operations -/

namespace Ieee

/-- The rounding modes. -/
inductive Mode
  | nearestEven | towardZero | towardNegative | towardPositive
  deriving DecidableEq, Repr

/-- The direction a magnitude with a sign takes. -/
def Mode.direction : Mode → Bool → Direction
  | nearestEven, _ => .nearest
  | towardZero, _ => .down
  | towardNegative, neg => if neg then .up else .down
  | towardPositive, neg => if neg then .down else .up

/-- What an encoding stands for. -/
inductive Datum (K : Type*)
  /-- Not a number. -/
  | nan (signaling : Bool)
  /-- An infinity. -/
  | inf (neg : Bool)
  /-- A sign and a magnitude. -/
  | finite (neg : Bool) (mag : K)
  deriving DecidableEq, Repr

/-- What an operation delivers, and the exceptions it signals. -/
structure Outcome (K : Type*) where
  /-- The result. -/
  datum : Datum K
  /-- The operation has no meaning, or an operand is a signaling NaN. -/
  invalid : Bool := false
  /-- An exact infinity of finite operands. -/
  divByZero : Bool := false
  /-- The rounded result is too large. -/
  overflow : Bool := false
  /-- The result is tiny, and not exact. -/
  underflow : Bool := false
  /-- The result is not exact. -/
  inexact : Bool := false
  deriving DecidableEq, Repr

/-- A signed number of a magnitude. -/
def signed {K : Type*} [Neg K] (neg : Bool) (x : K) : K := if neg then -x else x

/-- The sign of a datum turned. -/
def Datum.negate {K : Type*} : Datum K → Datum K
  | nan s => nan s
  | inf neg => inf !neg
  | finite neg x => finite (!neg) x

section Operations

variable {K : Type*} [Field K] [LinearOrder K] [FloorSemiring K]

/-- A NaN operand makes the result a quiet NaN. -/
def propagate (signaling : Bool) : Outcome K := { datum := .nan false, invalid := signaling }

/-- An operation without a meaning. -/
def invalidOperation : Outcome K := { datum := .nan false, invalid := true }

/-- A magnitude, rounded to the format. -/
def deliver (f : FloatFormat) (mode : Mode) (neg : Bool) (x : K) : Outcome K :=
  let d := mode.direction neg
  let r := f.round d x
  if r < 2 ^ f.maxExp then
    { datum := .finite neg r, underflow := decide (f.Tiny d x) && decide (r ≠ x)
      inexact := decide (r ≠ x) }
  else
    { datum := if d = .down then .finite neg f.largest else .inf neg
      overflow := true, inexact := true }

/-- A signed sum, rounded; an exact zero takes the common sign, or that of the mode. -/
def deliverSum (f : FloatFormat) (mode : Mode) (s t : Bool) (x y : K) : Outcome K :=
  let z := signed s x + signed t y
  if z = 0 then
    { datum := .finite (if s = t then s else decide (mode = .towardNegative)) 0 }
  else deliver f mode (decide (z < 0)) |z|

/-- What fits the format is delivered as it is. -/
theorem deliver_exact [IsStrictOrderedRing K] {f : FloatFormat} {x : K} (mode : Mode) (neg : Bool)
    (hround : ∀ d, f.round d x = x) (hx : x < 2 ^ f.maxExp) :
    deliver f mode neg x = { datum := .finite neg x } := by
  simp [deliver, hround, hx]

/-- Below half the least subnormal, only the direction matters. -/
theorem deliver_of_small [IsStrictOrderedRing K] {f : FloatFormat} (hp : 1 ≤ f.prec)
    (hmax : f.minUnit < f.maxExp) (mode : Mode) (neg : Bool) {x : K} (hx : 0 < x)
    (hhi : x < 2 ^ (f.minUnit - 1)) :
    deliver f mode neg x =
      { datum := .finite neg (if mode.direction neg = .up then 2 ^ f.minUnit else 0)
        underflow := true, inexact := true } := by
  have hu0 : (0 : K) < 2 ^ f.minUnit := zpow_pos two_pos _
  have hlt : x < 2 ^ f.minUnit :=
    hhi.trans_le (zpow_le_zpow_right₀ one_le_two (by omega))
  have hunit : f.unitExp x = f.minUnit :=
    FloatFormat.unitExp_eq_minUnit hx (hlt.trans_le (zpow_le_zpow_right₀ one_le_two (by omega)))
  have htiny : f.Tiny (mode.direction neg) x :=
    FloatFormat.tiny_of_lt _ hx (hhi.trans_le (zpow_le_zpow_right₀ one_le_two (by omega)))
  have hq : 0 < x / 2 ^ f.minUnit ∧ x / 2 ^ f.minUnit < 1 / 2 := by
    refine ⟨div_pos hx hu0, ?_⟩
    rw [div_lt_iff₀ hu0, one_div, ← zpow_neg_one, ← zpow_add₀ two_ne_zero]
    rwa [show -1 + f.minUnit = f.minUnit - 1 by ring]
  have hq1 : x / 2 ^ f.minUnit < 1 := hq.2.trans one_half_lt_one
  have hround : f.round (mode.direction neg) x =
      if mode.direction neg = .up then 2 ^ f.minUnit else 0 := by
    rw [FloatFormat.round, hunit]
    have hfloor : ⌊x / 2 ^ f.minUnit⌋₊ = 0 := Nat.floor_eq_zero.2 hq1
    cases mode.direction neg with
    | down =>
      rw [if_neg (by decide), roundInt, hfloor, Nat.cast_zero, zero_mul]
    | up =>
      have hceil : ⌈x / 2 ^ f.minUnit⌉₊ = 1 := by
        rw [Nat.ceil_eq_iff one_ne_zero, Nat.sub_self, Nat.cast_zero, Nat.cast_one]
        exact ⟨hq.1, hq1.le⟩
      rw [if_pos rfl, roundInt, hceil, Nat.cast_one, one_mul]
    | nearest =>
      have hlow : x / 2 ^ f.minUnit < (0 : ℕ) + 1 / 2 := by
        rw [Nat.cast_zero, zero_add]
        exact hq.2
      rw [if_neg (by decide), roundInt, hfloor, if_pos (Or.inl hlow), Nat.cast_zero, zero_mul]
  have hfits : f.round (mode.direction neg) x < 2 ^ f.maxExp := by
    rw [hround]
    split
    · exact zpow_lt_zpow_right₀ one_lt_two hmax
    · exact zpow_pos two_pos _
  have hmoved : f.round (mode.direction neg) x ≠ x := by
    rw [hround]
    split
    · exact hlt.ne'
    · exact hx.ne
  rw [deliver, if_pos hfits, decide_eq_true htiny, decide_eq_true hmoved, hround]
  rfl

section Sums

variable [IsStrictOrderedRing K] {f : FloatFormat} {mode : Mode} {s : Bool} {x y : K}

/-- Zero is delivered with its sign and without a flag. -/
theorem deliver_zero (f : FloatFormat) (mode : Mode) (neg : Bool) :
    deliver f mode neg (0 : K) = { datum := .finite neg 0 } := by
  apply deliver_exact
  · intro d
    rw [FloatFormat.round, zero_div, roundInt_zero, Nat.cast_zero, zero_mul]
  · exact zpow_pos two_pos _

/-- The magnitude of a sum that is not zero is rounded under its sign. -/
theorem deliverSum_eq {t u : Bool} {z : K} (hz : 0 < z)
    (h : signed s x + signed t y = signed u z) : deliverSum f mode s t x y = deliver f mode u z := by
  rw [deliverSum, h]
  cases u
  · simp only [signed, Bool.false_eq_true, if_false]
    rw [if_neg hz.ne', abs_of_pos hz, decide_eq_false hz.not_gt]
  · have hneg : -z < 0 := neg_neg_of_pos hz
    simp only [signed, if_true]
    rw [if_neg hneg.ne, abs_of_neg hneg, decide_eq_true hneg, neg_neg]

/-- Numbers of one sign add up. -/
theorem deliverSum_same (hx : 0 ≤ x) (hy : 0 ≤ y) :
    deliverSum f mode s s x y = deliver f mode s (x + y) := by
  rcases (add_nonneg hx hy).eq_or_lt with h0 | hpos
  · have hz : signed s x + signed s y = 0 := by
      cases s <;> simp only [signed, Bool.false_eq_true, if_false, if_true] <;> linarith
    rw [deliverSum, if_pos hz, if_pos rfl, ← h0, deliver_zero]
  · apply deliverSum_eq hpos
    cases s <;> simp only [signed, Bool.false_eq_true, if_false, if_true]
    ring

/-- Of numbers of two signs the larger gives its sign. -/
theorem deliverSum_of_gt (hxy : y < x) :
    deliverSum f mode s (!s) x y = deliver f mode s (x - y) := by
  apply deliverSum_eq (sub_pos.2 hxy)
  cases s <;> simp only [signed, Bool.not_false, Bool.not_true, Bool.false_eq_true, if_false,
    if_true] <;> ring

/-- A difference takes the sign of its larger operand. -/
theorem deliverSum_of_lt (hxy : x < y) :
    deliverSum f mode s (!s) x y = deliver f mode (!s) (y - x) := by
  apply deliverSum_eq (sub_pos.2 hxy)
  cases s <;> simp only [signed, Bool.not_false, Bool.not_true, Bool.false_eq_true, if_false,
    if_true] <;> ring

end Sums

/-- An exact zero of two signs takes the sign of the mode. -/
theorem deliverSum_self (f : FloatFormat) (mode : Mode) (s : Bool) (x : K) :
    deliverSum f mode s (!s) x x = { datum := .finite (decide (mode = .towardNegative)) 0 } := by
  cases s <;> simp [deliverSum, signed]

/-- The sum of two data. -/
def add (f : FloatFormat) (mode : Mode) : Datum K → Datum K → Outcome K
  | .nan s, .nan t => propagate (s || t)
  | .nan s, _ => propagate s
  | _, .nan t => propagate t
  | .inf s, .inf t => if s = t then { datum := .inf s } else invalidOperation
  | .inf s, .finite _ _ => { datum := .inf s }
  | .finite _ _, .inf t => { datum := .inf t }
  | .finite s x, .finite t y => deliverSum f mode s t x y

/-- Subtraction is addition of the number with its sign turned. -/
def sub (f : FloatFormat) (mode : Mode) (a b : Datum K) : Outcome K := add f mode a b.negate

/-- The product of two data. -/
def mul (f : FloatFormat) (mode : Mode) : Datum K → Datum K → Outcome K
  | .nan s, .nan t => propagate (s || t)
  | .nan s, _ => propagate s
  | _, .nan t => propagate t
  | .inf s, .inf t => { datum := .inf (s ^^ t) }
  | .inf s, .finite t y => if y = 0 then invalidOperation else { datum := .inf (s ^^ t) }
  | .finite s x, .inf t => if x = 0 then invalidOperation else { datum := .inf (s ^^ t) }
  | .finite s x, .finite t y => deliver f mode (s ^^ t) (x * y)

/-- The quotient of two data. -/
def div (f : FloatFormat) (mode : Mode) : Datum K → Datum K → Outcome K
  | .nan s, .nan t => propagate (s || t)
  | .nan s, _ => propagate s
  | _, .nan t => propagate t
  | .inf _, .inf _ => invalidOperation
  | .inf s, .finite t _ => { datum := .inf (s ^^ t) }
  | .finite s _, .inf t => { datum := .finite (s ^^ t) 0 }
  | .finite s x, .finite t y =>
    if y = 0 then
      if x = 0 then invalidOperation else { datum := .inf (s ^^ t), divByZero := true }
    else deliver f mode (s ^^ t) (x / y)

/-- A datum in another format. -/
def convert (f : FloatFormat) (mode : Mode) : Datum K → Outcome K
  | .nan s => propagate s
  | .inf s => { datum := .inf s }
  | .finite s x => deliver f mode s x

/-- A datum as it is; a NaN is made quiet. -/
def exact : Datum K → Outcome K
  | .nan s => propagate s
  | d => { datum := d }

/-- A datum as a whole number in a range, with whether it was rounded. -/
def toInt (lo hi : ℤ) (mode : Mode) : Datum K → Option (ℤ × Bool)
  | .finite s x =>
    let n := roundInt (mode.direction s) x
    let z : ℤ := if s then -n else n
    if lo ≤ z ∧ z ≤ hi then some (z, decide ((n : K) ≠ x)) else none
  | _ => none

/-- Equality of data: zeros are equal, and a NaN equals nothing. -/
def Datum.eq : Datum K → Datum K → Bool
  | .inf s, .inf t => s = t
  | .finite s x, .finite t y => signed s x = signed t y
  | _, _ => false

/-- The order of data: a NaN has no place in it. -/
def Datum.lt : Datum K → Datum K → Bool
  | .inf s, .inf t => s && !t
  | .inf s, .finite _ _ => s
  | .finite _ _, .inf t => !t
  | .finite s x, .finite t y => signed s x < signed t y
  | _, _ => false

/-- The datum is a NaN. -/
def Datum.isNaN : Datum K → Bool
  | .nan _ => true
  | _ => false

/-- The datum is a signaling NaN. -/
def Datum.isSignaling : Datum K → Bool
  | .nan s => s
  | _ => false

/-- A NaN operand decides the outcome of an operation. -/
structure PropagatesNaN (op : Datum K → Datum K → Outcome K) : Prop where
  /-- Of two NaNs one comes out. -/
  both : ∀ s t, op (.nan s) (.nan t) = propagate (s || t)
  /-- The left one comes out if it is alone. -/
  left : ∀ s b, (∀ t, b ≠ .nan t) → op (.nan s) b = propagate s
  /-- So does the right one. -/
  right : ∀ a t, (∀ s, a ≠ .nan s) → op a (.nan t) = propagate t

/-- The sum propagates a NaN. -/
theorem propagatesNaN_add (f : FloatFormat) (mode : Mode) :
    PropagatesNaN (add (K := K) f mode) where
  both _ _ := rfl
  left s b hb := by
    cases b with
    | nan t => exact absurd rfl (hb t)
    | inf _ => rfl
    | finite _ _ => rfl
  right a t ha := by
    cases a with
    | nan s => exact absurd rfl (ha s)
    | inf _ => rfl
    | finite _ _ => rfl

/-- The product propagates NaNs. -/
theorem propagatesNaN_mul (f : FloatFormat) (mode : Mode) :
    PropagatesNaN (mul (K := K) f mode) where
  both _ _ := rfl
  left s b hb := by
    cases b with
    | nan t => exact absurd rfl (hb t)
    | inf _ => rfl
    | finite _ _ => rfl
  right a t ha := by
    cases a with
    | nan s => exact absurd rfl (ha s)
    | inf _ => rfl
    | finite _ _ => rfl

/-- The quotient propagates NaNs. -/
theorem propagatesNaN_div (f : FloatFormat) (mode : Mode) :
    PropagatesNaN (div (K := K) f mode) where
  both _ _ := rfl
  left s b hb := by
    cases b with
    | nan t => exact absurd rfl (hb t)
    | inf _ => rfl
    | finite _ _ => rfl
  right a t ha := by
    cases a with
    | nan s => exact absurd rfl (ha s)
    | inf _ => rfl
    | finite _ _ => rfl

/-! No operation delivers a signaling NaN. -/

/-- A delivered number is no signaling NaN. -/
theorem isSignaling_deliver (f : FloatFormat) (mode : Mode) (neg : Bool) (x : K) :
    (deliver f mode neg x).datum.isSignaling = false := by
  rw [deliver]
  split
  · rfl
  · dsimp only
    split <;> rfl

/-- A converted datum is not signaling. -/
theorem isSignaling_convert (f : FloatFormat) (mode : Mode) (d : Datum K) :
    (convert f mode d).datum.isSignaling = false := by
  cases d with
  | nan _ => rfl
  | inf _ => rfl
  | finite s x => exact isSignaling_deliver f mode s x

/-- A sum is not signaling. -/
theorem isSignaling_add (f : FloatFormat) (mode : Mode) (d e : Datum K) :
    (add f mode d e).datum.isSignaling = false := by
  cases d with
  | nan s => cases e <;> rfl
  | inf s =>
    cases e with
    | nan t => rfl
    | inf t =>
      rw [add]
      split <;> rfl
    | finite t y => rfl
  | finite s x =>
    cases e with
    | nan t => rfl
    | inf t => rfl
    | finite t y =>
      rw [add, deliverSum]
      split
      · rfl
      · exact isSignaling_deliver _ _ _ _

/-- A product is not signaling. -/
theorem isSignaling_mul (f : FloatFormat) (mode : Mode) (d e : Datum K) :
    (mul f mode d e).datum.isSignaling = false := by
  cases d with
  | nan s => cases e <;> rfl
  | inf s =>
    cases e with
    | nan t => rfl
    | inf t => rfl
    | finite t y =>
      rw [mul]
      split <;> rfl
  | finite s x =>
    cases e with
    | nan t => rfl
    | inf t =>
      rw [mul]
      split <;> rfl
    | finite t y => exact isSignaling_deliver _ _ _ _

/-- A quotient is not signaling. -/
theorem isSignaling_div (f : FloatFormat) (mode : Mode) (d e : Datum K) :
    (div f mode d e).datum.isSignaling = false := by
  cases d with
  | nan s => cases e <;> rfl
  | inf s => cases e <;> rfl
  | finite s x =>
    cases e with
    | nan t => rfl
    | inf t => rfl
    | finite t y =>
      rw [div]
      split
      · split <;> rfl
      · exact isSignaling_deliver _ _ _ _

end Operations

end Ieee

end EmulatR.Library
