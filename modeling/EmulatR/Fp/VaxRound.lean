import Mathlib.Analysis.Real.Sqrt
import EmulatR.Library.Rounding
import EmulatR.Fp.VaxFloat

/-! # What a VAX operation should return

A register image stands for a real number, and an operation should return the image of its exact
result rounded once to the format. `Rounded` says so, with the overflow and underflow of the
format's exponent window. `Keeps` says that an unpacked number has the leading bits of a real one,
enough to round it, and `rpack_of_keeps` that packing it then returns the rounded image: each
operation that is right is right because the number it packs keeps its exact result. -/

namespace EmulatR

open Library

namespace Vax

/-! ## Rounding an unpacked number -/

/-- A one, shifted, is a power of two. -/
theorem toNat_one_shiftLeft {k : Nat} (hk : k < 64) : ((1 : Word) <<< k).toNat = 2 ^ k := by
  have hlt : 2 ^ k < 2 ^ 64 := Nat.pow_lt_pow_right one_lt_two hk
  have hone : (1 : Word).toNat = 1 := rfl
  rw [BitVec.toNat_shiftLeft, Nat.shiftLeft_eq, hone, Nat.one_mul, Nat.mod_eq_of_lt hlt]

/-- The mask below it. -/
theorem toNat_lowMask {k : Nat} (hk : k < 64) : (((1 : Word) <<< k) - 1).toNat = 2 ^ k - 1 := by
  have hpos := Nat.two_pow_pos k
  have hlt : 2 ^ k < 2 ^ 64 := Nat.pow_lt_pow_right one_lt_two hk
  rw [BitVec.toNat_sub_of_le, toNat_one_shiftLeft hk]
  · rfl
  · rw [BitVec.le_def, toNat_one_shiftLeft hk]
    exact hpos

/-- Clearing the low bits of a word. -/
theorem toNat_clearLow {k : Nat} (hk : k < 64) (x : Word) :
    (x &&& ~~~(((1 : Word) <<< k) - 1)).toNat = x.toNat / 2 ^ k * 2 ^ k := by
  rw [toNat_and_not_lowMask k (toNat_lowMask hk), Nat.mul_comm]
  have h := Nat.div_add_mod x.toNat (2 ^ k)
  omega

/-- Adding one half and clearing the low bits rounds the fraction; a carry out of bit 63 leaves one
half of the next binade. -/
theorem roundFrac_spec {r : Ufp} (g : VaxGeom) (chop : Bool) (hr : 2 ^ 63 ≤ r.frac.toNat) :
    (roundFrac r g chop).sign = r.sign ∧
      (roundFrac r g chop).exp =
        (if roundNat g.roundShift chop r.frac.toNat = 2 ^ (g.fracBits + 1) then r.exp + 1
          else r.exp) ∧
      (roundFrac r g chop).frac.toNat =
        (if roundNat g.roundShift chop r.frac.toNat = 2 ^ (g.fracBits + 1) then 2 ^ 63
          else roundNat g.roundShift chop r.frac.toNat * 2 ^ g.roundShift) := by
  obtain ⟨h11, h62, h64⟩ := g.roundShift_bounds
  have hlt := r.frac.isLt
  have hpos := Nat.two_pow_pos g.roundShift
  have hwhole : 2 ^ (g.fracBits + 1) * 2 ^ g.roundShift = 2 ^ 64 := by rw [← pow_add, h64]
  cases chop with
  | true =>
    have hround : roundNat g.roundShift true r.frac.toNat = r.frac.toNat / 2 ^ g.roundShift := by
      simp [roundNat, halfOf]
    have hne : r.frac.toNat / 2 ^ g.roundShift ≠ 2 ^ (g.fracBits + 1) := by
      apply Nat.ne_of_lt
      rw [Nat.div_lt_iff_lt_mul hpos, hwhole]
      exact hlt
    rw [hround, if_neg hne, if_neg hne]
    refine ⟨rfl, rfl, ?_⟩
    exact toNat_clearLow (by omega) r.frac
  | false =>
    have hhalf : 2 ^ g.roundShift = 2 ^ (g.roundShift - 1) * 2 := by
      rw [← pow_succ, Nat.sub_add_cancel (by omega)]
    have hhalfLt : 2 ^ (g.roundShift - 1) < 2 ^ 62 := Nat.pow_lt_pow_right one_lt_two (by omega)
    have hround : roundNat g.roundShift false r.frac.toNat =
        (r.frac.toNat + 2 ^ (g.roundShift - 1)) / 2 ^ g.roundShift := by
      simp [roundNat, halfOf]
    have hsum : (r.frac + ((1 : Word) <<< (g.roundShift - 1))).toNat =
        (r.frac.toNat + 2 ^ (g.roundShift - 1)) % 2 ^ 64 := by
      rw [BitVec.toNat_add, toNat_one_shiftLeft (by omega)]
    rw [hround]
    by_cases hcarry : r.frac.toNat + 2 ^ (g.roundShift - 1) < 2 ^ 64
    · have hne : (r.frac.toNat + 2 ^ (g.roundShift - 1)) / 2 ^ g.roundShift ≠
          2 ^ (g.fracBits + 1) := by
        apply Nat.ne_of_lt
        rw [Nat.div_lt_iff_lt_mul hpos, hwhole]
        exact hcarry
      have hbit : ¬ (r.frac + ((1 : Word) <<< (g.roundShift - 1))) &&& kNormBit = 0 := by
        rw [and_kNormBit_eq_zero, hsum, Nat.mod_eq_of_lt hcarry]
        omega
      rw [if_neg hne, if_neg hne]
      simp only [roundFrac, roundUp, Bool.false_eq_true, if_false, if_neg hbit]
      refine ⟨trivial, trivial, ?_⟩
      rw [toNat_clearLow (by omega), hsum, Nat.mod_eq_of_lt hcarry]
    · have hmod : (r.frac.toNat + 2 ^ (g.roundShift - 1)) % 2 ^ 64 =
          r.frac.toNat + 2 ^ (g.roundShift - 1) - 2 ^ 64 := by
        rw [Nat.mod_eq_sub_mod (by omega), Nat.mod_eq_of_lt (by omega)]
      have heq : (r.frac.toNat + 2 ^ (g.roundShift - 1)) / 2 ^ g.roundShift =
          2 ^ (g.fracBits + 1) := by
        apply Nat.div_eq_of_lt_le
        · rw [hwhole]
          omega
        · rw [Nat.succ_mul, hwhole]
          omega
      have hbit : (r.frac + ((1 : Word) <<< (g.roundShift - 1))) &&& kNormBit = 0 := by
        rw [and_kNormBit_eq_zero, hsum, hmod]
        omega
      rw [if_pos heq, if_pos heq]
      simp only [roundFrac, roundUp, Bool.false_eq_true, if_false, if_pos hbit]
      refine ⟨trivial, trivial, ?_⟩
      -- the bits that wrapped around lie below the last place
      have hnorm : kNormBit.toNat = 2 ^ 63 * 1 := rfl
      have hsmall : (r.frac.toNat + 2 ^ (g.roundShift - 1) - 2 ^ 64) / 2 < 2 ^ 63 := by omega
      have hexact : 2 ^ 63 = 2 ^ g.fracBits * 2 ^ g.roundShift := by
        rw [← pow_add]
        congr 1
        omega
      rw [toNat_clearLow (by omega), BitVec.toNat_or, BitVec.toNat_ushiftRight, hsum, hmod,
        Nat.shiftRight_eq_div_pow, pow_one, hnorm, Nat.or_comm,
        ← Nat.two_pow_add_eq_or_of_lt hsmall, mul_one, hexact, mul_comm (2 ^ g.fracBits),
        Nat.mul_add_div hpos, Nat.div_eq_of_lt (by omega), Nat.add_zero, mul_comm]

/-! ## Values -/

section Values

/-- A magnitude with a sign. -/
def signed (sign : Bool) (x : ℝ) : ℝ := if sign then -x else x

/-- The real number a register image stands for: the fraction, with its leading bit just below the
point, times two to the exponent less 1024. Exponent zero is the zero. -/
noncomputable def vaxValue (op : Word) : ℝ :=
  if expOf op = 0 then 0 else signed (signOf op) (scaled (wholeFrac op) (expOf op - 1077))

/-- The magnitude of an unpacked number. -/
noncomputable def Ufp.mag (u : Ufp) : ℝ := scaled u.frac.toNat (u.exp - 1088)

/-- The number an unpacked number stands for. -/
noncomputable def Ufp.value (u : Ufp) : ℝ := signed u.sign u.mag

/-- Zero has no sign. -/
@[simp] theorem signed_zero (sign : Bool) : signed sign 0 = 0 := by
  cases sign <;> simp [signed]

/-- The sign does not change the magnitude. -/
@[simp] theorem abs_signed (sign : Bool) (x : ℝ) : |signed sign x| = |x| := by
  cases sign <;> simp [signed]

/-- The sign of a positive magnitude with a sign. -/
theorem signed_neg_iff {x : ℝ} (hx : 0 < x) (sign : Bool) : decide (signed sign x < 0) = sign := by
  cases sign with
  | false => simpa [signed] using hx.le
  | true => simpa [signed] using hx

/-- A product has the product of the signs. -/
theorem signed_xor (s t : Bool) (x y : ℝ) : signed (s ^^ t) (x * y) = signed s x * signed t y := by
  cases s <;> cases t <;> simp [signed]

/-- The other sign makes the negative. -/
theorem signed_not (s : Bool) (x : ℝ) : signed (!s) x = -signed s x := by
  cases s <;> simp [signed]

/-- A sign goes over a sum. -/
theorem signed_add (s : Bool) (x y : ℝ) : signed s (x + y) = signed s x + signed s y := by
  cases s <;> simp [signed, add_comm]

/-- A sign distributes over a difference. -/
theorem signed_sub (s : Bool) (x y : ℝ) : signed s (x - y) = signed s x - signed s y := by
  rw [sub_eq_add_neg, signed_add, sub_eq_add_neg]
  cases s <;> simp [signed]

/-- Positive magnitudes with opposite signs differ. -/
theorem signed_ne_signed_not {x y : ℝ} (hx : 0 < x) (hy : 0 < y) (s : Bool) :
    signed s x ≠ signed (!s) y := by
  cases s with
  | false =>
    simp only [signed, Bool.false_eq_true, if_false, Bool.not_false, if_true]
    linarith
  | true =>
    simp only [signed, if_true, Bool.not_true, Bool.false_eq_true, if_false]
    linarith

/-- An image with exponent zero is zero. -/
theorem vaxValue_of_zero {op : Word} (h : expOf op = 0) : vaxValue op = 0 := if_pos h

/-- Unpacking an image keeps its value. -/
theorem value_unpack (op : Word) (exc : Exc) : (unpack op exc).1.value = vaxValue op := by
  by_cases h : expOf op = 0
  · rw [unpack_of_zero h, vaxValue_of_zero h]
    simp [Ufp.value, Ufp.mag, scaled, signed]
  · have hexp : (expOf op : ℤ) - 1088 + (11 : ℕ) = expOf op - 1077 := by omega
    rw [unpack_of_pos h, vaxValue, if_neg h, Ufp.value, Ufp.mag, unpacked, toNat_unpackedFrac,
      scaled_mul_two_pow, hexp]

/-- Unpacking keeps the value. -/
theorem value_unpacked {op : Word} (h : expOf op ≠ 0) : (unpacked op).value = vaxValue op := by
  rw [← value_unpack op 0, unpack_of_pos h]

/-- The magnitude of a number that is not zero. -/
theorem Ufp.mag_pos {u : Ufp} (h : 0 < u.frac.toNat) : 0 < u.mag :=
  scaled_pos h _

/-- The sign of an image that is not the zero. -/
theorem vaxValue_neg_iff {op : Word} (h : expOf op ≠ 0) :
    decide (vaxValue op < 0) = signOf op := by
  have hpos : (0 : ℝ) < scaled (wholeFrac op) (expOf op - 1077) :=
    scaled_pos (lt_of_lt_of_le (by decide) (wholeFrac_bounds op).1) _
  rw [vaxValue, if_neg h]
  exact signed_neg_iff hpos _

/-- An image with another exponent is not zero. -/
theorem vaxValue_ne_zero {op : Word} (h : expOf op ≠ 0) : vaxValue op ≠ 0 := by
  have hpos : (0 : ℝ) < scaled (wholeFrac op) (expOf op - 1077) :=
    scaled_pos (lt_of_lt_of_le (by decide) (wholeFrac_bounds op).1) _
  rw [vaxValue, if_neg h, ← abs_ne_zero, abs_signed, abs_of_pos hpos]
  exact hpos.ne'

/-! ## Register images of a format -/

/-- A register holds a number of the format: it is not reserved, and unless it is the zero its
exponent lies in the window and its fraction is clear below the last place. -/
def IsImage (g : VaxGeom) (op : Word) : Prop :=
  ¬ Reserved op ∧ (expOf op ≠ 0 →
    g.expLo ≤ expOf op ∧ (expOf op : ℤ) ≤ g.expHi ∧ 2 ^ (52 - g.fracBits) ∣ (fracOf op).toNat)

/-- Every image that is not reserved is a G_floating number. -/
theorem isImage_G {op : Word} (h : ¬ Reserved op) : IsImage G op := by
  have hlt := expOf_lt op
  refine ⟨h, fun hne => ⟨?_, ?_, one_dvd _⟩⟩
  · simp only [G]
    omega
  · simp only [G]
    omega

/-- An unpacked number of the format. -/
structure VaxGeom.Holds (g : VaxGeom) (u : Ufp) : Prop where
  /-- The fraction is normalized. -/
  normalized : 2 ^ 63 ≤ u.frac.toNat
  /-- It has no bits below the format's last. -/
  dvd : 2 ^ g.roundShift ∣ u.frac.toNat
  /-- The exponent is not too small. -/
  lo : g.expLo ≤ u.exp
  /-- It is not too large. -/
  hi : u.exp ≤ g.expHi

/-- The unpacked image of a number of the format is one. -/
theorem IsImage.holds {g : VaxGeom} {op : Word} (h : IsImage g op) (hne : expOf op ≠ 0) :
    g.Holds (unpacked op) := by
  obtain ⟨hlo, hhi, hd⟩ := h.2 hne
  have hle := g.ok.fracBits_le
  refine ⟨(unpacked_frac op).1, ?_, hlo, hhi⟩
  have hsplit : 2 ^ g.roundShift = 2 ^ (52 - g.fracBits) * 2 ^ 11 := by
    rw [← pow_add]
    congr 1
    unfold VaxGeom.roundShift
    omega
  rw [unpacked, toNat_unpackedFrac, hsplit, wholeFrac]
  exact Nat.mul_dvd_mul_right (Nat.dvd_add (Nat.pow_dvd_pow 2 (Nat.sub_le _ _)) hd) _

/-! ## The result an operation should return -/

/-- The exact result rounded once to the precision of the format. -/
noncomputable def vaxRound (g : VaxGeom) (chop : Bool) (x : ℝ) : ℝ :=
  signed (decide (x < 0)) (roundMag (g.fracBits + 1) chop |x|)

/-- The register exponent of the rounded result, were it not bounded. -/
noncomputable def vaxExp (g : VaxGeom) (chop : Bool) (x : ℝ) : ℤ :=
  binade (roundMag (g.fracBits + 1) chop |x|) + 1024

/-- An operation with the exact result `x` returns its rounded register image: the zero for zero and
below the window, OVF above it, and no exception of its own within. -/
structure Rounded (g : VaxGeom) (chop unfEnable : Bool) (x : ℝ) (exc : Exc) (r : Word × Exc) :
    Prop where
  /-- Zero is delivered as it is. -/
  zero : x = 0 → r = (0, exc)
  /-- What is too large raises an overflow. -/
  overflow : x ≠ 0 → g.expHi < vaxExp g chop x → r.2 = exc ||| VaxExc.Ovf
  /-- What is too small becomes zero, and raises an underflow if that is enabled. -/
  underflow : x ≠ 0 → vaxExp g chop x < g.expLo →
    r = (0, if unfEnable then exc ||| VaxExc.Unf else exc)
  /-- The rest is rounded once, without an exception. -/
  inRange : x ≠ 0 → g.expLo ≤ vaxExp g chop x → vaxExp g chop x ≤ g.expHi →
    vaxValue r.1 = vaxRound g chop x ∧ r.2 = exc

/-- Zero is the rounded zero. -/
theorem Rounded.of_zero (g : VaxGeom) (chop unfEnable : Bool) (exc : Exc) :
    Rounded g chop unfEnable 0 exc (0, exc) :=
  ⟨fun _ => rfl, fun h => absurd rfl h, fun h => absurd rfl h, fun h => absurd rfl h⟩

/-- An unpacked number has the bits of a real one down to bit `t`. -/
structure Leads (t : ℕ) (u : Ufp) (x : ℝ) : Prop where
  /-- The fraction has no bits below the place. -/
  dvd : 2 ^ t ∣ u.frac.toNat
  /-- The sign is that of the number. -/
  sign : u.sign = decide (x < 0)
  /-- The fraction is not above the magnitude. -/
  lo : u.frac.toNat * (2 : ℝ) ^ (u.exp - 1088) ≤ |x|
  /-- One unit of the place more is. -/
  hi : |x| < (u.frac.toNat + 2 ^ t) * (2 : ℝ) ^ (u.exp - 1088)

/-- It has its leading bits, the first one at bit 63. -/
structure Keeps (t : ℕ) (u : Ufp) (x : ℝ) : Prop extends Leads t u x where
  /-- The fraction is normalized. -/
  normalized : 2 ^ 63 ≤ u.frac.toNat

variable {t : ℕ} {u : Ufp} {x : ℝ}

/-- What is kept is not zero. -/
theorem Keeps.ne_zero (h : Keeps t u x) : x ≠ 0 := by
  have hpos := Ufp.mag_pos (u := u) (lt_of_lt_of_le (by decide) h.normalized)
  rw [← abs_pos]
  exact lt_of_lt_of_le hpos h.lo

/-- A normalized number keeps itself. -/
theorem Keeps.self (hn : 2 ^ 63 ≤ u.frac.toNat) : Keeps 0 u u.value := by
  have hpos := Ufp.mag_pos (u := u) (lt_of_lt_of_le (by decide) hn)
  refine ⟨⟨one_dvd _, (signed_neg_iff hpos _).symm, ?_, ?_⟩, hn⟩
  · rw [Ufp.value, abs_signed, abs_of_pos hpos]
    exact le_rfl
  · rw [Ufp.value, abs_signed, abs_of_pos hpos, Ufp.mag, scaled, pow_zero]
    exact mul_lt_mul_of_pos_right (lt_add_one _) (zpow_pos two_pos _)

/-- Normalizing loses no bit: it moves the kept bits up, by at most `k` places when the fraction has
a bit among the top `k + 1`. -/
theorem Leads.norm (h : Leads t u x) {k : ℕ} (hk : 2 ^ (63 - k) ≤ u.frac.toNat) (hk63 : k ≤ 63) :
    ∃ s ≤ k, Keeps (t + s) (norm u) x := by
  have hne : u.frac ≠ 0 := by
    intro hz
    have hpos := Nat.two_pow_pos (63 - k)
    rw [hz] at hk
    exact absurd hk (Nat.not_le.2 hpos)
  obtain ⟨s, hsign, hexp, hfrac, hn⟩ := norm_spec hne
  have hs : s ≤ k := by
    have hlt : u.frac.toNat * 2 ^ s < 2 ^ 64 := by
      rw [← hfrac]
      exact BitVec.isLt _
    have hmul : 2 ^ (63 - k) * 2 ^ s < 2 ^ 64 := lt_of_le_of_lt (Nat.mul_le_mul_right _ hk) hlt
    rw [← pow_add, Nat.pow_lt_pow_iff_right one_lt_two] at hmul
    omega
  have hscale : (2 : ℝ) ^ (u.exp - 1088) = 2 ^ s * 2 ^ (u.exp - s - 1088) := by
    rw [← zpow_natCast (2 : ℝ) s, ← zpow_add₀ two_ne_zero]
    congr 1
    ring
  refine ⟨s, hs, ⟨?_, ?_, ?_, ?_⟩, ?_⟩
  · rw [hfrac, pow_add]
    exact Nat.mul_dvd_mul_right h.dvd _
  · rw [hsign, h.sign]
  · have hlo := h.lo
    rw [hscale, ← mul_assoc] at hlo
    rw [hexp, hfrac]
    exact_mod_cast hlo
  · have hhi := h.hi
    rw [hscale, ← mul_assoc, add_mul, ← pow_add] at hhi
    rw [hexp, hfrac]
    exact_mod_cast hhi
  · rw [hfrac]
    exact hn

/-- Rounding a number is rounding the bits kept of it. -/
theorem Keeps.roundMag_eq (h : Keeps t u x) (g : VaxGeom) (chop : Bool) (ht : t + 1 ≤ g.roundShift) :
    roundMag (g.fracBits + 1) chop |x| =
      roundNat g.roundShift chop u.frac.toNat * 2 ^ g.roundShift * 2 ^ (u.exp - 1088) := by
  obtain ⟨-, h62, h64⟩ := g.roundShift_bounds
  have hs : (0 : ℝ) < 2 ^ (u.exp - 1088) := zpow_pos two_pos _
  have hx : |x| = |x| / 2 ^ (u.exp - 1088) * 2 ^ (u.exp - 1088) := (div_mul_cancel₀ _ hs.ne').symm
  have hlo : (u.frac.toNat : ℝ) ≤ |x| / 2 ^ (u.exp - 1088) := (le_div_iff₀ hs).2 h.lo
  have hhi : |x| / 2 ^ (u.exp - 1088) < u.frac.toNat + 2 ^ t := (div_lt_iff₀ hs).2 h.hi
  have hfit : u.frac.toNat + 2 ^ t ≤ 2 ^ 64 := by
    obtain ⟨a, ha⟩ := h.dvd
    have hsplit : 2 ^ 64 = 2 ^ t * 2 ^ (64 - t) := by
      rw [← pow_add, Nat.add_sub_cancel' (by omega)]
    have hlt : 2 ^ t * a < 2 ^ t * 2 ^ (64 - t) := by
      rw [← ha, ← hsplit]
      exact u.frac.isLt
    rw [ha, hsplit, ← Nat.mul_succ]
    exact Nat.mul_le_mul_left _ (Nat.lt_of_mul_lt_mul_left hlt)
  have hlt : |x| / 2 ^ (u.exp - 1088) < (2 : ℝ) ^ (g.fracBits + 1 + g.roundShift) := by
    rw [h64]
    exact lt_of_lt_of_le hhi (by exact_mod_cast hfit)
  have hn : 2 ^ (g.fracBits + 1 + g.roundShift - 1) ≤ u.frac.toNat := by
    rw [h64]
    exact h.normalized
  have hpos : 0 < |x| / 2 ^ (u.exp - 1088) :=
    lt_of_lt_of_le (Nat.cast_pos.2 (lt_of_lt_of_le (by decide) h.normalized)) hlo
  rw [hx, roundMag_mul_zpow _ _ hpos, roundMag_of_trunc ht chop hn h.dvd hlo hhi hlt]

/-- A normalized fraction rounds to a fraction of the format with its leading bit, or more. -/
theorem VaxGeom.le_roundNat (g : VaxGeom) (chop : Bool) {n : ℕ} (hlo : 2 ^ 63 ≤ n)
    (hhi : n < 2 ^ 64) : 2 ^ g.fracBits ≤ roundNat g.roundShift chop n := by
  obtain ⟨h11, -, h64⟩ := g.roundShift_bounds
  refine (roundNat_bounds (p := g.fracBits + 1) (Nat.succ_pos _) (by omega) chop ?_ ?_).1
  · rw [h64]
    exact hlo
  · rw [h64]
    exact hhi

/-- The exponent after rounding the kept bits is the exponent of the rounded number. -/
theorem Keeps.vaxExp_eq (h : Keeps t u x) (g : VaxGeom) (chop : Bool) (ht : t + 1 ≤ g.roundShift) :
    vaxExp g chop x = (roundFrac u g chop).exp := by
  obtain ⟨h11, -, h64⟩ := g.roundShift_bounds
  have hr : 0 < g.roundShift := by omega
  have hlo : 2 ^ (g.fracBits + 1 + g.roundShift - 1) ≤ u.frac.toNat := by
    rw [h64]
    exact h.normalized
  have hhi : u.frac.toNat < 2 ^ (g.fracBits + 1 + g.roundShift) := by
    rw [h64]
    exact u.frac.isLt
  have hround := g.le_roundNat chop h.normalized u.frac.isLt
  have hpos : (0 : ℝ) < roundNat g.roundShift chop u.frac.toNat * 2 ^ g.roundShift :=
    mul_pos (Nat.cast_pos.2 (lt_of_lt_of_le (Nat.two_pow_pos _) hround)) (pow_pos two_pos _)
  have hsum : ((g.fracBits + 1 : ℕ) : ℤ) + g.roundShift = 64 := by omega
  rw [vaxExp, h.roundMag_eq g chop ht, binade_mul_zpow hpos,
    binade_roundNat (Nat.succ_pos _) hr chop hlo hhi, (roundFrac_spec g chop h.normalized).2.1]
  split <;> omega

/-- A rounded fraction, in the binade of its exponent, is the rounded number. -/
theorem Keeps.mag_roundFrac (h : Keeps t u x) (g : VaxGeom) (chop : Bool)
    (ht : t + 1 ≤ g.roundShift) :
    (roundFrac u g chop).mag = roundMag (g.fracBits + 1) chop |x| := by
  obtain ⟨-, -, h64⟩ := g.roundShift_bounds
  obtain ⟨-, hexp, hfrac⟩ := roundFrac_spec g chop h.normalized
  rw [Ufp.mag, scaled, hexp, hfrac, h.roundMag_eq g chop ht]
  split
  · rename_i hcarry
    have hwhole : (2 : ℝ) ^ 63 * 2 = 2 ^ (g.fracBits + 1) * 2 ^ g.roundShift := by
      rw [← pow_succ, ← pow_add, h64]
    rw [hcarry, show u.exp + 1 - 1088 = u.exp - 1088 + 1 by ring, zpow_add_one₀ two_ne_zero]
    push_cast
    rw [← hwhole]
    ring
  · push_cast
    ring

/-- The image of a rounded number has its value. -/
theorem vaxValue_packImage {r : Ufp} (h0 : 0 < r.exp) (hlt : r.exp < 2048)
    (hn : 2 ^ 63 ≤ r.frac.toNat) (hdvd : 2 ^ 11 ∣ r.frac.toNat) :
    vaxValue (packImage r.sign r.exp r.frac) = r.value := by
  obtain ⟨hs, he, hf⟩ := packImage_fields r.sign h0.le hlt hn
  have hne : expOf (packImage r.sign r.exp r.frac) ≠ 0 := by omega
  have hexp : r.exp - 1088 + (11 : ℕ) = r.exp - 1077 := by omega
  obtain ⟨a, ha⟩ := hdvd
  rw [vaxValue, if_neg hne, hs, he, hf, Ufp.value, Ufp.mag, ha,
    Nat.mul_div_cancel_left _ (by decide), mul_comm, scaled_mul_two_pow, hexp]

/-- Packing a number that keeps the exact result returns the rounded image of the result. -/
theorem rpack_of_keeps (h : Keeps t u x) (g : VaxGeom) (chop unfEnable : Bool) (exc : Exc)
    (ht : t + 1 ≤ g.roundShift) :
    Rounded g chop unfEnable x exc (rpack u g chop unfEnable exc) := by
  obtain ⟨h11, -, h64⟩ := g.roundShift_bounds
  obtain ⟨hsign, -, hfrac⟩ := roundFrac_spec g chop h.normalized
  have hexp := h.vaxExp_eq g chop ht
  have hne : u.frac ≠ 0 := by
    intro hz
    have hn := h.normalized
    simp [hz] at hn
  have hlo := g.ok.expLo_pos
  have hhi := g.ok.expHi_le
  have hwin := g.ok.expLo_le_expHi
  refine ⟨fun hx => absurd hx h.ne_zero, fun _ hover => ?_, fun _ hunder => ?_,
    fun _ hge hle => ?_⟩
  · rw [hexp] at hover
    simp only [rpack, if_neg hne, if_pos hover]
    rw [if_neg (by omega)]
  · rw [hexp] at hunder
    have hno : ¬ g.expHi < (roundFrac u g chop).exp := by omega
    simp only [rpack, if_neg hne, if_neg hno, if_pos hunder]
  · rw [hexp] at hge hle
    have hno : ¬ g.expHi < (roundFrac u g chop).exp := by omega
    have hin : ¬ (roundFrac u g chop).exp < g.expLo := by omega
    have hbound : 2 ^ 63 ≤ (roundFrac u g chop).frac.toNat ∧
        2 ^ 11 ∣ (roundFrac u g chop).frac.toNat := by
      have hround := g.le_roundNat chop h.normalized u.frac.isLt
      have hsplit : 2 ^ 63 = 2 ^ g.fracBits * 2 ^ g.roundShift := by
        rw [← pow_add]
        congr 1
        omega
      rw [hfrac]
      split
      · exact ⟨le_rfl, by decide⟩
      · refine ⟨?_, Dvd.dvd.mul_left (Nat.pow_dvd_pow 2 h11) _⟩
        rw [hsplit]
        exact Nat.mul_le_mul_right _ hround
    have hvalue : vaxValue (packImage u.sign (roundFrac u g chop).exp (roundFrac u g chop).frac) =
        vaxRound g chop x := by
      rw [← hsign, vaxValue_packImage (by omega) (by omega) hbound.1 hbound.2, Ufp.value, hsign,
        h.mag_roundFrac g chop ht, h.sign]
      rfl
    simp only [rpack, if_neg hne, if_neg hno, if_neg hin, hsign]
    exact ⟨hvalue, trivial⟩

/-- Normalizing does not change the number. -/
theorem value_norm (hu : u.frac ≠ 0) : (norm u).value = u.value := by
  obtain ⟨s, hsign, hexp, hfrac, -⟩ := norm_spec hu
  have hscale : u.exp - s - 1088 + s = u.exp - 1088 := by ring
  rw [Ufp.value, Ufp.value, hsign, Ufp.mag, Ufp.mag, hexp, hfrac, scaled_mul_two_pow, hscale]

/-- Packing an exact number, zero or not, rounds it. -/
theorem rounded_norm (u : Ufp) (g : VaxGeom) (chop unfEnable : Bool) (exc : Exc) :
    Rounded g chop unfEnable u.value exc (rpack (norm u) g chop unfEnable exc) := by
  have h11 := g.roundShift_bounds.1
  by_cases hu : u.frac = 0
  · have hz : u.value = 0 := by
      rw [Ufp.value, Ufp.mag, scaled, hu]
      simp
    rw [hz, norm_of_zero hu]
    exact Rounded.of_zero g chop unfEnable exc
  · obtain ⟨s, -, -, hfrac, hn⟩ := norm_spec hu
    rw [← value_norm hu]
    exact rpack_of_keeps (Keeps.self (by rw [hfrac]; exact hn)) g chop unfEnable exc (by omega)

/-! ## The exponent window -/

section Window

variable (g : VaxGeom) (chop : Bool)

/-- A number of at least the exponent `e` has at least that exponent when rounded. -/
theorem le_vaxExp {e : ℤ} (hx : (2 : ℝ) ^ (e - 1025) ≤ |x|) : e ≤ vaxExp g chop x := by
  have hpos : 0 < |x| := lt_of_lt_of_le (zpow_pos two_pos _) hx
  have hb : binade ((2 : ℝ) ^ (e - 1025)) = e - 1024 := by
    apply binade_eq
    · rw [show e - 1024 - 1 = e - 1025 by ring]
    · exact zpow_lt_zpow_right₀ one_lt_two (by omega)
  have hmono := binade_mono (zpow_pos two_pos _) hx
  have hround := (binade_roundMag (Nat.add_one_pos g.fracBits) chop hpos).1
  rw [hb] at hmono
  unfold vaxExp
  omega

/-- An unpacked number of the format keeps its exponent when rounded. -/
theorem vaxExp_value (hn : 2 ^ 63 ≤ u.frac.toNat) (hd : 2 ^ g.roundShift ∣ u.frac.toNat) :
    vaxExp g chop u.value = u.exp := by
  obtain ⟨h11, -, h64⟩ := g.roundShift_bounds
  have hne : roundNat g.roundShift chop u.frac.toNat ≠ 2 ^ (g.fracBits + 1) := by
    rw [roundNat_of_dvd (by omega) chop hd]
    apply Nat.ne_of_lt
    rw [Nat.div_lt_iff_lt_mul (Nat.two_pow_pos _), ← pow_add, h64]
    exact u.frac.isLt
  rw [(Keeps.self hn).vaxExp_eq g chop (by omega), (roundFrac_spec g chop hn).2.1, if_neg hne]

/-- A number no larger than one of the format has no larger exponent when rounded. -/
theorem vaxExp_le (hn : 2 ^ 63 ≤ u.frac.toNat) (hd : 2 ^ g.roundShift ∣ u.frac.toNat) (hx : x ≠ 0)
    (hle : |x| ≤ u.mag) : vaxExp g chop x ≤ u.exp := by
  have hpos := Ufp.mag_pos (u := u) (lt_of_lt_of_le (by decide) hn)
  have habs : |u.value| = u.mag := by
    rw [Ufp.value, abs_signed, abs_of_pos hpos]
  have hround := roundMag_mono (Nat.add_one_pos g.fracBits) chop (abs_pos.2 hx) hle
  have hmono := binade_mono (roundMag_pos (Nat.add_one_pos g.fracBits) chop (abs_pos.2 hx)) hround
  rw [← vaxExp_value g chop hn hd]
  unfold vaxExp
  rw [habs]
  omega

/-- Within the window the rounded image of one number is that of another of the same sign iff the
two round alike. -/
theorem Rounded.iff_of_inRange {unfEnable : Bool} {exc : Exc} {r : Word × Exc} {y : ℝ}
    (hr : Rounded g chop unfEnable y exc r) (hx : x ≠ 0) (hy : y ≠ 0)
    (hsign : decide (x < 0) = decide (y < 0))
    (hxlo : g.expLo ≤ vaxExp g chop x) (hxhi : vaxExp g chop x ≤ g.expHi)
    (hylo : g.expLo ≤ vaxExp g chop y) (hyhi : vaxExp g chop y ≤ g.expHi) :
    Rounded g chop unfEnable x exc r ↔
      roundMag (g.fracBits + 1) chop |x| = roundMag (g.fracBits + 1) chop |y| := by
  constructor
  · intro h
    have heq := (h.inRange hx hxlo hxhi).1.symm.trans (hr.inRange hy hylo hyhi).1
    rw [vaxRound, vaxRound, hsign] at heq
    cases hs : decide (y < 0) with
    | false => simpa [signed, hs] using heq
    | true => simpa [signed, hs] using heq
  · intro h
    have hround : vaxRound g chop x = vaxRound g chop y := by
      rw [vaxRound, vaxRound, hsign, h]
    have hexp : vaxExp g chop x = vaxExp g chop y := by
      rw [vaxExp, vaxExp, h]
    refine ⟨fun h0 => absurd h0 hx, fun _ ho => ?_, fun _ hu => ?_, fun _ _ _ => ?_⟩
    · exact hr.overflow hy (hexp ▸ ho)
    · exact hr.underflow hy (hexp ▸ hu)
    · rw [hround]
      exact hr.inRange hy hylo hyhi

end Window

end Values

end Vax

end EmulatR
