import EmulatR.Fp.SoftFloatRound

/-! # Sums and differences in SoftFloat

Addition and subtraction deliver the exact sum, rounded once, with the exceptions of the standard
(`outcome_add`, `outcome_sub`), for every pair of encodings: infinities, NaNs, zeros and subnormals
included. The smaller number loses bits when it is brought to the exponent of the larger; of a
difference that then cancels, none are lost. -/

namespace EmulatR

namespace SoftFloat

open Library

namespace Fmt

variable {k : Fmt}

/-! ## Kinds of encodings -/

section Kinds

/-- A NaN has the largest exponent and a fraction. -/
theorem isNaNUI_iff {ui : Nat} : k.isNaNUI ui = true ↔ k.expUI ui = k.expMax ∧ k.fracUI ui ≠ 0 := by
  simp [isNaNUI]

/-- What a NaN pattern stands for. -/
theorem datumOf_nan {s : Bool} {ui : Nat} (h : k.isNaNUI ui = true) :
    k.datumOf s (k.expUI ui) (k.fracUI ui) = .nan (k.isSigNaNUI ui) := by
  obtain ⟨he, hf⟩ := isNaNUI_iff.1 h
  rw [datumOf, if_pos he, if_neg hf, isSigNaNUI, h, Bool.true_and]

/-- What an infinity stands for. -/
theorem datumOf_inf {s : Bool} {exp frac : Nat} (he : exp = k.expMax) (hf : frac = 0) :
    k.datumOf s exp frac = .inf s := by
  rw [datumOf, if_pos he, if_pos hf]

/-- What every other pattern stands for. -/
theorem datumOf_finite {s : Bool} {exp frac : Nat} (he : exp ≠ k.expMax) :
    k.datumOf s exp frac =
      .finite s (k.fullSig exp frac * 2 ^ ((exp - 1 : ℕ) + k.format.minUnit)) := by
  rw [datumOf, if_neg he]

/-- A pattern that is no NaN stands for no NaN. -/
theorem datumOf_ne_nan {s : Bool} {ui : Nat} (h : ¬ k.isNaNUI ui = true) (t : Bool) :
    k.datumOf s (k.expUI ui) (k.fracUI ui) ≠ .nan t := by
  rw [isNaNUI_iff, not_and_not_right] at h
  by_cases he : k.expUI ui = k.expMax
  · rw [datumOf_inf he (h he)]
    exact nofun
  · rw [datumOf_finite he]
    exact nofun

/-- The fraction fits its field. -/
theorem fracUI_lt (ui : Nat) : k.fracUI ui < 2 ^ k.fracBits := Nat.mod_lt _ (Nat.two_pow_pos _)

/-- The fields above do not depend on what lies over the sign. -/
theorem datum_mod (ui : Nat) : k.datum (ui % 2 ^ k.width) = k.datum ui := by
  have hdvd : ∀ n m : ℕ, n ≤ m → (2 : ℕ) ^ n ∣ 2 ^ m := fun n m h => Nat.pow_dvd_pow 2 h
  have hs : k.signUI (ui % 2 ^ k.width) = k.signUI ui := by
    have hw : 2 ^ k.width = 2 ^ (k.width - 1) * 2 := by
      rw [← pow_succ]
      rfl
    rw [signUI, signUI, hw, Nat.mod_mul_right_div_self, Nat.mod_mod]
  have he : k.expUI (ui % 2 ^ k.width) = k.expUI ui := by
    rw [expUI, expUI, show k.width = k.fracBits + (k.expBits + 1) by unfold width; omega, pow_add,
      Nat.mod_mul_right_div_self, Nat.mod_mod_of_dvd _ (hdvd _ _ (by omega))]
  have hf : k.fracUI (ui % 2 ^ k.width) = k.fracUI ui := by
    rw [fracUI, fracUI, Nat.mod_mod_of_dvd _ (hdvd _ _ (by unfold width; omega))]
  rw [datum, datum, hs, he, hf]

variable (hk : k.Valid)
include hk

/-- The exponent fits its field. -/
theorem expUI_lt (ui : Nat) : k.expUI ui < 2 * k.bias + 2 := by
  rw [← (two_pow_expBits hk).1]
  exact Nat.mod_lt _ (Nat.two_pow_pos _)

/-- An encoding is the sum of its fields. -/
theorem eq_fields {ui : Nat} (hui : ui < 2 ^ k.width) :
    ui = (if k.signUI ui then 2 ^ (k.width - 1) else 0) + k.expUI ui * 2 ^ k.fracBits +
      k.fracUI ui := by
  obtain ⟨hw, hw2⟩ := two_pow_width hk
  have hF : 0 < 2 ^ k.fracBits := Nat.two_pow_pos _
  have hmod := Nat.div_add_mod ui (2 ^ k.fracBits)
  have hq := Nat.div_add_mod (ui / 2 ^ k.fracBits) (2 * k.bias + 2)
  have htop : ui / 2 ^ k.fracBits / (2 * k.bias + 2) = ui / 2 ^ (k.width - 1) := by
    rw [Nat.div_div_eq_div_mul, hw, Nat.mul_comm]
  have hsign : ui / 2 ^ (k.width - 1) < 2 := by
    rw [Nat.div_lt_iff_lt_mul (Nat.two_pow_pos _), hw, ← hw2]
    exact hui
  have hbit : ui / 2 ^ (k.width - 1) = if k.signUI ui then 1 else 0 := by
    simp only [signUI, decide_eq_true_eq]
    generalize ui / 2 ^ (k.width - 1) = q at hsign
    split <;> omega
  rw [htop, hbit] at hq
  rw [expUI, fracUI, (two_pow_expBits hk).1]
  conv_lhs => rw [← hmod, ← hq]
  rw [hw]
  split <;> ring

/-- A NaN made quiet. -/
theorem datum_quiet {ui : Nat} (h : k.isNaNUI ui = true) :
    k.datum (ui ||| 2 ^ (k.fracBits - 1)) = .nan false := by
  obtain ⟨he, -⟩ := isNaNUI_iff.1 h
  have hfb := hk.fracBits_pos
  have hlt : 2 ^ (k.fracBits - 1) < 2 ^ k.fracBits := Nat.pow_lt_pow_right one_lt_two (by omega)
  have hexp : k.expUI (ui ||| 2 ^ (k.fracBits - 1)) = k.expMax := by
    rw [expUI, Nat.or_div_two_pow, Nat.div_eq_of_lt hlt, Nat.or_zero]
    exact he
  have hfrac : 2 ^ (k.fracBits - 1) ≤ k.fracUI (ui ||| 2 ^ (k.fracBits - 1)) := by
    rw [fracUI, Nat.or_mod_two_pow, Nat.mod_eq_of_lt hlt]
    exact Nat.right_le_or
  have hpos : 0 < 2 ^ (k.fracBits - 1) := Nat.two_pow_pos _
  rw [datum, datumOf, if_pos hexp, if_neg (by omega), decide_eq_false (by omega)]

/-- A NaN operand, whatever the operation. -/
theorem outcome_propagateNaNUI {op : Ieee.Datum ℚ → Ieee.Datum ℚ → Ieee.Outcome ℚ}
    (hop : Ieee.PropagatesNaN op) {uiA uiB : Nat} (s t : Bool)
    (h : k.isNaNUI uiA = true ∨ k.isNaNUI uiB = true) :
    k.outcome (k.propagateNaNUI uiA uiB) =
      op (k.datumOf s (k.expUI uiA) (k.fracUI uiA)) (k.datumOf t (k.expUI uiB) (k.fracUI uiB)) := by
  have hsig : ∀ ui, ¬ k.isNaNUI ui = true → k.isSigNaNUI ui = false := fun ui hn => by
    rw [isSigNaNUI, Bool.eq_false_of_not_eq_true hn, Bool.false_and]
  by_cases hA : k.isNaNUI uiA = true
  · have hout : k.outcome (k.propagateNaNUI uiA uiB) =
        Ieee.propagate (k.isSigNaNUI uiA || k.isSigNaNUI uiB) := by
      simp only [outcome, propagateNaNUI, hA, if_true, ite_self, datum_quiet hk hA, Ieee.propagate]
    by_cases hB : k.isNaNUI uiB = true
    · rw [hout, datumOf_nan hA, datumOf_nan hB, hop.both]
    · rw [hout, datumOf_nan hA, hop.left _ _ (datumOf_ne_nan hB), hsig _ hB, Bool.or_false]
  · have hB := h.resolve_left hA
    rw [datumOf_nan hB, hop.right _ _ (datumOf_ne_nan hA)]
    simp only [outcome, propagateNaNUI, Bool.eq_false_of_not_eq_true hA, hsig _ hA,
      Bool.false_eq_true, if_false, datum_quiet hk hB, Ieee.propagate, Bool.false_or]

/-- The default NaN is quiet. -/
theorem datum_defaultNaNUI : k.datum k.defaultNaNUI = .nan false := by
  have hfb := hk.fracBits_pos
  obtain ⟨-, hmax⟩ := two_pow_expBits hk
  have hlt : 2 ^ (k.fracBits - 1) < 2 ^ k.fracBits := Nat.pow_lt_pow_right one_lt_two (by omega)
  have hpos : 0 < 2 ^ (k.fracBits - 1) := Nat.two_pow_pos _
  rw [defaultNaNUI, datum_packUI_of_fields hk (by omega) hlt, datumOf, if_pos rfl,
    if_neg hpos.ne', decide_eq_false (lt_irrefl _)]

/-- The default NaN with the invalid flag is the standard's invalid operation. -/
theorem outcome_invalid : k.outcome (k.defaultNaNUI, { invalid := true }) = Ieee.invalidOperation := by
  simp only [outcome, datum_defaultNaNUI hk, Ieee.invalidOperation]

end Kinds

/-! ## Bringing the smaller number to the exponent of the larger -/

section Align

/-- The fraction of a number with `n` bits below it, as the smaller operand is handed to the shift:
a subnormal number has one more. -/
def alignSig (k : Fmt) (n exp frac : Nat) : Nat :=
  if exp ≠ 0 then (2 ^ k.fracBits + frac) * 2 ^ n else frac * 2 ^ n * 2

/-- An aligned significand leaves room for a carry. -/
theorem alignSig_lt (n exp : Nat) {frac : Nat} (hfrac : frac < 2 ^ k.fracBits) :
    k.alignSig n exp frac < 2 ^ (k.fracBits + 1) * 2 ^ n := by
  have hN : 0 < 2 ^ n := Nat.two_pow_pos n
  unfold alignSig
  split
  · apply Nat.mul_lt_mul_of_pos_right _ hN
    rw [pow_succ]
    omega
  · rw [mul_right_comm, mul_comm frac, pow_succ', mul_assoc, mul_assoc]
    exact Nat.mul_lt_mul_of_pos_left (Nat.mul_lt_mul_of_pos_right hfrac hN) two_pos

/-- Shifted to a larger exponent, the fraction stands for the same number. -/
theorem alignSig_value (n frac : Nat) {exp e : Nat} (he : exp < e) :
    (k.alignSig n exp frac : ℚ) / 2 ^ (e - exp) * 2 ^ ((e - 1 : ℤ) + k.format.minUnit - n) =
      k.fullSig exp frac * 2 ^ ((exp - 1 : ℕ) + k.format.minUnit) := by
  have hsplit : ∀ (a : ℚ) (j i : ℤ), a * 2 ^ n * 2 ^ (j + i - n) = a * 2 ^ (j + i) := by
    intro a j i
    rw [mul_assoc, ← zpow_natCast (2 : ℚ) n, ← zpow_add₀ two_ne_zero]
    congr 2
    ring
  have hshift : (2 : ℚ) ^ ((e - 1 : ℤ) + k.format.minUnit - n) =
      2 ^ (e - exp) * 2 ^ ((exp - 1 : ℤ) + k.format.minUnit - n) := by
    rw [← zpow_natCast, ← zpow_add₀ two_ne_zero]
    congr 1
    omega
  rw [hshift, ← mul_assoc, div_mul_cancel₀ _ (pow_pos two_pos _).ne']
  unfold alignSig fullSig
  rcases Nat.eq_zero_or_pos exp with rfl | hpos
  · simp only [ne_eq, not_true_eq_false, if_false, if_true]
    push_cast
    rw [mul_right_comm, hsplit, mul_assoc, ← zpow_add_one₀ two_ne_zero]
    congr 2
    ring
  · rw [if_pos hpos.ne', if_neg hpos.ne']
    push_cast
    rw [hsplit, Nat.cast_sub hpos, Nat.cast_one]

/-- The larger operand, above the same bits. -/
theorem fullSig_value (n frac : Nat) {e : Nat} (he : 0 < e) :
    (((2 ^ k.fracBits + frac) * 2 ^ n : ℕ) : ℚ) * 2 ^ ((e - 1 : ℤ) + k.format.minUnit - n) =
      k.fullSig e frac * 2 ^ ((e - 1 : ℕ) + k.format.minUnit) := by
  rw [fullSig, if_neg he.ne', Nat.cast_sub he, Nat.cast_one, Nat.cast_mul, Nat.cast_pow 2 n,
    Nat.cast_ofNat, mul_assoc, ← zpow_natCast (2 : ℚ) n, ← zpow_add₀ two_ne_zero]
  congr 2
  ring

variable (hk : k.Valid)
include hk

/-- The leading bit, one place lower. -/
theorem lead_half : k.lead = 2 * (k.lead / 2) ∧ k.lead / 2 = 2 ^ k.fracBits * 2 ^ (k.guard - 1) := by
  have hg := four_le_guard hk
  have hlead : k.lead = 2 * (2 ^ k.fracBits * 2 ^ (k.guard - 1)) := by
    rw [lead, ← pow_add, ← pow_succ']
    congr 1
    omega
  omega

/-- The subtraction aligns one place lower than the addition. -/
theorem alignSig_half (exp frac : Nat) :
    (if exp ≠ 0 then frac * 2 ^ (k.guard - 1) + k.lead / 2 else frac * 2 ^ (k.guard - 1) * 2) =
      k.alignSig (k.guard - 1) exp frac := by
  rw [alignSig, (lead_half hk).2, Nat.add_mul, Nat.add_comm]

/-- What is shifted to a larger exponent is jammed, and is less than the leading bit. -/
theorem jam_alignSig {n : Nat} (hn : n ≤ k.guard) (exp : Nat) {frac : Nat}
    (hfrac : frac < 2 ^ k.fracBits) {dist : Nat} (hdist : 0 < dist) :
    shiftRightJam k.width (k.alignSig n exp frac) dist =
        shortShiftRightJam (k.alignSig n exp frac) dist ∧
      shortShiftRightJam (k.alignSig n exp frac) dist ≤ 2 ^ k.fracBits * 2 ^ n := by
  have hlt := alignSig_lt (k := k) n exp hfrac
  constructor
  · apply shiftRightJam_eq
    rw [width_eq hk, show k.fracBits + k.guard + 2 - 1 = k.fracBits + 1 + k.guard by omega, pow_add]
    exact hlt.trans_le (Nat.mul_le_mul_left _ (Nat.pow_le_pow_right two_pos hn))
  · -- half of what is less than twice the leading bit, and one more
    have hle := shortShiftRightJam_le (k.alignSig n exp frac) dist
    have hdiv : k.alignSig n exp frac / 2 ^ dist ≤ k.alignSig n exp frac / 2 := by
      apply Nat.div_le_div_left _ two_pos
      exact Nat.le_self_pow hdist.ne' 2
    rw [pow_succ', mul_assoc] at hlt
    omega

/-- A sum between half the leading bit and twice it is normalized and rounded. -/
theorem outcome_sum (mode : RoundingMode) (sign : Bool) (e : ℤ) {sigZ : Nat} {y : ℚ}
    (hlo : k.lead / 2 ≤ sigZ) (hhi : sigZ < 2 * k.lead) (hcut : SameCuts 2 y (sigZ : ℚ)) :
    k.outcome (if sigZ < k.lead then k.roundPack mode sign (e - 1) (sigZ * 2)
      else k.roundPack mode sign e sigZ) =
      Ieee.deliver k.format mode.attribute sign (y * 2 ^ (e + k.format.minUnit - k.guard)) := by
  have hg := four_le_guard hk
  obtain ⟨hhalf, -⟩ := lead_half hk
  split
  · rename_i hlt
    have hcut' := (hcut.scale (two_pos (α := ℚ))).coarsen_two_pow (k.guard - 3)
    rw [← pow_two, ← pow_add, show k.guard - 3 + 2 = k.guard - 1 by omega] at hcut'
    rw [outcome_roundPack hk mode sign _ (by omega) (by omega) (y := y * 2) (by
      push_cast
      exact hcut')]
    congr 1
    rw [mul_assoc, ← zpow_one_add₀ two_ne_zero]
    congr 2
    ring
  · have hcut' := hcut.coarsen_two_pow (k.guard - 2)
    rw [← pow_succ, show k.guard - 2 + 1 = k.guard - 1 by omega] at hcut'
    exact outcome_roundPack hk mode sign _ (by omega) hhi hcut'

/-- A number and a smaller one, of one sign. -/
theorem outcome_alignedSum (mode : RoundingMode) (sign : Bool) {e exp fracE frac : Nat}
    (he : exp < e) (hE : fracE < 2 ^ k.fracBits) (hfrac : frac < 2 ^ k.fracBits) {sigZ : Nat}
    (hsum : sigZ = k.lead / 2 + fracE * 2 ^ (k.guard - 1) +
      shiftRightJam k.width (k.alignSig (k.guard - 1) exp frac) (e - exp)) :
    k.outcome (if sigZ < k.lead then k.roundPack mode sign (e - 1) (sigZ * 2)
      else k.roundPack mode sign e sigZ) =
      Ieee.deliver k.format mode.attribute sign
        ((k.fullSig e fracE : ℚ) * 2 ^ ((e - 1 : ℕ) + k.format.minUnit) +
          k.fullSig exp frac * 2 ^ ((exp - 1 : ℕ) + k.format.minUnit)) := by
  have hg := four_le_guard hk
  obtain ⟨hhalf, hhalf'⟩ := lead_half hk
  obtain ⟨hjam, hjamle⟩ := jam_alignSig hk (n := k.guard - 1) (by omega) exp hfrac
    (by omega : 0 < e - exp)
  have hN : 0 < 2 ^ (k.guard - 1) := Nat.two_pow_pos _
  rw [hjam] at hsum
  have hbig : (2 ^ k.fracBits + fracE) * 2 ^ (k.guard - 1) =
      k.lead / 2 + fracE * 2 ^ (k.guard - 1) := by
    rw [Nat.add_mul, ← hhalf']
  have hE' : fracE * 2 ^ (k.guard - 1) < k.lead / 2 := by
    rw [hhalf']
    exact Nat.mul_lt_mul_of_pos_right hE hN
  have hcut : SameCuts 2 (((k.alignSig (k.guard - 1) exp frac : ℕ) : ℚ) / 2 ^ (e - exp) +
      ((2 ^ k.fracBits + fracE) * 2 ^ (k.guard - 1) : ℕ)) (sigZ : ℚ) := by
    have heven : ((2 ^ k.fracBits + fracE) * 2 ^ (k.guard - 1) : ℕ) =
        (2 ^ k.fracBits + fracE) * 2 ^ (k.guard - 2) * 2 := by
      rw [mul_assoc, ← pow_succ]
      congr 2
      omega
    have h := (sameCuts_shortShiftRightJam (k.alignSig (k.guard - 1) exp frac) (e - exp)).add_mul
      ((2 ^ k.fracBits + fracE) * 2 ^ (k.guard - 2) : ℕ)
    rw [Int.cast_natCast, ← Nat.cast_ofNat (R := ℚ) (n := 2), ← Nat.cast_mul, ← heven,
      Nat.cast_ofNat, ← Nat.cast_add, Nat.add_comm (shortShiftRightJam _ _), hbig, ← hsum, ← hbig] at h
    exact h
  have hvalue := alignSig_value (k := k) (k.guard - 1) frac he
  have hvalueE := fullSig_value (k := k) (k.guard - 1) fracE (by omega : 0 < e)
  have hunit : ((e : ℤ) - 1) + k.format.minUnit - (k.guard - 1 : ℕ) =
      e + k.format.minUnit - k.guard := by omega
  rw [hunit] at hvalue hvalueE
  rw [outcome_sum hk mode sign e (by omega) (by omega) hcut, ← hvalue, ← hvalueE, ← add_mul,
    add_comm (k.alignSig (k.guard - 1) exp frac / 2 ^ (e - exp) : ℚ)]

end Align

/-! ## Addition -/

section Addition

variable (hk : k.Valid)
include hk

/-- Two numbers with one exponent field. -/
theorem outcome_addMags_same (mode : RoundingMode) (sign : Bool) {e fracA fracB : Nat} (he : 0 < e)
    (hmax : e < k.expMax) (hA : fracA < 2 ^ k.fracBits) (hB : fracB < 2 ^ k.fracBits) {sigZ : Nat}
    (hsum : sigZ = 2 * 2 ^ k.fracBits + fracA + fracB) :
    k.outcome (if k.shortSum ∧ sigZ % 2 = 0 ∧ e < k.expMax - 1 then
        (k.packUI sign e (sigZ / 2), {})
      else k.roundPack mode sign e (sigZ * 2 ^ (k.guard - 1))) =
      Ieee.deliver k.format mode.attribute sign
        ((k.fullSig e fracA : ℚ) * 2 ^ ((e - 1 : ℕ) + k.format.minUnit) +
          k.fullSig e fracB * 2 ^ ((e - 1 : ℕ) + k.format.minUnit)) := by
  obtain ⟨hhalf, hhalf'⟩ := lead_half hk
  have hvalue : (k.fullSig e fracA : ℚ) * 2 ^ ((e - 1 : ℕ) + k.format.minUnit) +
      k.fullSig e fracB * 2 ^ ((e - 1 : ℕ) + k.format.minUnit) =
        sigZ * 2 ^ ((e - 1 : ℕ) + k.format.minUnit) := by
    rw [fullSig, fullSig, if_neg he.ne', if_neg he.ne', ← add_mul, hsum]
    congr 1
    push_cast
    ring
  rw [hvalue]
  split
  · rename_i h
    obtain ⟨-, heven, hlt⟩ := h
    apply outcome_packUI hk mode _
    · rw [pow_succ]
      omega
    · omega
    · omega
    · obtain ⟨j, hj⟩ : ∃ j, sigZ = j * 2 := ⟨sigZ / 2, by omega⟩
      rw [hj, Nat.mul_div_cancel _ two_pos, Nat.cast_sub he]
      push_cast
      rw [mul_assoc, ← zpow_one_add₀ two_ne_zero]
      congr 2
      ring
  · have hN : 0 < 2 ^ (k.guard - 1) := Nat.two_pow_pos _
    have hlead : k.lead = 2 * 2 ^ k.fracBits * 2 ^ (k.guard - 1) := by
      rw [hhalf, hhalf', mul_assoc]
    have hg := four_le_guard hk
    rw [outcome_roundPack hk mode sign e (y := (sigZ * 2 ^ (k.guard - 1) : ℕ)) _ _ (SameCuts.refl _ _)]
    · congr 1
      rw [Nat.cast_mul, Nat.cast_pow, Nat.cast_ofNat, mul_assoc, ← zpow_natCast,
        ← zpow_add₀ two_ne_zero]
      congr 2
      omega
    · rw [hlead]
      exact Nat.mul_le_mul_right _ (by omega)
    · rw [hlead, ← mul_assoc]
      exact Nat.mul_lt_mul_of_pos_right (by omega) hN

/-- The sum of two magnitudes under the sign of the first. -/
theorem outcome_addMags (mode : RoundingMode) {uiA : Nat} (hA : uiA < 2 ^ k.width) (uiB : Nat) :
    k.outcome (k.addMags mode uiA uiB (k.signUI uiA)) =
      Ieee.add k.format mode.attribute (k.datum uiA)
        (k.datumOf (k.signUI uiA) (k.expUI uiB) (k.fracUI uiB)) := by
  have hfA := fracUI_lt (k := k) uiA
  have hfB := fracUI_lt (k := k) uiB
  have hexpA := expUI_lt hk uiA
  have hexpB := expUI_lt hk uiB
  obtain ⟨-, hmax⟩ := two_pow_expBits hk
  have hvalue : ∀ e f : ℕ, (0 : ℚ) ≤ k.fullSig e f * 2 ^ ((e - 1 : ℕ) + k.format.minUnit) := fun _ _ =>
    mul_nonneg (Nat.cast_nonneg _) (zpow_pos two_pos _).le
  have hnan : k.isNaNUI uiA = true ∨ k.isNaNUI uiB = true →
      k.outcome (k.propagateNaNUI uiA uiB) = Ieee.add k.format mode.attribute (k.datum uiA)
        (k.datumOf (k.signUI uiA) (k.expUI uiB) (k.fracUI uiB)) :=
    outcome_propagateNaNUI hk (Ieee.propagatesNaN_add _ _) _ _
  have hfinite : ∀ {s : Bool} {e f e' f' : ℕ}, e ≠ k.expMax → e' ≠ k.expMax →
      Ieee.add k.format mode.attribute (k.datumOf s e f) (k.datumOf s e' f') =
        Ieee.deliver k.format mode.attribute s
          ((k.fullSig e f : ℚ) * 2 ^ ((e - 1 : ℕ) + k.format.minUnit) +
            k.fullSig e' f' * 2 ^ ((e' - 1 : ℕ) + k.format.minUnit)) := by
    intro s e f e' f' he he'
    rw [datumOf_finite he, datumOf_finite he']
    exact Ieee.deliverSum_same (hvalue e f) (hvalue e' f')
  rcases Nat.lt_trichotomy (k.expUI uiA) (k.expUI uiB) with hlt | heq | hgt
  · simp only [addMags, if_neg hlt.ne, if_pos hlt, alignSig_half hk]
    split
    · rename_i hinf
      split
      · rename_i hfrac
        exact hnan (Or.inr (isNaNUI_iff.2 ⟨hinf, left_ne_zero_of_mul hfrac⟩))
      · rename_i hfrac
        have h0 : k.fracUI uiB = 0 := by_contra fun h => hfrac (mul_ne_zero h (by positivity))
        rw [datum, datumOf_finite (by omega), datumOf_inf hinf h0]
        simp only [outcome, datum_packUI_inf hk, Ieee.add]
    · rename_i hinf
      rw [datum, hfinite (by omega) hinf, add_comm (k.fullSig (k.expUI uiA) _ * _ : ℚ)]
      apply outcome_alignedSum hk mode _ hlt hfB hfA
      omega
  · simp only [addMags, if_pos heq]
    split
    · rename_i h0
      -- the sum of two subnormals carries into the exponent by itself
      have hb := fifteen_le_bias hk
      have hfields := eq_fields hk hA
      rw [h0, Nat.zero_mul, Nat.add_zero] at hfields
      have hpack : uiA + k.fracUI uiB =
          k.packUI (k.signUI uiA) (0 : ℕ) (k.fracUI uiA + k.fracUI uiB) := by
        have hroom : 0 * 2 ^ k.fracBits + (k.fracUI uiA + k.fracUI uiB) <
            (2 * k.bias + 2) * 2 ^ k.fracBits := by
          rw [Nat.zero_mul, Nat.zero_add]
          exact (by omega : _ < 2 * 2 ^ k.fracBits).trans_le (Nat.mul_le_mul_right _ (by omega))
        rw [packUI_eq hk hroom, Nat.zero_mul, Nat.add_zero]
        omega
      rw [hpack, datum, ← heq, h0, hfinite (by omega) (by omega)]
      refine outcome_packUI hk mode _ ?_ (fun _ => rfl) (by omega) ?_
      · rw [pow_succ]
        omega
      · rw [fullSig, fullSig, if_pos rfl, if_pos rfl, Nat.cast_add, add_mul]
    · rename_i h0
      split
      · rename_i hinf
        split
        · rename_i hfrac
          exact hnan (hfrac.imp (fun h => isNaNUI_iff.2 ⟨hinf, h⟩)
            fun h => isNaNUI_iff.2 ⟨heq ▸ hinf, h⟩)
        · rename_i hfrac
          rw [not_or, not_not, not_not] at hfrac
          rw [datum, datumOf_inf hinf hfrac.1, datumOf_inf (heq ▸ hinf) hfrac.2]
          simp only [outcome, datum, datumOf_inf hinf hfrac.1, Ieee.add, if_true]
      · rename_i hinf
        rw [datum, hfinite hinf (by omega), ← heq]
        exact outcome_addMags_same hk mode _ (by omega) (by omega) hfA hfB rfl
  · simp only [addMags, if_neg hgt.ne', if_neg hgt.not_gt, alignSig_half hk]
    split
    · rename_i hinf
      split
      · rename_i hfrac
        exact hnan (Or.inl (isNaNUI_iff.2 ⟨hinf, left_ne_zero_of_mul hfrac⟩))
      · rename_i hfrac
        have h0 : k.fracUI uiA = 0 := by_contra fun h => hfrac (mul_ne_zero h (by positivity))
        rw [datumOf_finite (by omega : k.expUI uiB ≠ k.expMax)]
        simp only [outcome, datum, datumOf_inf hinf h0, Ieee.add]
    · rename_i hinf
      rw [datum, hfinite hinf (by omega)]
      exact outcome_alignedSum hk mode _ hgt hfA hfB rfl

end Addition

/-! ## Subtraction -/

section Subtraction

/-- The addition puts the leading bit in place. -/
theorem alignSig_lead (exp frac : Nat) :
    (frac * 2 ^ k.guard + if exp ≠ 0 then k.lead else frac * 2 ^ k.guard) =
      k.alignSig k.guard exp frac := by
  unfold alignSig lead
  split
  · rw [pow_add, Nat.add_mul, Nat.add_comm]
  · rw [Nat.mul_two]

/-- A shift of at most the guard bits loses nothing; a longer one leaves little. -/
theorem jam_exact_or_small (exp : Nat) {frac : Nat} (hfrac : frac < 2 ^ k.fracBits) (dist : Nat) :
    (shortShiftRightJam (k.alignSig k.guard exp frac) dist : ℚ) =
        k.alignSig k.guard exp frac / 2 ^ dist ∨
      shortShiftRightJam (k.alignSig k.guard exp frac) dist ≤ 2 ^ k.fracBits + 1 := by
  have hdvd : 2 ^ k.guard ∣ k.alignSig k.guard exp frac := by
    unfold alignSig
    split
    · exact Dvd.intro_left _ rfl
    · exact (Dvd.intro_left _ rfl : 2 ^ k.guard ∣ frac * 2 ^ k.guard).mul_right 2
  rcases Nat.lt_or_ge k.guard dist with hlt | hle
  · right
    have hjam := shortShiftRightJam_le (k.alignSig k.guard exp frac) dist
    have hsig : k.alignSig k.guard exp frac < 2 ^ k.fracBits * 2 ^ dist := by
      refine (alignSig_lt k.guard exp hfrac).trans_le ?_
      rw [← pow_add, ← pow_add]
      exact Nat.pow_le_pow_right two_pos (by omega)
    have hdiv := (Nat.div_lt_iff_lt_mul (Nat.two_pow_pos dist)).2 hsig
    omega
  · left
    have hmod := Nat.mod_eq_zero_of_dvd ((Nat.pow_dvd_pow 2 hle).trans hdvd)
    rw [shortShiftRightJam, hmod, if_neg (not_not_intro rfl), Nat.or_zero, natCast_div_two_pow, hmod,
      Nat.cast_zero, zero_div, add_zero]

/-- The shift that brings the leading bit of a fraction to its place. -/
theorem norm_shift {d : Nat} (hd : 0 < d) (hlt : d < 2 ^ k.fracBits) :
    ∃ s, countLeadingZeros k.width d - k.expBits = s ∧ Nat.log 2 d + s = k.fracBits ∧
      2 ^ k.fracBits ≤ d * 2 ^ s ∧ d * 2 ^ s < 2 ^ (k.fracBits + 1) := by
  have hlog : 2 ^ Nat.log 2 d ≤ d ∧ d < 2 ^ (Nat.log 2 d + 1) :=
    ⟨Nat.pow_log_le_self 2 hd.ne', Nat.lt_pow_succ_log_self one_lt_two d⟩
  have hlogf : Nat.log 2 d < k.fracBits :=
    (Nat.pow_lt_pow_iff_right one_lt_two).1 (hlog.1.trans_lt hlt)
  obtain ⟨s, hs⟩ : ∃ s, Nat.log 2 d + s = k.fracBits := ⟨k.fracBits - Nat.log 2 d, by omega⟩
  refine ⟨s, ?_, hs, ?_, ?_⟩
  · rw [countLeadingZeros, if_neg hd.ne', width]
    omega
  · rw [← hs, pow_add]
    exact Nat.mul_le_mul_right _ hlog.1
  · rw [← hs, show Nat.log 2 d + s + 1 = Nat.log 2 d + 1 + s by omega, pow_add]
    exact Nat.mul_lt_mul_of_pos_right hlog.2 (Nat.two_pow_pos _)

variable (hk : k.Valid)
include hk

/-- A number less a smaller one. -/
theorem outcome_alignedDiff (mode : RoundingMode) (sign : Bool) {e exp fracE frac : Nat}
    (he : exp < e) (hE : fracE < 2 ^ k.fracBits) (hfrac : frac < 2 ^ k.fracBits) :
    ((k.fullSig exp frac : ℚ) * 2 ^ ((exp - 1 : ℕ) + k.format.minUnit) <
        k.fullSig e fracE * 2 ^ ((e - 1 : ℕ) + k.format.minUnit)) ∧
      k.outcome (k.normRoundPack mode sign (e - 1) (k.lead + fracE * 2 ^ k.guard -
        shiftRightJam k.width (k.alignSig k.guard exp frac) (e - exp))) =
      Ieee.deliver k.format mode.attribute sign
        ((k.fullSig e fracE : ℚ) * 2 ^ ((e - 1 : ℕ) + k.format.minUnit) -
          k.fullSig exp frac * 2 ^ ((exp - 1 : ℕ) + k.format.minUnit)) := by
  have hg := four_le_guard hk
  have hN : 0 < 2 ^ k.guard := Nat.two_pow_pos _
  have hF : 4 ≤ 2 ^ k.fracBits :=
    Nat.pow_le_pow_right (n := 2) (i := 2) two_pos hk.fracBits_pos
  have hlead : k.lead = 2 ^ k.fracBits * 2 ^ k.guard := by
    rw [lead, pow_add]
  have h16 : 16 * 2 ^ k.fracBits ≤ k.lead := by
    rw [hlead, mul_comm]
    exact Nat.mul_le_mul_left _ (Nat.pow_le_pow_right (n := 2) (i := 4) two_pos hg)
  have hbig : (2 ^ k.fracBits + fracE) * 2 ^ k.guard = k.lead + fracE * 2 ^ k.guard := by
    rw [Nat.add_mul, ← hlead]
  have hE' : fracE * 2 ^ k.guard < k.lead := by
    rw [hlead]
    exact Nat.mul_lt_mul_of_pos_right hE hN
  obtain ⟨hjam, -⟩ := jam_alignSig hk le_rfl exp hfrac (by omega : 0 < e - exp)
  have hcutJ := sameCuts_shortShiftRightJam (k.alignSig k.guard exp frac) (e - exp)
  have hcase := jam_exact_or_small exp hfrac (e - exp)
  have hsmall : (k.alignSig k.guard exp frac : ℚ) / 2 ^ (e - exp) < k.lead := by
    have hlt := alignSig_lt (k := k) k.guard exp hfrac
    rw [pow_succ', mul_assoc, ← hlead] at hlt
    rw [div_lt_iff₀ (pow_pos two_pos _)]
    have hdist : (2 : ℚ) ^ 1 ≤ 2 ^ (e - exp) := pow_le_pow_right₀ one_le_two (by omega)
    calc (k.alignSig k.guard exp frac : ℚ) < 2 * k.lead := by exact_mod_cast hlt
      _ = k.lead * 2 ^ 1 := by ring
      _ ≤ k.lead * 2 ^ (e - exp) := mul_le_mul_of_nonneg_left hdist (Nat.cast_nonneg _)
  have hvalue := alignSig_value (k := k) k.guard frac he
  have hvalueE := fullSig_value (k := k) k.guard fracE (by omega : 0 < e)
  rw [hjam]
  generalize shortShiftRightJam (k.alignSig k.guard exp frac) (e - exp) = j at hcutJ hcase ⊢
  generalize (k.alignSig k.guard exp frac : ℚ) / 2 ^ (e - exp) = a at hcutJ hcase hsmall hvalue
  have hjlt : j < k.lead := by
    rcases hcase with hexact | hle
    · rw [← hexact] at hsmall
      exact_mod_cast hsmall
    · omega
  have hcast : ((k.lead + fracE * 2 ^ k.guard - j : ℕ) : ℚ) =
      ((2 ^ k.fracBits + fracE) * 2 ^ k.guard : ℕ) - j := by
    rw [hbig, Nat.cast_sub (by omega)]
  have hcut : SameCuts 2 (((2 ^ k.fracBits + fracE) * 2 ^ k.guard : ℕ) - a)
      ((k.lead + fracE * 2 ^ k.guard - j : ℕ) : ℚ) := by
    have heven : (2 ^ k.fracBits + fracE) * 2 ^ k.guard =
        (2 ^ k.fracBits + fracE) * 2 ^ (k.guard - 1) * 2 := by
      rw [mul_assoc, ← pow_succ, Nat.sub_add_cancel (by omega)]
    have h := hcutJ.mul_sub ((2 ^ k.fracBits + fracE) * 2 ^ (k.guard - 1) : ℕ)
    rwa [Int.cast_natCast, ← Nat.cast_ofNat (R := ℚ) (n := 2), ← Nat.cast_mul, ← heven,
      Nat.cast_ofNat, ← hcast] at h
  have hpos : 0 < ((2 ^ k.fracBits + fracE) * 2 ^ k.guard : ℕ) - a := by
    have h := (hcut 0).2
    rw [Int.cast_zero, zero_mul] at h
    exact h.2 (Nat.cast_pos.2 (by omega))
  rw [← hvalue, ← hvalueE, ← sub_mul]
  refine ⟨mul_lt_mul_of_pos_right (sub_pos.1 hpos) (zpow_pos two_pos _), ?_⟩
  apply outcome_normRoundPack hk mode sign _ (by omega) (by omega) hcut
  exact hcase.symm.imp (fun hle => by omega) fun hexact => by rw [hcast, hexact]

/-- A packed zero has no exception. -/
theorem outcome_packUI_zero (sign : Bool) :
    k.outcome (k.packUI sign 0 0, {}) = { datum := .finite sign 0 } := by
  have hb := fifteen_le_bias hk
  obtain ⟨-, hmax⟩ := two_pow_expBits hk
  rw [← Ieee.deliver_zero k.format RoundingMode.nearEven.attribute sign]
  exact outcome_packUI hk _ _ (Nat.two_pow_pos _) (fun _ => rfl) (by omega)
    (by rw [Nat.cast_zero, zero_mul])

/-- What is left of the fractions under one exponent is normalized, and nothing is lost. -/
theorem outcome_cancel (mode : RoundingMode) (sign : Bool) {e d : Nat} (he : e + 1 < k.expMax)
    (hd : 0 < d) (hlt : d < 2 ^ k.fracBits) :
    k.outcome (if e < countLeadingZeros k.width d - k.expBits then
        (k.packUI sign 0 (d * 2 ^ e), {})
      else (k.packUI sign (e - (countLeadingZeros k.width d - k.expBits : ℕ))
        (d * 2 ^ (countLeadingZeros k.width d - k.expBits)), {})) =
      Ieee.deliver k.format mode.attribute sign ((d : ℚ) * 2 ^ (e + k.format.minUnit)) := by
  obtain ⟨s, hshift, hs, hlow, hhigh⟩ := norm_shift hd hlt
  have hvalue : ∀ j i : ℕ, j + i = e → (d : ℚ) * 2 ^ (e + k.format.minUnit) =
      (d * 2 ^ i : ℕ) * 2 ^ (j + k.format.minUnit) := by
    intro j i hji
    rw [← hji, Nat.cast_mul, Nat.cast_pow, Nat.cast_ofNat, mul_assoc, ← zpow_natCast,
      ← zpow_add₀ two_ne_zero]
    congr 2
    push_cast
    ring
  obtain ⟨-, hmax⟩ := two_pow_expBits hk
  have hb := fifteen_le_bias hk
  rw [hshift]
  split
  · have hsmall : d * 2 ^ e < 2 ^ k.fracBits := by
      calc d * 2 ^ e < 2 ^ (Nat.log 2 d + 1) * 2 ^ e :=
            Nat.mul_lt_mul_of_pos_right (Nat.lt_pow_succ_log_self one_lt_two d) (Nat.two_pow_pos _)
        _ ≤ 2 ^ k.fracBits := by
            rw [← pow_add]
            exact Nat.pow_le_pow_right two_pos (by omega)
    refine outcome_packUI hk mode _ ?_ (fun _ => rfl) (by omega) (hvalue 0 e (by omega))
    rw [pow_succ]
    omega
  · rename_i hle
    rw [← Nat.cast_sub (by omega)]
    exact outcome_packUI hk mode _ hhigh (fun h => absurd hlow (by omega)) (by omega)
      (hvalue (e - s) s (by omega))

/-- The difference of two magnitudes, the first under its sign. -/
theorem outcome_subMags (mode : RoundingMode) (uiA uiB : Nat) :
    k.outcome (k.subMags mode uiA uiB (k.signUI uiA)) =
      Ieee.add k.format mode.attribute (k.datum uiA)
        (k.datumOf (!k.signUI uiA) (k.expUI uiB) (k.fracUI uiB)) := by
  have hfA := fracUI_lt (k := k) uiA
  have hfB := fracUI_lt (k := k) uiB
  have hexpA := expUI_lt hk uiA
  have hexpB := expUI_lt hk uiB
  obtain ⟨-, hmax⟩ := two_pow_expBits hk
  have hnan : k.isNaNUI uiA = true ∨ k.isNaNUI uiB = true →
      k.outcome (k.propagateNaNUI uiA uiB) = Ieee.add k.format mode.attribute (k.datum uiA)
        (k.datumOf (!k.signUI uiA) (k.expUI uiB) (k.fracUI uiB)) :=
    outcome_propagateNaNUI hk (Ieee.propagatesNaN_add _ _) _ _
  rcases Nat.lt_trichotomy (k.expUI uiA) (k.expUI uiB) with hlt | heq | hgt
  · simp only [subMags, if_neg hlt.ne, if_pos hlt, alignSig_lead]
    split
    · rename_i hinf
      split
      · rename_i hfrac
        exact hnan (Or.inr (isNaNUI_iff.2 ⟨hinf, left_ne_zero_of_mul hfrac⟩))
      · rename_i hfrac
        have h0 : k.fracUI uiB = 0 := by_contra fun h => hfrac (mul_ne_zero h (by positivity))
        rw [datum, datumOf_finite (by omega), datumOf_inf hinf h0]
        simp only [outcome, datum_packUI_inf hk, Ieee.add]
    · rename_i hinf
      obtain ⟨hless, hout⟩ := outcome_alignedDiff hk mode (!k.signUI uiA) hlt hfB hfA
      rw [hout, datum, datumOf_finite (by omega), datumOf_finite hinf]
      exact (Ieee.deliverSum_of_lt hless).symm
  · simp only [subMags, if_pos heq]
    split
    · rename_i hinf
      split
      · rename_i hfrac
        exact hnan (hfrac.imp (fun h => isNaNUI_iff.2 ⟨hinf, h⟩)
          fun h => isNaNUI_iff.2 ⟨heq ▸ hinf, h⟩)
      · rename_i hfrac
        rw [not_or, not_not, not_not] at hfrac
        rw [datum, datumOf_inf hinf hfrac.1, datumOf_inf (heq ▸ hinf) hfrac.2, outcome_invalid hk]
        exact (if_neg (Bool.self_ne_not _)).symm
    · rename_i hinf
      have hexp : (if k.expUI uiA ≠ 0 then k.expUI uiA - 1 else k.expUI uiA) = k.expUI uiA - 1 := by
        split <;> omega
      have hb := fifteen_le_bias hk
      have hvalue : ∀ {f g d : ℕ}, f = g + d → (k.fullSig (k.expUI uiA) f : ℚ) *
          2 ^ ((k.expUI uiA - 1 : ℕ) + k.format.minUnit) -
            k.fullSig (k.expUI uiA) g * 2 ^ ((k.expUI uiA - 1 : ℕ) + k.format.minUnit) =
              d * 2 ^ ((k.expUI uiA - 1 : ℕ) + k.format.minUnit) := by
        rintro f g d rfl
        rw [← sub_mul, fullSig, fullSig]
        congr 1
        split <;> push_cast <;> ring
      have hless : ∀ {f g d : ℕ}, f = g + d → 0 < d → (k.fullSig (k.expUI uiA) g : ℚ) *
          2 ^ ((k.expUI uiA - 1 : ℕ) + k.format.minUnit) <
            k.fullSig (k.expUI uiA) f * 2 ^ ((k.expUI uiA - 1 : ℕ) + k.format.minUnit) := by
        intro f g d hf hd
        rw [← sub_pos, hvalue hf]
        exact mul_pos (Nat.cast_pos.2 hd) (zpow_pos two_pos _)
      rw [datum, datumOf_finite hinf, datumOf_finite (heq ▸ hinf), ← heq, hexp]
      clear hnan
      generalize k.fracUI uiA = fA at hfA ⊢
      generalize k.fracUI uiB = fB at hfB ⊢
      rcases Nat.lt_trichotomy fA fB with hltF | rfl | hgtF
      · obtain ⟨d, rfl⟩ := Nat.exists_eq_add_of_lt hltF
        have hneg : (fA : ℤ) - (fA + d + 1 : ℕ) < 0 := by omega
        have habs : ((fA : ℤ) - (fA + d + 1 : ℕ)).natAbs = d + 1 := by omega
        rw [if_neg hneg.ne, if_pos hneg, habs]
        rw [outcome_cancel hk mode _ (d := d + 1) (by omega) (by omega) (by omega),
          ← hvalue (Nat.add_assoc fA d 1)]
        exact (Ieee.deliverSum_of_lt (hless (Nat.add_assoc fA d 1) (by omega))).symm
      · rw [if_pos (sub_self _), outcome_packUI_zero hk]
        refine Eq.trans ?_ (Ieee.deliverSum_self _ _ _ _).symm
        cases mode <;> rfl
      · obtain ⟨d, rfl⟩ := Nat.exists_eq_add_of_lt hgtF
        have hpos : ¬ ((fB + d + 1 : ℕ) : ℤ) - fB < 0 := by omega
        have habs : (((fB + d + 1 : ℕ) : ℤ) - fB).natAbs = d + 1 := by omega
        rw [if_neg (by omega), if_neg hpos, habs]
        rw [outcome_cancel hk mode _ (d := d + 1) (by omega) (by omega) (by omega),
          ← hvalue (Nat.add_assoc fB d 1)]
        exact (Ieee.deliverSum_of_gt (hless (Nat.add_assoc fB d 1) (by omega))).symm
  · simp only [subMags, if_neg hgt.ne', if_neg hgt.not_gt, alignSig_lead]
    split
    · rename_i hinf
      split
      · rename_i hfrac
        exact hnan (Or.inl (isNaNUI_iff.2 ⟨hinf, left_ne_zero_of_mul hfrac⟩))
      · rename_i hfrac
        have h0 : k.fracUI uiA = 0 := by_contra fun h => hfrac (mul_ne_zero h (by positivity))
        rw [datumOf_finite (by omega : k.expUI uiB ≠ k.expMax)]
        simp only [outcome, datum, datumOf_inf hinf h0, Ieee.add]
    · rename_i hinf
      obtain ⟨hless, hout⟩ := outcome_alignedDiff hk mode (k.signUI uiA) hgt hfA hfB
      rw [hout, datum, datumOf_finite hinf, datumOf_finite (by omega)]
      exact (Ieee.deliverSum_of_gt hless).symm

end Subtraction

/-! ## The operations -/

/-- Negation turns the sign bit. -/
theorem negate_datumOf (s : Bool) (e f : Nat) : (k.datumOf s e f).negate = k.datumOf (!s) e f := by
  unfold datumOf
  split
  · split <;> rfl
  · rfl

section Operations

variable (hk : k.Valid) (mode : RoundingMode)
include hk

/-- Addition is the addition of the standard. -/
theorem outcome_add {uiA : Nat} (hA : uiA < 2 ^ k.width) (uiB : Nat) :
    k.outcome (k.add mode uiA uiB) =
      Ieee.add k.format mode.attribute (k.datum uiA) (k.datum uiB) := by
  simp only [add]
  split
  · rename_i h
    rw [outcome_addMags hk mode hA, h]
    rfl
  · rename_i h
    rw [outcome_subMags hk mode, ← Bool.eq_not_of_ne (Ne.symm h)]
    rfl

/-- Subtraction is the subtraction of the standard. -/
theorem outcome_sub {uiA : Nat} (hA : uiA < 2 ^ k.width) (uiB : Nat) :
    k.outcome (k.sub mode uiA uiB) =
      Ieee.sub k.format mode.attribute (k.datum uiA) (k.datum uiB) := by
  have hB : (k.datum uiB).negate = k.datumOf (!k.signUI uiB) (k.expUI uiB) (k.fracUI uiB) :=
    negate_datumOf _ _ _
  simp only [sub, Ieee.sub, hB]
  split
  · rename_i h
    rw [outcome_subMags hk mode, h]
  · rename_i h
    rw [outcome_addMags hk mode hA, Bool.eq_not_of_ne h]

end Operations

end Fmt

/-! ## The routines on words -/

/-- What a routine on words returns, as an outcome of the standard. -/
def Fmt.wordOutcome (k : Fmt) {w : Nat} (r : BitVec w × ExceptionFlags) : Ieee.Outcome ℚ :=
  k.outcome (r.1.toNat, r.2)

/-- The outcome of a kernel routine on 64-bit words. -/
theorem wordOutcome_onWords (r : Nat × ExceptionFlags) :
    f64.wordOutcome (onWords r) = f64.outcome r := by
  simp only [Fmt.wordOutcome, onWords, Fmt.outcome, BitVec.toNat_ofNat]
  rw [show 2 ^ 64 = 2 ^ f64.width by rfl, Fmt.datum_mod]

/-- The outcome of a kernel routine on 32-bit words. -/
theorem wordOutcome_onSingles (r : Nat × ExceptionFlags) :
    f32.wordOutcome (onSingles r) = f32.outcome r := by
  simp only [Fmt.wordOutcome, onSingles, Fmt.outcome, BitVec.toNat_ofNat]
  rw [show 2 ^ 32 = 2 ^ f32.width by rfl, Fmt.datum_mod]

section Routines

variable (mode : RoundingMode)

/-- **f64_add** is the standard's addition. -/
theorem wordOutcome_f64Add (a b : Word) :
    f64.wordOutcome (f64Add mode a b) =
      Ieee.add f64.format mode.attribute (f64.datum a.toNat) (f64.datum b.toNat) := by
  rw [f64Add, wordOutcome_onWords]
  exact Fmt.outcome_add Fmt.valid_f64 mode a.isLt _

/-- **f64_sub** is the standard's subtraction. -/
theorem wordOutcome_f64Sub (a b : Word) :
    f64.wordOutcome (f64Sub mode a b) =
      Ieee.sub f64.format mode.attribute (f64.datum a.toNat) (f64.datum b.toNat) := by
  rw [f64Sub, wordOutcome_onWords]
  exact Fmt.outcome_sub Fmt.valid_f64 mode a.isLt _

/-- **f32_add** is the standard's addition. -/
theorem wordOutcome_f32Add (a b : BitVec 32) :
    f32.wordOutcome (f32Add mode a b) =
      Ieee.add f32.format mode.attribute (f32.datum a.toNat) (f32.datum b.toNat) := by
  rw [f32Add, wordOutcome_onSingles]
  exact Fmt.outcome_add Fmt.valid_f32 mode a.isLt _

/-- **f32_sub** is the standard's subtraction. -/
theorem wordOutcome_f32Sub (a b : BitVec 32) :
    f32.wordOutcome (f32Sub mode a b) =
      Ieee.sub f32.format mode.attribute (f32.datum a.toNat) (f32.datum b.toNat) := by
  rw [f32Sub, wordOutcome_onSingles]
  exact Fmt.outcome_sub Fmt.valid_f32 mode a.isLt _

end Routines

end SoftFloat

end EmulatR
