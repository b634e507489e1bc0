import Mathlib.Data.EReal.Basic
import EmulatR.Pipeline.MemDrainer
import EmulatR.Fp.VaxCompare

/-! # Floating memory formats

What a floating load leaves in a register and what a store puts back. A load goes through the
drainer, which picks the format by the size and the VAX flag; a store converts in its leaf.

`fpFormats_iff` is the condition on the format; `not_fpFormats_least_one` is where LDF fails. -/

namespace EmulatR

open Vax Library

/-! ## Loads -/

/-- LDS. -/
def lds (m : BitVec 32) : Word := MemDrainer.formatLoadValue (m.setWidth 64) 4 true false

/-- LDF. -/
def ldf (m : BitVec 32) : Word := MemDrainer.formatLoadValue (m.setWidth 64) 4 true true

/-- LDT. -/
def ldt (m : Word) : Word := MemDrainer.formatLoadValue m 8 true false

/-- LDG. -/
def ldg (m : Word) : Word := MemDrainer.formatLoadValue m 8 true true

/-! ## Fields -/

/-- A register with a sign, an exponent and 23 fraction bits. -/
def register (s : BitVec 1) (x : BitVec 11) (f : BitVec 23) : Word := s ++ x ++ f ++ 0#29

section Register

variable (s : BitVec 1) (x : BitVec 11) (f : BitVec 23)

/-- A register image from its three fields. -/
theorem toNat_register :
    (register s x f).toNat = s.toNat * 2 ^ 63 + x.toNat * 2 ^ 52 + f.toNat * 2 ^ 29 := by
  have h : (register s x f).toNat =
      ((s.toNat * 2 ^ 11 + x.toNat) * 2 ^ 23 + f.toNat) * 2 ^ 29 + (0#29).toNat := by
    rw [register, toNat_append_eq_add, toNat_append_eq_add, toNat_append_eq_add]
  rw [h, BitVec.toNat_zero]
  omega

/-- The fields that a store takes out. -/
theorem register_extract :
    (register s x f).extractLsb' 63 1 = s ∧ (register s x f).extractLsb' 52 11 = x ∧
      (register s x f).extractLsb' 29 23 = f := by
  have hs := s.isLt
  have hx := x.isLt
  have hf := f.isLt
  refine ⟨?_, ?_, ?_⟩
  all_goals
    rw [← BitVec.toNat_inj, toNat_extract, toNat_register]
    omega

/-- The fields as a number of the register format. -/
theorem register_fields :
    signOf (register s x f) = s.getLsbD 0 ∧ expOf (register s x f) = x.toNat ∧
      (fracOf (register s x f)).toNat = f.toNat * 2 ^ 29 := by
  have hs := s.isLt
  have hx := x.isLt
  have hf := f.isLt
  have hbit : s.getLsbD 0 = decide (s.toNat = 1) := by
    have hall : ∀ s : BitVec 1, s.getLsbD 0 = decide (s.toNat = 1) := by decide
    exact hall s
  refine ⟨?_, ?_, ?_⟩
  · rw [signOf_eq, toNat_register, hbit, decide_eq_decide]
    omega
  · rw [expOf_eq, toNat_register]
    omega
  · rw [toNat_fracOf, toNat_register]
    omega

/-- The zero of either sign. -/
theorem register_zero : s ++ 0#63 = register s 0 0 := by
  rw [← BitVec.toNat_inj, toNat_register, toNat_append_eq_add, BitVec.toNat_zero,
    show (0 : BitVec 11).toNat = 0 from rfl, show (0 : BitVec 23).toNat = 0 from rfl]
  omega

end Register

/-- The exponent of a longword. -/
def exp8 (m : BitVec 32) : BitVec 8 := m.extractLsb' 23 8

/-- The fraction of a longword. -/
def frac23 (m : BitVec 32) : BitVec 23 := m.extractLsb' 0 23

/-- The sign of a longword. -/
def sign1 (m : BitVec 32) : BitVec 1 := m.extractLsb' 31 1

/-- A longword is its sign, its exponent and its fraction. -/
theorem longword_fields (m : BitVec 32) : sign1 m ++ exp8 m ++ frac23 m = m := by
  have hlt := m.isLt
  rw [← BitVec.toNat_inj, toNat_append_eq_add, toNat_append_eq_add, sign1, exp8, frac23,
    toNat_extract, toNat_extract, toNat_extract]
  omega

/-- LDS of a single: the exponent is expanded, and exponent zero loses its fraction. -/
theorem lds_eq (m : BitVec 32) :
    lds m = if exp8 m = 0 then register (sign1 m) 0 0
      else register (sign1 m) (if exp8 m = 0xFF then 0x7FF else FpFormat.expandExp (exp8 m))
        (frac23 m) := by
  have h : lds m = FpFormat.convertS_FloatingToRegister m := by
    simp [lds, MemDrainer.formatLoadValue]
  rw [h, ← register_zero]
  rfl

/-- LDF of a longword: the same without an exponent for infinities. -/
theorem ldf_eq (m : BitVec 32) :
    ldf m = if exp8 m = 0 then register (sign1 m) 0 0
      else register (sign1 m) (FpFormat.expandExp (exp8 m)) (frac23 m) := by
  have h : ldf m = FpFormat.convertF_FloatingToRegister m := by
    simp [ldf, MemDrainer.formatLoadValue]
  have hfrac : m.extractLsb' 16 7 ++ m.extractLsb' 0 16 = frac23 m :=
    BitVec.extractLsb'_append_extractLsb'_eq_extractLsb' rfl
  have hassoc : sign1 m ++ FpFormat.expandExp (exp8 m) ++ m.extractLsb' 16 7 ++ m.extractLsb' 0 16
      ++ 0#29 = register (sign1 m) (FpFormat.expandExp (exp8 m)) (frac23 m) := by
    rw [← hfrac, ← BitVec.toNat_inj, toNat_register]
    simp only [toNat_append_eq_add, BitVec.toNat_zero]
    omega
  rw [h, ← register_zero, ← hassoc]
  rfl

/-! ## Exponents -/

/-- The expanded exponent is the exponent rebiased. -/
theorem expandExp_spec (e : BitVec 8) :
    (FpFormat.expandExp e).toNat = e.toNat + 896 ∧ FpFormat.packExp (FpFormat.expandExp e) = e := by
  have hall : ∀ e : BitVec 8, (FpFormat.expandExp e).toNat = e.toNat + 896 ∧
      FpFormat.packExp (FpFormat.expandExp e) = e := by decide
  exact hall e

/-- No expanded exponent of a number is the zero's or the largest. -/
theorem expandExp_ne {e : BitVec 8} (h0 : e ≠ 0) :
    FpFormat.expandExp e ≠ 0 ∧ FpFormat.expandExp e ≠ 0x7FF := by
  have hall : ∀ e : BitVec 8, e ≠ 0 → FpFormat.expandExp e ≠ 0 ∧ FpFormat.expandExp e ≠ 0x7FF := by
    decide
  exact hall e h0

/-! ## Round trips -/

/-- STS does the same, and keeps the largest exponent the largest. -/
theorem toMemory_s (s : BitVec 1) (x : BitVec 11) (f : BitVec 23) :
    FpFormat.convertS_FloatingToMemory (register s x f) =
      if x = 0 then s ++ 0#31
      else s ++ (if x = 0x7FF then 0xFF#8 else FpFormat.packExp x) ++ f := by
  obtain ⟨hs, hx, hf⟩ := register_extract s x f
  unfold FpFormat.convertS_FloatingToMemory
  simp only [hs, hx, hf]

/-- STF writes the sign, the exponent without its middle bits and the fraction. -/
theorem toMemory_f (s : BitVec 1) (x : BitVec 11) (f : BitVec 23) :
    FpFormat.convertF_FloatingToMemory (register s x f) =
      if x = 0 then s ++ 0#31 else s ++ FpFormat.packExp x ++ f := by
  obtain ⟨hs, hx, hf⟩ := register_extract s x f
  unfold FpFormat.convertF_FloatingToMemory
  simp only [hs, hx, hf]

/-- What is stored of a number that lost its fraction. -/
theorem sign_append_eq_iff {m : BitVec 32} (he : exp8 m = 0) :
    sign1 m ++ 0#31 = m ↔ frac23 m = 0 := by
  have hm := longword_fields m
  have hn : m.toNat = (sign1 m).toNat * 2 ^ 31 + (exp8 m).toNat * 2 ^ 23 + (frac23 m).toNat := by
    conv_lhs => rw [← hm]
    rw [toNat_append_eq_add, toNat_append_eq_add]
    omega
  have h0 : (exp8 m).toNat = 0 := by rw [he]; rfl
  rw [← BitVec.toNat_inj, toNat_append_eq_add, BitVec.toNat_zero, ← BitVec.toNat_inj,
    show (0 : BitVec 23).toNat = 0 from rfl]
  omega

/-- STS after LDS gives the single back unless its exponent is zero and its fraction is not. -/
theorem sts_lds_iff (m : BitVec 32) :
    (FpMemFormat.s.toMemory (lds m)).setWidth 32 = m ↔ exp8 m ≠ 0 ∨ frac23 m = 0 := by
  rw [FpMemFormat.toMemory, BitVec.setWidth_setWidth_of_le _ (by decide), BitVec.setWidth_eq, lds_eq]
  by_cases h0 : exp8 m = 0
  · rw [if_pos h0, toMemory_s, if_pos rfl, sign_append_eq_iff h0]
    exact ⟨Or.inr, fun h => h.resolve_left (not_not.2 h0)⟩
  · refine iff_of_true ?_ (Or.inl h0)
    rw [if_neg h0, toMemory_s]
    by_cases hff : exp8 m = 0xFF
    · have hm := longword_fields m
      rw [hff] at hm
      rw [if_pos hff, if_neg (by decide), if_pos rfl]
      exact hm
    · rw [if_neg hff, if_neg (expandExp_ne h0).1, if_neg (expandExp_ne h0).2,
        (expandExp_spec _).2]
      exact longword_fields m

/-- STF after LDF does the same. -/
theorem stf_ldf_iff (m : BitVec 32) :
    (FpMemFormat.f.toMemory (ldf m)).setWidth 32 = m ↔ exp8 m ≠ 0 ∨ frac23 m = 0 := by
  rw [FpMemFormat.toMemory, BitVec.setWidth_setWidth_of_le _ (by decide), BitVec.setWidth_eq, ldf_eq]
  by_cases h0 : exp8 m = 0
  · rw [if_pos h0, toMemory_f, if_pos rfl, sign_append_eq_iff h0]
    exact ⟨Or.inr, fun h => h.resolve_left (not_not.2 h0)⟩
  · refine iff_of_true ?_ (Or.inl h0)
    rw [if_neg h0, toMemory_f, if_neg (expandExp_ne h0).1, (expandExp_spec _).2]
    exact longword_fields m

/-- STT of LDT is the same quadword. -/
theorem stt_ldt (m : Word) : FpMemFormat.t.toMemory (ldt m) = m := rfl

/-- G format exchanges the four words. -/
theorem toNat_convertG (v : Word) :
    (FpFormat.convertG_Floating v).toNat =
      v.toNat % 2 ^ 16 * 2 ^ 48 + v.toNat / 2 ^ 16 % 2 ^ 16 * 2 ^ 32 +
        v.toNat / 2 ^ 32 % 2 ^ 16 * 2 ^ 16 + v.toNat / 2 ^ 48 % 2 ^ 16 := by
  rw [FpFormat.convertG_Floating]
  simp only [toNat_append_eq_add, toNat_extract]
  omega

/-- The words of a G_floating value change places with those at the other end. -/
theorem lane_convertG (v : Word) {i : Nat} (hi : i < 4) :
    (FpFormat.convertG_Floating v).extractLsb' (16 * i) 16 = v.extractLsb' (16 * (3 - i)) 16 := by
  have h0 : v.toNat % 2 ^ 16 < 2 ^ 16 := Nat.mod_lt _ (by decide)
  have h1 : v.toNat / 2 ^ 16 % 2 ^ 16 < 2 ^ 16 := Nat.mod_lt _ (by decide)
  have h2 : v.toNat / 2 ^ 32 % 2 ^ 16 < 2 ^ 16 := Nat.mod_lt _ (by decide)
  have h3 : v.toNat / 2 ^ 48 % 2 ^ 16 < 2 ^ 16 := Nat.mod_lt _ (by decide)
  rw [← BitVec.toNat_inj, toNat_extract, toNat_extract, toNat_convertG]
  obtain rfl | rfl | rfl | rfl : i = 0 ∨ i = 1 ∨ i = 2 ∨ i = 3 := by omega
  all_goals
    simp only [Nat.reduceMul, Nat.reduceSub, Nat.pow_zero, Nat.div_one]
    generalize v.toNat % 2 ^ 16 = w0, v.toNat / 2 ^ 16 % 2 ^ 16 = w1,
      v.toNat / 2 ^ 32 % 2 ^ 16 = w2, v.toNat / 2 ^ 48 % 2 ^ 16 = w3 at h0 h1 h2 h3 ⊢
    omega

/-- STG after LDG: reversing the words twice. -/
theorem stg_ldg (m : Word) : FpMemFormat.g.toMemory (ldg m) = m := by
  refine Library.eq_of_lanes 16 4 (by decide) (by decide) fun i hi => ?_
  have hg : FpMemFormat.g.toMemory (ldg m) =
    FpFormat.convertG_Floating (FpFormat.convertG_Floating m) := rfl
  rw [hg, lane_convertG _ hi, lane_convertG _ (by omega)]
  congr 2
  omega

/-! ## The value of a single -/

/-- The value of an IEEE number of `eb` exponent and `fb` fraction bits that is not a NaN. -/
noncomputable def ieeeValue (eb fb : ℕ) (sign : Bool) (exp frac : ℕ) : EReal :=
  if exp = 2 ^ eb - 1 then (if sign then ⊥ else ⊤)
  else if exp = 0 then
    (signed sign (scaled frac (2 - 2 ^ (eb - 1) - fb)) : ℝ)
  else (signed sign (scaled (2 ^ fb + frac) (exp + 1 - 2 ^ (eb - 1) - fb)) : ℝ)

/-- The value of a single in memory. -/
noncomputable def singleValue (m : BitVec 32) : EReal :=
  ieeeValue 8 23 (m.getLsbD 31) (exp8 m).toNat (frac23 m).toNat

/-- The value of a double in a register. -/
noncomputable def doubleValue (w : Word) : EReal :=
  ieeeValue 11 52 (signOf w) (expOf w) (fracOf w).toNat

/-- A single is a NaN. -/
def IsNaN32 (m : BitVec 32) : Prop := exp8 m = 0xFF ∧ frac23 m ≠ 0

/-- LDS leaves the double of the same value. -/
def LdsLaw (m : BitVec 32) : Prop :=
  ¬ IsNaN32 m → ¬ IsNaNPattern (lds m) ∧ doubleValue (lds m) = singleValue m

/-- The sign bit of a longword. -/
theorem getLsbD_sign1 (m : BitVec 32) : (sign1 m).getLsbD 0 = m.getLsbD 31 := by
  rw [sign1, BitVec.getLsbD_extractLsb']
  rfl

/-- With exponent zero the value is zero iff the fraction is. -/
theorem ieeeValue_exp_zero {eb fb : ℕ} (heb : 0 < eb) (sign : Bool) (frac : ℕ) :
    ieeeValue eb fb sign 0 frac = 0 ↔ frac = 0 := by
  have hne : (0 : ℕ) ≠ 2 ^ eb - 1 := by
    have hlt := Nat.one_lt_two_pow heb.ne'
    omega
  have hpos : (0 : ℝ) < 2 ^ (2 - 2 ^ (eb - 1) - fb : ℤ) := zpow_pos two_pos _
  rw [ieeeValue, if_neg hne, if_pos rfl, ← EReal.coe_zero, EReal.coe_eq_coe_iff, ← abs_eq_zero,
    abs_signed, abs_eq_zero, scaled, mul_eq_zero, or_iff_left hpos.ne', Nat.cast_eq_zero]

/-- A fraction of 23 bits moved to the top of one of 52 is in units `2 ^ 29` times as small. -/
theorem widened (n : ℕ) : 2 ^ 52 + n * 2 ^ 29 = (2 ^ 23 + n) * 2 ^ 29 := by
  ring

/-- LDS keeps the value of every single but the denormals. -/
theorem ldsLaw_iff (m : BitVec 32) : LdsLaw m ↔ exp8 m ≠ 0 ∨ frac23 m = 0 := by
  have hbit := getLsbD_sign1 m
  have h256 := (exp8 m).isLt
  by_cases h0 : exp8 m = 0
  · obtain ⟨hs, hx, hf⟩ := register_fields (sign1 m) 0 0
    have h0N : (exp8 m).toNat = 0 := by rw [h0]; rfl
    have hnn : ¬ IsNaN32 m := fun h => by
      have hff : (exp8 m).toNat = 0xFF := by rw [h.1]; rfl
      omega
    have hld : lds m = register (sign1 m) 0 0 := by rw [lds_eq, if_pos h0]
    have hpat : ¬ IsNaNPattern (lds m) := fun h => by
      rw [hld] at h
      exact absurd (h.1.symm.trans hx) (by decide)
    have hval : doubleValue (lds m) = 0 := by
      rw [hld, doubleValue, hx, hf]
      exact (ieeeValue_exp_zero (by decide) _ _).2 rfl
    have hsingle : singleValue m = 0 ↔ frac23 m = 0 := by
      rw [singleValue, h0N, ieeeValue_exp_zero (by decide), ← BitVec.toNat_inj]
      rfl
    rw [or_iff_right (not_not.2 h0), ← hsingle]
    exact ⟨fun h => (h hnn).2.symm.trans hval, fun h _ => ⟨hpat, hval.trans h.symm⟩⟩
  · refine iff_of_true (fun hnn => ?_) (Or.inl h0)
    have hne : (exp8 m).toNat ≠ 0 := fun h => h0 (BitVec.eq_of_toNat_eq h)
    by_cases hff : exp8 m = 0xFF
    · -- an infinity
      have hz : frac23 m = 0 := by
        by_contra hne
        exact hnn ⟨hff, hne⟩
      have hffN : (exp8 m).toNat = 2 ^ 8 - 1 := by rw [hff]; rfl
      obtain ⟨hs, hx, hf⟩ := register_fields (sign1 m) 0x7FF 0
      have hld : lds m = register (sign1 m) 0x7FF 0 := by
        rw [lds_eq, if_neg h0, if_pos hff, hz]
      rw [hld]
      refine ⟨fun h => h.2 (BitVec.eq_of_toNat_eq (hf.trans (by decide))), ?_⟩
      rw [doubleValue, singleValue, hs, hbit, hffN, ieeeValue, if_pos (by rw [hx]; rfl), ieeeValue,
        if_pos rfl]
    · have hexp := (expandExp_spec (exp8 m)).1
      obtain ⟨hs, hx, hf⟩ := register_fields (sign1 m) (FpFormat.expandExp (exp8 m)) (frac23 m)
      have hld : lds m = register (sign1 m) (FpFormat.expandExp (exp8 m)) (frac23 m) := by
        rw [lds_eq, if_neg h0, if_neg hff]
      have hlt : (exp8 m).toNat ≠ 2 ^ 8 - 1 := fun h => hff (BitVec.eq_of_toNat_eq h)
      rw [hld]
      refine ⟨fun h => ?_, ?_⟩
      · have h7ff := h.1
        omega
      · have hpow : (((exp8 m).toNat + 896 : ℕ) : ℤ) + 1 - 2 ^ (11 - 1) - (52 : ℕ) + (29 : ℕ) =
            (exp8 m).toNat + 1 - 2 ^ (8 - 1) - (23 : ℕ) := by omega
        rw [doubleValue, singleValue, hs, hx, hf, hbit, hexp, ieeeValue, if_neg (by omega),
          if_neg (by omega), ieeeValue, if_neg hlt, if_neg hne, widened, scaled_mul_two_pow, hpow]

/-! ## The VAX memory layouts -/

/-- The number of an F_floating longword as the layout has it: sign in bit 15, exponent in bits
14:7, fraction in bits 6:0 and 31:16. -/
noncomputable def fMemValue (m : BitVec 32) : ℝ :=
  let exp := (m.extractLsb' 7 8).toNat
  let frac := (m.extractLsb' 0 7 ++ m.extractLsb' 16 16).toNat
  if exp = 0 then 0 else signed (m.getLsbD 15) (scaled (2 ^ 23 + frac) (exp - 152))

/-- It is a reserved operand. -/
def FMemReserved (m : BitVec 32) : Prop := m.extractLsb' 7 8 = 0 ∧ m.getLsbD 15 = true

/-- The number of a G_floating quadword: sign in bit 15, exponent in bits 14:4, fraction in bits
3:0, 31:16, 47:32 and 63:48. -/
noncomputable def gMemValue (w : Word) : ℝ :=
  let exp := (w.extractLsb' 4 11).toNat
  let frac := (w.extractLsb' 0 4 ++ w.extractLsb' 16 16 ++ w.extractLsb' 32 16
    ++ w.extractLsb' 48 16).toNat
  if exp = 0 then 0 else signed (w.getLsbD 15) (scaled (2 ^ 52 + frac) (exp - 1077))

/-- LDF reads the layout, and agrees with LDG of the same number. -/
structure LdfLaw (m : BitVec 32) : Prop where
  /-- Reserved operands stay reserved. -/
  reserved : Reserved (ldf m) ↔ FMemReserved m
  /-- The register stands for the number in memory. -/
  value : vaxValue (ldf m) = fMemValue m
  /-- LDG of the same number gives the same value. -/
  agrees : ∀ w : Word, gMemValue w = fMemValue m → vaxValue (ldg w) = vaxValue (ldf m)

/-- The words of a longword swapped. -/
def swapWords (m : BitVec 32) : BitVec 32 := m.extractLsb' 0 16 ++ m.extractLsb' 16 16

/-- Exchanging the words of a longword. -/
theorem toNat_swapWords (m : BitVec 32) :
    ∃ hi lo : Nat, hi < 2 ^ 16 ∧ lo < 2 ^ 16 ∧ m.toNat = hi * 2 ^ 16 + lo ∧
      (swapWords m).toNat = lo * 2 ^ 16 + hi := by
  have hlt := m.isLt
  refine ⟨m.toNat / 2 ^ 16, m.toNat % 2 ^ 16, by omega, by omega, by omega, ?_⟩
  rw [swapWords, toNat_append_eq_add, toNat_extract, toNat_extract]
  omega

/-- LDG reads the layout of G_floating. -/
theorem vaxValue_ldg (w : Word) : vaxValue (ldg w) = gMemValue w := by
  -- the three upper words stay below the sign, the exponent and the top of the fraction
  obtain ⟨rest, hrest, hlow, hr⟩ : ∃ rest : Nat, rest < 2 ^ 48 ∧
      rest = (w.toNat / 2 ^ 16 % 2 ^ 16 * 2 ^ 16 + w.toNat / 2 ^ 32 % 2 ^ 16) * 2 ^ 16 +
        w.toNat / 2 ^ 48 % 2 ^ 16 ∧
      (ldg w).toNat = w.toNat % 2 ^ 16 * 2 ^ 48 + rest := by
    have h1 : w.toNat / 2 ^ 16 % 2 ^ 16 < 2 ^ 16 := Nat.mod_lt _ (by decide)
    have h2 : w.toNat / 2 ^ 32 % 2 ^ 16 < 2 ^ 16 := Nat.mod_lt _ (by decide)
    have h3 : w.toNat / 2 ^ 48 % 2 ^ 16 < 2 ^ 16 := Nat.mod_lt _ (by decide)
    refine ⟨_, ?_, rfl, (toNat_convertG w).trans ?_⟩
    · omega
    · ring
  have hexp : expOf (ldg w) = (w.extractLsb' 4 11).toNat := by
    clear hlow
    rw [expOf_eq, hr, toNat_extract]
    omega
  have hfrac : (fracOf (ldg w)).toNat = (w.extractLsb' 0 4 ++ w.extractLsb' 16 16 ++
      w.extractLsb' 32 16 ++ w.extractLsb' 48 16).toNat := by
    have happ : (w.extractLsb' 0 4 ++ w.extractLsb' 16 16 ++ w.extractLsb' 32 16 ++
        w.extractLsb' 48 16).toNat = w.toNat % 2 ^ 4 * 2 ^ 48 + rest := by
      simp only [toNat_append_eq_add, toNat_extract, Nat.pow_zero, Nat.div_one, hlow]
      ring
    clear hlow
    rw [toNat_fracOf, hr, happ]
    omega
  have hsign : signOf (ldg w) = w.getLsbD 15 := by
    clear hlow
    rw [signOf_eq, hr, getLsbD_eq_toNat, decide_eq_decide]
    omega
  rw [vaxValue, gMemValue, hsign, hexp, wholeFrac, hfrac]

/-- LDF reads a sign from bit 31, an exponent from bits 30:23 and a fraction below. -/
theorem vaxValue_ldf (m : BitVec 32) :
    vaxValue (ldf m) = if (exp8 m).toNat = 0 then 0
      else signed (m.getLsbD 31) (scaled (2 ^ 23 + (frac23 m).toNat) ((exp8 m).toNat - 152)) := by
  by_cases h0 : exp8 m = 0
  · obtain ⟨-, hx, -⟩ := register_fields (sign1 m) 0 0
    have h0N : (exp8 m).toNat = 0 := by rw [h0]; rfl
    rw [ldf_eq, if_pos h0, vaxValue_of_zero (hx.trans rfl), if_pos h0N]
  · obtain ⟨hs, hx, hf⟩ := register_fields (sign1 m) (FpFormat.expandExp (exp8 m)) (frac23 m)
    have hne : (exp8 m).toNat ≠ 0 := fun h => h0 (BitVec.eq_of_toNat_eq h)
    have hexp := (expandExp_spec (exp8 m)).1
    have hpow : (((exp8 m).toNat + 896 : ℕ) : ℤ) - 1077 + (29 : ℕ) = (exp8 m).toNat - 152 := by
      omega
    rw [ldf_eq, if_neg h0, vaxValue, hx, hs, getLsbD_sign1, wholeFrac, hf, hexp, if_neg (by omega),
      if_neg hne, widened, scaled_mul_two_pow, hpow]

/-- LDF loads a reserved operand from exponent zero and the sign in their raw places. -/
theorem reserved_ldf (m : BitVec 32) :
    Reserved (ldf m) ↔ exp8 m = 0 ∧ m.getLsbD 31 = true := by
  by_cases h0 : exp8 m = 0
  · obtain ⟨hs, hx, -⟩ := register_fields (sign1 m) 0 0
    rw [ldf_eq, if_pos h0, Reserved, hs, hx, getLsbD_sign1]
    exact and_congr_left fun _ => iff_of_true rfl h0
  · obtain ⟨-, hx, -⟩ := register_fields (sign1 m) (FpFormat.expandExp (exp8 m)) (frac23 m)
    have hexp := (expandExp_spec (exp8 m)).1
    rw [ldf_eq, if_neg h0, Reserved, hx]
    refine iff_of_false (fun h => ?_) fun h => h0 h.1
    have hz := h.1
    omega

/-- The fields of two words in the one order are those of the other layout. -/
theorem div_swapped {hi lo : Nat} (hhi : hi < 2 ^ 16) (hlo : lo < 2 ^ 16) :
    (lo * 2 ^ 16 + hi) / 2 ^ 23 % 2 ^ 8 = (hi * 2 ^ 16 + lo) / 2 ^ 7 % 2 ^ 8 ∧
      (lo * 2 ^ 16 + hi) % 2 ^ 23 =
        (hi * 2 ^ 16 + lo) % 2 ^ 7 * 2 ^ 16 + (hi * 2 ^ 16 + lo) / 2 ^ 16 % 2 ^ 16 ∧
      (lo * 2 ^ 16 + hi) / 2 ^ 31 % 2 = (hi * 2 ^ 16 + lo) / 2 ^ 15 % 2 := by
  have htop : (lo * 2 ^ 16 + hi) / 2 ^ 16 = lo := by omega
  have hup (k : Nat) : (lo * 2 ^ 16 + hi) / 2 ^ (16 + k) = lo / 2 ^ k := by
    rw [Nat.pow_add, ← Nat.div_div_eq_div_mul, htop]
  clear htop
  refine ⟨?_, ?_, ?_⟩
  · rw [hup 7]
    omega
  · have hhigh : (hi * 2 ^ 16 + lo) / 2 ^ 16 = hi := by omega
    have hlow : (hi * 2 ^ 16 + lo) % 2 ^ 7 = lo % 2 ^ 7 := by omega
    rw [hhigh, hlow]
    clear hhigh hlow hup
    omega
  · rw [hup 15]
    omega

/-- The fields of the swapped longword. -/
theorem swapWords_fields (m : BitVec 32) :
    exp8 (swapWords m) = m.extractLsb' 7 8 ∧
      (frac23 (swapWords m)).toNat = (m.extractLsb' 0 7 ++ m.extractLsb' 16 16).toNat ∧
      (swapWords m).getLsbD 31 = m.getLsbD 15 := by
  obtain ⟨hi, lo, hhi, hlo, hm, hn⟩ := toNat_swapWords m
  obtain ⟨hexp, hfrac, hsign⟩ := div_swapped hhi hlo
  rw [← hm, ← hn] at hexp hfrac hsign
  refine ⟨BitVec.eq_of_toNat_eq ?_, ?_, ?_⟩
  · exact (toNat_extract _ 23 8).trans (hexp.trans (toNat_extract m 7 8).symm)
  · rw [frac23, toNat_append_eq_add, toNat_extract, toNat_extract, toNat_extract, Nat.pow_zero,
      Nat.div_one, Nat.div_one, hfrac]
  · rw [getLsbD_eq_toNat, getLsbD_eq_toNat, hsign]

/-- LDF of the swapped longword reads the layout of F_floating. -/
theorem vaxValue_ldf_swapWords (m : BitVec 32) :
    vaxValue (ldf (swapWords m)) = fMemValue m ∧ (Reserved (ldf (swapWords m)) ↔ FMemReserved m) := by
  obtain ⟨hexp, hfrac, hsign⟩ := swapWords_fields m
  refine ⟨?_, ?_⟩
  · rw [vaxValue_ldf, hexp, hfrac, hsign]
    rfl
  · rw [reserved_ldf, hexp, hsign]
    rfl

/-- The longword's words are equal, or both have exponent zero and the same sign. -/
def LdfOk (m : BitVec 32) : Prop :=
  m.extractLsb' 16 16 = m.extractLsb' 0 16 ∨
    (m.extractLsb' 23 8 = 0 ∧ m.extractLsb' 7 8 = 0 ∧ m.getLsbD 31 = m.getLsbD 15)

/-- Swapping equal words changes nothing. -/
theorem swapWords_eq_iff (m : BitVec 32) :
    swapWords m = m ↔ m.extractLsb' 16 16 = m.extractLsb' 0 16 := by
  obtain ⟨hi, lo, hhi, hlo, hm, hn⟩ := toNat_swapWords m
  have htop : (hi * 2 ^ 16 + lo) / 2 ^ 16 = hi := by omega
  have hlow : (hi * 2 ^ 16 + lo) % 2 ^ 16 = lo := by omega
  rw [← BitVec.toNat_inj, ← BitVec.toNat_inj, toNat_extract, toNat_extract, hn, hm, Nat.pow_zero,
    Nat.div_one]
  omega

/-- Only exponent zero reads as zero. -/
theorem vaxValue_ldf_eq_zero_iff (m : BitVec 32) : vaxValue (ldf m) = 0 ↔ exp8 m = 0 := by
  have hzero : (exp8 m).toNat = 0 ↔ exp8 m = 0 := by
    rw [← BitVec.toNat_inj]
    rfl
  by_cases h0 : exp8 m = 0
  · rw [vaxValue_ldf, if_pos (hzero.2 h0)]
    exact iff_of_true rfl h0
  · refine iff_of_false ?_ h0
    have hmag : (0 : ℝ) < scaled (2 ^ 23 + (frac23 m).toNat) ((exp8 m).toNat - 152) :=
      scaled_pos (by positivity) _
    rw [vaxValue_ldf, if_neg (mt hzero.1 h0), ← abs_eq_zero, abs_signed, abs_of_pos hmag]
    exact hmag.ne'

/-- Numbers that are not zero are the same image when their values are equal. -/
theorem eq_of_vaxValue_eq {a b : Word} (ha : expOf a ≠ 0) (hb : expOf b ≠ 0)
    (h : vaxValue a = vaxValue b) : a = b := by
  have hsb := (vaxValue_eq_iff (Or.inl ha) (Or.inl hb)).1 h
  have hna := toNat_eq_magBits a
  have hnb := toNat_eq_magBits b
  have hma := magBits_eq a
  have hmb := magBits_eq b
  refine BitVec.eq_of_toNat_eq ?_
  rw [hna, hnb]
  unfold signedBits at hsb
  clear hna hnb
  cases hsa : signOf a <;> cases hsb' : signOf b
  all_goals
    simp only [hsa, hsb', if_true, if_false, Bool.false_eq_true] at hsb ⊢
    omega

/-- Numbers that are not zero come from the same longword when their values are equal. -/
theorem ldf_inj {m n : BitVec 32} (hm : exp8 m ≠ 0) (hn : exp8 n ≠ 0)
    (h : vaxValue (ldf m) = vaxValue (ldf n)) : m = n := by
  have hclean {k : BitVec 32} (hk : exp8 k ≠ 0) : expOf (ldf k) ≠ 0 := fun h0 =>
    hk ((vaxValue_ldf_eq_zero_iff k).1 (vaxValue_of_zero h0))
  have hld : ldf m = ldf n :=
    eq_of_vaxValue_eq (hclean hm) (hclean hn) h
  have hstore := (stf_ldf_iff m).2 (Or.inl hm)
  rw [hld, (stf_ldf_iff n).2 (Or.inl hn)] at hstore
  exact hstore.symm

/-- LDF meets the layout exactly where swapping the words changes nothing. -/
theorem ldfLaw_iff (m : BitVec 32) : LdfLaw m ↔ LdfOk m := by
  obtain ⟨hvalue, hres⟩ := vaxValue_ldf_swapWords m
  obtain ⟨hexp, -, hsign⟩ := swapWords_fields m
  constructor
  · intro h
    have heq : vaxValue (ldf m) = vaxValue (ldf (swapWords m)) := h.value.trans hvalue.symm
    by_cases h0 : exp8 m = 0
    · have h0' : exp8 (swapWords m) = 0 := by
        rw [← vaxValue_ldf_eq_zero_iff, ← heq, vaxValue_ldf_eq_zero_iff, h0]
      have hbits := h.reserved
      rw [← hres, reserved_ldf, reserved_ldf, and_iff_right h0, and_iff_right h0', hsign,
        ← Bool.eq_iff_iff] at hbits
      exact Or.inr ⟨h0, hexp.symm.trans h0', hbits⟩
    · have h0' : exp8 (swapWords m) ≠ 0 := by
        rwa [ne_eq, ← vaxValue_ldf_eq_zero_iff, ← heq, vaxValue_ldf_eq_zero_iff]
      exact Or.inl ((swapWords_eq_iff m).1 (ldf_inj h0 h0' heq).symm)
  · intro h
    have hboth : vaxValue (ldf m) = vaxValue (ldf (swapWords m)) ∧
        (Reserved (ldf m) ↔ Reserved (ldf (swapWords m))) := by
      obtain hwords | ⟨h0, h0', hbits⟩ := h
      · rw [(swapWords_eq_iff m).2 hwords]
        exact ⟨rfl, Iff.rfl⟩
      · refine ⟨?_, ?_⟩
        · rw [(vaxValue_ldf_eq_zero_iff m).2 h0,
            (vaxValue_ldf_eq_zero_iff (swapWords m)).2 (hexp.trans h0')]
        · rw [reserved_ldf, reserved_ldf, hexp, hsign, hbits]
          exact and_congr_left fun _ => iff_of_true h0 h0'
    have hval := hboth.1.trans hvalue
    exact ⟨hboth.2.trans hres, hval, fun w hw => (vaxValue_ldg w).trans (hw.trans hval.symm)⟩

/-- Stores give back what loads took, and loads keep the value, with these exceptions. -/
theorem fpFormats_iff (m : BitVec 32) (w : Word) :
    ((FpMemFormat.s.toMemory (lds m)).setWidth 32 = m ↔ exp8 m ≠ 0 ∨ frac23 m = 0) ∧
    ((FpMemFormat.f.toMemory (ldf m)).setWidth 32 = m ↔ exp8 m ≠ 0 ∨ frac23 m = 0) ∧
    FpMemFormat.t.toMemory (ldt w) = w ∧
    FpMemFormat.g.toMemory (ldg w) = w ∧
    (LdsLaw m ↔ exp8 m ≠ 0 ∨ frac23 m = 0) ∧
    (LdfLaw m ↔ LdfOk m) :=
  ⟨sts_lds_iff m, stf_ldf_iff m, stt_ldt w, stg_ldg w, ldsLaw_iff m, ldfLaw_iff m⟩

/-- The least single after zero is stored back as zero by either format and loaded as zero, and the
number 1 in the layout of F_floating is not read as that number. -/
theorem not_fpFormats_least_one :
    (FpMemFormat.s.toMemory (lds 0x00000001)).setWidth 32 ≠ (0x00000001 : BitVec 32) ∧
    (FpMemFormat.f.toMemory (ldf 0x00000001)).setWidth 32 ≠ (0x00000001 : BitVec 32) ∧
    ¬ LdsLaw 0x00000001 ∧ ¬ LdfLaw 0x00004080 := by
  refine ⟨by decide, by decide, ?_, ?_⟩
  · rw [ldsLaw_iff]
    decide
  · rw [ldfLaw_iff, LdfOk]
    decide

end EmulatR
