import Mathlib.Data.Nat.Log
import Mathlib.Tactic.IntervalCases
import EmulatR.Library.BitFields
import EmulatR.Chipset.BusDecode
import EmulatR.System.Board

/-! # The memory arrays after a reset

A reset of the Cchip splits the configured memory over four arrays, greedily and from address 0, and
encodes base and size of each in its address register (chipsetLib/TsunamiCchip.h). The size field
holds a power of two, from 16 MiB to the limit of the variant: a size between two powers is rounded
down, and one below 16 MiB takes the code of 1 GiB.

`coversMemory_iff` says for which memory sizes the decoded windows are the memory. -/

namespace EmulatR

namespace TsunamiCchip

open Library TsunamiBus

/-! ## The registers -/

/-- The size code of an array. -/
def asiz (sizeBytes : Word) (isTyphoon : Bool) : Word :=
  if 0x1000000 ≤ sizeBytes ∧ sizeBytes < 0x2000000 then 0x1
  else if 0x2000000 ≤ sizeBytes ∧ sizeBytes < 0x4000000 then 0x2
  else if 0x4000000 ≤ sizeBytes ∧ sizeBytes < 0x8000000 then 0x3
  else if 0x8000000 ≤ sizeBytes ∧ sizeBytes < 0x10000000 then 0x4
  else if 0x10000000 ≤ sizeBytes ∧ sizeBytes < 0x20000000 then 0x5
  else if 0x20000000 ≤ sizeBytes ∧ sizeBytes < 0x40000000 then 0x6
  else if 0x40000000 ≤ sizeBytes ∧ sizeBytes < 0x80000000 then 0x7
  else if isTyphoon ∧ 0x80000000 ≤ sizeBytes ∧ sizeBytes < 0x100000000 then 0x8
  else if isTyphoon ∧ 0x100000000 ≤ sizeBytes ∧ sizeBytes < 0x200000000 then 0x9
  else if isTyphoon ∧ 0x200000000 ≤ sizeBytes then 0xA
  else 0x7

/-- The register word of an array: 13 row bits, 2 banks. -/
def computeAAR (baseAddr sizeBytes : Word) (isTyphoon : Bool) : Word :=
  if sizeBytes = 0 then 0
  else
    (((baseAddr >>> 24) &&& 0x7FF) <<< 24) ||| (asiz sizeBytes isTyphoon <<< 12) |||
      ((2 : Word) <<< 2) ||| 1

/-- A linear window. -/
@[ext]
structure AarWindow where
  /-- Where it begins. -/
  base : Word
  /-- How long it is, zero for none. -/
  size : Word
  deriving DecidableEq

/-- The window of a register word. -/
def decodeAAR (reg : Word) : AarWindow :=
  ⟨((reg >>> 24) &&& 0x7FF) <<< 24,
    let asiz := ((reg >>> 12) &&& 0xF).toNat
    if asiz = 0 then 0 else (16 * 1024 * 1024 : Word) <<< (asiz - 1)⟩

/-- The largest array of a variant. -/
def maxPerArray (isTyphoon : Bool) : Word := if isTyphoon then 0x200000000 else 0x40000000

/-- The loop of the reset over the arrays that are left. -/
def programArrays (isTyphoon : Bool) : Nat → Word → Word → List Aar
  | 0, _, _ => []
  | n + 1, base, remaining =>
    if remaining = 0 then {} :: programArrays isTyphoon n base remaining
    else
      let thisArray :=
        if maxPerArray isTyphoon < remaining then maxPerArray isTyphoon else remaining
      { base := computeAAR base thisArray isTyphoon, mask := thisArray - 1, enabled := true } ::
        programArrays isTyphoon n (base + thisArray) (remaining - thisArray)

/-- The array registers after a reset. -/
def resetAar (variant : ChipsetVariant) (memSizeBytes : Word) (i : Fin 4) : Aar :=
  (programArrays (variant = .typhoon) 4 0 memSizeBytes).getD i {}

/-- The array registers claim the address as DRAM. -/
def isDramAddress (aar : Fin 4 → Aar) (pa : Word) : Bool :=
  (List.finRange 4).any fun i => (aar i).claims pa

/-- The bus routes to DRAM by this test. -/
theorem bus_isDramAddress_eq {δ : Type} (D : BusDevices δ) (d : δ) (pa : Word) :
    TsunamiBus.isDramAddress D d pa = isDramAddress (D.aar d) pa := rfl

/-! ## What a register word encodes -/

/-- The size limit of an array is two to this. -/
def arrayBits (isTyphoon : Bool) : Nat := if isTyphoon then 33 else 30

/-- An array has at most 2^33 bytes. -/
theorem arrayBits_le (isTyphoon : Bool) : arrayBits isTyphoon ≤ 33 := by
  cases isTyphoon <;> decide

/-- The size that is encoded for a size. -/
def encodedBits (isTyphoon : Bool) (size : Nat) : Nat :=
  if size < 2 ^ 24 then 30 else min (Nat.log 2 size) (arrayBits isTyphoon)

/-- The largest array is a power of two. -/
theorem toNat_maxPerArray (isTyphoon : Bool) :
    (maxPerArray isTyphoon).toNat = 2 ^ arrayBits isTyphoon := by
  cases isTyphoon <;> rfl

/-- The encoded size is one that the field has. -/
theorem encodedBits_bounds (isTyphoon : Bool) (size : Nat) :
    24 ≤ encodedBits isTyphoon size ∧ encodedBits isTyphoon size ≤ arrayBits isTyphoon := by
  have hlimit : 30 ≤ arrayBits isTyphoon := by cases isTyphoon <;> decide
  rw [encodedBits]
  split
  · exact ⟨by decide, hlimit⟩
  · have hlog : 24 ≤ Nat.log 2 size := Nat.le_log_of_pow_le (by decide) (by omega)
    omega

/-- The ranges of the size codes are those of the logarithm. -/
theorem asiz_eq (isTyphoon : Bool) (size : Word) (k : Nat) (hk : Nat.log 2 size.toNat = k) :
    asiz size isTyphoon =
      if k = 24 then 0x1 else if k = 25 then 0x2 else if k = 26 then 0x3 else if k = 27 then 0x4
      else if k = 28 then 0x5 else if k = 29 then 0x6 else if k = 30 then 0x7
      else if isTyphoon ∧ k = 31 then 0x8 else if isTyphoon ∧ k = 32 then 0x9
      else if isTyphoon ∧ 33 ≤ k then 0xA else 0x7 := by
  have hrange : ∀ j, 24 ≤ j → ((2 ^ j ≤ size.toNat ∧ size.toNat < 2 ^ (j + 1)) ↔ k = j) := by
    intro j hj
    constructor
    · rintro ⟨hlow, hhigh⟩
      rw [← hk]
      exact Nat.log_eq_of_pow_le_of_lt_pow hlow hhigh
    · rintro rfl
      have hne : size.toNat ≠ 0 := fun h => by
        rw [h, Nat.log_zero_right] at hk
        omega
      rw [← hk]
      exact ⟨Nat.pow_log_le_self 2 hne, Nat.lt_pow_succ_log_self (by decide) _⟩
  have htop : 2 ^ 33 ≤ size.toNat ↔ 33 ≤ k := by
    constructor
    · intro hle
      rw [← hk]
      exact Nat.le_log_of_pow_le (by decide) hle
    · intro hle
      by_contra hlt
      have hlog := Nat.log_lt_of_lt_pow' (b := 2) (by decide) (Nat.lt_of_not_le hlt)
      omega
  rw [asiz]
  simp only [BitVec.le_def, BitVec.lt_def, BitVec.reduceToNat, ← hrange 24 (by decide),
    ← hrange 25 (by decide), ← hrange 26 (by decide), ← hrange 27 (by decide),
    ← hrange 28 (by decide), ← hrange 29 (by decide), ← hrange 30 (by decide),
    ← hrange 31 (by decide), ← hrange 32 (by decide), ← htop, Nat.reducePow, Nat.reduceAdd]

/-- The size code counts from 8 MiB in powers of two. -/
theorem toNat_asiz (isTyphoon : Bool) (size : Word) :
    (asiz size isTyphoon).toNat = encodedBits isTyphoon size.toNat - 23 := by
  have hsmall : size.toNat < 2 ^ 24 ↔ Nat.log 2 size.toNat < 24 := by
    constructor
    · exact Nat.log_lt_of_lt_pow' (by decide)
    · exact Nat.lt_pow_of_log_lt (by decide)
  rw [asiz_eq isTyphoon size _ rfl, encodedBits, arrayBits]
  simp only [hsmall]
  generalize Nat.log 2 size.toNat = k
  by_cases hlow : k < 24
  · rw [if_pos hlow]
    have : ∀ j, 24 ≤ j → k ≠ j := fun j hj => by omega
    simp [this, show ¬ 33 ≤ k by omega]
  · rw [if_neg hlow]
    by_cases hhigh : 33 ≤ k
    · have : ∀ j, j < 33 → k ≠ j := fun j hj => by omega
      cases isTyphoon with
      | false =>
        simp [this]
        omega
      | true =>
        simp [this, hhigh]
    · interval_cases k <;> cases isTyphoon <;> rfl

/-- The fields of a register word are side by side. -/
theorem toNat_computeAAR (baseAddr sizeBytes : Word) (isTyphoon : Bool) (hsize : sizeBytes ≠ 0) :
    (computeAAR baseAddr sizeBytes isTyphoon).toNat =
      baseAddr.toNat / 2 ^ 24 % 2 ^ 11 * 2 ^ 24 +
        ((encodedBits isTyphoon sizeBytes.toNat - 23) * 2 ^ 12 + 9) := by
  have hbits := encodedBits_bounds isTyphoon sizeBytes.toNat
  have hlimit := arrayBits_le isTyphoon
  have haddr : ((baseAddr >>> 24) &&& 0x7FF).toNat = baseAddr.toNat / 2 ^ 24 % 2 ^ 11 := by
    rw [toNat_and_lowMask 11 rfl, BitVec.toNat_ushiftRight, Nat.shiftRight_eq_div_pow]
  rw [computeAAR, if_neg hsize, BitVec.or_assoc, BitVec.or_assoc]
  simp only [BitVec.toNat_or, BitVec.toNat_shiftLeft, haddr, toNat_asiz, BitVec.reduceToNat]
  generalize encodedBits isTyphoon sizeBytes.toNat = e at hbits ⊢
  have ha : baseAddr.toNat / 2 ^ 24 % 2 ^ 11 < 2 ^ 11 := Nat.mod_lt _ (by decide)
  generalize baseAddr.toNat / 2 ^ 24 % 2 ^ 11 = a at ha ⊢
  have hlow : (e - 23) <<< 12 % 2 ^ 64 ||| (2 <<< 2 % 2 ^ 64 ||| 1) = (e - 23) * 2 ^ 12 + 9 := by
    rw [Nat.mod_eq_of_lt (by rw [Nat.shiftLeft_eq]; omega),
      ← Nat.shiftLeft_add_eq_or_of_lt (by decide), Nat.shiftLeft_eq]
    rfl
  rw [hlow, Nat.mod_eq_of_lt (by rw [Nat.shiftLeft_eq]; omega),
    ← Nat.shiftLeft_add_eq_or_of_lt (by omega), Nat.shiftLeft_eq]

/-- A decoded base keeps eleven bits of the base, and a decoded size is a power of two. -/
theorem decodeAAR_computeAAR (baseAddr sizeBytes : Word) (isTyphoon : Bool)
    (hsize : sizeBytes ≠ 0) :
    (decodeAAR (computeAAR baseAddr sizeBytes isTyphoon)).base.toNat =
        baseAddr.toNat / 2 ^ 24 % 2 ^ 11 * 2 ^ 24 ∧
      (decodeAAR (computeAAR baseAddr sizeBytes isTyphoon)).size.toNat =
        2 ^ encodedBits isTyphoon sizeBytes.toNat := by
  have hword := toNat_computeAAR baseAddr sizeBytes isTyphoon hsize
  have hbits := encodedBits_bounds isTyphoon sizeBytes.toNat
  have hlimit := arrayBits_le isTyphoon
  generalize computeAAR baseAddr sizeBytes isTyphoon = reg at hword ⊢
  generalize encodedBits isTyphoon sizeBytes.toNat = e at hword hbits ⊢
  have hbase : ((reg >>> 24) &&& 0x7FF).toNat = baseAddr.toNat / 2 ^ 24 % 2 ^ 11 := by
    rw [toNat_and_lowMask 11 rfl, BitVec.toNat_ushiftRight, Nat.shiftRight_eq_div_pow, hword]
    omega
  have hcode : ((reg >>> 12) &&& 0xF).toNat = e - 23 := by
    rw [toNat_and_lowMask 4 rfl, BitVec.toNat_ushiftRight, Nat.shiftRight_eq_div_pow, hword]
    omega
  constructor
  · rw [decodeAAR, BitVec.toNat_shiftLeft, hbase, Nat.shiftLeft_eq, Nat.mod_eq_of_lt (by omega)]
  · have hpow : 2 ^ 24 * 2 ^ (e - 24) = 2 ^ e := by
      rw [← Nat.pow_add]
      congr 1
      omega
    have hlt : 2 ^ e < 2 ^ 64 := Nat.pow_lt_pow_right (by decide) (by omega)
    rw [decodeAAR]
    simp only [hcode]
    rw [if_neg (by omega), BitVec.toNat_shiftLeft, Nat.shiftLeft_eq,
      show e - 23 - 1 = e - 24 by omega, show (16 * 1024 * 1024 : Word).toNat = 2 ^ 24 from rfl,
      hpow, Nat.mod_eq_of_lt hlt]

/-- A window is recovered from its register word iff its base is a multiple of 16 MiB in the eleven
bits and its size a power of two within the limits. An array without memory has the word 0. -/
theorem decodeAAR_computeAAR_iff (base size : Word) (isTyphoon : Bool) :
    decodeAAR (computeAAR base size isTyphoon) = ⟨base, size⟩ ↔
      (base = 0 ∧ size = 0) ∨ (2 ^ 24 ∣ base.toNat ∧ base.toNat < 2 ^ 35 ∧
        ∃ k, 24 ≤ k ∧ k ≤ arrayBits isTyphoon ∧ size.toNat = 2 ^ k) := by
  by_cases hsize : size = 0
  · subst hsize
    have hzero : ¬ ∃ k, 24 ≤ k ∧ k ≤ arrayBits isTyphoon ∧ (0 : Word).toNat = 2 ^ k := by
      rintro ⟨k, -, -, hk⟩
      exact absurd hk.symm (Nat.pos_iff_ne_zero.1 (Nat.two_pow_pos k))
    have hword : decodeAAR (computeAAR base 0 isTyphoon) = ⟨0, 0⟩ := by
      rw [computeAAR, if_pos rfl]
      rfl
    simp only [hword, AarWindow.ext_iff, hzero, and_false, or_false, and_true]
    exact eq_comm
  · obtain ⟨hbase, hsizes⟩ := decodeAAR_computeAAR base size isTyphoon hsize
    have hbits := encodedBits_bounds isTyphoon size.toNat
    simp only [AarWindow.ext_iff, ← BitVec.toNat_inj, hbase, hsizes]
    constructor
    · rintro ⟨hb, hs⟩
      exact Or.inr ⟨by omega, by omega, _, hbits.1, hbits.2, hs.symm⟩
    · rintro (⟨-, h⟩ | ⟨hdvd, hlt, k, hlow, hhigh, hk⟩)
      · exact absurd (BitVec.toNat_inj.1 h) hsize
      · have hlarge : ¬ 2 ^ k < 2 ^ 24 :=
          Nat.not_lt.2 (Nat.pow_le_pow_right (by decide) hlow)
        have hcode : encodedBits isTyphoon size.toNat = k := by
          rw [encodedBits, hk, if_neg hlarge, Nat.log_pow (by decide), Nat.min_eq_left hhigh]
        rw [hcode, hk]
        exact ⟨by omega, rfl⟩

/-! ## The loop of the reset -/

/-- Base and size of an array in the split of the memory. -/
def arrayShare (isTyphoon : Bool) (memSizeBytes : Word) (i : Nat) : AarWindow :=
  let limit := (maxPerArray isTyphoon).toNat
  ⟨BitVec.ofNat 64 (i * limit), BitVec.ofNat 64 (min (memSizeBytes.toNat - i * limit) limit)⟩

/-- The register of a share. -/
def shareAar (isTyphoon : Bool) (share : AarWindow) : Aar :=
  if share.size = 0 then {}
  else
    { base := computeAAR share.base share.size isTyphoon, mask := share.size - 1, enabled := true }

/-- From array `i` on the loop programs the shares. -/
theorem getElem?_programArrays (isTyphoon : Bool) (memSizeBytes : Word) :
    ∀ (n i : Nat) (base remaining : Word) (j : Nat), j < n →
      remaining.toNat = memSizeBytes.toNat - i * (maxPerArray isTyphoon).toNat →
      (remaining ≠ 0 → base.toNat = i * (maxPerArray isTyphoon).toNat) →
      (programArrays isTyphoon n base remaining)[j]? =
        some (shareAar isTyphoon (arrayShare isTyphoon memSizeBytes (i + j))) := by
  intro n
  induction n with
  | zero => intro _ _ _ j hj; omega
  | succ n ih =>
    intro i base remaining j hj hrem hbase
    have hsucc : (i + 1) * (maxPerArray isTyphoon).toNat =
        i * (maxPerArray isTyphoon).toNat + (maxPerArray isTyphoon).toNat := Nat.succ_mul _ _
    have hpos : 0 < (maxPerArray isTyphoon).toNat := by cases isTyphoon <;> decide
    rw [programArrays]
    by_cases hdone : remaining = 0
    · -- nothing is left: this array and the later ones have no memory
      have hzero : memSizeBytes.toNat - i * (maxPerArray isTyphoon).toNat = 0 := by
        rw [← hrem, hdone]
        rfl
      rw [if_pos hdone]
      cases j with
      | zero =>
        have hsize : (arrayShare isTyphoon memSizeBytes i).size = 0 := by
          rw [arrayShare]
          simp only [hzero, Nat.zero_min]
          rfl
        rw [List.getElem?_cons_zero, Nat.add_zero, shareAar, if_pos hsize]
      | succ j =>
        rw [List.getElem?_cons_succ, show i + (j + 1) = i + 1 + j by omega]
        refine ih (i + 1) base remaining j (by omega) ?_ fun h => absurd hdone h
        rw [hrem]
        omega
    · have hbase := hbase hdone
      have hrempos : 0 < remaining.toNat :=
        Nat.pos_of_ne_zero fun h => hdone (BitVec.eq_of_toNat_eq h)
      have hthis : (if maxPerArray isTyphoon < remaining then maxPerArray isTyphoon
          else remaining).toNat = min remaining.toNat (maxPerArray isTyphoon).toNat := by
        split
        case isTrue h => exact (Nat.min_eq_right (Nat.le_of_lt h)).symm
        case isFalse h => exact (Nat.min_eq_left (Nat.le_of_not_lt h)).symm
      rw [if_neg hdone]
      simp only []
      generalize (if maxPerArray isTyphoon < remaining then maxPerArray isTyphoon
        else remaining) = thisArray at hthis ⊢
      cases j with
      | zero =>
        have hshare : arrayShare isTyphoon memSizeBytes i = ⟨base, thisArray⟩ := by
          rw [arrayShare, ← hrem, ← hthis, ← hbase, BitVec.ofNat_toNat, BitVec.ofNat_toNat,
            BitVec.setWidth_eq, BitVec.setWidth_eq]
        have hne : thisArray ≠ 0 := fun h => by
          rw [h] at hthis
          simp only [BitVec.toNat_zero, BitVec.ofNat_eq_ofNat] at hthis
          omega
        rw [List.getElem?_cons_zero, Nat.add_zero, hshare, shareAar, if_neg hne]
      | succ j =>
        have hmem := memSizeBytes.isLt
        have hleft : (remaining - thisArray).toNat = remaining.toNat - thisArray.toNat :=
          BitVec.toNat_sub_of_le (BitVec.le_def.2 (by omega))
        rw [List.getElem?_cons_succ, show i + (j + 1) = i + 1 + j by omega]
        refine ih (i + 1) _ _ j (by omega) (by omega) fun hmore => ?_
        have hmorepos : 0 < (remaining - thisArray).toNat :=
          Nat.pos_of_ne_zero fun h => hmore (BitVec.eq_of_toNat_eq h)
        rw [BitVec.toNat_add, Nat.mod_eq_of_lt (by omega)]
        omega

/-- A reset programs each array with its share. -/
theorem resetAar_eq (variant : ChipsetVariant) (memSizeBytes : Word) (i : Fin 4) :
    resetAar variant memSizeBytes i =
      shareAar (variant = .typhoon) (arrayShare (variant = .typhoon) memSizeBytes i) := by
  have h := getElem?_programArrays (variant = .typhoon) memSizeBytes 4 0 0 memSizeBytes i i.isLt
    (by omega) (fun _ => by simp)
  rw [resetAar, List.getD_eq_getElem?_getD, h, Option.getD_some, Nat.zero_add]

/-- A share in numbers. -/
structure ShareSpec (isTyphoon : Bool) (memSizeBytes : Word) (i : Nat) (share : AarWindow) :
    Prop where
  /-- The arrays lie one after the other at their largest size. -/
  base_eq : share.base.toNat = i * 2 ^ arrayBits isTyphoon
  /-- The base fits the field of the register. -/
  base_dvd : 2 ^ 24 ∣ share.base.toNat
  /-- It is below 32 GiB. -/
  base_lt : share.base.toNat < 2 ^ 35
  /-- An array has what is left of memory, up to its largest size. -/
  size_eq : share.size.toNat =
    min (memSizeBytes.toNat - i * 2 ^ arrayBits isTyphoon) (2 ^ arrayBits isTyphoon)
  /-- Those past the end of memory are empty. -/
  size_ne_zero_iff : share.size ≠ 0 ↔ i * 2 ^ arrayBits isTyphoon < memSizeBytes.toNat

/-- The shares are so. -/
theorem arrayShare_spec (isTyphoon : Bool) (memSizeBytes : Word) (i : Fin 4) :
    ShareSpec isTyphoon memSizeBytes i (arrayShare isTyphoon memSizeBytes i) := by
  have hmem := memSizeBytes.isLt
  have hunit : (i : Nat) * 2 ^ arrayBits isTyphoon < 2 ^ 35 ∧
      2 ^ 24 ∣ (i : Nat) * 2 ^ arrayBits isTyphoon := by
    have := i.isLt
    cases isTyphoon with
    | false => simp only [arrayBits, Bool.false_eq_true, if_false]; omega
    | true => simp only [arrayBits, if_true]; omega
  have hbase : (arrayShare isTyphoon memSizeBytes i).base.toNat =
      i * 2 ^ arrayBits isTyphoon := by
    rw [arrayShare, toNat_maxPerArray, BitVec.toNat_ofNat, Nat.mod_eq_of_lt (by omega)]
  have hsize : (arrayShare isTyphoon memSizeBytes i).size.toNat =
      min (memSizeBytes.toNat - i * 2 ^ arrayBits isTyphoon) (2 ^ arrayBits isTyphoon) := by
    rw [arrayShare, toNat_maxPerArray, BitVec.toNat_ofNat, Nat.mod_eq_of_lt (by omega)]
  have hlimit : 0 < 2 ^ arrayBits isTyphoon := Nat.two_pow_pos _
  refine ⟨hbase, hbase ▸ hunit.2, hbase ▸ hunit.1, hsize, ?_⟩
  rw [ne_eq, ← BitVec.toNat_inj, hsize, show (0 : Word).toNat = 0 from rfl]
  omega

/-! ## The windows -/

/-- The register of a share claims the window that its word encodes. -/
theorem claims_shareAar_iff (isTyphoon : Bool) (share : AarWindow) (pa : Word) :
    (shareAar isTyphoon share).claims pa = true ↔
      share.size ≠ 0 ∧ share.base.toNat / 2 ^ 24 % 2 ^ 11 * 2 ^ 24 ≤ pa.toNat ∧
        pa.toNat < share.base.toNat / 2 ^ 24 % 2 ^ 11 * 2 ^ 24 +
          2 ^ encodedBits isTyphoon share.size.toNat := by
  by_cases hsize : share.size = 0
  · rw [shareAar, if_pos hsize]
    simp only [Aar.claims, Bool.false_and, Bool.false_eq_true, ne_eq, hsize, not_true_eq_false,
      false_and]
  · obtain ⟨hbase, hsizes⟩ := decodeAAR_computeAAR share.base share.size isTyphoon hsize
    have hbits := encodedBits_bounds isTyphoon share.size.toNat
    have hlimit := arrayBits_le isTyphoon
    have hpow : 2 ^ encodedBits isTyphoon share.size.toNat ≤ 2 ^ 33 :=
      Nat.pow_le_pow_right (by decide) (by omega)
    have hpos : 0 < 2 ^ encodedBits isTyphoon share.size.toNat := Nat.two_pow_pos _
    rw [shareAar, if_neg hsize]
    generalize computeAAR share.base share.size isTyphoon = word at hbase hsizes
    generalize 2 ^ encodedBits isTyphoon share.size.toNat = window at hsizes hpow hpos ⊢
    change (true && (decodeAAR word).size != 0 && decide ((decodeAAR word).base ≤ pa) &&
      decide (pa < (decodeAAR word).base + (decodeAAR word).size)) = true ↔ _
    have hne : (decodeAAR word).size ≠ 0 := fun h => by
      rw [h] at hsizes
      exact absurd hsizes (Nat.ne_of_lt hpos)
    have hend : ((decodeAAR word).base + (decodeAAR word).size).toNat =
        share.base.toNat / 2 ^ 24 % 2 ^ 11 * 2 ^ 24 + window := by
      rw [BitVec.toNat_add, hbase, hsizes, Nat.mod_eq_of_lt (by omega)]
    simp only [Bool.true_and, Bool.and_eq_true, bne_iff_ne, decide_eq_true_eq, BitVec.le_def,
      BitVec.lt_def, hend, hbase, ne_eq, hne, hsize, not_false_eq_true, true_and]

/-- The address is in the window of array `i`: `2 ^ encodedBits` bytes from its base, if it has
memory. -/
def InWindow (isTyphoon : Bool) (mem i pa : Nat) : Prop :=
  i * 2 ^ arrayBits isTyphoon < mem ∧ i * 2 ^ arrayBits isTyphoon ≤ pa ∧
    pa < i * 2 ^ arrayBits isTyphoon +
      2 ^ encodedBits isTyphoon (min (mem - i * 2 ^ arrayBits isTyphoon) (2 ^ arrayBits isTyphoon))

/-- A window ends in front of the next. -/
theorem InWindow.lt_next {isTyphoon : Bool} {mem i pa : Nat} (h : InWindow isTyphoon mem i pa) :
    pa < (i + 1) * 2 ^ arrayBits isTyphoon := by
  refine Nat.lt_of_lt_of_le h.2.2 ?_
  rw [Nat.succ_mul]
  exact Nat.add_le_add_left (Nat.pow_le_pow_right (by decide) (encodedBits_bounds _ _).2) _

/-- An address is in no window but that of its place. -/
theorem InWindow.eq_div {isTyphoon : Bool} {mem i pa : Nat} (h : InWindow isTyphoon mem i pa) :
    i = pa / 2 ^ arrayBits isTyphoon :=
  (Nat.div_eq_of_lt_le h.2.1 h.lt_next).symm

/-- The windows are what the registers claim. -/
theorem claims_resetAar_iff (variant : ChipsetVariant) (memSizeBytes : Word) (i : Fin 4)
    (pa : Word) :
    (resetAar variant memSizeBytes i).claims pa = true ↔
      InWindow (variant = .typhoon) memSizeBytes.toNat i pa.toNat := by
  have hshare := arrayShare_spec (variant = .typhoon) memSizeBytes i
  have hstart : (arrayShare (variant = .typhoon) memSizeBytes i).base.toNat / 2 ^ 24 % 2 ^ 11 *
      2 ^ 24 = i * 2 ^ arrayBits (variant = .typhoon) := by
    rw [← hshare.base_eq]
    have := hshare.base_lt
    have := hshare.base_dvd
    omega
  rw [resetAar_eq, claims_shareAar_iff, hstart, hshare.size_eq, hshare.size_ne_zero_iff, InWindow]

/-- The arrays cover the configured memory and only that. -/
structure CoversMemory (variant : ChipsetVariant) (memSizeBytes : Word) : Prop where
  /-- The windows are pairwise disjoint. -/
  disjoint : ∀ (i j : Fin 4) (pa : Word), (resetAar variant memSizeBytes i).claims pa = true →
    (resetAar variant memSizeBytes j).claims pa = true → i = j
  /-- Together they are the memory. -/
  covers : ∀ pa : Word, isDramAddress (resetAar variant memSizeBytes) pa = true ↔ pa < memSizeBytes
  /-- The base and the size of each array are recovered from its register word. -/
  recovers : ∀ i : Fin 4, let share := arrayShare (variant = .typhoon) memSizeBytes i
    share.size ≠ 0 →
      decodeAAR (computeAAR share.base share.size (variant = .typhoon)) = share

/-- The memory sizes that the registers can express: at most four arrays, and a last one that is
full or a power of two from 16 MiB on. -/
def Expressible (variant : ChipsetVariant) (memSizeBytes : Word) : Prop :=
  let limit := (maxPerArray (variant = .typhoon)).toNat
  memSizeBytes.toNat ≤ 4 * limit ∧
    (memSizeBytes.toNat % limit = 0 ∨ ∃ k, 24 ≤ k ∧ memSizeBytes.toNat % limit = 2 ^ k)

/-- The windows never overlap, whatever the memory size. -/
theorem resetAar_disjoint (variant : ChipsetVariant) (memSizeBytes : Word) (i j : Fin 4) (pa : Word)
    (hi : (resetAar variant memSizeBytes i).claims pa = true)
    (hj : (resetAar variant memSizeBytes j).claims pa = true) : i = j := by
  have hi' := ((claims_resetAar_iff variant memSizeBytes i pa).1 hi).eq_div
  have hj' := ((claims_resetAar_iff variant memSizeBytes j pa).1 hj).eq_div
  exact Fin.ext (hi'.trans hj'.symm)

/-- The size of the last array is encoded exactly. -/
theorem encodedBits_of_expressible (isTyphoon : Bool) (share : Nat)
    (hshare : share = 2 ^ arrayBits isTyphoon ∨
      share < 2 ^ arrayBits isTyphoon ∧ ∃ k, 24 ≤ k ∧ share = 2 ^ k) :
    2 ^ encodedBits isTyphoon share = share := by
  have hlimit : 24 ≤ arrayBits isTyphoon := by cases isTyphoon <;> decide
  obtain ⟨k, hlow, hhigh, rfl⟩ : ∃ k, 24 ≤ k ∧ k ≤ arrayBits isTyphoon ∧ share = 2 ^ k := by
    obtain h | ⟨hlt, k, hk, rfl⟩ := hshare
    · exact ⟨_, hlimit, Nat.le_refl _, h⟩
    · exact ⟨k, hk, Nat.le_of_lt ((Nat.pow_lt_pow_iff_right (by decide)).1 hlt), rfl⟩
  have hlarge : ¬ 2 ^ k < 2 ^ 24 := Nat.not_lt.2 (Nat.pow_le_pow_right (by decide) hlow)
  rw [encodedBits, if_neg hlarge, Nat.log_pow (by decide), Nat.min_eq_left hhigh]

/-- The size of an array that has memory: the limit, or for the last one the remainder. -/
theorem share_eq (limit mem i : Nat) (hi : i * limit < mem) :
    min (mem - i * limit) limit = limit ∨
      min (mem - i * limit) limit < limit ∧ min (mem - i * limit) limit = mem % limit := by
  by_cases hfull : limit ≤ mem - i * limit
  · exact Or.inl (Nat.min_eq_right hfull)
  · have hmod : mem % limit = mem - i * limit := by
      have hsum : mem = (mem - i * limit) + i * limit := by omega
      rw [hsum, Nat.add_mul_mod_self_right, ← hsum, Nat.mod_eq_of_lt (by omega)]
    rw [Nat.min_eq_left (by omega), hmod]
    exact Or.inr ⟨by omega, rfl⟩

/-- An address is of DRAM when some array claims it. -/
theorem isDramAddress_iff (aar : Fin 4 → Aar) (pa : Word) :
    isDramAddress aar pa = true ↔ ∃ i, (aar i).claims pa = true := by
  rw [isDramAddress, List.any_eq_true]
  exact ⟨fun ⟨i, _, h⟩ => ⟨i, h⟩, fun ⟨i, h⟩ => ⟨i, List.mem_finRange i, h⟩⟩

/-- With an expressible size every share is encoded exactly. -/
theorem encodedBits_share {variant : ChipsetVariant} {memSizeBytes : Word}
    (h : Expressible variant memSizeBytes) (i : Nat)
    (hi : i * 2 ^ arrayBits (variant = .typhoon) < memSizeBytes.toNat) :
    2 ^ encodedBits (variant = .typhoon) (min
        (memSizeBytes.toNat - i * 2 ^ arrayBits (variant = .typhoon))
        (2 ^ arrayBits (variant = .typhoon))) =
      min (memSizeBytes.toNat - i * 2 ^ arrayBits (variant = .typhoon))
        (2 ^ arrayBits (variant = .typhoon)) := by
  obtain ⟨-, hlast⟩ := h
  rw [toNat_maxPerArray] at hlast
  refine encodedBits_of_expressible _ _ ?_
  obtain hfull | ⟨hlt, hmod⟩ := share_eq _ _ i hi
  · exact Or.inl hfull
  · rw [← hmod] at hlast
    exact Or.inr ⟨hlt, hlast.resolve_left (by omega)⟩

/-- With an expressible size the windows are the memory. -/
theorem covers_of_expressible {variant : ChipsetVariant} {memSizeBytes : Word}
    (h : Expressible variant memSizeBytes) (pa : Word) :
    isDramAddress (resetAar variant memSizeBytes) pa = true ↔ pa < memSizeBytes := by
  have htotal := h.1
  rw [isDramAddress_iff, BitVec.lt_def]
  rw [toNat_maxPerArray] at htotal
  simp only [claims_resetAar_iff, InWindow]
  constructor
  · rintro ⟨i, hi, hlow, hhigh⟩
    rw [encodedBits_share h i hi] at hhigh
    omega
  · intro hpa
    have hpos : 0 < 2 ^ arrayBits (variant = .typhoon) := Nat.two_pow_pos _
    have hdiv := Nat.div_add_mod pa.toNat (2 ^ arrayBits (variant = .typhoon))
    have hmod := Nat.mod_lt pa.toNat hpos
    rw [Nat.mul_comm] at hdiv
    obtain ⟨i, hi⟩ : ∃ i : Fin 4, (i : Nat) = pa.toNat / 2 ^ arrayBits (variant = .typhoon) :=
      ⟨⟨_, Nat.div_lt_of_lt_mul (by omega)⟩, rfl⟩
    rw [← hi] at hdiv
    refine ⟨i, by omega, by omega, ?_⟩
    rw [encodedBits_share h i (by omega)]
    omega

/-- With an expressible size each base and size is recovered. -/
theorem recovers_of_expressible {variant : ChipsetVariant} {memSizeBytes : Word}
    (h : Expressible variant memSizeBytes) (i : Fin 4) :
    let share := arrayShare (variant = .typhoon) memSizeBytes i
    share.size ≠ 0 →
      decodeAAR (computeAAR share.base share.size (variant = .typhoon)) = share := by
  intro share hsize
  have hspec := arrayShare_spec (variant = .typhoon) memSizeBytes i
  have hexact := encodedBits_share h i (hspec.size_ne_zero_iff.1 hsize)
  have hbits := encodedBits_bounds (variant = .typhoon) (min
    (memSizeBytes.toNat - i * 2 ^ arrayBits (variant = .typhoon))
    (2 ^ arrayBits (variant = .typhoon)))
  refine (decodeAAR_computeAAR_iff share.base share.size _).2
    (Or.inr ⟨hspec.base_dvd, hspec.base_lt, _, hbits.1, hbits.2, ?_⟩)
  rw [hspec.size_eq, hexact]

section Covered

variable {isTyphoon : Bool} {mem : Nat}

/-- The windows are the memory. -/
def Covered (isTyphoon : Bool) (mem : Nat) : Prop :=
  ∀ pa < 2 ^ 64, (∃ i : Fin 4, InWindow isTyphoon mem i pa) ↔ pa < mem

/-- Past four arrays no window has an address. -/
theorem Covered.le_four (h : Covered isTyphoon mem) : mem ≤ 4 * 2 ^ arrayBits isTyphoon := by
  by_contra hlarge
  have hlimit : 2 ^ arrayBits isTyphoon ≤ 2 ^ 33 :=
    Nat.pow_le_pow_right (by decide) (arrayBits_le isTyphoon)
  obtain ⟨i, hi⟩ := (h (4 * 2 ^ arrayBits isTyphoon) (by omega)).2 (by omega)
  have hnext := Nat.lt_of_mul_lt_mul_right hi.lt_next
  omega

/-- The window of the last array is its memory. -/
theorem Covered.last_eq (h : Covered isTyphoon mem) (hmem : mem < 2 ^ 64) {last rest : Nat}
    (hlast : last < 4) (hsplit : mem = last * 2 ^ arrayBits isTyphoon + rest) (hpos : 0 < rest)
    (hrest : rest < 2 ^ arrayBits isTyphoon) : 2 ^ encodedBits isTyphoon rest = rest := by
  have hshare : min (mem - last * 2 ^ arrayBits isTyphoon) (2 ^ arrayBits isTyphoon) = rest := by
    omega
  obtain hshort | hexact | hlong := Nat.lt_trichotomy (2 ^ encodedBits isTyphoon rest) rest
  · -- the address after the window is memory that no window has
    obtain ⟨i, hi⟩ := (h (last * 2 ^ arrayBits isTyphoon + 2 ^ encodedBits isTyphoon rest)
      (by omega)).2 (by omega)
    have hsame : (i : Nat) = last := by
      rw [hi.eq_div]
      exact Nat.div_eq_of_lt_le (Nat.le_add_right _ _) (by rw [Nat.succ_mul]; omega)
    have hend := hi.2.2
    rw [hsame, hshare] at hend
    exact absurd hend (Nat.lt_irrefl _)
  · exact hexact
  · -- the first address after the memory is in the window
    have hpast := (h mem hmem).1 ⟨⟨last, hlast⟩, by dsimp only; omega, by dsimp only; omega,
      by dsimp only; rw [hshare]; omega⟩
    exact absurd hpast (Nat.lt_irrefl _)

/-- Where memory is covered, what is left for the last array is nothing or a power of two. -/
theorem Covered.last_expressible (h : Covered isTyphoon mem) (hmem : mem < 2 ^ 64) :
    mem % 2 ^ arrayBits isTyphoon = 0 ∨
      ∃ k, 24 ≤ k ∧ mem % 2 ^ arrayBits isTyphoon = 2 ^ k := by
  by_cases hzero : mem % 2 ^ arrayBits isTyphoon = 0
  · exact Or.inl hzero
  · have hlimit : 0 < 2 ^ arrayBits isTyphoon := Nat.two_pow_pos _
    have hdiv := Nat.div_add_mod mem (2 ^ arrayBits isTyphoon)
    have hrest := Nat.mod_lt mem hlimit
    rw [Nat.mul_comm] at hdiv
    have hfour := h.le_four
    have hlast : mem / 2 ^ arrayBits isTyphoon < 4 :=
      Nat.lt_of_mul_lt_mul_right (show _ < 4 * 2 ^ arrayBits isTyphoon by omega)
    have hexact := h.last_eq hmem hlast hdiv.symm (Nat.pos_of_ne_zero hzero) hrest
    exact Or.inr ⟨_, (encodedBits_bounds isTyphoon _).1, hexact.symm⟩

end Covered

/-- Where the windows are the memory, its size is expressible. -/
theorem expressible_of_covers {variant : ChipsetVariant} {memSizeBytes : Word}
    (h : ∀ pa : Word,
      isDramAddress (resetAar variant memSizeBytes) pa = true ↔ pa < memSizeBytes) :
    Expressible variant memSizeBytes := by
  have hcovered : Covered (variant = .typhoon) memSizeBytes.toNat := by
    intro pa hpa
    have hclaims := h (BitVec.ofNat 64 pa)
    simp only [isDramAddress_iff, claims_resetAar_iff, BitVec.lt_def] at hclaims
    rwa [BitVec.toNat_ofNat, Nat.mod_eq_of_lt hpa] at hclaims
  rw [Expressible, toNat_maxPerArray]
  exact ⟨hcovered.le_four, hcovered.last_expressible memSizeBytes.isLt⟩

/-- The decoded windows are the memory, without overlap and with each base and size recovered, for
exactly the expressible memory sizes. -/
theorem coversMemory_iff (variant : ChipsetVariant) (memSizeBytes : Word) :
    CoversMemory variant memSizeBytes ↔ Expressible variant memSizeBytes := by
  constructor
  · intro h
    exact expressible_of_covers h.covers
  · intro h
    exact ⟨resetAar_disjoint variant memSizeBytes, covers_of_expressible h,
      recovers_of_expressible h⟩

/-- With 768 MiB on a Tsunami the third quarter of a gigabyte is no memory for the bus. -/
theorem tsunami_768MiB_not_covered : ¬ CoversMemory .tsunami 0x30000000 := by
  intro h
  have hclaims := (h.covers 0x20000000).2 (by decide)
  exact absurd hclaims (by decide)

end TsunamiCchip

end EmulatR
