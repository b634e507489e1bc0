import EmulatR.Pipeline.Unaligned

/-! # What the integer operates compute

`IntOp.meaning` states the integer operates on the numbers that the operands stand for: sums and
products of signed numbers cut to a longword or a quadword, shifts as products and quotients, counts
of bits, and the operates on bytes as rows of bytes. `value_eq_meaning` says that the leaves compute
it. A quadword shifted across the end of another is seen through a window of sixteen bytes, of which
the low and the high operates take one half each. -/

namespace EmulatR

open GuestMemory Library

/-! ## Lanes -/

section Lanes

variable {w : Nat}

/-- A word of lanes is the word of the lanes before the last one, with that one above them. -/
theorem lanes_succ (n : Nat) (f : Nat → BitVec w) :
    lanes w (n + 1) f = lanes w n f ||| ((f n).setWidth 64 <<< (w * n)) := by
  rw [lanes, List.range_succ, List.foldl_append]
  rfl

/-- A lane of a word that has been assembled. -/
theorem lane_lanes {n : Nat} (f : Nat → BitVec w) (hn : w * n ≤ 64) {i : Nat} (hi : i < n) :
    lane w (lanes w n f) i = f i := by
  have hbit : ∀ n j, w * n ≤ 64 → j < w → (lanes w n f).getLsbD (w * i + j) =
      (decide (i < n) && (f i).getLsbD j) := by
    intro n
    induction n with
    | zero => exact fun j _ _ => BitVec.getLsbD_zero
    | succ n ih =>
      intro j hw hj
      rw [Nat.mul_succ] at hw
      rw [lanes_succ, BitVec.getLsbD_or, ih j (by omega) hj, BitVec.getLsbD_shiftLeft,
        BitVec.getLsbD_setWidth]
      rcases Nat.lt_trichotomy i n with hin | rfl | hin
      · have hle : w * (i + 1) ≤ w * n := Nat.mul_le_mul_left w hin
        rw [Nat.mul_succ] at hle
        simp only [show w * i + j < w * n by omega, hin, show i < n + 1 by omega, decide_true,
          Bool.not_true, Bool.and_false, Bool.false_and, Bool.or_false]
      · simp only [show ¬ w * i + j < w * i by omega, show w * i + j < 64 by omega, lt_irrefl,
          show i < i + 1 by omega, decide_true, decide_false, Bool.not_false, Bool.true_and,
          Bool.false_and, Bool.false_or, show w * i + j - w * i = j by omega, show j < 64 by omega]
      · have hle : w * (n + 1) ≤ w * i := Nat.mul_le_mul_left w hin
        rw [Nat.mul_succ] at hle
        have hout : (f n).getLsbD (w * i + j - w * n) = false :=
          BitVec.getLsbD_of_ge _ _ (by omega)
        simp only [show ¬ i < n by omega, show ¬ i < n + 1 by omega, hout, decide_false,
          Bool.and_false, Bool.false_and, Bool.or_false]
  apply BitVec.eq_of_getLsbD_eq
  intro j hj
  rw [lane, BitVec.getLsbD_extractLsb', hbit n j hn hj]
  simp only [hi, hj, decide_true, Bool.true_and]

/-- Equal lanes make equal words. -/
theorem lanes_congr {n : Nat} {f g : Nat → BitVec w} (h : ∀ i < n, f i = g i) :
    lanes w n f = lanes w n g := by
  induction n with
  | zero => rfl
  | succ n ih =>
    rw [lanes_succ, lanes_succ, h n (Nat.lt_succ_self n), ih fun i hi => h i (Nat.lt_succ_of_lt hi)]

/-- A word is the row of its bytes. -/
theorem eq_lanes_of_bytes {x : Word} {f : Nat → BitVec 8} (h : ∀ i < 8, byteOf x i = f i) :
    x = lanes 8 8 f := by
  apply eq_of_bytes
  intro i hi
  rw [h i hi]
  exact (lane_lanes f (le_refl 64) hi).symm

end Lanes

/-! ## The meaning -/

/-- A number cut to a quadword. -/
def quadword (x : ℤ) : Word := BitVec.ofInt 64 x

/-- A number cut to a longword, as a signed quadword. -/
def longword (x : ℤ) : Word := BitVec.ofInt 64 (x.bmod (2 ^ 32))

/-- The bits of a word below bit 64 that have a property, counted. -/
def countBits (p : Nat → Bool) : Word := quadword ((List.range 64).countP p)

/-- A half of the window of sixteen bytes. -/
inductive Half
  | low | high
  deriving DecidableEq, Repr

/-- Where a half begins. -/
def Half.base : Half → ℤ
  | low => 0
  | high => 8

/-- Byte `k` of a quadword that lies among zeros. -/
def byteAmongZeros (v : Word) (k : ℤ) : BitVec 8 := if 0 ≤ k ∧ k < 8 then byteOf v k.toNat else 0

section Window

variable (n : Nat) (h : Half) (v offset : Word)

/-- The window moved down to the position: `n` bytes of it. -/
def extracted : Word :=
  lanes 8 8 fun i =>
    if i < n then byteAmongZeros v (ByteOps.bytePos offset + i - h.base) else 0

/-- The low `n` bytes moved up to the position. -/
def inserted : Word :=
  lanes 8 8 fun i =>
    if i + h.base - ByteOps.bytePos offset < n then
      byteAmongZeros v (i + h.base - ByteOps.bytePos offset)
    else 0

/-- The `n` bytes from the position up cleared. -/
def cleared : Word :=
  lanes 8 8 fun i =>
    if ByteOps.bytePos offset ≤ i + h.base ∧ i + h.base < ByteOps.bytePos offset + n then 0
    else byteOf v i

end Window

/-- The larger or the smaller of two lanes, as unsigned or as signed numbers. -/
def unsignedLanes (w n : Nat) (pick : ℕ → ℕ → ℕ) (a b : Word) : Word :=
  lanes w n fun i => BitVec.ofNat w (pick (lane w a i).toNat (lane w b i).toNat)

/-- Pick among signed lanes. -/
def signedLanes (w n : Nat) (pick : ℤ → ℤ → ℤ) (a b : Word) : Word :=
  lanes w n fun i => BitVec.ofInt w (pick (lane w a i).toInt (lane w b i).toInt)

/-- What an integer operate is to compute. -/
def IntOp.meaning (op : IntOp) (a b : Word) : Word :=
  match op with
  | amask => lanes 1 64 fun i => if i ∈ [0, 1, 2, 8] then 0 else lane 1 b i
  | implver => 2
  | addl => longword (a.toInt + b.toInt)
  | subl => longword (a.toInt - b.toInt)
  | addq => quadword (a.toInt + b.toInt)
  | subq => quadword (a.toInt - b.toInt)
  | s4addl => longword (4 * a.toInt + b.toInt)
  | s4subl => longword (4 * a.toInt - b.toInt)
  | s8addl => longword (8 * a.toInt + b.toInt)
  | s8subl => longword (8 * a.toInt - b.toInt)
  | s4addq => quadword (4 * a.toInt + b.toInt)
  | s4subq => quadword (4 * a.toInt - b.toInt)
  | s8addq => quadword (8 * a.toInt + b.toInt)
  | s8subq => quadword (8 * a.toInt - b.toInt)
  | cmpeq => boolWord (a.toNat = b.toNat)
  | cmpult => boolWord (a.toNat < b.toNat)
  | cmpule => boolWord (a.toNat ≤ b.toNat)
  | cmplt => boolWord (a.toInt < b.toInt)
  | cmple => boolWord (a.toInt ≤ b.toInt)
  | cmpbge => lanes 1 8 fun i => if (byteOf b i).toNat ≤ (byteOf a i).toNat then 1 else 0
  | mull => longword (a.toInt * b.toInt)
  | mulq => quadword (a.toInt * b.toInt)
  | umulh => quadword (a.toNat * b.toNat / 2 ^ 64 : ℕ)
  | ctpop => countBits fun i => b.toNat / 2 ^ i % 2 = 1
  | ctlz => countBits fun i => b.toNat < 2 ^ i
  | cttz => countBits fun i => 2 ^ (i + 1) ∣ b.toNat
  | and => a &&& b
  | bic => a &&& ~~~b
  | bis => a ||| b
  | eqv => ~~~(a ^^^ b)
  | ornot => a ||| ~~~b
  | xor => a ^^^ b
  | sll => quadword (a.toNat * 2 ^ (b.toNat % 64) : ℕ)
  | srl => quadword (a.toNat / 2 ^ (b.toNat % 64) : ℕ)
  | sra => quadword (a.toInt / 2 ^ (b.toNat % 64))
  | extbl => extracted 1 .low a b
  | extwl => extracted 2 .low a b
  | extll => extracted 4 .low a b
  | extql => extracted 8 .low a b
  | extwh => extracted 2 .high a b
  | extlh => extracted 4 .high a b
  | extqh => extracted 8 .high a b
  | insbl => inserted 1 .low a b
  | inswl => inserted 2 .low a b
  | insll => inserted 4 .low a b
  | insql => inserted 8 .low a b
  | inswh => inserted 2 .high a b
  | inslh => inserted 4 .high a b
  | insqh => inserted 8 .high a b
  | mskbl => cleared 1 .low a b
  | mskwl => cleared 2 .low a b
  | mskll => cleared 4 .low a b
  | mskql => cleared 8 .low a b
  | mskwh => cleared 2 .high a b
  | msklh => cleared 4 .high a b
  | mskqh => cleared 8 .high a b
  | sextb => quadword (b.setWidth 8).toInt
  | sextw => quadword (b.setWidth 16).toInt
  | zap => lanes 8 8 fun i => if b.getLsbD i then 0 else byteOf a i
  | zapnot => lanes 8 8 fun i => if b.getLsbD i then byteOf a i else 0
  | maxub8 => unsignedLanes 8 8 max a b
  | maxsb8 => signedLanes 8 8 max a b
  | maxuw4 => unsignedLanes 16 4 max a b
  | maxsw4 => signedLanes 16 4 max a b
  | minub8 => unsignedLanes 8 8 min a b
  | minsb8 => signedLanes 8 8 min a b
  | minuw4 => unsignedLanes 16 4 min a b
  | minsw4 => signedLanes 16 4 min a b
  | perr => quadword ((List.range 8).map fun i =>
      |((byteOf a i).toNat : ℤ) - (byteOf b i).toNat|).sum
  | unpkbw => lanes 16 4 fun i => (lane 8 b i).setWidth 16
  | unpkbl => lanes 32 2 fun i => (lane 8 b i).setWidth 32
  | pkwb => lanes 8 4 fun i => (lane 16 b i).setWidth 8
  | pklb => lanes 8 2 fun i => (lane 32 b i).setWidth 8
  | ftoit => a

/-! ## Arithmetic -/

/-- A word is the quadword of its signed value. -/
theorem quadword_toInt (a : Word) : quadword a.toInt = a := BitVec.ofInt_toInt

/-- The quadword of a sum. -/
theorem quadword_add (x y : ℤ) : quadword (x + y) = quadword x + quadword y := BitVec.ofInt_add x y

/-- The quadword of a difference. -/
theorem quadword_sub (x y : ℤ) : quadword (x - y) = quadword x - quadword y := by
  apply BitVec.eq_of_toInt_eq
  simp only [quadword, BitVec.toInt_sub, BitVec.toInt_ofInt, Int.bmod_sub_bmod, Int.sub_bmod_bmod]

/-- The quadword of a product. -/
theorem quadword_mul (x y : ℤ) : quadword (x * y) = quadword x * quadword y := BitVec.ofInt_mul x y

/-- The quadword of a natural number. -/
theorem quadword_natCast (n : ℕ) : quadword n = BitVec.ofNat 64 n := BitVec.ofInt_natCast 64 n

/-- A number is a quadword and a longword of the same bits. -/
theorem sext32_setWidth_quadword (x : ℤ) : sext32 ((quadword x).setWidth 32) = longword x := by
  have hint : ((quadword x).setWidth 32).toInt = x.bmod (2 ^ 32) := by
    have hnat : ((quadword x).toNat : ℤ) = x % (2 ^ 64 : ℕ) := by
      rw [quadword, BitVec.toNat_ofInt, Int.toNat_of_nonneg (Int.emod_nonneg _ (by decide))]
    have hdvd : (((2 : ℕ) ^ 32 : ℕ) : ℤ) ∣ ((2 ^ 64 : ℕ) : ℤ) := by decide
    rw [BitVec.toInt_setWidth, hnat, ← Int.emod_bmod, Int.emod_emod_of_dvd _ hdvd, Int.emod_bmod]
  rw [longword, ← hint]
  rfl

/-- The low longword of a difference. -/
theorem setWidth_sub (a b : Word) : a.setWidth 32 - b.setWidth 32 = (a - b).setWidth 32 := by
  apply BitVec.eq_of_toNat_eq
  simp only [BitVec.toNat_sub, BitVec.toNat_setWidth]
  omega

section Arithmetic

variable (a b : Word)

/-- The longword sum of the source is that of the numbers. -/
theorem sext32_add : sext32 (a.setWidth 32 + b.setWidth 32) = longword (a.toInt + b.toInt) := by
  rw [← sext32_setWidth_quadword, quadword_add, quadword_toInt, quadword_toInt,
    BitVec.setWidth_add a b (by decide)]

/-- A longword difference, sign-extended, is the longword of the exact one. -/
theorem sext32_sub : sext32 (a.setWidth 32 - b.setWidth 32) = longword (a.toInt - b.toInt) := by
  rw [← sext32_setWidth_quadword, quadword_sub, quadword_toInt, quadword_toInt, setWidth_sub]

/-- A longword product, sign-extended, is the longword of the exact one. -/
theorem sext32_mul : sext32 (a.setWidth 32 * b.setWidth 32) = longword (a.toInt * b.toInt) := by
  rw [← sext32_setWidth_quadword, quadword_mul, quadword_toInt, quadword_toInt,
    BitVec.setWidth_mul a b (by decide)]

/-- An operand scaled by a shift. -/
theorem shiftLeft_eq_quadword {k : Nat} {c : ℤ} (hc : BitVec.twoPow 64 k = quadword c) :
    a <<< k = quadword (c * a.toInt) := by
  rw [BitVec.shiftLeft_eq_mul_twoPow, hc, quadword_mul, quadword_toInt, BitVec.mul_comm]

/-- The count of a shift. -/
theorem toNat_and_63 : (b &&& 0x3F).toNat = b.toNat % 64 := toNat_and_lowMask 6 rfl

/-- A left shift multiplies by a power of two. -/
theorem sll_eq : a <<< (b &&& 0x3F).toNat = quadword (a.toNat * 2 ^ (b.toNat % 64) : ℕ) := by
  rw [toNat_and_63, quadword_natCast]
  apply BitVec.eq_of_toNat_eq
  rw [BitVec.toNat_shiftLeft, Nat.shiftLeft_eq, BitVec.toNat_ofNat]

/-- A right shift divides the number by one. -/
theorem srl_eq : a >>> (b &&& 0x3F).toNat = quadword (a.toNat / 2 ^ (b.toNat % 64) : ℕ) := by
  rw [toNat_and_63, quadword_natCast]
  apply BitVec.eq_of_toNat_eq
  rw [BitVec.toNat_ushiftRight, Nat.shiftRight_eq_div_pow, BitVec.toNat_ofNat,
    Nat.mod_eq_of_lt ((Nat.div_le_self _ _).trans_lt a.isLt)]

/-- An arithmetic shift divides the signed number. -/
theorem sra_eq : a.sshiftRight (b &&& 0x3F).toNat = quadword (a.toInt / 2 ^ (b.toNat % 64)) := by
  rw [toNat_and_63, ← quadword_toInt (a.sshiftRight _), BitVec.toInt_sshiftRight,
    Int.shiftRight_eq_div_pow]
  push_cast
  rfl

/-- The high half of the product. -/
theorem umulh_eq : ((a.setWidth 128 * b.setWidth 128) >>> 64).setWidth 64 =
    quadword (a.toNat * b.toNat / 2 ^ 64 : ℕ) := by
  have hlt : a.toNat * b.toNat < 2 ^ 128 := by
    have hmul := Nat.mul_lt_mul'' a.isLt b.isLt
    rwa [← pow_add] at hmul
  rw [quadword_natCast]
  apply BitVec.eq_of_toNat_eq
  rw [BitVec.toNat_setWidth, BitVec.toNat_ushiftRight, BitVec.toNat_mul, BitVec.toNat_setWidth,
    BitVec.toNat_setWidth, Nat.mod_eq_of_lt (a.isLt.trans (by decide)),
    Nat.mod_eq_of_lt (b.isLt.trans (by decide)), Nat.mod_eq_of_lt hlt, Nat.shiftRight_eq_div_pow,
    BitVec.toNat_ofNat]

end Arithmetic

/-! ## Counts -/

/-- The numbers below a bound, counted. -/
theorem countP_lt (n k : Nat) : (List.range n).countP (fun i => i < k) = min n k := by
  induction n with
  | zero => rw [Nat.zero_min]; rfl
  | succ n ih =>
    rw [List.range_succ, List.countP_append, ih, List.countP_singleton]
    by_cases hk : n < k
    · rw [if_pos (decide_eq_true hk)]
      omega
    · rw [if_neg (by simpa using hk)]
      omega

/-- The places above one of them. -/
theorem countP_gt (n k : Nat) : (List.range n).countP (fun i => k < i) = n - (k + 1) := by
  induction n with
  | zero => rw [Nat.zero_sub]; rfl
  | succ n ih =>
    rw [List.range_succ, List.countP_append, ih, List.countP_singleton]
    by_cases hk : k < n
    · rw [if_pos (decide_eq_true hk)]
      omega
    · rw [if_neg (by simpa using hk)]
      omega

/-- The highest set bit at or below a position. -/
theorem highestSetBit_spec (v : Word) (n : Nat) (h : ∃ i ≤ n, v.getLsbD i = true) :
    v.getLsbD (highestSetBit v n) = true ∧ highestSetBit v n ≤ n ∧
      ∀ i ≤ n, v.getLsbD i = true → i ≤ highestSetBit v n := by
  induction n with
  | zero =>
    obtain ⟨i, hi, hbit⟩ := h
    obtain rfl : i = 0 := Nat.le_zero.1 hi
    exact ⟨hbit, le_refl 0, fun j hj _ => hj⟩
  | succ n ih =>
    rw [highestSetBit]
    by_cases hn : v.getLsbD (n + 1) = true
    · rw [if_pos hn]
      exact ⟨hn, le_refl _, fun i hi _ => hi⟩
    · rw [if_neg hn]
      obtain ⟨i, hi, hbit⟩ := h
      have hle : ∀ i ≤ n + 1, v.getLsbD i = true → i ≤ n := fun i hi hbit =>
        Nat.le_of_lt_succ (lt_of_le_of_ne hi fun heq => hn (heq ▸ hbit :))
      obtain ⟨hset, hlast, hall⟩ := ih ⟨i, hle i hi hbit, hbit⟩
      exact ⟨hset, hlast.trans (Nat.le_succ n), fun i hi hbit => hall i (hle i hi hbit) hbit⟩

section Counts

variable (v : Word)

/-- A number that is not zero has a bit set. -/
theorem exists_bit {v : Word} (h : v ≠ 0) : ∃ i < 64, v.getLsbD i = true := by
  by_contra hnone
  push Not at hnone
  apply h
  apply BitVec.eq_of_getLsbD_eq
  intro i hi
  exact (Bool.eq_false_iff.2 (hnone i hi)).trans BitVec.getLsbD_zero.symm

/-- The leading zeros are the powers of two above the number. -/
theorem ctlz_eq : (if v ≠ 0 then BitVec.ofNat 64 (63 - highestSetBit v 63) else 64) =
    countBits fun i => v.toNat < 2 ^ i := by
  rw [countBits, quadword_natCast]
  by_cases hv : v = 0
  · subst hv
    decide +kernel
  · obtain ⟨i, hi, hbit⟩ := exists_bit hv
    obtain ⟨hset, hle, hall⟩ := highestSetBit_spec v 63 ⟨i, Nat.le_of_lt_succ hi, hbit⟩
    have hiff : ∀ i, decide (v.toNat < 2 ^ i) = decide (highestSetBit v 63 < i) := by
      intro i
      rw [decide_eq_decide]
      constructor
      · intro hlt
        by_contra hge
        have hpow := Nat.pow_le_pow_right (n := 2) (by decide) (Nat.not_lt.1 hge)
        have hbit := Nat.ge_two_pow_of_testBit hset
        omega
      · intro hlt
        apply Nat.lt_pow_two_of_testBit
        intro j hj
        by_cases hj63 : j ≤ 63
        · exact Bool.eq_false_iff.2 fun hbit => absurd (hall j hj63 hbit) (by omega)
        · exact BitVec.getLsbD_of_ge v j (by omega)
    rw [if_pos hv, funext hiff, countP_gt]
    congr 1
    omega

/-- The trailing zeros are those that divide it. -/
theorem cttz_eq : (if v ≠ 0 then BitVec.ofNat 64 (lowestSetBit v 64) else 64) =
    countBits fun i => 2 ^ (i + 1) ∣ v.toNat := by
  rw [countBits, quadword_natCast]
  by_cases hv : v = 0
  · subst hv
    decide +kernel
  · obtain ⟨i, hi, hbit⟩ := exists_bit hv
    obtain ⟨k, hk⟩ : ∃ k, (List.range 64).find? v.getLsbD = some k := by
      rw [← Option.isSome_iff_exists, List.find?_isSome]
      exact ⟨i, List.mem_range.2 hi, hbit⟩
    obtain ⟨hset, hmem, hlow⟩ := List.find?_range_eq_some.1 hk
    have hiff : ∀ i, decide (2 ^ (i + 1) ∣ v.toNat) = decide (i < k) := by
      intro i
      rw [decide_eq_decide]
      constructor
      · intro hdvd
        by_contra hge
        have hmod : v.toNat % 2 ^ (k + 1) = 0 :=
          Nat.mod_eq_zero_of_dvd ((Nat.pow_dvd_pow 2 (by omega)).trans hdvd)
        have hbit : (v.toNat % 2 ^ (k + 1)).testBit k = true := by
          rw [Nat.testBit_mod_two_pow, decide_eq_true (Nat.lt_succ_self k), Bool.true_and]
          exact hset
        rw [hmod, Nat.zero_testBit] at hbit
        cases hbit
      · intro hlt
        apply Nat.dvd_of_mod_eq_zero
        apply Nat.eq_of_testBit_eq
        intro j
        rw [Nat.testBit_mod_two_pow, Nat.zero_testBit]
        by_cases hj : j < i + 1
        · have hclear : v.getLsbD j = false := by simpa using hlow j (by omega)
          rw [decide_eq_true hj, Bool.true_and]
          exact hclear
        · rw [decide_eq_false hj, Bool.false_and]
    rw [if_pos hv, lowestSetBit, hk, Option.getD_some, funext hiff, countP_lt,
      Nat.min_eq_right (List.mem_range.1 hmem).le]

/-- The population count is the number of odd quotients. -/
theorem ctpop_eq : BitVec.ofNat 64 ((List.range 64).countP v.getLsbD) =
    countBits fun i => v.toNat / 2 ^ i % 2 = 1 := by
  rw [countBits, quadword_natCast, funext fun i => getLsbD_eq_toNat v i]

end Counts

/-! ## Bytes -/

/-- A byte among zeros lies in the quadword or is zero. -/
theorem byteAmongZeros_of_nat (v : Word) {k : ℤ} {n : Nat} (h : k = n) :
    byteAmongZeros v k = byteOf v n := by
  subst h
  rw [byteAmongZeros]
  by_cases hn : n < 8
  · rw [if_pos (by omega), Int.toNat_natCast]
  · rw [if_neg (by omega), byteOf_of_ge v (Nat.le_of_not_lt hn)]

/-- There is no byte below the lowest. -/
theorem byteAmongZeros_of_neg (v : Word) {k : ℤ} (h : k < 0) : byteAmongZeros v k = 0 :=
  if_neg fun hk => absurd hk.1 (by omega)

section Bytes

variable (n : Nat) (v offset : Word)

/-- The low extract takes bytes from the offset on. -/
theorem extLow_eq : ByteOps.extLow n v offset = extracted n .low v offset := by
  apply eq_lanes_of_bytes
  intro i _
  rw [ByteOps.byteOf_extLow, Half.base]
  by_cases hn : i < n
  · rw [if_pos hn, byteAmongZeros_of_nat v (n := ByteOps.bytePos offset + i) (by push_cast; omega)]
    by_cases hpos : ByteOps.bytePos offset + i < 8
    · rw [if_pos ⟨hn, hpos⟩]
    · rw [if_neg fun h => hpos h.2, byteOf_of_ge v (Nat.le_of_not_lt hpos)]
  · rw [if_neg hn, if_neg fun h => hn h.1]

/-- The high extract takes those that reach over the end. -/
theorem extHigh_eq : ByteOps.extHigh n v offset = extracted n .high v offset := by
  apply eq_lanes_of_bytes
  intro i hi
  rw [ByteOps.byteOf_extHigh n v offset hi, Half.base]
  by_cases hn : i < n
  · rw [if_pos hn]
    by_cases hpos : 8 ≤ ByteOps.bytePos offset + i
    · rw [if_pos ⟨hn, hpos⟩, byteAmongZeros_of_nat v]
      omega
    · rw [if_neg fun h => hpos h.2, byteAmongZeros_of_neg v (by omega)]
  · rw [if_neg hn, if_neg fun h => hn h.1]

/-- The low insert puts bytes from the offset on. -/
theorem insLow_eq : ByteOps.insLow n v offset = inserted n .low v offset := by
  apply eq_lanes_of_bytes
  intro i hi
  rw [ByteOps.byteOf_insLow n v offset hi, Half.base]
  by_cases hpos : ByteOps.bytePos offset ≤ i
  · by_cases hn : i < ByteOps.bytePos offset + n
    · rw [if_pos ⟨hpos, hn⟩, if_pos (by omega), byteAmongZeros_of_nat v]
      omega
    · rw [if_neg fun h => hn h.2, if_neg (by omega)]
  · rw [if_neg fun h => hpos h.1, byteAmongZeros_of_neg v (by omega), ite_self]

/-- The high insert puts those that reach over the end. -/
theorem insHigh_eq (hn : n ≤ 8) : ByteOps.insHigh n v offset = inserted n .high v offset := by
  apply eq_lanes_of_bytes
  intro i _
  have hlt := ByteOps.bytePos_lt offset
  rw [ByteOps.byteOf_insHigh n v offset hn, Half.base]
  by_cases hspill : i + 8 < ByteOps.bytePos offset + n
  · rw [if_pos hspill, if_pos (by omega), byteAmongZeros_of_nat v]
    omega
  · rw [if_neg hspill, if_neg (by omega)]

/-- The low mask clears bytes from the offset on. -/
theorem maskLow_eq : ByteOps.maskLow n v offset = cleared n .low v offset := by
  apply eq_lanes_of_bytes
  intro i hi
  rw [ByteOps.byteOf_maskLow n v offset hi, Half.base]
  exact if_congr (by omega) rfl rfl

/-- The high mask clears those that reach over the end. -/
theorem maskHigh_eq : ByteOps.maskHigh n v offset = cleared n .high v offset := by
  apply eq_lanes_of_bytes
  intro i hi
  have hlt := ByteOps.bytePos_lt offset
  rw [ByteOps.byteOf_maskHigh n v offset hi, Half.base]
  exact if_congr (by omega) rfl rfl

end Bytes

/-- One byte is cleared. -/
theorem byteOf_clearByte (x : Word) (k : Nat) {i : Nat} (hi : i < 8) :
    byteOf (x &&& ~~~((0xFF : Word) <<< (8 * k))) i = if i = k then 0 else byteOf x i := by
  have hmask : (0xFF : Word) = ByteOps.lowBytes 1 := by decide
  rw [hmask, ByteOps.byteOf_clear x 1 k hi]
  exact if_congr (by omega) rfl rfl

/-- One byte is kept. -/
theorem byteOf_keepByte (x : Word) (k : Nat) {i : Nat} (hi : i < 8) :
    byteOf (x &&& ((0xFF : Word) <<< (8 * k))) i = if i = k then byteOf x i else 0 := by
  have hmask : (0xFF : Word) = ByteOps.lowBytes 1 := by decide
  rw [hmask, byteOf_and, ByteOps.byteOf_shiftLeft _ k hi, ByteOps.byteOf_lowBytes 1 (by omega)]
  by_cases hik : i = k
  · rw [if_pos hik.ge, if_pos (by omega), if_pos hik, BitVec.and_allOnes]
  · rw [if_neg hik]
    split
    · rw [if_neg (by omega)]
      exact BitVec.and_zero
    · exact BitVec.and_zero

section Zap

variable (v mask : Word)

/-- ZAP clears the bytes of its mask. -/
theorem zap_eq : ByteOps.zap v mask = lanes 8 8 fun i => if mask.getLsbD i then 0 else byteOf v i := by
  apply eq_lanes_of_bytes
  intro i hi
  have hfold : ∀ n, byteOf ((List.range n).foldl (fun r i =>
      if mask.getLsbD i then r &&& ~~~((0xFF : Word) <<< (8 * i)) else r) v) i =
        if i < n ∧ mask.getLsbD i = true then 0 else byteOf v i := by
    intro n
    induction n with
    | zero => rw [if_neg fun h => absurd h.1 (Nat.not_lt_zero i)]; rfl
    | succ n ih =>
      rw [List.range_succ, List.foldl_append, List.foldl_cons, List.foldl_nil]
      split
      · rename_i hbit
        rw [byteOf_clearByte _ n hi, ih]
        by_cases hin : i = n
        · subst hin
          rw [if_pos rfl, if_pos ⟨Nat.lt_succ_self i, hbit⟩]
        · rw [if_neg hin]
          exact if_congr (and_congr_left' (by omega)) rfl rfl
      · rename_i hbit
        rw [ih]
        by_cases hin : i = n
        · subst hin
          rw [if_neg fun h => hbit h.2, if_neg fun h => hbit h.2]
        · exact if_congr (and_congr_left' (by omega)) rfl rfl
  rw [ByteOps.zap, hfold 8]
  exact if_congr (and_iff_right hi) rfl rfl

/-- ZAPNOT keeps them. -/
theorem zapnot_eq :
    ByteOps.zapnot v mask = lanes 8 8 fun i => if mask.getLsbD i then byteOf v i else 0 := by
  apply eq_lanes_of_bytes
  intro i hi
  have hfold : ∀ n, byteOf ((List.range n).foldl (fun r i =>
      if mask.getLsbD i then r ||| (v &&& ((0xFF : Word) <<< (8 * i))) else r) 0) i =
        if i < n ∧ mask.getLsbD i = true then byteOf v i else 0 := by
    intro n
    induction n with
    | zero =>
      rw [if_neg fun h => absurd h.1 (Nat.not_lt_zero i)]
      exact BitVec.extractLsb'_zero
    | succ n ih =>
      rw [List.range_succ, List.foldl_append, List.foldl_cons, List.foldl_nil]
      split
      · rename_i hbit
        rw [byteOf_or, byteOf_keepByte _ n hi, ih]
        by_cases hin : i = n
        · subst hin
          rw [if_pos rfl, if_neg fun h => lt_irrefl i h.1, if_pos ⟨Nat.lt_succ_self i, hbit⟩]
          exact BitVec.zero_or
        · rw [if_neg hin]
          exact BitVec.or_zero.trans (if_congr (and_congr_left' (by omega)) rfl rfl)
      · rename_i hbit
        rw [ih]
        by_cases hin : i = n
        · subst hin
          rw [if_neg fun h => hbit h.2, if_neg fun h => hbit h.2]
        · exact if_congr (and_congr_left' (by omega)) rfl rfl
  rw [ByteOps.zapnot, hfold 8]
  exact if_congr (and_iff_right hi) rfl rfl

end Zap

/-! ## Choices and differences -/

section Choice

variable {w : Nat} (x y : BitVec w)

/-- The larger of two unsigned numbers. -/
theorem maxUnsigned_eq : (if y.ult x then x else y) = BitVec.ofNat w (max x.toNat y.toNat) := by
  simp only [BitVec.ult_eq_decide, decide_eq_true_eq]
  split
  · rename_i hlt
    rw [Nat.max_eq_left hlt.le, BitVec.ofNat_toNat, BitVec.setWidth_eq]
  · rename_i hle
    rw [Nat.max_eq_right (Nat.not_lt.1 hle), BitVec.ofNat_toNat, BitVec.setWidth_eq]

/-- The smaller of them. -/
theorem minUnsigned_eq : (if x.ult y then x else y) = BitVec.ofNat w (min x.toNat y.toNat) := by
  simp only [BitVec.ult_eq_decide, decide_eq_true_eq]
  split
  · rename_i hlt
    rw [Nat.min_eq_left hlt.le, BitVec.ofNat_toNat, BitVec.setWidth_eq]
  · rename_i hle
    rw [Nat.min_eq_right (Nat.not_lt.1 hle), BitVec.ofNat_toNat, BitVec.setWidth_eq]

/-- The larger of two signed numbers. -/
theorem maxSigned_eq : (if y.slt x then x else y) = BitVec.ofInt w (max x.toInt y.toInt) := by
  simp only [BitVec.slt_eq_decide, decide_eq_true_eq]
  split
  · rename_i hlt
    rw [max_eq_left hlt.le, BitVec.ofInt_toInt]
  · rename_i hle
    rw [max_eq_right (not_lt.1 hle), BitVec.ofInt_toInt]

/-- The smaller of them. -/
theorem minSigned_eq : (if x.slt y then x else y) = BitVec.ofInt w (min x.toInt y.toInt) := by
  simp only [BitVec.slt_eq_decide, decide_eq_true_eq]
  split
  · rename_i hlt
    rw [min_eq_left hlt.le, BitVec.ofInt_toInt]
  · rename_i hle
    rw [min_eq_right (not_lt.1 hle), BitVec.ofInt_toInt]

end Choice

/-- A lanewise choice, from what it chooses. -/
theorem laneSelect_eq {w : Nat} (n : Nat) {pickA : BitVec w → BitVec w → Bool}
    {f : BitVec w → BitVec w → BitVec w} (h : ∀ x y, (if pickA x y then x else y) = f x y)
    (a b : Word) : laneSelect w n pickA a b = lanes w n fun i => f (lane w a i) (lane w b i) :=
  lanes_congr fun i _ => h (lane w a i) (lane w b i)

/-- The byte differences add up. -/
theorem perr_eq (a b : Word) : perr a b = quadword ((List.range 8).map fun i =>
    |((byteOf a i).toNat : ℤ) - (byteOf b i).toNat|).sum := by
  have hterm : ∀ i, (if ((lane 8 b i).setWidth 64 : Word) ≤ (lane 8 a i).setWidth 64 then
      ((lane 8 a i).setWidth 64 : Word) - (lane 8 b i).setWidth 64
      else (lane 8 b i).setWidth 64 - (lane 8 a i).setWidth 64) =
        quadword |((byteOf a i).toNat : ℤ) - (byteOf b i).toNat| := by
    intro i
    have hext : ∀ x : BitVec 8, (x.setWidth 64 : Word) = quadword x.toNat := by
      intro x
      rw [quadword_natCast, ← BitVec.toNat_inj, BitVec.toNat_setWidth, BitVec.toNat_ofNat]
    have hle : ((lane 8 b i).setWidth 64 : Word) ≤ (lane 8 a i).setWidth 64 ↔
        (byteOf b i).toNat ≤ (byteOf a i).toNat := by
      have ha := (lane 8 a i).isLt
      have hb := (lane 8 b i).isLt
      rw [BitVec.le_def, BitVec.toNat_setWidth, BitVec.toNat_setWidth, Nat.mod_eq_of_lt (by omega),
        Nat.mod_eq_of_lt (by omega)]
      rfl
    rw [if_congr hle rfl rfl, hext, hext, ← quadword_sub, ← quadword_sub]
    split
    · rename_i hba
      rw [abs_of_nonneg (by omega)]
      rfl
    · rename_i hab
      rw [abs_of_neg (by omega), neg_sub]
      rfl
  have hfold : ∀ (is : List Nat) (acc : Word), is.foldl (fun acc i =>
      acc + (if ((lane 8 b i).setWidth 64 : Word) ≤ (lane 8 a i).setWidth 64 then
        ((lane 8 a i).setWidth 64 : Word) - (lane 8 b i).setWidth 64
        else (lane 8 b i).setWidth 64 - (lane 8 a i).setWidth 64)) acc =
        acc + quadword (is.map fun i => |((byteOf a i).toNat : ℤ) - (byteOf b i).toNat|).sum := by
    intro is
    induction is with
    | nil => exact fun acc => (BitVec.add_zero acc).symm
    | cons i is ih =>
      intro acc
      rw [List.foldl_cons, ih, hterm, List.map_cons, List.sum_cons, quadword_add, BitVec.add_assoc]
  exact (hfold (List.range 8) 0).trans (BitVec.zero_add _)

/-- CMPBGE compares byte by byte. -/
theorem cmpbge_eq (a b : Word) :
    (lanes 1 8 fun i => BitVec.ofBool ((lane 8 b i).ule (lane 8 a i))) =
      lanes 1 8 fun i => if (byteOf b i).toNat ≤ (byteOf a i).toNat then 1 else 0 := by
  apply lanes_congr
  intro i _
  rw [BitVec.ule_eq_decide]
  by_cases hle : (byteOf b i).toNat ≤ (byteOf a i).toNat
  · rw [if_pos hle]
    exact congrArg BitVec.ofBool (decide_eq_true hle)
  · rw [if_neg hle]
    exact congrArg BitVec.ofBool (decide_eq_false hle)

/-- AMASK clears the bits of the features that are there. -/
theorem amask_eq (b : Word) :
    b &&& ~~~0x107 = lanes 1 64 fun i => if i ∈ [0, 1, 2, 8] then 0 else lane 1 b i := by
  have hmask : ∀ i < 64, (~~~0x107 : Word).getLsbD i = !decide (i ∈ [0, 1, 2, 8]) := by decide
  apply eq_of_lanes 1 64 (by decide) (le_refl 64)
  intro i hi
  refine Eq.trans ?_ (lane_lanes _ (le_refl 64) hi).symm
  apply BitVec.eq_of_getLsbD_eq
  intro j hj
  obtain rfl : j = 0 := by omega
  rw [BitVec.getLsbD_extractLsb', BitVec.getLsbD_and, Nat.one_mul, Nat.add_zero, hmask i hi]
  by_cases hmem : i ∈ [0, 1, 2, 8]
  · rw [if_pos hmem, decide_eq_true hmem, Bool.not_true, Bool.and_false, Bool.and_false]
    rfl
  · rw [if_neg hmem, decide_eq_false hmem, lane, BitVec.getLsbD_extractLsb']
    simp

/-- **Every integer operate computes what it means.** -/
theorem value_eq_meaning (op : IntOp) (a b : Word) : op.value a b = op.meaning a b := by
  cases op with
  | amask => exact amask_eq b
  | addl => exact sext32_add a b
  | subl => exact sext32_sub a b
  | mull => exact sext32_mul a b
  | addq => rw [IntOp.meaning, quadword_add, quadword_toInt, quadword_toInt]; rfl
  | subq => rw [IntOp.meaning, quadword_sub, quadword_toInt, quadword_toInt]; rfl
  | mulq => rw [IntOp.meaning, quadword_mul, quadword_toInt, quadword_toInt]; rfl
  | s4addl =>
    rw [IntOp.meaning, ← sext32_setWidth_quadword, quadword_add,
      ← shiftLeft_eq_quadword a (k := 2) rfl, quadword_toInt]
    rfl
  | s4subl =>
    rw [IntOp.meaning, ← sext32_setWidth_quadword, quadword_sub,
      ← shiftLeft_eq_quadword a (k := 2) rfl, quadword_toInt]
    rfl
  | s8addl =>
    rw [IntOp.meaning, ← sext32_setWidth_quadword, quadword_add,
      ← shiftLeft_eq_quadword a (k := 3) rfl, quadword_toInt]
    rfl
  | s8subl =>
    rw [IntOp.meaning, ← sext32_setWidth_quadword, quadword_sub,
      ← shiftLeft_eq_quadword a (k := 3) rfl, quadword_toInt]
    rfl
  | s4addq =>
    rw [IntOp.meaning, quadword_add, ← shiftLeft_eq_quadword a (k := 2) rfl, quadword_toInt]
    rfl
  | s4subq =>
    rw [IntOp.meaning, quadword_sub, ← shiftLeft_eq_quadword a (k := 2) rfl, quadword_toInt]
    rfl
  | s8addq =>
    rw [IntOp.meaning, quadword_add, ← shiftLeft_eq_quadword a (k := 3) rfl, quadword_toInt]
    rfl
  | s8subq =>
    rw [IntOp.meaning, quadword_sub, ← shiftLeft_eq_quadword a (k := 3) rfl, quadword_toInt]
    rfl
  | cmpeq =>
    apply congrArg boolWord
    rw [Bool.eq_iff_iff, beq_iff_eq, decide_eq_true_eq, BitVec.toNat_inj]
  | cmpult => exact congrArg boolWord (BitVec.ult_eq_decide ..)
  | cmpule => exact congrArg boolWord (BitVec.ule_eq_decide ..)
  | cmplt => exact congrArg boolWord (BitVec.slt_eq_decide ..)
  | cmple => exact congrArg boolWord (BitVec.sle_eq_decide ..)
  | cmpbge => exact cmpbge_eq a b
  | umulh => exact umulh_eq a b
  | ctpop => exact ctpop_eq b
  | ctlz => exact ctlz_eq b
  | cttz => exact cttz_eq b
  | sll => exact sll_eq a b
  | srl => exact srl_eq a b
  | sra => exact sra_eq a b
  | extbl => exact extLow_eq 1 a b
  | extwl => exact extLow_eq 2 a b
  | extll => exact extLow_eq 4 a b
  | extql => exact extLow_eq 8 a b
  | extwh => exact extHigh_eq 2 a b
  | extlh => exact extHigh_eq 4 a b
  | extqh => exact extHigh_eq 8 a b
  | insbl => exact insLow_eq 1 a b
  | inswl => exact insLow_eq 2 a b
  | insll => exact insLow_eq 4 a b
  | insql => exact insLow_eq 8 a b
  | inswh => exact insHigh_eq 2 a b (by decide)
  | inslh => exact insHigh_eq 4 a b (by decide)
  | insqh => exact insHigh_eq 8 a b (by decide)
  | mskbl => exact maskLow_eq 1 a b
  | mskwl => exact maskLow_eq 2 a b
  | mskll => exact maskLow_eq 4 a b
  | mskql => exact (ByteOps.mskql_eq_maskLow a b).trans (maskLow_eq 8 a b)
  | mskwh => exact maskHigh_eq 2 a b
  | msklh => exact maskHigh_eq 4 a b
  | mskqh => exact maskHigh_eq 8 a b
  | zap => exact zap_eq a b
  | zapnot => exact zapnot_eq a b
  | maxub8 => exact laneSelect_eq 8 maxUnsigned_eq a b
  | maxsb8 => exact laneSelect_eq 8 maxSigned_eq a b
  | maxuw4 => exact laneSelect_eq 4 maxUnsigned_eq a b
  | maxsw4 => exact laneSelect_eq 4 maxSigned_eq a b
  | minub8 => exact laneSelect_eq 8 minUnsigned_eq a b
  | minsb8 => exact laneSelect_eq 8 minSigned_eq a b
  | minuw4 => exact laneSelect_eq 4 minUnsigned_eq a b
  | minsw4 => exact laneSelect_eq 4 minSigned_eq a b
  | perr => exact perr_eq a b
  -- the others are stated as they are computed
  | _ => rfl

end EmulatR
