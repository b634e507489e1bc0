import EmulatR.Library.BitFields
import EmulatR.Memory.GuestMemory

/-! # Guest memory byte by byte

A scalar access of guest memory takes one of two paths: inside one 64 KiB page the page is checked
once, across a page end every byte is checked for itself. This module shows that the two paths do
the same thing, at every 64-bit address: a read composes the bytes at the addresses of the access,
and a write stores exactly the bytes that are backed by a page. Nothing is asked of the address: an
access may wrap around, name a cell that a lower address names too, or be partly outside the
memory.

`read_eq_leWord` and `write_eq_writeEach` are the two results. -/

namespace EmulatR

namespace GuestMemory

variable {m : GuestMemory} {pa v : Word} {n : Nat}

/-! ## Words and their bytes -/

/-- A value composed of `n` bytes depends on these bytes alone. -/
theorem leWord_congr {f g : Nat → BitVec 8} {n : Nat} (h : ∀ i < n, f i = g i) :
    leWord f n = leWord g n := by
  induction n with
  | zero => rfl
  | succ n ih =>
    rw [leWord, leWord, h n (Nat.lt_succ_self n), ih fun i hi => h i (Nat.lt_succ_of_lt hi)]

/-- Zero bytes make zero. -/
theorem leWord_eq_zero {f : Nat → BitVec 8} {n : Nat} (h : ∀ i < n, f i = 0) :
    leWord f n = 0 := by
  induction n with
  | zero => rfl
  | succ n ih =>
    rw [leWord, h n (Nat.lt_succ_self n), ih fun i hi => h i (Nat.lt_succ_of_lt hi)]
    simp

/-- The bits of a value composed of bytes. -/
theorem getLsbD_leWord (f : Nat → BitVec 8) (n i : Nat) :
    (leWord f n).getLsbD i =
      (decide (i < 64) && decide (i < 8 * n) && (f (i / 8)).getLsbD (i % 8)) := by
  induction n with
  | zero => simp [leWord]
  | succ n ih =>
    rw [leWord, BitVec.getLsbD_or, ih, BitVec.getLsbD_shiftLeft, BitVec.getLsbD_setWidth]
    by_cases h64 : i < 64
    · by_cases hlow : i < 8 * n
      · simp [h64, hlow, show i < 8 * (n + 1) by omega]
      · by_cases hbyte : i < 8 * (n + 1)
        · -- the bit is in the byte added last
          have hdiv : i / 8 = n := by omega
          have hmod : i % 8 = i - 8 * n := by omega
          simp [h64, hlow, hbyte, hdiv, hmod, show i - 8 * n < 64 by omega]
        · have hout : (f n).getLsbD (i - 8 * n) = false := BitVec.getLsbD_of_ge _ _ (by omega)
          simp [h64, hlow, hbyte, hout]
    · simp [h64]

/-- A word has eight bytes. -/
theorem byteOf_of_ge (v : Word) {i : Nat} (hi : 8 ≤ i) : byteOf v i = 0 := by
  apply BitVec.eq_of_getLsbD_eq
  intro j hj
  rw [byteOf, BitVec.getLsbD_extractLsb', BitVec.getLsbD_of_ge v _ (by omega), Bool.and_false]
  exact (BitVec.getLsbD_zero).symm

/-- The bytes of a word made of bytes. -/
theorem byteOf_leWord (f : Nat → BitVec 8) {n i : Nat} (hi : i < 8) :
    byteOf (leWord f n) i = if i < n then f i else 0 := by
  apply BitVec.eq_of_getLsbD_eq
  intro j hj
  rw [byteOf, BitVec.getLsbD_extractLsb', getLsbD_leWord, show (8 * i + j) / 8 = i by omega,
    show (8 * i + j) % 8 = j by omega]
  by_cases hin : i < n
  · simp only [hin, hj, show 8 * i + j < 64 by omega, show 8 * i + j < 8 * n by omega, decide_true,
      Bool.true_and, if_true]
  · rw [if_neg hin]
    simp only [show ¬ 8 * i + j < 8 * n by omega, decide_false, Bool.and_false, Bool.false_and]
    exact (BitVec.getLsbD_zero).symm

/-- A word is the word of its eight bytes. -/
theorem eq_of_bytes {x y : Word} (h : ∀ i < 8, byteOf x i = byteOf y i) : x = y :=
  Library.eq_of_lanes 8 8 (by decide) (le_refl 64) h

/-- OR goes byte by byte. -/
theorem byteOf_or (x y : Word) (i : Nat) : byteOf (x ||| y) i = byteOf x i ||| byteOf y i :=
  BitVec.extractLsb'_or

/-- AND goes byte by byte. -/
theorem byteOf_and (x y : Word) (i : Nat) : byteOf (x &&& y) i = byteOf x i &&& byteOf y i :=
  BitVec.extractLsb'_and

/-! ## Cells and pages -/

/-- The page of a cell exists. -/
def holds (m : GuestMemory) (c : BitVec 48) : Bool := c.extractLsb' 16 32 < m.pageCount

/-- Two memories are equal if they have the same pages and the same bytes. -/
theorem ext {m m' : GuestMemory} (hcount : m.pageCount = m'.pageCount)
    (hbytes : ∀ c, m.bytes c = m'.bytes c) : m = m' := by
  cases m
  cases m'
  cases hcount
  cases funext hbytes
  rfl

/-- The bounds check looks at the cell alone. -/
theorem inRange_eq_holds (m : GuestMemory) (pa : Word) : m.inRange pa = m.holds (cell pa) := by
  have hidx : pageIndex pa = (cell pa).extractLsb' 16 32 := by
    apply BitVec.eq_of_getLsbD_eq
    intro i hi
    simp only [pageIndex, cell, BitVec.getLsbD_extractLsb', BitVec.getLsbD_setWidth, hi,
      decide_true, Bool.true_and, show 16 + i < 48 by omega]
  rw [inRange, holds, hidx]

/-- The cells follow each other as the addresses do, with wrap-around. -/
theorem cell_add_ofNat (pa : Word) (i : Nat) :
    cell (pa + BitVec.ofNat 64 i) = cell pa + BitVec.ofNat 48 i := by
  apply BitVec.eq_of_toNat_eq
  simp only [cell, BitVec.toNat_setWidth, BitVec.toNat_add, BitVec.toNat_ofNat]
  omega

/-- The offset in a page. -/
theorem toNat_offset (pa : Word) : (pa &&& 0xFFFF).toNat = pa.toNat % 0x10000 :=
  Library.toNat_and_lowMask 16 rfl

/-- The bytes of an access that does not cross a page end are on one page. -/
theorem inRange_add_of_not_crosses {i : Nat} (h : ¬ crosses pa n = true) (hn : n ≤ 0x10000)
    (hi : i < n) : m.inRange (pa + BitVec.ofNat 64 i) = m.inRange pa := by
  rw [crosses, decide_eq_true_iff, toNat_offset] at h
  have hpage : pageIndex (pa + BitVec.ofNat 64 i) = pageIndex pa := by
    apply BitVec.eq_of_toNat_eq
    have hpa := pa.isLt
    simp only [pageIndex, BitVec.extractLsb'_toNat, Nat.shiftRight_eq_div_pow, BitVec.toNat_add,
      BitVec.toNat_ofNat]
    omega
  rw [inRange, hpage, inRange]

/-! ## Reads -/

/-- A byte in range is read. -/
theorem read1_of_inRange (h : m.inRange pa = true) : m.read1 pa = m.bytes (cell pa) := if_pos h

/-- A byte out of range reads zero. -/
theorem read1_of_not_inRange (h : ¬ m.inRange pa = true) : m.read1 pa = 0 := if_neg h

/-- **A read composes the bytes at its addresses**, on either path. -/
theorem read_eq_leWord (m : GuestMemory) (pa : Word) (hn : n ≤ 0x10000) :
    m.read pa n = leWord (fun i => m.read1 (pa + BitVec.ofNat 64 i)) n := by
  rw [read]
  split
  · rfl
  · rename_i hcross
    have hrange := fun i (hi : i < n) => inRange_add_of_not_crosses (m := m) hcross hn hi
    split
    · rename_i hin
      apply leWord_congr
      intro i hi
      rw [read1_of_inRange ((hrange i hi).trans hin)]
    · rename_i hin
      symm
      apply leWord_eq_zero
      intro i hi
      rw [read1_of_not_inRange ((hrange i hi).symm ▸ hin)]

/-! ## Writes -/

/-- A byte write keeps the size of memory. -/
@[simp] theorem pageCount_write1 (m : GuestMemory) (pa : Word) (b : BitVec 8) :
    (m.write1 pa b).1.pageCount = m.pageCount := by
  rw [write1]
  split <;> rfl

/-- A run of byte writes keeps the size of memory. -/
@[simp] theorem pageCount_writeEach (m : GuestMemory) (pa v : Word) (n : Nat) :
    (m.writeEach pa v n).pageCount = m.pageCount := by
  induction n with
  | zero => rfl
  | succ n ih => rw [writeEach, pageCount_write1, ih]

/-- A store byte by byte is checked against the pages the memory had at the start. -/
theorem inRange_writeEach (a : Word) : (m.writeEach pa v n).inRange a = m.inRange a := by
  rw [inRange, pageCount_writeEach, inRange]

/-- A run of byte writes keeps which cells there are. -/
@[simp] theorem holds_writeEach (c : BitVec 48) : (m.writeEach pa v n).holds c = m.holds c := by
  rw [holds, pageCount_writeEach, holds]

/-- A byte write replaces its cell if the page exists. -/
theorem bytes_write1 (m : GuestMemory) (pa : Word) (b : BitVec 8) (c : BitVec 48) :
    (m.write1 pa b).1.bytes c = if c = cell pa ∧ m.holds c = true then b else m.bytes c := by
  rw [write1, inRange_eq_holds]
  by_cases hin : m.holds (cell pa) = true
  · rw [if_pos hin]
    by_cases hc : c = cell pa
    · subst hc
      rw [if_pos ⟨rfl, hin⟩]
      exact Function.update_self _ _ _
    · rw [if_neg fun h => hc h.1]
      exact Function.update_of_ne hc _ _
  · rw [if_neg hin, if_neg]
    rintro ⟨rfl, h⟩
    exact hin h

/-- A cell is the `n`-th of an access iff it lies `n` cells above the first. -/
theorem eq_cell_add_iff (pa : Word) {n : Nat} (hn : n < 2 ^ 48) (c : BitVec 48) :
    c = cell (pa + BitVec.ofNat 64 n) ↔ (c - cell pa).toNat = n := by
  rw [cell_add_ofNat]
  constructor
  · rintro rfl
    rw [BitVec.add_comm, BitVec.add_sub_cancel, BitVec.toNat_ofNat, Nat.mod_eq_of_lt hn]
  · intro h
    rw [← h, BitVec.ofNat_toNat, BitVec.setWidth_eq, BitVec.add_comm, BitVec.sub_add_cancel]

/-- **A store byte by byte replaces exactly the backed cells of its access.** -/
theorem bytes_writeEach (m : GuestMemory) (pa v : Word) (hn : n ≤ 2 ^ 48) (c : BitVec 48) :
    (m.writeEach pa v n).bytes c =
      if (c - cell pa).toNat < n ∧ m.holds c = true then byteOf v (c - cell pa).toNat
      else m.bytes c := by
  -- on the width; the last byte is stored last
  induction n with
  | zero => rw [writeEach, if_neg fun h => absurd h.1 (Nat.not_lt_zero _)]
  | succ n ih =>
    have hlast := eq_cell_add_iff pa (show n < 2 ^ 48 by omega) c
    rw [writeEach, bytes_write1, holds_writeEach, ih (by omega)]
    by_cases hin : m.holds c = true
    · -- the last byte, one of the bytes before it, or a byte outside the access
      by_cases heq : (c - cell pa).toNat = n
      · rw [if_pos ⟨hlast.mpr heq, hin⟩, if_pos ⟨by omega, hin⟩, heq]
      · rw [if_neg fun h => heq (hlast.mp h.1)]
        by_cases hlt : (c - cell pa).toNat < n
        · rw [if_pos ⟨hlt, hin⟩, if_pos ⟨by omega, hin⟩]
        · rw [if_neg fun h => hlt h.1, if_neg (by omega)]
    · rw [if_neg fun h => hin h.2, if_neg fun h => hin h.2, if_neg fun h => hin h.2]

/-- Where every byte is backed, a store byte by byte is an unchecked one. -/
theorem writeEach_of_inRange (h : ∀ i < n, m.inRange (pa + BitVec.ofNat 64 i) = true) :
    m.writeEach pa v n = m.pokes pa v n := by
  induction n with
  | zero => rfl
  | succ n ih =>
    have hlast := h n (Nat.lt_succ_self n)
    rw [writeEach, write1, inRange_writeEach, if_pos hlast,
      ih fun i hi => h i (Nat.lt_succ_of_lt hi), pokes]

/-- Where no byte is backed, a store byte by byte stores nothing. -/
theorem writeEach_of_not_inRange (h : ∀ i < n, ¬ m.inRange (pa + BitVec.ofNat 64 i) = true) :
    m.writeEach pa v n = m := by
  induction n with
  | zero => rfl
  | succ n ih =>
    have hlast := h n (Nat.lt_succ_self n)
    rw [writeEach, write1, inRange_writeEach, if_neg hlast,
      ih fun i hi => h i (Nat.lt_succ_of_lt hi)]

/-- **A write stores the bytes of its access one by one**, on either path. -/
theorem write_eq_writeEach (m : GuestMemory) (pa v : Word) (hn : n ≤ 0x10000) :
    (m.write pa v n).1 = m.writeEach pa v n := by
  rw [write]
  by_cases hcross : crosses pa n = true
  · rw [if_pos hcross]
  · rw [if_neg hcross]
    have hrange := fun i (hi : i < n) => inRange_add_of_not_crosses (m := m) hcross hn hi
    by_cases hin : m.inRange pa = true
    · rw [if_pos hin, writeEach_of_inRange fun i hi => (hrange i hi).trans hin]
    · rw [if_neg hin, writeEach_of_not_inRange fun i hi => (hrange i hi).symm ▸ hin]

end GuestMemory

end EmulatR
