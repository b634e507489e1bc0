import EmulatR.Memory.Bytes
import EmulatR.Pipeline.MemDrainer

/-! # The unaligned access idiom

Alpha code reaches a datum at any address through the two quadwords that hold its first and its last
byte. A load takes them with LDQ_U, moves the halves of the datum into place with EXTxL and EXTxH
and joins them. A store takes them, clears the bytes of the datum with MSKxL and MSKxH, joins the
bytes from INSxL and INSxH, and puts the quadwords back with STQ_U, the high one first: where the
two coincide the low one, which then holds the whole datum, is the one that stays.

Every operate is described by what it does to each byte; the datum is then followed byte by byte.

`unaligned_access` is the result for both directions. -/

namespace EmulatR

open GuestMemory

/-! ## The bytes of the byte operates -/

namespace ByteOps

/-- stqUMergeLane: merge eight bytes at an offset into two quadwords, and say whether the second one
is touched. -/
def stqUMergeLane (q0In q1In src : Word) (byteOffset : BitVec 8) : Word × Word × Bool :=
  let k := (byteOffset &&& 7).toNat
  if k = 0 then (src, q1In, false)
  else
    ((q0In &&& lowBytes k) ||| (src <<< (8 * k)),
      (q1In &&& ~~~lowBytes k) ||| ((src >>> (8 * (8 - k))) &&& lowBytes k), true)

/-- The byte position is the address modulo 8. -/
theorem bytePos_eq (offset : Word) : bytePos offset = offset.toNat % 8 := by
  rw [bytePos, BitVec.extractLsb'_toNat, Nat.shiftRight_zero]

/-- There are eight of them. -/
theorem bytePos_lt (offset : Word) : bytePos offset < 8 := by
  rw [bytePos_eq]
  exact Nat.mod_lt _ (by decide)

/-- The bytes of a word shifted right. -/
theorem byteOf_ushiftRight (x : Word) (k i : Nat) : byteOf (x >>> (8 * k)) i = byteOf x (k + i) :=
  Library.lane_ushiftRight 8 x k i

/-- The bytes of a word shifted left. -/
theorem byteOf_shiftLeft (x : Word) (k : Nat) {i : Nat} (hi : i < 8) :
    byteOf (x <<< (8 * k)) i = if k ≤ i then byteOf x (i - k) else 0 :=
  Library.lane_shiftLeft 8 x k (by omega)

/-- The bytes of a complement. -/
theorem byteOf_not (x : Word) {i : Nat} (hi : i < 8) : byteOf (~~~x) i = ~~~byteOf x i :=
  Library.lane_not 8 x (by omega)

/-- The bytes of the mask of the low bytes. -/
theorem byteOf_lowBytes (n : Nat) {i : Nat} (hi : i < 8) :
    byteOf (lowBytes n) i = if i < n then BitVec.allOnes 8 else 0 :=
  Library.lane_lowMask 8 n (by omega)

/-- The low bytes of a word are kept by the mask. -/
theorem byteOf_and_lowBytes (x : Word) (n i : Nat) :
    byteOf (x &&& lowBytes n) i = if i < n then byteOf x i else 0 := by
  by_cases hi : i < 8
  · rw [byteOf_and, byteOf_lowBytes n hi]
    split
    · exact BitVec.and_allOnes
    · exact BitVec.and_zero
  · rw [byteOf_of_ge _ (by omega), byteOf_of_ge _ (by omega), ite_self]

/-- Clearing `n` bytes from position `k` up. -/
theorem byteOf_clear (x : Word) (n k : Nat) {i : Nat} (hi : i < 8) :
    byteOf (x &&& ~~~(lowBytes n <<< (8 * k))) i =
      if k ≤ i ∧ i < k + n then 0 else byteOf x i := by
  rw [byteOf_and, byteOf_not _ hi, byteOf_shiftLeft _ k hi, byteOf_lowBytes n (by omega)]
  by_cases hk : k ≤ i
  · by_cases hn : i < k + n
    · rw [if_pos hk, if_pos (by omega), if_pos ⟨hk, hn⟩, BitVec.not_allOnes]
      exact BitVec.and_zero
    · rw [if_pos hk, if_neg (by omega), if_neg fun h => hn h.2]
      exact BitVec.and_allOnes
  · rw [if_neg hk, if_neg fun h => hk h.1]
    exact BitVec.and_allOnes

/-- The complement of that mask clears the low bytes. -/
theorem byteOf_clearLow (x : Word) (n : Nat) {i : Nat} (hi : i < 8) :
    byteOf (x &&& ~~~lowBytes n) i = if i < n then 0 else byteOf x i := by
  have hclear := byteOf_clear x n 0 hi
  rw [Nat.mul_zero, BitVec.shiftLeft_zero, Nat.zero_add] at hclear
  rw [hclear]
  by_cases hn : i < n
  · rw [if_pos ⟨Nat.zero_le i, hn⟩, if_pos hn]
  · rw [if_neg fun h => hn h.2, if_neg hn]

section

variable (n : Nat) (v offset : Word) {i : Nat}

/-- The bytes of a low extract. -/
theorem byteOf_extLow : byteOf (extLow n v offset) i =
    if i < n ∧ bytePos offset + i < 8 then byteOf v (bytePos offset + i) else 0 := by
  rw [extLow, byteOf_and_lowBytes, byteOf_ushiftRight]
  by_cases hn : i < n
  · by_cases hpos : bytePos offset + i < 8
    · rw [if_pos hn, if_pos ⟨hn, hpos⟩]
    · rw [if_pos hn, if_neg fun h => hpos h.2, byteOf_of_ge _ (by omega)]
  · rw [if_neg hn, if_neg fun h => hn h.1]

/-- The bytes of a high extract. -/
theorem byteOf_extHigh (hi : i < 8) : byteOf (extHigh n v offset) i =
    if i < n ∧ 8 ≤ bytePos offset + i then byteOf v (bytePos offset + i - 8) else 0 := by
  have hlt := bytePos_lt offset
  rw [extHigh]
  by_cases hzero : bytePos offset = 0
  · -- no shift by 64: the whole datum is in the low half
    rw [if_pos hzero, if_neg (by omega)]
    exact BitVec.extractLsb'_zero
  · rw [if_neg hzero, byteOf_and_lowBytes, byteOf_shiftLeft _ _ hi]
    by_cases hn : i < n
    · by_cases hpos : 8 ≤ bytePos offset + i
      · rw [if_pos hn, if_pos (by omega), if_pos ⟨hn, hpos⟩]
        congr 1
        omega
      · rw [if_pos hn, if_neg (by omega), if_neg fun h => hpos h.2]
    · rw [if_neg hn, if_neg fun h => hn h.1]

/-- The bytes of a low insert. -/
theorem byteOf_insLow (hi : i < 8) : byteOf (insLow n v offset) i =
    if bytePos offset ≤ i ∧ i < bytePos offset + n then byteOf v (i - bytePos offset) else 0 := by
  rw [insLow, byteOf_shiftLeft _ _ hi, byteOf_and_lowBytes]
  by_cases hk : bytePos offset ≤ i
  · by_cases hn : i < bytePos offset + n
    · rw [if_pos hk, if_pos (by omega), if_pos ⟨hk, hn⟩]
    · rw [if_pos hk, if_neg (by omega), if_neg fun h => hn h.2]
  · rw [if_neg hk, if_neg fun h => hk h.1]

/-- The bytes of a high insert. -/
theorem byteOf_insHigh (hn : n ≤ 8) : byteOf (insHigh n v offset) i =
    if i + 8 < bytePos offset + n then byteOf v (i + 8 - bytePos offset) else 0 := by
  have hlt := bytePos_lt offset
  rw [insHigh]
  by_cases hzero : bytePos offset = 0
  · rw [if_pos hzero, if_neg (by omega)]
    exact BitVec.extractLsb'_zero
  · rw [if_neg hzero, byteOf_ushiftRight, byteOf_and_lowBytes,
      show 8 - bytePos offset + i = i + 8 - bytePos offset by omega]
    by_cases hspill : i + 8 < bytePos offset + n
    · rw [if_pos (by omega), if_pos hspill]
    · rw [if_neg (by omega), if_neg hspill]

/-- The bytes of a low mask. -/
theorem byteOf_maskLow (hi : i < 8) : byteOf (maskLow n v offset) i =
    if bytePos offset ≤ i ∧ i < bytePos offset + n then 0 else byteOf v i :=
  byteOf_clear v n (bytePos offset) hi

/-- The bytes of a high mask. -/
theorem byteOf_maskHigh (hi : i < 8) : byteOf (maskHigh n v offset) i =
    if i + 8 < bytePos offset + n then 0 else byteOf v i := by
  rw [maskHigh]
  by_cases hspill : bytePos offset + n ≤ 8
  · rw [if_pos hspill, if_neg (by omega)]
  · rw [if_neg hspill, byteOf_clearLow _ _ hi]
    by_cases hin : i + 8 < bytePos offset + n
    · rw [if_pos (by omega), if_pos hin]
    · rw [if_neg (by omega), if_neg hin]

end

/-- MSKQL keeps the bytes below the position, which is to clear eight bytes from it up. -/
theorem mskql_eq_maskLow (v offset : Word) : mskql v offset = maskLow 8 v offset := by
  apply eq_of_bytes
  intro i hi
  have hlt := bytePos_lt offset
  rw [byteOf_maskLow 8 v offset hi, mskql]
  by_cases hzero : bytePos offset = 0
  · rw [if_pos hzero, if_pos (by omega)]
    exact BitVec.extractLsb'_zero
  · rw [if_neg hzero, byteOf_and_lowBytes]
    by_cases hbelow : i < bytePos offset
    · rw [if_pos hbelow, if_neg (by omega)]
    · rw [if_neg hbelow, if_pos (by omega)]

end ByteOps

/-! ## The idiom -/

/-- The widths of an unaligned access. -/
inductive UnalignedWidth
  | word | long | quad
  deriving DecidableEq, Repr

namespace UnalignedWidth

/-- The number of bytes. -/
def bytes : UnalignedWidth → Nat
  | word => 2
  | long => 4
  | quad => 8

/-- EXTWL, EXTLL or EXTQL. -/
def extLow : UnalignedWidth → IntOp
  | word => .extwl
  | long => .extll
  | quad => .extql

/-- EXTWH, EXTLH or EXTQH. -/
def extHigh : UnalignedWidth → IntOp
  | word => .extwh
  | long => .extlh
  | quad => .extqh

/-- INSWL, INSLL or INSQL. -/
def insLow : UnalignedWidth → IntOp
  | word => .inswl
  | long => .insll
  | quad => .insql

/-- INSWH, INSLH or INSQH. -/
def insHigh : UnalignedWidth → IntOp
  | word => .inswh
  | long => .inslh
  | quad => .insqh

/-- MSKWL, MSKLL or MSKQL. -/
def mskLow : UnalignedWidth → IntOp
  | word => .mskwl
  | long => .mskll
  | quad => .mskql

/-- MSKWH, MSKLH or MSKQH. -/
def mskHigh : UnalignedWidth → IntOp
  | word => .mskwh
  | long => .msklh
  | quad => .mskqh

/-- The address of the last byte of a datum. -/
def last (w : UnalignedWidth) (a : Word) : Word := a + BitVec.ofNat 64 (w.bytes - 1)

variable (w : UnalignedWidth) (v a : Word)

/-- Every width has a byte. -/
theorem bytes_pos : 0 < w.bytes := by cases w <;> decide

/-- None has more than eight. -/
theorem bytes_le : w.bytes ≤ 8 := by cases w <;> decide

/-- The low extract of a width is that of its bytes. -/
theorem extLow_value : w.extLow.value v a = ByteOps.extLow w.bytes v a := by cases w <;> rfl

/-- The high extract is that of the byte operations. -/
theorem extHigh_value : w.extHigh.value v a = ByteOps.extHigh w.bytes v a := by cases w <;> rfl

/-- The low insert is that of the byte operations. -/
theorem insLow_value : w.insLow.value v a = ByteOps.insLow w.bytes v a := by cases w <;> rfl

/-- The high insert is that of the byte operations. -/
theorem insHigh_value : w.insHigh.value v a = ByteOps.insHigh w.bytes v a := by cases w <;> rfl

/-- The high mask is that of the byte operations. -/
theorem mskHigh_value : w.mskHigh.value v a = ByteOps.maskHigh w.bytes v a := by cases w <;> rfl

/-- The low mask is that of the byte operations. -/
theorem mskLow_value : w.mskLow.value v a = ByteOps.maskLow w.bytes v a := by
  cases w with
  | word | long => rfl
  -- the one member of the family that is written with a mask of the bytes kept
  | quad => exact ByteOps.mskql_eq_maskLow v a

end UnalignedWidth

section Idiom

/-- Operands that give a memory instruction the effective address `a`. -/
def ctxAt (g : InstructionGrain) (a data : Word) : ExecCtx :=
  { opA := data, opB := a - g.encoded.memDispSext }

/-- LDQ_U at an effective address: the access of the leaf on memory, in the register's format. -/
def ldqU (g : InstructionGrain) (m : GuestMemory) (a : Word) : Word :=
  let r := execLdqU g (ctxAt g a 0)
  MemDrainer.formatLoadValue (Chipset.dramRead m r.memAddr r.memSize).data r.memSize r.regWriteIsFp
    (r.semFlags.contains .vaxFp)

/-- STQ_U at an effective address. -/
def stqU (g : InstructionGrain) (m : GuestMemory) (a data : Word) : GuestMemory :=
  let r := execStqU g (ctxAt g a data)
  Chipset.dramWrite m r.memAddr r.memData r.memSize

/-- The load: the halves of the datum from its two quadwords, joined. -/
def unalignedLoad (w : UnalignedWidth) (gLow gHigh : InstructionGrain) (m : GuestMemory)
    (a : Word) : Word :=
  IntOp.bis.value (w.extLow.value (ldqU gLow m a) a) (w.extHigh.value (ldqU gHigh m (w.last a)) a)

/-- The store: both quadwords are loaded, the datum takes its bytes in each, and they are put back,
the high one first. -/
def unalignedStore (w : UnalignedWidth) (gLow gHigh gHigh' gLow' : InstructionGrain)
    (m : GuestMemory) (a v : Word) : GuestMemory :=
  let low := ldqU gLow m a
  let high := ldqU gHigh m (w.last a)
  let high' := IntOp.bis.value (w.insHigh.value v a) (w.mskHigh.value high a)
  let low' := IntOp.bis.value (w.insLow.value v a) (w.mskLow.value low a)
  stqU gLow' (stqU gHigh' m (w.last a) high') a low'

/-! ## The two quadwords -/

/-- The aligned quadword that holds an address. -/
def quadBase (a : Word) : Word := a &&& ~~~7

/-- The context is that of an access to the address. -/
theorem memEa_ctxAt (g : InstructionGrain) (a data : Word) : memEa g (ctxAt g a data) = a :=
  BitVec.sub_add_cancel a _

/-- LDQ_U reads the aligned quadword that holds the address. -/
theorem ldqU_eq (g : InstructionGrain) (m : GuestMemory) (a : Word) :
    ldqU g m a = leWord (fun i => m.read1 (quadBase a + BitVec.ofNat 64 i)) 8 := by
  rw [← read_eq_leWord m _ (by decide)]
  change m.read (memEaU g (ctxAt g a 0)) 8 = _
  rw [memEaU, memEa_ctxAt, quadBase]

/-- STQ_U writes the aligned quadword that holds the address. -/
theorem stqU_eq (g : InstructionGrain) (m : GuestMemory) (a data : Word) :
    stqU g m a data = m.writeEach (quadBase a) data 8 := by
  rw [← write_eq_writeEach m _ _ (by decide)]
  change (m.write (memEaU g (ctxAt g a data)) data 8).1 = _
  rw [memEaU, memEa_ctxAt, quadBase]

/-- The quadword's address is the address with its position taken off. -/
theorem toNat_quadBase (a : Word) : (quadBase a).toNat = a.toNat - a.toNat % 8 :=
  Library.toNat_and_not_lowMask 3 rfl

/-- Byte `i` from the quadword of `a` on is byte `i` less the position from `a` on. -/
theorem quadBase_add (a : Word) {i : Nat} (hi : ByteOps.bytePos a ≤ i) :
    quadBase a + BitVec.ofNat 64 i = a + BitVec.ofNat 64 (i - ByteOps.bytePos a) := by
  apply BitVec.eq_of_toNat_eq
  rw [ByteOps.bytePos_eq] at hi ⊢
  simp only [BitVec.toNat_add, toNat_quadBase, BitVec.toNat_ofNat]
  omega

/-- A datum that ends in the quadword of its first byte has one quadword. -/
theorem quadBase_last_of_le {w : UnalignedWidth} {a : Word}
    (h : ByteOps.bytePos a + w.bytes ≤ 8) : quadBase (w.last a) = quadBase a := by
  have hpos := w.bytes_pos
  have ha := a.isLt
  rw [ByteOps.bytePos_eq] at h
  apply BitVec.eq_of_toNat_eq
  simp only [toNat_quadBase, UnalignedWidth.last, BitVec.toNat_add, BitVec.toNat_ofNat]
  omega

/-- A datum that spills over has two quadwords, one after the other. -/
theorem quadBase_last_of_gt {w : UnalignedWidth} {a : Word}
    (h : ¬ ByteOps.bytePos a + w.bytes ≤ 8) :
    quadBase (w.last a) = quadBase a + BitVec.ofNat 64 8 := by
  have hle := w.bytes_le
  have ha := a.isLt
  rw [ByteOps.bytePos_eq] at h
  apply BitVec.eq_of_toNat_eq
  simp only [toNat_quadBase, UnalignedWidth.last, BitVec.toNat_add, BitVec.toNat_ofNat]
  omega

/-! ## The load -/

/-- A byte of the datum in its first quadword. -/
theorem byteOf_ldqU (g : InstructionGrain) (m : GuestMemory) {a : Word} {i : Nat}
    (hpos : ByteOps.bytePos a ≤ i) (hi : i < 8) :
    byteOf (ldqU g m a) i = m.read1 (a + BitVec.ofNat 64 (i - ByteOps.bytePos a)) := by
  rw [ldqU_eq, byteOf_leWord _ hi, if_pos hi, quadBase_add a hpos]

/-- A byte of the datum in its second quadword. -/
theorem byteOf_ldqU_last (g : InstructionGrain) (m : GuestMemory) {w : UnalignedWidth} {a : Word}
    {i : Nat} (hspill : ¬ ByteOps.bytePos a + w.bytes ≤ 8) (hi : i < 8) :
    byteOf (ldqU g m (w.last a)) i =
      m.read1 (a + BitVec.ofNat 64 (i + 8 - ByteOps.bytePos a)) := by
  have hlt := ByteOps.bytePos_lt a
  rw [ldqU_eq, byteOf_leWord _ hi, if_pos hi, quadBase_last_of_gt hspill, BitVec.add_assoc,
    ← BitVec.ofNat_add, Nat.add_comm 8 i, quadBase_add a (by omega)]

/-- The load idiom composes the bytes of the datum. -/
theorem unalignedLoad_eq (w : UnalignedWidth) (gLow gHigh : InstructionGrain) (m : GuestMemory)
    (a : Word) : unalignedLoad w gLow gHigh m a =
      leWord (fun i => m.read1 (a + BitVec.ofNat 64 i)) w.bytes := by
  apply eq_of_bytes
  intro i hi
  have hpos := ByteOps.bytePos_lt a
  rw [byteOf_leWord _ hi, unalignedLoad, IntOp.value, byteOf_or, w.extLow_value, w.extHigh_value,
    ByteOps.byteOf_extLow, ByteOps.byteOf_extHigh _ _ _ hi]
  by_cases hw : i < w.bytes
  · rw [if_pos hw]
    -- the byte comes from one of the quadwords, and the other half of the join is zero there
    by_cases hlow : ByteOps.bytePos a + i < 8
    · rw [if_pos ⟨hw, hlow⟩, if_neg (by omega), byteOf_ldqU gLow m (by omega) hlow,
        Nat.add_sub_cancel_left]
      exact BitVec.or_zero
    · have hback : ByteOps.bytePos a + i - 8 + 8 - ByteOps.bytePos a = i := by omega
      rw [if_neg fun h => hlow h.2, if_pos ⟨hw, by omega⟩,
        byteOf_ldqU_last gHigh m (by omega) (by omega), hback]
      exact BitVec.zero_or
  · rw [if_neg hw, if_neg fun h => hw h.1, if_neg fun h => hw h.1]
    exact BitVec.or_zero

/-! ## The store -/

/-- The distance of a cell from the `i`-th cell of an access. -/
theorem toNat_sub_cell_add (c : BitVec 48) (q : Word) {i : Nat} (hi : i < 2 ^ 48) :
    (c - cell (q + BitVec.ofNat 64 i)).toNat = ((c - cell q).toNat + 2 ^ 48 - i) % 2 ^ 48 := by
  have hc := c.isLt
  have hq := (cell q).isLt
  simp only [cell_add_ofNat, BitVec.toNat_sub, BitVec.toNat_add, BitVec.toNat_ofNat]
  omega

/-- The byte of a quadword that a backed cell of it holds. -/
theorem byteOf_quad {m : GuestMemory} {q : Word} {c : BitVec 48} (hq : (c - cell q).toNat < 8)
    (hc : m.holds c = true) :
    byteOf (leWord (fun i => m.read1 (q + BitVec.ofNat 64 i)) 8) (c - cell q).toNat =
      m.bytes c := by
  have hcell : cell (q + BitVec.ofNat 64 (c - cell q).toNat) = c :=
    ((eq_cell_add_iff q (by omega) c).mpr rfl).symm
  rw [byteOf_leWord _ hq, if_pos hq, read1_of_inRange, hcell]
  rw [inRange_eq_holds, hcell]
  exact hc

section

variable (w : UnalignedWidth) (quad v a : Word) {i : Nat}

/-- What the idiom makes of a byte of the low quadword. -/
theorem byteOf_low (hi : i < 8) :
    byteOf (IntOp.bis.value (w.insLow.value v a) (w.mskLow.value quad a)) i =
      if ByteOps.bytePos a ≤ i ∧ i < ByteOps.bytePos a + w.bytes then
        byteOf v (i - ByteOps.bytePos a)
      else byteOf quad i := by
  rw [IntOp.value, byteOf_or, w.insLow_value, w.mskLow_value, ByteOps.byteOf_insLow _ _ _ hi,
    ByteOps.byteOf_maskLow _ _ _ hi]
  split
  · exact BitVec.or_zero
  · exact BitVec.zero_or

/-- What the idiom makes of a byte of the high quadword. -/
theorem byteOf_high (hi : i < 8) :
    byteOf (IntOp.bis.value (w.insHigh.value v a) (w.mskHigh.value quad a)) i =
      if i + 8 < ByteOps.bytePos a + w.bytes then byteOf v (i + 8 - ByteOps.bytePos a)
      else byteOf quad i := by
  rw [IntOp.value, byteOf_or, w.insHigh_value, w.mskHigh_value,
    ByteOps.byteOf_insHigh _ _ _ w.bytes_le, ByteOps.byteOf_maskHigh _ _ _ hi]
  split
  · exact BitVec.or_zero
  · exact BitVec.zero_or

/-- **The merge helper is the idiom of the quadword.** `stqUMergeLane` makes the two quadwords that
INSQL, MSKQL, INSQH and MSKQH make, and asks for the second one iff the datum spills over. -/
theorem stqUMergeLane_eq (q0In q1In src : Word) :
    ByteOps.stqUMergeLane q0In q1In src (a.setWidth 8) =
      (IntOp.bis.value (IntOp.insql.value src a) (IntOp.mskql.value q0In a),
        IntOp.bis.value (IntOp.insqh.value src a) (IntOp.mskqh.value q1In a),
        decide (ByteOps.bytePos a ≠ 0)) := by
  have hpos := ByteOps.bytePos_lt a
  have hk : (a.setWidth 8 &&& 7).toNat = ByteOps.bytePos a := by
    rw [Library.toNat_and_lowMask 3 rfl, BitVec.toNat_setWidth, ByteOps.bytePos_eq]
    omega
  have hlow : ∀ i < 8,
      byteOf (IntOp.bis.value (IntOp.insql.value src a) (IntOp.mskql.value q0In a)) i =
        if ByteOps.bytePos a ≤ i ∧ i < ByteOps.bytePos a + 8 then
          byteOf src (i - ByteOps.bytePos a)
        else byteOf q0In i := fun i hi => byteOf_low .quad q0In src a hi
  have hhigh : ∀ i < 8,
      byteOf (IntOp.bis.value (IntOp.insqh.value src a) (IntOp.mskqh.value q1In a)) i =
        if i + 8 < ByteOps.bytePos a + 8 then byteOf src (i + 8 - ByteOps.bytePos a)
        else byteOf q1In i := fun i hi => byteOf_high .quad q1In src a hi
  rw [ByteOps.stqUMergeLane]
  simp only [hk]
  by_cases hzero : ByteOps.bytePos a = 0
  · rw [if_pos hzero, decide_eq_false (not_not.mpr hzero), Prod.mk.injEq, Prod.mk.injEq]
    refine ⟨eq_of_bytes fun i hi => ?_, eq_of_bytes fun i hi => ?_, rfl⟩
    · rw [hlow i hi, hzero, if_pos ⟨Nat.zero_le i, by omega⟩, Nat.sub_zero]
    · rw [hhigh i hi, if_neg (by omega)]
  · rw [if_neg hzero, decide_eq_true hzero, Prod.mk.injEq, Prod.mk.injEq]
    refine ⟨eq_of_bytes fun i hi => ?_, eq_of_bytes fun i hi => ?_, rfl⟩
    · rw [hlow i hi, byteOf_or, ByteOps.byteOf_and_lowBytes, ByteOps.byteOf_shiftLeft _ _ hi]
      by_cases hbelow : i < ByteOps.bytePos a
      · rw [if_pos hbelow, if_neg (by omega), if_neg (by omega)]
        exact BitVec.or_zero
      · rw [if_neg hbelow, if_pos (by omega), if_pos (by omega)]
        exact BitVec.zero_or
    · rw [hhigh i hi, byteOf_or, ByteOps.byteOf_clearLow _ _ hi, ByteOps.byteOf_and_lowBytes,
        ByteOps.byteOf_ushiftRight]
      by_cases hbelow : i < ByteOps.bytePos a
      · rw [if_pos hbelow, if_pos hbelow, if_pos (by omega),
          show 8 - ByteOps.bytePos a + i = i + 8 - ByteOps.bytePos a by omega]
        exact BitVec.zero_or
      · rw [if_neg hbelow, if_neg hbelow, if_neg (by omega)]
        exact BitVec.or_zero

end

/-- A backed cell of the low quadword after the last store. -/
theorem low_stored {w : UnalignedWidth} {g : InstructionGrain} {m : GuestMemory} {a v : Word}
    {c : BitVec 48} (hc : m.holds c = true) (hlow : (c - cell (quadBase a)).toNat < 8) :
    byteOf (IntOp.bis.value (w.insLow.value v a) (w.mskLow.value (ldqU g m a) a))
        (c - cell (quadBase a)).toNat =
      if (c - cell a).toNat < w.bytes then byteOf v (c - cell a).toNat else m.bytes c := by
  have hpos := ByteOps.bytePos_lt a
  have hle := w.bytes_le
  have hdist := toNat_sub_cell_add c (quadBase a) (i := ByteOps.bytePos a) (by omega)
  rw [quadBase_add a le_rfl, Nat.sub_self, BitVec.add_zero] at hdist
  rw [byteOf_low w _ v a hlow]
  by_cases hin : (c - cell a).toNat < w.bytes
  · rw [if_pos (by omega), if_pos hin]
    congr 1
    omega
  · rw [if_neg (by omega), if_neg hin, ldqU_eq, byteOf_quad hlow hc]

/-- A backed cell outside the low quadword after the first store. -/
theorem high_stored {w : UnalignedWidth} {g : InstructionGrain} {m : GuestMemory} {a v : Word}
    {c : BitVec 48} (hc : m.holds c = true) (hhigh : ¬ (c - cell (quadBase a)).toNat < 8) :
    (m.writeEach (quadBase (w.last a))
        (IntOp.bis.value (w.insHigh.value v a) (w.mskHigh.value (ldqU g m (w.last a)) a)) 8).bytes
        c =
      if (c - cell a).toNat < w.bytes then byteOf v (c - cell a).toNat else m.bytes c := by
  have hpos := ByteOps.bytePos_lt a
  have hle := w.bytes_le
  have hdist := toNat_sub_cell_add c (quadBase a) (i := ByteOps.bytePos a) (by omega)
  rw [quadBase_add a le_rfl, Nat.sub_self, BitVec.add_zero] at hdist
  rw [bytes_writeEach _ _ _ (by decide)]
  by_cases hspill : ByteOps.bytePos a + w.bytes ≤ 8
  · -- the two quadwords coincide: the high one holds no byte of the datum
    rw [quadBase_last_of_le hspill, if_neg fun h => hhigh h.1, if_neg (by omega)]
  · have hnext := toNat_sub_cell_add c (quadBase a) (i := 8) (by decide)
    rw [← quadBase_last_of_gt hspill] at hnext
    by_cases hquad : (c - cell (quadBase (w.last a))).toNat < 8
    · rw [if_pos ⟨hquad, hc⟩, byteOf_high w _ v a hquad]
      by_cases hin : (c - cell a).toNat < w.bytes
      · rw [if_pos (by omega), if_pos hin]
        congr 1
        omega
      · rw [if_neg (by omega), if_neg hin, ldqU_eq, byteOf_quad hquad hc]
    · rw [if_neg fun h => hquad h.1, if_neg (by omega)]

/-- The store idiom stores the bytes of the datum, and nothing else. -/
theorem unalignedStore_eq (w : UnalignedWidth) (gLow gHigh gHigh' gLow' : InstructionGrain)
    (m : GuestMemory) (a v : Word) :
    unalignedStore w gLow gHigh gHigh' gLow' m a v = m.writeEach a v w.bytes := by
  have hle := w.bytes_le
  simp only [unalignedStore, stqU_eq]
  apply ext
  · rw [pageCount_writeEach, pageCount_writeEach, pageCount_writeEach]
  · intro c
    rw [bytes_writeEach _ _ _ (by decide), bytes_writeEach m a v (by omega), holds_writeEach]
    by_cases hc : m.holds c = true
    · simp only [hc, and_true]
      by_cases hlow : (c - cell (quadBase a)).toNat < 8
      -- the low quadword is stored last and decides its cells
      · rw [if_pos hlow, low_stored hc hlow]
      · rw [if_neg hlow, high_stored hc hlow]
    · rw [if_neg fun h => hc h.2, if_neg fun h => hc h.2, bytes_writeEach _ _ _ (by decide),
        if_neg fun h => hc h.2]

/-- **Unaligned access through aligned quadwords.** At every address, of every memory, the load
idiom yields the bytes of the datum, and the store idiom leaves the memory as a store of these
bytes one by one does: exactly the backed cells of the datum hold its bytes. -/
theorem unaligned_access (w : UnalignedWidth) (gLow gHigh gHigh' gLow' : InstructionGrain)
    (m : GuestMemory) (a v : Word) :
    unalignedLoad w gLow gHigh m a = leWord (fun i => m.read1 (a + BitVec.ofNat 64 i)) w.bytes ∧
      unalignedStore w gLow gHigh gHigh' gLow' m a v = m.writeEach a v w.bytes ∧
      ∀ c, (unalignedStore w gLow gHigh gHigh' gLow' m a v).bytes c =
        if (c - cell a).toNat < w.bytes ∧ m.holds c = true then byteOf v (c - cell a).toNat
        else m.bytes c := by
  have hle := w.bytes_le
  have hstore := unalignedStore_eq w gLow gHigh gHigh' gLow' m a v
  refine ⟨unalignedLoad_eq w gLow gHigh m a, hstore, fun c => ?_⟩
  rw [hstore, bytes_writeEach m a v (by omega)]

/-! ## The accesses in the drain stage -/

variable {δ : Type} (D : Devices δ) (silicon : Bool) (g : InstructionGrain) (m : Machine δ)
  (c : ExecCtx)

/-- Where an address is its own translation and is DRAM, the drain stage loads what `ldqU` says. -/
theorem applyMemEffect_execLdqU
    (htr : MemDrainer.translate m.cpu (execLdqU g c) = .success (memEaU g c))
    (hdram : D.dramClaims m.bus.devices (memEaU g c) = true) :
    (MemDrainer.applyMemEffect D silicon g m (execLdqU g c)).1.bus = m.bus ∧
      (MemDrainer.applyMemEffect D silicon g m (execLdqU g c)).2.faultCode = .noFault ∧
      (MemDrainer.applyMemEffect D silicon g m (execLdqU g c)).2.regWriteValue =
        ldqU g m.bus.memory (memEa g c) := by
  -- the longword the emulated platforms read as a constant is not a quadword's address
  have hpin : memEaU g c ≠ 0xBFFC := by
    intro h
    have hbase := toNat_quadBase (memEa g c)
    rw [show quadBase (memEa g c) = 0xBFFC from h,
      show BitVec.toNat (0xBFFC : Word) = 0xBFFC from rfl] at hbase
    omega
  have hread : m.bus.read D (memEaU g c) 8 = (m.bus, ⟨.ok, m.bus.memory.read (memEaU g c) 8⟩) := by
    rw [Chipset.read, if_pos hdram]
    rfl
  have hload : MemDrainer.applyMemEffect D silicon g m (execLdqU g c) =
      MemDrainer.applyLoadEffect D silicon m (execLdqU g c) (memEaU g c) := by
    rw [MemDrainer.applyMemEffect, htr]
    rfl
  have hsize : (execLdqU g c).memSize = 8 := rfl
  rw [hload, MemDrainer.applyLoadEffect]
  simp only [hsize, hread, beq_false_of_ne hpin, Bool.and_false, ne_eq, not_true_eq_false, if_false]
  refine ⟨trivial, rfl, ?_⟩
  rw [ldqU_eq, ← read_eq_leWord _ _ (by decide)]
  rfl

/-- Where an address is its own translation and is DRAM, the drain stage stores what `stqU` says. -/
theorem applyMemEffect_execStqU (hlocked : (execStqU g c).isLocked = false)
    (htr : MemDrainer.translate m.cpu (execStqU g c) = .success (memEaU g c))
    (hdram : D.dramClaims m.bus.devices (memEaU g c) = true) :
    (MemDrainer.applyMemEffect D silicon g m (execStqU g c)).1.bus.memory =
        stqU g m.bus.memory (memEa g c) c.opA ∧
      (MemDrainer.applyMemEffect D silicon g m (execStqU g c)).2.faultCode = .noFault := by
  have hwrite : m.bus.write D (memEaU g c) c.opA 8 =
      ({ m.bus with memory := Chipset.dramWrite m.bus.memory (memEaU g c) c.opA 8 },
        ⟨.ok, 0⟩) := by
    rw [Chipset.write, if_neg (by decide), if_pos hdram]
  have hstore : MemDrainer.applyMemEffect D silicon g m (execStqU g c) =
      MemDrainer.performStore D m (execStqU g c) (memEaU g c) := by
    rw [MemDrainer.applyMemEffect, htr]
    change MemDrainer.applyStoreEffect D m (execStqU g c) (memEaU g c) = _
    rw [MemDrainer.applyStoreEffect, hlocked, if_neg Bool.false_ne_true]
  have hdata : (execStqU g c).memData = c.opA := rfl
  have hsize : (execStqU g c).memSize = 8 := rfl
  rw [hstore, MemDrainer.performStore]
  simp only [hdata, hsize, hwrite, hlocked, ne_eq, not_true_eq_false, if_false, Bool.false_eq_true]
  refine ⟨?_, rfl⟩
  rw [stqU_eq, ← write_eq_writeEach _ _ _ (by decide)]
  rfl

end Idiom

end EmulatR
