import EmulatR.Core.CpuImage
import EmulatR.System.Snapshot

/-! # Loading what was saved

Every section of a snapshot is read by a list of fields that is kept apart from the list that wrote
it. `reads_…` says for each chip that the two lists fit; `Section.load_consumes` says it for each
section of the file, memory pages, flash image, IIC content and firmware included; and from these
comes what `load` makes of the file that `save` wrote.

The file always has its sections where `load` looks for them. What is in them is the board, up to
two limits: a page table that does not cover the memory cannot be saved, and a firmware payload of
2³¹ bytes or more loses what lies beyond the `int` its length is cut to. `roundTrip_iff` is the
exact condition.

`roundTrips_iff` is the exact condition; `big_payload_is_lost` is a payload that breaks it. -/

namespace EmulatR

open Library.Codec

namespace Snapshot

/-! ## The chips -/

/-- A string is read back as it was written. -/
theorem reads_qString (q : QString) : Reads getQString (putQString q) q.units := by
  have hsize : (BitVec.ofNat 32 (2 * q.units.length)).toNat = 2 * q.units.length := by
    have := q.size_lt
    rw [BitVec.toNat_ofNat]
    omega
  refine (reads_u32 _).bind ?_
  have hplain : ¬ (BitVec.ofNat 32 (2 * q.units.length) = 0xFFFFFFFF ∨
      (BitVec.ofNat 32 (2 * q.units.length)).toNat % 2 = 1) := by
    rw [hsize]
    rintro (h | h)
    · have hones : 2 * q.units.length = (0xFFFFFFFF : BitVec 32).toNat := hsize ▸ congrArg _ h
      exact absurd hones q.size_lt.ne
    · omega
  have hcount : (BitVec.ofNat 32 (2 * q.units.length)).toNat / 2 = q.units.length := by
    rw [hsize]
    omega
  rw [if_neg hplain, hcount]
  exact reads_many (fun u => reads_word (by omega) u) q.units

/-- An array address register is read back. -/
theorem reads_aar (a : TsunamiBus.Aar) : Reads getAar (putAar a) a := by
  simp only [putAar, List.append_assoc]
  exact (reads_u64 _).bind ((reads_u64 _).bind ((reads_bool _).bind_pure rfl))

/-- The Cchip is read back. -/
theorem reads_cchip (c : TsunamiCchip) (k : CchipConfig) :
    Reads getCchip (putCchip c k) (c.serialize, k) := by
  simp only [putCchip, List.append_assoc]
  refine (reads_u64 _).bind ((reads_u64 _).bind ((reads_u64 _).bind ((reads_u64 _).bind ?_)))
  refine (reads_u64 _).bind ((reads_u64 _).bind ((reads_u64 _).bind ?_))
  refine (reads_array reads_aar _).bind ((reads_array reads_u64 _).bind ((reads_u64 _).bind ?_))
  exact (reads_array reads_u64 _).bind ((reads_array reads_u64 _).bind_pure rfl)

/-- The Dchip is read back. -/
theorem reads_dchip (d : TsunamiDchip) : Reads getDchip (putDchip d) d := by
  simp only [putDchip, List.append_assoc]
  exact (reads_u64 _).bind ((reads_u64 _).bind ((reads_u64 _).bind ((reads_u64 _).bind_pure rfl)))

/-- A Pchip is read back. -/
theorem reads_pchip (p : TsunamiPchip) : Reads getPchip (putPchip p) p := by
  simp only [putPchip, List.append_assoc]
  refine (reads_array reads_u64 _).bind ((reads_array reads_u64 _).bind ?_)
  refine (reads_array reads_u64 _).bind ((reads_u64 _).bind ((reads_u64 _).bind ?_))
  exact (reads_u64 _).bind ((reads_u64 _).bind ((reads_u64 _).bind ((reads_u64 _).bind_pure rfl)))

/-- A serial port with the transmit filter of another. -/
def withFilter (u old : Uart16550) : Uart16550 :=
  { u with badgeState := old.badgeState, badgePend := old.badgePend, badgeSuf := old.badgeSuf }

/-- **The FIFO comes back in order**: its count is within the depth the reader stops at. -/
theorem reads_uart (u old : Uart16550) : Reads (getUart old) (putUart u) (withFilter u old) := by
  have hle := u.rxFifo_le
  have hcount : min (BitVec.ofNat 32 u.rxFifo.length).toNat Uart16550.kRxFifoDepth =
      u.rxFifo.length := by
    rw [BitVec.toNat_ofNat]
    simp only [Uart16550.kRxFifoDepth] at hle ⊢
    omega
  simp only [putUart, List.append_assoc]
  refine (reads_u8 _).bind ((reads_u8 _).bind ((reads_u8 _).bind ((reads_u8 _).bind ?_)))
  refine (reads_u8 _).bind ((reads_u8 _).bind ((reads_u8 _).bind ?_))
  refine (reads_bool _).bind ((reads_bool _).bind ((reads_u8 _).bind ((reads_u32 _).bind ?_)))
  rw [hcount]
  refine (reads_many reads_u8 _).bind_pure ?_
  simp only [List.take_of_length_le hle]
  rfl

/-- The code of an initialization state gives it back. -/
theorem initOfCode_initCode (i : InitState) : initOfCode (initCode i) = i := by
  cases i <;> rfl

/-- An interrupt controller is read back. -/
theorem reads_picUnit (u : PicUnit) : Reads getPicUnit (putPicUnit u) u := by
  simp only [putPicUnit, List.append_assoc]
  refine (reads_u8 _).bind ((reads_u8 _).bind ((reads_u8 _).bind ((reads_u8 _).bind ?_)))
  refine (reads_u8 _).bind ((reads_u8 _).bind ((reads_u8 _).bind ?_))
  refine (reads_bool _).bind ((reads_bool _).bind ((reads_bool _).bind_pure ?_))
  rw [initOfCode_initCode]

/-- The pair of interrupt controllers is read back. -/
theorem reads_pic (p : Pic8259Pair) : Reads getPic (putPic p) p := by
  simp only [putPic, List.append_assoc]
  exact (reads_array reads_picUnit _).bind
    ((reads_array reads_u8 _).bind ((reads_array reads_bool _).bind_pure rfl))

/-! ## Raw blocks -/

/-- A length below 2³¹ is the length of the block. -/
theorem rawLength_of_lt {n : Nat} (h : n < 2 ^ 31) : rawLength n = n := by
  rw [rawLength, BitVec.toInt_eq_toNat_cond, BitVec.toNat_ofNat]
  split <;> omega

/-- The block is never longer than its length says. -/
theorem rawLength_le (n : Nat) : rawLength n ≤ n := by
  rw [rawLength, BitVec.toInt_eq_toNat_cond, BitVec.toNat_ofNat]
  split <;> omega

/-- What a raw transfer through an `int` length leaves of a block: what it does not reach is
zero. -/
def clip (block : Stream) : Stream :=
  fillFrom (List.replicate block.length 0) (block.take (rawLength block.length))

/-- A block below 2³¹ bytes is not clipped. -/
theorem clip_of_lt {block : Stream} (h : block.length < 2 ^ 31) : clip block = block := by
  rw [clip, rawLength_of_lt h, List.take_length]
  exact fillFrom_of_length_le (by simp)

/-- Clipping keeps the length. -/
@[simp] theorem length_clip (block : Stream) : (clip block).length = block.length := by
  have hle := rawLength_le block.length
  rw [clip, length_fillFrom]
  · exact List.length_replicate
  · simp

/-- A block survives iff what the length does not reach is zero anyway. -/
theorem clip_eq_self_iff (block : Stream) :
    clip block = block ↔ ∀ b ∈ block.drop (rawLength block.length), b = 0 := by
  have hle := rawLength_le block.length
  have hsplit := List.take_append_drop (rawLength block.length) block
  have hzeros : (List.replicate block.length (0 : BitVec 8)).drop
      (block.take (rawLength block.length)).length =
        List.replicate (block.length - rawLength block.length) 0 := by
    rw [List.length_take, Nat.min_eq_left hle, List.drop_replicate]
  rw [clip, fillFrom, hzeros]
  constructor
  · intro h b hb
    have hdrop : block.drop (rawLength block.length) =
        List.replicate (block.length - rawLength block.length) 0 :=
      List.append_cancel_left (hsplit.trans h.symm)
    rw [hdrop] at hb
    exact List.eq_of_mem_replicate hb
  · intro h
    have hdrop : block.drop (rawLength block.length) =
        List.replicate (block.length - rawLength block.length) 0 := by
      rw [← List.length_drop]
      exact List.eq_replicate_of_mem h
    rw [← hdrop, hsplit]

/-- The reader of a block and its writer cut the length alike. -/
theorem reads_block (block : Stream) :
    Reads (getBlock block.length) (block.take (rawLength block.length)) (clip block) := by
  have hlen : (block.take (rawLength block.length)).length = rawLength block.length := by
    rw [List.length_take, Nat.min_eq_left (rawLength_le _)]
  have hraw := reads_raw (block.take (rawLength block.length))
  rw [hlen] at hraw
  exact hraw.map _

/-- The bytes of the flash ROM are read back, and its command machine is at rest. -/
theorem reads_flash (f old : FlashRom) :
    Reads (getFlash old) (putFlash f) { f with mode := .read } := by
  have hlen : (List.ofFn f.data).length = FlashRom.kSize := List.length_ofFn
  have hlt : (List.ofFn f.data).length < 2 ^ 31 := by
    rw [hlen, FlashRom.kSize]
    omega
  have hblock := reads_block (List.ofFn f.data)
  rw [rawLength_of_lt hlt, List.take_length, clip_of_lt hlt, hlen] at hblock
  refine (reads_u32 _).bind ?_
  have hne : BitVec.ofNat 32 FlashRom.kSize ≠ 0 := by decide
  rw [if_neg hne]
  have himage : restoreImage (List.ofFn f.data) = { f with mode := .read } := by
    rw [restoreImage, FlashRom.mk.injEq]
    refine ⟨funext fun i => ?_, rfl⟩
    have hi : i.val < (List.ofFn f.data).length := by rw [hlen]; exact i.isLt
    rw [if_pos hi]
    simp
  rw [← himage]
  exact hblock.map restoreImage

/-! ## The IIC bus -/

/-- A bus has at most one device for each address. -/
theorem devices_length_le (iic : IicPcf8584) : iic.devices.length ≤ 256 := by
  have hnodup : ((iic.devices.map (·.address)).map BitVec.toFin).Nodup :=
    iic.nodup.map fun a b h => BitVec.eq_of_toFin_eq h
  have hcard := hnodup.length_le_card
  simpa using hcard

/-- The content of the IIC devices has a fixed length. -/
@[simp] theorem length_contentImage (iic : IicPcf8584) :
    (contentImage iic).length = iic.devices.length * IicPcf8584.kImageSize := by
  rw [contentImage, List.length_flatMap]
  simp

/-- The devices of one bus with the content of those of another. -/
def withContent (iic old : IicPcf8584) : IicPcf8584 := restoreContentImage old (contentImage iic)

/-- The content of the IIC devices is read back on a bus with as many. -/
theorem reads_iic {iic old : IicPcf8584} (hsame : old.devices.length = iic.devices.length) :
    Reads (getIic old) (putIic iic) (withContent iic old) := by
  have hle := devices_length_le iic
  have hcount : (BitVec.ofNat 32 iic.devices.length).toNat = iic.devices.length := by
    rw [BitVec.toNat_ofNat]
    omega
  have hlt : (contentImage iic).length < 2 ^ 31 := by
    rw [length_contentImage, IicPcf8584.kImageSize]
    omega
  refine (reads_u32 _).bind ?_
  rw [hcount, hsame]
  have hblock := reads_block (contentImage iic)
  rw [clip_of_lt hlt, length_contentImage] at hblock
  by_cases hzero : iic.devices.length = 0
  · -- an empty bus: nothing is written, nothing is read
    have hnone : ¬ (BitVec.ofNat 32 iic.devices.length = BitVec.ofNat 32 iic.devices.length ∧
        BitVec.ofNat 32 iic.devices.length ≠ 0) := by
      rw [hzero]
      simp
    have hstop : ¬ BitVec.ofNat 32 iic.devices.length ≠ 0 := by
      rw [hzero]
      simp
    have hempty : contentImage iic = [] := by
      rw [← List.length_eq_zero_iff, length_contentImage, hzero, Nat.zero_mul]
    have hkeep : withContent iic old = old := by
      have hold : old.devices = [] := by
        rw [← List.length_eq_zero_iff, hsame, hzero]
      rw [withContent, restoreContentImage, if_pos (by rw [hempty, hold]; rfl)]
      cases old
      simp_all
    rw [if_neg hnone, if_neg hstop, hempty, hkeep]
    exact Reads.pure old
  · have hsome : BitVec.ofNat 32 iic.devices.length = BitVec.ofNat 32 iic.devices.length ∧
        BitVec.ofNat 32 iic.devices.length ≠ 0 := by
      refine ⟨rfl, fun h => hzero ?_⟩
      rw [← hcount, h]
      rfl
    rw [if_pos hsome, length_contentImage]
    exact hblock.map (restoreContentImage old)

/-- **The content of every device comes back.** -/
theorem image_withContent {iic old : IicPcf8584}
    (hsame : old.devices.length = iic.devices.length) :
    (withContent iic old).devices.map (·.image) = iic.devices.map (·.image) := by
  have hsize : (contentImage iic).length = old.devices.length * IicPcf8584.kImageSize := by
    rw [length_contentImage, hsame]
  rw [withContent, restoreContentImage, if_pos hsize]
  apply List.ext_getElem
  · simpa using hsame
  · intro i hi hi'
    have hblock : ∀ d : IicPcf8584.IicDevice,
        (List.ofFn d.image).length = IicPcf8584.kImageSize := fun d => List.length_ofFn
    have hi2 : i < iic.devices.length := by simpa using hi'
    simp only [List.getElem_map, List.getElem_mapIdx]
    funext k
    rw [List.getD_eq_getElem?_getD, contentImage, getElem?_flatMap_block hblock _ _ k.isLt,
      List.getElem?_eq_getElem hi2]
    simp

/-! ## Guest memory -/

/-- The pages of a memory of so many bytes. -/
def pagesOf (size : Nat) : Nat := (size + (kPageSize - 1)) / kPageSize

/-- The page table has every page of the memory. -/
def Covers (mem : GuestMemory) (size : Nat) : Prop := pagesOf size ≤ mem.pageCount.toNat

instance (mem : GuestMemory) (size : Nat) : Decidable (Covers mem size) :=
  inferInstanceAs (Decidable (_ ≤ _))

/-- Reading on after a block. -/
theorem readBlock_add (mem : GuestMemory) (pa n k : Nat) :
    readBlock mem (BitVec.ofNat 64 pa) (n + k) =
      (readBlock mem (BitVec.ofNat 64 pa) n).bind fun bytes =>
        (readBlock mem (BitVec.ofNat 64 (pa + n)) k).map (bytes ++ ·) := by
  have hshift : ∀ j, BitVec.ofNat 64 pa + BitVec.ofNat 64 (n + j) =
      BitVec.ofNat 64 (pa + n) + BitVec.ofNat 64 j := by
    intro j
    rw [← BitVec.ofNat_add, ← BitVec.ofNat_add, Nat.add_assoc]
  simp only [readBlock, List.range_add, List.all_append, List.map_append, List.all_map,
    List.map_map, Function.comp_def, hshift]
  split <;> split <;> split <;> simp_all

/-- The loop over the pages reads one block. -/
theorem savePages_eq (mem : GuestMemory) (pa remaining : Nat) :
    savePages mem pa remaining = readBlock mem (BitVec.ofNat 64 pa) remaining := by
  induction remaining using Nat.strong_induction_on generalizing pa with
  | _ remaining ih =>
    rw [savePages]
    split
    · next hzero =>
      rw [hzero]
      rfl
    · next hpos =>
      have hsmaller : remaining - min remaining kPageSize < remaining := by
        simp only [kPageSize]
        omega
      have hsum : min remaining kPageSize + (remaining - min remaining kPageSize) = remaining := by
        omega
      simp only [ih _ hsmaller]
      rw [← readBlock_add, hsum]

/-- An address is in memory iff its page is. -/
theorem inRange_ofNat (mem : GuestMemory) {a : Nat} (ha : a < 2 ^ 64) :
    mem.inRange (BitVec.ofNat 64 a) = decide (a / kPageSize % 2 ^ 32 < mem.pageCount.toNat) := by
  rw [GuestMemory.inRange, GuestMemory.pageIndex]
  refine decide_eq_decide.mpr ?_
  rw [BitVec.lt_def, BitVec.extractLsb'_toNat, BitVec.toNat_ofNat, Nat.mod_eq_of_lt ha,
    Nat.shiftRight_eq_div_pow]
  rfl

/-- **A memory can be saved iff its page table covers it**, and then its bytes come in order. -/
theorem savePages_memory (mem : GuestMemory) (size : Word) :
    savePages mem 0 size.toNat =
      if Covers mem size.toNat then
        some ((List.range size.toNat).map fun k => mem.bytes (BitVec.ofNat 48 k))
      else none := by
  have hsize := size.isLt
  have hpc := mem.pageCount.isLt
  have hcell : ∀ k, GuestMemory.cell (BitVec.ofNat 64 0 + BitVec.ofNat 64 k) =
      BitVec.ofNat 48 k := by
    intro k
    rw [← BitVec.ofNat_add, Nat.zero_add, GuestMemory.cell, BitVec.setWidth_ofNat_of_le]
    omega
  have hall : ((List.range size.toNat).all fun k =>
      mem.inRange (BitVec.ofNat 64 0 + BitVec.ofNat 64 k)) = decide (Covers mem size.toNat) := by
    rw [Bool.eq_iff_iff, decide_eq_true_eq, List.all_eq_true]
    simp only [List.mem_range, ← BitVec.ofNat_add, Nat.zero_add, Covers, pagesOf]
    constructor
    · intro h
      by_contra hout
      -- the first page outside the table
      have hfirst : kPageSize * mem.pageCount.toNat < size.toNat := by
        simp only [kPageSize] at hout ⊢
        omega
      have hin := h _ hfirst
      rw [inRange_ofNat mem (by omega), decide_eq_true_eq] at hin
      simp only [kPageSize] at hin hfirst
      omega
    · intro h k hk
      rw [inRange_ofNat mem (by omega), decide_eq_true_eq]
      simp only [kPageSize] at h ⊢
      omega
  rw [savePages_eq, readBlock, hall]
  simp only [hcell, decide_eq_true_eq]

/-- A memory with bytes put over it from an address on. -/
def fillAt (mem : GuestMemory) (base : Nat) (bytes : Stream) : GuestMemory :=
  { mem with bytes := fun c =>
      if base ≤ c.toNat then bytes.getD (c.toNat - base) (mem.bytes c) else mem.bytes c }

/-- A page, and then the rest after it. -/
theorem fillAt_fillPage (mem : GuestMemory) (pidx : BitVec 32) {bytes : Stream} {n : Nat}
    (hn : n = min bytes.length kPageSize) :
    fillAt (fillPage mem pidx (bytes.take n)) (kPageSize * (pidx.toNat + 1)) (bytes.drop n) =
      fillAt mem (kPageSize * pidx.toNat) bytes := by
  rw [fillAt, fillAt, fillPage]
  congr 1
  funext c
  simp only [List.getD_eq_getElem?_getD, List.getElem?_take, List.getElem?_drop]
  by_cases hpage : c.toNat / kPageSize = pidx.toNat
  · -- in the page: past the bytes of a short one the old content stays
    have hbelow : ¬ kPageSize * (pidx.toNat + 1) ≤ c.toNat := by
      simp only [kPageSize] at hpage ⊢
      omega
    have hfrom : kPageSize * pidx.toNat ≤ c.toNat := by
      simp only [kPageSize] at hpage ⊢
      omega
    have hoff : c.toNat % kPageSize = c.toNat - kPageSize * pidx.toNat := by
      simp only [kPageSize] at hpage ⊢
      omega
    rw [if_neg hbelow, if_pos hpage, if_pos hfrom, hoff]
    split
    · rfl
    · next hout =>
      rw [List.getElem?_eq_none]
      simp only [kPageSize] at *
      omega
  · rw [if_neg hpage]
    by_cases hafter : kPageSize * (pidx.toNat + 1) ≤ c.toNat
    · have hfrom : kPageSize * pidx.toNat ≤ c.toNat := by
        simp only [kPageSize] at hafter ⊢
        omega
      rw [if_pos hafter, if_pos hfrom]
      by_cases hfull : kPageSize ≤ bytes.length
      · have hindex : n + (c.toNat - kPageSize * (pidx.toNat + 1)) =
            c.toNat - kPageSize * pidx.toNat := by
          simp only [kPageSize] at *
          omega
        rw [hindex]
      · rw [List.getElem?_eq_none (by omega), List.getElem?_eq_none]
        simp only [kPageSize] at *
        omega
    · have hbelow : ¬ kPageSize * pidx.toNat ≤ c.toNat := by
        simp only [kPageSize] at *
        omega
      rw [if_neg hafter, if_neg hbelow]

/-- **The load loop puts the bytes in order**, page by page, and stops where they end. -/
theorem loadPages_ok (mem : GuestMemory) (pidx : BitVec 32) (bytes rest : Stream)
    (hpages : pidx.toNat + pagesOf bytes.length ≤ mem.pageCount.toNat) :
    loadPages mem pidx bytes.length (bytes ++ rest) =
      .ok (fillAt mem (kPageSize * pidx.toNat) bytes, rest) := by
  have hpc := mem.pageCount.isLt
  generalize hsize : bytes.length = remaining at hpages
  induction remaining using Nat.strong_induction_on generalizing mem pidx bytes with
  | _ remaining ih =>
    rw [loadPages]
    split
    · next hzero =>
      have hnil : bytes = [] := List.eq_nil_of_length_eq_zero (hsize.trans hzero)
      rw [hnil, fillAt]
      simp
    · next hpos =>
      rw [pagesOf] at hpages
      have hin : ¬ mem.pageCount ≤ pidx := by
        rw [BitVec.le_def]
        simp only [kPageSize] at hpages
        omega
      have hn : min remaining kPageSize = min bytes.length kPageSize := by rw [hsize]
      have htake : (bytes ++ rest).take (min remaining kPageSize) =
          bytes.take (min remaining kPageSize) := List.take_append_of_le_length (by omega)
      have hdrop : (bytes ++ rest).drop (min remaining kPageSize) =
          bytes.drop (min remaining kPageSize) ++ rest := List.drop_append_of_le_length (by omega)
      have hnext : (pidx + 1).toNat = pidx.toNat + 1 := by
        rw [BitVec.toNat_add]
        simp only [kPageSize] at hpages
        simp
        omega
      have hsmaller : remaining - min remaining kPageSize < remaining := by
        simp only [kPageSize]
        omega
      have hrest := ih _ hsmaller (fillPage mem pidx (bytes.take (min remaining kPageSize)))
        (pidx + 1) (bytes.drop (min remaining kPageSize)) hpc (by rw [List.length_drop, hsize]) (by
          rw [hnext, pagesOf]
          simp only [fillPage, kPageSize] at hpages ⊢
          omega)
      rw [if_neg hin]
      simp only [htake, hdrop]
      rw [hrest, hnext, fillAt_fillPage mem pidx hn]

/-- A memory that takes the first bytes of another. -/
def withMemory (mem : GuestMemory) (size : Nat) (old : GuestMemory) : GuestMemory :=
  { old with bytes := fun c => if c.toNat < size then mem.bytes c else old.bytes c }

/-- **Every byte of guest memory comes back**, also those of pages that were never touched. -/
theorem loadPages_memory {mem old : GuestMemory} {size : Nat} (hcovers : Covers mem size)
    (hcount : old.pageCount = mem.pageCount) (rest : Stream) :
    loadPages old 0 size
        (((List.range size).map fun k => mem.bytes (BitVec.ofNat 48 k)) ++ rest) =
      .ok (withMemory mem size old, rest) := by
  have hlen : ((List.range size).map fun k => mem.bytes (BitVec.ofNat 48 k)).length = size := by
    simp
  have hload := loadPages_ok old 0 ((List.range size).map fun k => mem.bytes (BitVec.ofNat 48 k))
    rest (by rw [hlen, hcount]; simpa [Covers] using hcovers)
  rw [hlen] at hload
  rw [hload]
  have hmem : fillAt old (kPageSize * (0 : BitVec 32).toNat)
      ((List.range size).map fun k => mem.bytes (BitVec.ofNat 48 k)) =
        withMemory mem size old := by
    rw [fillAt, withMemory]
    congr 1
    funext c
    by_cases hc : c.toNat < size
    · simp [hc]
    · simp [hc]
  rw [hmem]

/-! ## The firmware -/

/-- The staging as it comes back. -/
def clipPayload (s : SrmStaging) : SrmStaging :=
  { s with
    payload := clip s.payload
    payload_lt := by
      rw [length_clip]
      exact s.payload_lt }

/-- The firmware staging is read back with its payload clipped. -/
theorem reads_srm (s : SrmStaging) : Reads getSrm (putSrm s) (clipPayload s) := by
  have hlen : (BitVec.ofNat 64 s.payload.length).toNat = s.payload.length := by
    rw [BitVec.toNat_ofNat]
    exact Nat.mod_eq_of_lt s.payload_lt
  simp only [putSrm, List.append_assoc]
  refine (reads_bool _).bind ((reads_u64 _).bind ((reads_u64 _).bind ((reads_u64 _).bind ?_)))
  refine (reads_u64 _).bind ((reads_u64 _).bind ((reads_u64 _).bind ((reads_bool _).bind ?_)))
  refine (reads_u64 _).bind ((reads_bool _).bind ((reads_u64 _).bind ?_))
  have hblock : Reads (getBlock (BitVec.ofNat 64 s.payload.length).toNat)
      (s.payload.take (rawLength s.payload.length)) (clip s.payload) := by
    rw [hlen]
    exact reads_block s.payload
  refine hblock.bind_pure ?_
  have htake : (clip s.payload).take (BitVec.ofNat 64 s.payload.length).toNat =
      clip s.payload := by
    rw [hlen, ← length_clip, List.take_length]
  simp only [htake]
  rfl

/-! ## The sections -/

section

variable {ε : Type} (pod : Pod (CpuState × Word)) (ts : Word) (comment : Stream)

/-- The two boards are configured alike: as much memory, the same chipset, and as many devices on
the IIC bus. -/
structure SameConfig (m m' : Board ε) : Prop where
  /-- One size of memory. -/
  memSize : m'.memSize = m.memSize
  /-- One number of pages. -/
  pageCount : m'.memory.pageCount = m.memory.pageCount
  /-- One variant of the chipset. -/
  variant : m'.devices.variant = m.devices.variant
  /-- One number of IIC devices. -/
  iicDevices : m'.devices.pci.iic.devices.length = m.devices.pci.iic.devices.length

/-- The bytes of guest memory. -/
def memoryBytes (m : Board ε) : Stream :=
  (List.range m.memSize.toNat).map fun k => m.memory.bytes (BitVec.ofNat 48 k)

/-- What loading a section of the board `m` does. -/
def Section.apply (m : Board ε) (s : Section) (l : Loading ε) : Loading ε :=
  match s with
  | header | chipset => l
  | cpu => { l with cpuTmp := (m.cpu, m.warp.warpCycles) }
  | memory =>
    { l with machine :=
        setMemory l.machine (withMemory m.memory m.memSize.toNat l.machine.memory) }
  | cchip =>
    { l with machine := modifyDevices l.machine fun d => { d with
        irq := { d.irq with cchip := d.irq.cchip.deserialize m.devices.irq.cchip.serialize }
        cchipConfig := m.devices.cchipConfig } }
  | dchip =>
    { l with machine := modifyDevices l.machine fun d => { d with dchip := m.devices.dchip } }
  | pchip =>
    { l with machine := modifyPci l.machine fun p => { p with pchip := m.devices.pci.pchip } }
  | com1 =>
    { l with machine := modifyPci l.machine fun p =>
        { p with com1 := withFilter m.devices.pci.com1 l.machine.devices.pci.com1 } }
  | com2 =>
    { l with machine := modifyPci l.machine fun p =>
        { p with com2 := withFilter m.devices.pci.com2 l.machine.devices.pci.com2 } }
  | pic =>
    { l with machine := modifyDevices l.machine fun d => { d with
        irq := { d.irq with pic := m.devices.irq.pic } } }
  | picLevel =>
    { l with machine := modifyDevices l.machine fun d => { d with
        irq := { d.irq with lastPicLevel := m.devices.irq.lastPicLevel } } }
  | flash =>
    { l with machine := modifyDevices l.machine fun d => { d with
        flash := { m.devices.flash with mode := .read } } }
  | iic =>
    { l with machine := modifyPci l.machine fun p =>
        { p with iic := withContent m.devices.pci.iic l.machine.devices.pci.iic } }
  | srm => { l with srmTmp := clipPayload m.devices.srm }

/-- A reader that fits its writer stores the value that was written. -/
theorem readInto_of_reads {α : Type} {g : Reader α} {p : Stream} {a : α} (h : Reads g p a)
    (store : α → Board ε → Board ε) (l : Loading ε) (rest : Stream) :
    readInto g store (l, p ++ rest) = .ok ({ l with machine := store a l.machine }, rest) := by
  rw [readInto, h rest]

/-- The comment has a fixed length. -/
theorem commentField_length : (commentField comment).length = kCommentSize := by
  have hle : ((comment.takeWhile (· != 0)).take (kCommentSize - 1)).length ≤ kCommentSize :=
    (List.length_take_le ..).trans (Nat.sub_le ..)
  rw [commentField, List.length_append, List.length_replicate]
  omega

/-- The header is read back. -/
theorem reads_header (m : Board ε) (mem : Stream) :
    Reads getHeader (Section.bytes pod ts comment m mem .header)
      (kSnapshotMagic, kFormatVersion, kCpuStateVersion, kChipsetVersion) := by
  simp only [Section.bytes, List.append_assoc]
  have hcomment := reads_raw (commentField comment)
  rw [commentField_length] at hcomment
  refine (reads_raw kSnapshotMagic).bind ((reads_u32 _).bind ((reads_u32 _).bind ?_))
  refine (reads_u32 _).bind ((reads_u64 _).bind ((reads_u64 _).bind ((reads_u64 _).bind ?_)))
  exact hcomment.bind_pure rfl

/-- The section that names the chipset is read back. -/
theorem reads_chipset (m : Board ε) (mem : Stream) :
    Reads getChipset (Section.bytes pod ts comment m mem .chipset)
      (m.devices.variant.code.setWidth 32, m.memSize) := by
  simp only [Section.bytes, List.append_assoc]
  refine (reads_u32 _).bind ((reads_qString _).bind ((reads_u32 _).bind ?_))
  exact (reads_u64 _).bind_pure rfl

/-- Restoring a section keeps the configuration. -/
theorem Section.apply_sameConfig {m : Board ε} {l : Loading ε} (h : SameConfig m l.machine)
    (s : Section) : SameConfig m (s.apply m l).machine := by
  cases s with
  | iic =>
    refine ⟨h.memSize, h.pageCount, h.variant, ?_⟩
    have himages := congrArg List.length (image_withContent h.iicDevices)
    rw [List.length_map, List.length_map] at himages
    exact himages
  | _ => exact ⟨h.memSize, h.pageCount, h.variant, h.iicDevices⟩

/-- **Every section is read as it was written**, whatever follows it. -/
theorem Section.load_consumes {m : Board ε} (hcovers : Covers m.memory m.memSize.toNat)
    (s : Section) :
    Consumes (fun l : Loading ε => SameConfig m l.machine) (Section.load pod)
      (Section.bytes pod ts comment m (memoryBytes m)) (Section.apply m) s := by
  intro l h
  refine ⟨Section.apply_sameConfig h s, fun rest => ?_⟩
  cases s with
  | header =>
    have hread := reads_header pod ts comment m (memoryBytes m) rest
    simp only [Section.load, hread]
    rfl
  | cpu =>
    have hread := pod.reads ({}, 0) (m.cpu, m.warp.warpCycles) rest
    simp only [Section.load, Section.bytes, hread]
    rfl
  | memory =>
    have hread := reads_u64 m.memSize (memoryBytes m ++ rest)
    have hpages := loadPages_memory hcovers h.pageCount rest
    simp only [Section.load, Section.bytes, List.append_assoc, hread, h.memSize, ne_eq,
      not_true_eq_false, if_false]
    rw [memoryBytes, hpages]
    rfl
  | chipset =>
    have hread := reads_chipset pod ts comment m (memoryBytes m) rest
    have hcode : ((m.devices.variant.code.setWidth 32).setWidth 8 : BitVec 8) =
        l.machine.devices.variant.code := by
      rw [h.variant, BitVec.setWidth_setWidth_of_le _ (by omega), BitVec.setWidth_eq]
    simp only [Section.load, hread, hcode, h.memSize, ne_eq, not_true_eq_false, if_false]
    rfl
  | cchip =>
    simp only [Section.load, Section.bytes]
    exact readInto_of_reads (reads_cchip _ _) _ l rest
  | dchip =>
    simp only [Section.load, Section.bytes]
    exact readInto_of_reads (reads_dchip _) _ l rest
  | pchip =>
    simp only [Section.load, Section.bytes]
    exact readInto_of_reads (reads_pchip _) _ l rest
  | com1 =>
    simp only [Section.load, Section.bytes]
    exact readInto_of_reads (reads_uart _ _) _ l rest
  | com2 =>
    simp only [Section.load, Section.bytes]
    exact readInto_of_reads (reads_uart _ _) _ l rest
  | pic =>
    simp only [Section.load, Section.bytes]
    exact readInto_of_reads (reads_pic _) _ l rest
  | picLevel =>
    simp only [Section.load, Section.bytes]
    exact readInto_of_reads (reads_bool _) _ l rest
  | flash =>
    simp only [Section.load, Section.bytes]
    exact readInto_of_reads (reads_flash _ _) _ l rest
  | iic =>
    simp only [Section.load, Section.bytes]
    exact readInto_of_reads (reads_iic h.iicDevices) _ l rest
  | srm =>
    have hread := reads_srm m.devices.srm rest
    simp only [Section.load, Section.bytes, hread]
    rfl

/-! ## The file -/

/-- The file without its footer. -/
def body (m : Board ε) : Stream :=
  Section.all.flatMap (Section.bytes pod ts comment m (memoryBytes m))

/-- The devices that come back: what is on the file of `d` over `old`. -/
def adoptDevices (d old : BoardDevices ε) : BoardDevices ε :=
  { old with
    irq := { old.irq with
      cchip := old.irq.cchip.deserialize d.irq.cchip.serialize
      pic := d.irq.pic
      lastPicLevel := d.irq.lastPicLevel }
    cchipConfig := d.cchipConfig
    dchip := d.dchip
    flash := { d.flash with mode := .read }
    pci := { old.pci with
      pchip := d.pci.pchip
      com1 := withFilter d.pci.com1 old.pci.com1
      com2 := withFilter d.pci.com2 old.pci.com2
      iic := withContent d.pci.iic old.pci.iic }
    srm := clipPayload d.srm }

/-- The board that comes back: what is on the file of `m` over the board `old`. -/
def adopt (m old : Board ε) : Board ε :=
  let b := (setMemory old (withMemory m.memory m.memSize.toNat old.memory)).setDevices
    (adoptDevices m.devices old.devices)
  { b.setCpu m.cpu with
    warp := { (b.setCpu m.cpu).warp with warpCycles := m.warp.warpCycles }
    systemClock := m.cpu.cycleCount
    initialPalBase := m.devices.srm.loadPa }

/-- Two changes of the devices are one. -/
theorem modifyDevices_modifyDevices (m : Board ε) (f g : BoardDevices ε → BoardDevices ε) :
    modifyDevices (modifyDevices m f) g = modifyDevices m fun d => g (f d) := rfl

/-- The devices after a change of them. -/
theorem devices_modifyDevices (m : Board ε) (f : BoardDevices ε → BoardDevices ε) :
    (modifyDevices m f).devices = f m.devices := rfl

/-- A change of memory keeps the devices. -/
theorem devices_setMemory (m : Board ε) (mem : GuestMemory) :
    (setMemory m mem).devices = m.devices := rfl

/-- The sections, one after the other, make up that board. -/
theorem commit_foldl_apply (m old : Board ε) :
    (Section.all.foldl (fun l s => Section.apply m s l) { machine := old }).commit =
      adopt m old := by
  simp only [Section.all, List.foldl_cons, List.foldl_nil, Section.apply, modifyPci,
    modifyDevices_modifyDevices, devices_modifyDevices, devices_setMemory]
  rfl

/-- A board whose memory is covered is saved as its sections with their checksum. -/
theorem save_eq (m : Board ε) :
    save pod ts comment m =
      if Covers m.memory m.memSize.toNat then
        some (body pod ts comment m ++ putU64 (fnv1a64 (body pod ts comment m)))
      else none := by
  rw [save, savePages_memory]
  split <;> rfl

variable {m old : Board ε}

/-- **Every section stands where the reader looks for it.** -/
theorem loadSections_take (hcovers : Covers m.memory m.memSize.toNat) (hcfg : SameConfig m old)
    (rest : Stream) (n : Nat) :
    loadSections pod old (body pod ts comment m ++ rest) (Section.all.take n) =
      .ok ((Section.all.take n).foldl (fun l s => Section.apply m s l) { machine := old },
        (Section.all.drop n).flatMap (Section.bytes pod ts comment m (memoryBytes m)) ++ rest) :=
  foldlM_take_consumes (fun s _ => Section.load_consumes pod ts comment hcovers s)
    (a := ({ machine := old } : Loading ε)) hcfg rest n

/-- **Loading what was saved** succeeds, and gives the sections of the one board over the other. -/
theorem load_body (hcovers : Covers m.memory m.memSize.toNat) (hcfg : SameConfig m old) :
    load pod (body pod ts comment m ++ putU64 (fnv1a64 (body pod ts comment m))) old =
      .ok (adopt m old) := by
  have hfooter : (putU64 (fnv1a64 (body pod ts comment m))).length = 8 := length_leBytes 8 _
  have hlen : (body pod ts comment m ++ putU64 (fnv1a64 (body pod ts comment m))).length - 8 =
      (body pod ts comment m).length := by
    rw [List.length_append, hfooter]
    omega
  have hlong : ¬ (body pod ts comment m ++
      putU64 (fnv1a64 (body pod ts comment m))).length < 8 := by
    rw [List.length_append, hfooter]
    omega
  have hsum := reads_u64 (fnv1a64 (body pod ts comment m)) []
  rw [List.append_nil] at hsum
  have hsections := loadSections_take pod ts comment hcovers hcfg
    (putU64 (fnv1a64 (body pod ts comment m))) Section.all.length
  rw [List.take_length] at hsections
  simp only [load, hlen, List.take_left, List.drop_left, hsum, hsections, if_neg hlong, ne_eq,
    not_true_eq_false, if_false, commit_foldl_apply]

end

/-! ## What is restored -/

/-- What a snapshot is there to carry. -/
structure Carried where
  /-- CPU 0, with its count of skipped cycles. -/
  cpu : CpuState × Word
  /-- Every byte of guest memory. -/
  memory : BitVec 48 → Option (BitVec 8)
  /-- The registers of the Cchip. -/
  cchip : TsunamiCchip.Image
  /-- Its configuration registers. -/
  cchipConfig : CchipConfig
  /-- The Dchip. -/
  dchip : TsunamiDchip
  /-- The Pchip. -/
  pchip : TsunamiPchip
  /-- The serial ports with their FIFOs, without the transmit filter. -/
  com1 : Uart16550
  /-- The second serial port, without its transmit filter. -/
  com2 : Uart16550
  /-- The 8259 pair with its edge cache, and the cached output. -/
  pic : Pic8259Pair
  /-- The level of the interrupt controllers that was seen last. -/
  lastPicLevel : Bool
  /-- The bytes of the flash ROM. -/
  flash : Fin FlashRom.kSize → BitVec 8
  /-- The content of every IIC device. -/
  iic : List (Fin IicPcf8584.kImageSize → BitVec 8)
  /-- The firmware staging. -/
  srm : SrmStaging

section

variable {ε : Type}

/-- What a snapshot of the board carries. -/
def carried (m : Board ε) : Carried where
  cpu := (m.cpu, m.warp.warpCycles)
  memory c := if c.toNat < m.memSize.toNat then some (m.memory.bytes c) else none
  cchip := m.devices.irq.cchip.serialize
  cchipConfig := m.devices.cchipConfig
  dchip := m.devices.dchip
  pchip := m.devices.pci.pchip
  com1 := withFilter m.devices.pci.com1 {}
  com2 := withFilter m.devices.pci.com2 {}
  pic := m.devices.irq.pic
  lastPicLevel := m.devices.irq.lastPicLevel
  flash := m.devices.flash.data
  iic := m.devices.pci.iic.devices.map (·.image)
  srm := m.devices.srm

/-- **All of it comes back**, but for what a raw transfer does not reach of the payload. -/
theorem carried_adopt {m old : Board ε} (hcfg : SameConfig m old) :
    carried (adopt m old) = { carried m with srm := clipPayload m.devices.srm } := by
  have hmemory : (carried (adopt m old)).memory = (carried m).memory := by
    funext c
    change (if c.toNat < old.memSize.toNat then
      some ((withMemory m.memory m.memSize.toNat old.memory).bytes c) else none) = _
    simp only [carried, hcfg.memSize, withMemory]
    by_cases hc : c.toNat < m.memSize.toNat
    · rw [if_pos hc, if_pos hc, if_pos hc]
    · rw [if_neg hc, if_neg hc]
  have hiic : (carried (adopt m old)).iic = (carried m).iic := image_withContent hcfg.iicDevices
  calc
    carried (adopt m old)
      = { carried m with
          memory := (carried (adopt m old)).memory
          iic := (carried (adopt m old)).iic
          srm := clipPayload m.devices.srm } := rfl
    _ = { carried m with srm := clipPayload m.devices.srm } := by rw [hmemory, hiic]

/-- The staging survives iff its payload is not clipped. -/
theorem clipPayload_eq_self_iff (s : SrmStaging) :
    clipPayload s = s ↔ clip s.payload = s.payload := by
  constructor
  · intro h
    exact congrArg SrmStaging.payload h
  · intro h
    cases s
    simp only [clipPayload] at h ⊢
    simp only [h]

/-- The file of a board can be loaded into any board that is configured like it: `load` finds every
section where `save` put it and restores all that is carried. -/
def RoundTrips (pod : Pod (CpuState × Word)) (m : Board ε) : Prop :=
  ∀ (ts : Word) (comment : Stream) (old : Board ε), SameConfig m old →
    ∃ file restored, save pod ts comment m = some file ∧ load pod file old = .ok restored ∧
      carried restored = carried m ∧
      ∀ n, ∃ loading, loadSections pod old file (Section.all.take n) =
        .ok (loading,
          (Section.all.drop n).flatMap (Section.bytes pod ts comment m (memoryBytes m)) ++
            putU64 (fnv1a64 (body pod ts comment m)))

/-- The page table covers the memory, and past the length that a raw transfer keeps of it the
payload is zero. -/
def Transferable (m : Board ε) : Prop :=
  Covers m.memory m.memSize.toNat ∧
    ∀ b ∈ m.devices.srm.payload.drop (rawLength m.devices.srm.payload.length), b = 0

/-- What comes back from the board's own file shows both conditions. -/
theorem RoundTrips.transferable {pod : Pod (CpuState × Word)} {m : Board ε}
    (h : RoundTrips pod m) : Transferable m := by
  obtain ⟨file, restored, hsave, hload, hcarried, -⟩ := h 0 [] m ⟨rfl, rfl, rfl, rfl⟩
  rw [save_eq] at hsave
  split at hsave
  · next hcovers =>
    obtain rfl := Option.some.inj hsave
    rw [load_body pod 0 [] hcovers ⟨rfl, rfl, rfl, rfl⟩] at hload
    obtain rfl := Except.ok.inj hload
    rw [carried_adopt ⟨rfl, rfl, rfl, rfl⟩] at hcarried
    have hsrm : clipPayload m.devices.srm = m.devices.srm := congrArg Carried.srm hcarried
    exact ⟨hcovers, (clip_eq_self_iff _).mp ((clipPayload_eq_self_iff _).mp hsrm)⟩
  · exact absurd hsave (Option.some_ne_none _).symm

/-- **A board round-trips iff its memory has all its pages and its payload passes the `int`
length.** -/
theorem roundTrips_iff (pod : Pod (CpuState × Word)) (m : Board ε) :
    RoundTrips pod m ↔ Transferable m := by
  refine ⟨RoundTrips.transferable, ?_⟩
  rintro ⟨hcovers, hzero⟩ ts comment old hcfg
  refine ⟨_, adopt m old, (save_eq pod ts comment m).trans (if_pos hcovers),
    load_body pod ts comment hcovers hcfg, ?_,
    fun n => ⟨_, loadSections_take pod ts comment hcovers hcfg _ n⟩⟩
  have hpayload : clipPayload m.devices.srm = m.devices.srm :=
    (clipPayload_eq_self_iff _).mpr ((clip_eq_self_iff _).mpr hzero)
  rw [carried_adopt hcfg, hpayload]
  rfl

/-- A payload below 2³¹ bytes passes whole. -/
theorem transferable_of_lt {m : Board ε} (hcovers : Covers m.memory m.memSize.toNat)
    (hpayload : m.devices.srm.payload.length < 2 ^ 31) : Transferable m := by
  refine ⟨hcovers, fun b hb => ?_⟩
  rw [rawLength_of_lt hpayload, List.drop_length] at hb
  exact absurd hb List.not_mem_nil

end

/-! ## A payload that is lost -/

/-- The empty payload is short enough. -/
theorem length_nil_lt : ([] : Stream).length < 2 ^ 64 := by decide

/-- A board as it is built, with its memory and the array register of its DRAM. -/
def builtBoard (pageCount : BitVec 32) (memSize : Word) (aar : TsunamiBus.Aar) : Board Unit where
  warp := { machine :=
    { cpu := {}
      bus :=
        { memory := .empty pageCount
          devices :=
            { palScratch := fun _ => 0
              devices :=
                { variant := .tsunami
                  model := {}
                  irq := .make 1 0x08 none
                  cchipConfig :=
                    { csc := 0, mtr := 0, mpd := 0, prben := 0, ttr := 0, tdr := 0
                      aar := fun _ => aar, mpr := fun _ => 0 }
                  dchip := { dsc := 1, str := 0, drev := 0x10, dsc2 := 0 }
                  pci := { others := () }
                  srm := { payload_lt := length_nil_lt } } } }
      locks := .empty } }
  memSize := memSize

/-- The board with a firmware file staged at 0x900000. -/
def staged (m : Board Unit) (payload : Stream) (hlt : payload.length < 2 ^ 64) : Board Unit :=
  m.setDevices { m.devices with
    srm :=
      { descriptor := { valid := true, payloadSize := BitVec.ofNat 64 payload.length }
        payload := payload
        payload_lt := hlt
        loadPa := 0x900000 } }

/-- A board with 4 GiB of memory and a firmware file. -/
def stagedBoard (payload : Stream) (hlt : payload.length < 2 ^ 64) : Board Unit :=
  staged ((builtBoard 0x10000 0x100000000 {}).setCpu { pc := 0x900001, palBase := 0x900000 })
    payload hlt

/-- The length of the payload below. -/
theorem length_replicate_lt : (List.replicate (2 ^ 31) (1 : BitVec 8)).length < 2 ^ 64 := by
  rw [List.length_replicate]
  decide

/-- **A payload of 2³¹ bytes does not come back.** Its length is a negative `int`, so none of it is
written, and `load` hands out as many zeros. -/
theorem big_payload_is_lost :
    ∃ pod : Pod (CpuState × Word),
      Covers (stagedBoard _ length_replicate_lt).memory
        (stagedBoard _ length_replicate_lt).memSize.toNat ∧
      ¬ RoundTrips pod (stagedBoard _ length_replicate_lt) := by
  obtain ⟨pod⟩ := cpuPod_nonempty
  refine ⟨pod, by decide, fun h => ?_⟩
  have hraw : rawLength (2 ^ 31) = 0 := by decide
  have hzero := h.transferable.2 1
  have hpayload : (stagedBoard _ length_replicate_lt).devices.srm.payload =
      List.replicate (2 ^ 31) 1 := rfl
  rw [hpayload, List.length_replicate, hraw, List.drop_zero, List.mem_replicate] at hzero
  exact absurd (hzero ⟨by decide, rfl⟩) (by decide)

end Snapshot

end EmulatR
