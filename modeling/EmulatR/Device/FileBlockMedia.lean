import EmulatR.Device.Scsi

/-! # Flat images

A flat image as a block medium (deviceLib/scsi/FileBlockMedia.h): a file of whole blocks, opened
once and read by offset. The drives know nothing of what is behind a medium; they rely on what a
transfer that succeeds has moved, which is `BlockMedia.Holds`. -/

namespace EmulatR

namespace Scsi

/-- A transfer that succeeds has moved all the requested blocks, of `size` bytes each. -/
def BlockMedia.Holds (m : BlockMedia) (size : Nat) (content : Nat → Byte) : Prop :=
  ∀ lba cnt data, m.read lba cnt = (.ok, data) →
    data = (List.range (cnt * size)).map fun i => content (lba.toNat * size + i)

/-- A flat image that is, or is not, open. -/
structure FileBlockMedia where
  /-- The size of a block. -/
  blockSize : Nat
  /-- The file is open. -/
  isOpen : Bool := false
  /-- The whole blocks it had when it was opened. -/
  blocks : Word := 0

namespace FileBlockMedia

/-- Open an image. A partial block at the end does not count. -/
def openFile (blockSize : Nat) (file : List Byte) : MediaStatus × FileBlockMedia :=
  if blockSize = 0 ∨ file.length < blockSize then (.notOpen, { blockSize := blockSize })
  else
    (.ok,
      { blockSize := blockSize
        isOpen := true
        blocks := BitVec.ofNat 64 (file.length / blockSize) })

variable (m : FileBlockMedia) (file : List Byte)

/-- A read. The file may be shorter than it was when it was opened. -/
def read (lba : Word) (cnt : Nat) : MediaStatus × List Byte :=
  if !m.isOpen then (.notOpen, [])
  else if cnt = 0 then (.ok, [])
  else if m.blocks < lba + BitVec.ofNat 64 cnt then (.outOfRange, [])
  else
    let bytes := cnt * m.blockSize
    let got := (file.drop (lba.toNat * m.blockSize)).take bytes
    (if got.length = bytes then .ok else .ioError, got)

/-- What the image answers while its file is `file`. A flat image has no tray. -/
def media : BlockMedia where
  isOpen := m.isOpen
  isPresent := m.isOpen
  blockCount := m.blocks
  read := m.read file

/-- A piece of a list, index by index. -/
theorem take_drop_eq_map_range {α : Type} (xs : List α) (d : α) {off n : Nat}
    (h : off + n ≤ xs.length) :
    (xs.drop off).take n = (List.range n).map fun i => xs.getD (off + i) d := by
  refine List.ext_getElem ?_ fun i h₁ h₂ => ?_
  · rw [List.length_take, List.length_drop, List.length_map, List.length_range]
    omega
  · rw [List.length_take, List.length_drop] at h₁
    rw [List.getElem_take, List.getElem_drop, List.getElem_map, List.getElem_range]
    exact List.getElem_eq_getD d

/-- An image holds its file. -/
theorem holds : (m.media file).Holds m.blockSize fun i => file.getD i 0 := by
  intro lba cnt data h
  have h : m.read file lba cnt = (.ok, data) := h
  unfold read at h
  split at h
  · cases h
  · split at h
    · rename_i hcnt
      obtain ⟨-, rfl⟩ := Prod.mk.inj h
      rw [hcnt, Nat.zero_mul]
      rfl
    · split at h
      · cases h
      · obtain ⟨hok, rfl⟩ := Prod.mk.inj h
        split at hok
        · rename_i hlen
          rw [List.length_take, List.length_drop] at hlen
          by_cases hz : cnt * m.blockSize = 0
          · rw [hz]
            rfl
          · exact take_drop_eq_map_range file 0 (by omega)
        · cases hok

/-- A block of an opened image can be read as long as the file keeps its length. -/
theorem read_ok {blockSize : Nat} {file : List Byte} (hopen : (openFile blockSize file).1 = .ok)
    (lba : Word) (cnt : Nat) (hsize : file.length < 2 ^ 64)
    (h : lba.toNat + cnt ≤ file.length / blockSize) :
    (((openFile blockSize file).2).read file lba cnt).1 = .ok := by
  unfold openFile at hopen ⊢
  split at hopen
  · cases hopen
  · rename_i hne
    rw [if_neg hne]
    have hblocks : file.length / blockSize * blockSize ≤ file.length := Nat.div_mul_le_self _ _
    have hle : file.length / blockSize ≤ file.length := Nat.div_le_self _ _
    have hend : (lba.toNat + cnt) * blockSize ≤ file.length :=
      (Nat.mul_le_mul_right _ h).trans hblocks
    rw [Nat.add_mul] at hend
    have hrange : ¬ BitVec.ofNat 64 (file.length / blockSize) < lba + BitVec.ofNat 64 cnt := by
      rw [BitVec.lt_def, BitVec.toNat_add, BitVec.toNat_ofNat, BitVec.toNat_ofNat,
        Nat.mod_eq_of_lt (by omega : file.length / blockSize < 2 ^ 64),
        Nat.mod_eq_of_lt (by omega : cnt < 2 ^ 64), Nat.mod_eq_of_lt (by omega)]
      omega
    unfold read
    dsimp only
    rw [if_neg (by decide), if_neg hrange]
    split
    · rfl
    · rw [if_pos]
      rw [List.length_take, List.length_drop]
      omega

end FileBlockMedia

end Scsi

end EmulatR
