import EmulatR.Library.BitFields
import EmulatR.Device.FileBlockMedia
import EmulatR.Device.IdeFsm

/-! # Reading sectors by programmed I/O

A driver writes the taskfile, then the command, and reads the data register until DRQ falls. What it
gets is what the taskfile holds when the command comes, and that depends on the order of its writes:
a write of the drive/head register selects a unit and presets the other registers with the unit's
signature.

`readSectors` is what the driver gets; `not_readSectorsLaw_headLast` is the order of writes it must
avoid. -/

namespace EmulatR

open Scsi Library

namespace Cy82C693Ide

/-! ## The taskfile -/

/-- The registers a driver writes before a read. -/
inductive TaskReg
  /-- The number of sectors. -/
  | sectorCount
  /-- The low byte of the address. -/
  | lbaLow
  /-- The middle byte. -/
  | lbaMid
  /-- The high byte. -/
  | lbaHigh
  /-- The unit and the top of the address. -/
  | driveHead
  deriving DecidableEq

namespace TaskReg

/-- The number of the register. -/
def index : TaskReg → Nat
  | sectorCount => 2
  | lbaLow => 3
  | lbaMid => 4
  | lbaHigh => 5
  | driveHead => 6

/-- Each register once. -/
def all : List TaskReg := [sectorCount, lbaLow, lbaMid, lbaHigh, driveHead]

end TaskReg

/-- A value for each register. -/
abbrev Taskfile := TaskReg → Byte

namespace Taskfile

/-- The address: 28 bits. -/
def lba (q : Taskfile) : Nat :=
  (((q .driveHead).toNat % 16 * 256 + (q .lbaHigh).toNat) * 256 + (q .lbaMid).toNat) * 256 +
    (q .lbaLow).toNat

/-- The number of sectors; zero stands for 256. -/
def count (q : Taskfile) : Nat := if q .sectorCount = 0 then 256 else (q .sectorCount).toNat

/-- The unit. -/
def unit (q : Taskfile) : Bool := (q .driveHead).getLsbD 4

/-- What a select presets. -/
def signature (atapi : Bool) : Taskfile
  | .sectorCount => 1
  | .lbaLow => 1
  | .lbaMid => if atapi then 0x14 else 0
  | .lbaHigh => if atapi then 0xEB else 0
  | .driveHead => 0

variable (preset q : Taskfile)

/-- The taskfile after a write of one register. -/
def write (t : Taskfile) (r : TaskReg) : Taskfile := fun k =>
  if k = r then q k else if r = .driveHead then preset k else t k

/-- **What is in the taskfile after writes in some order.** The registers from the drive/head
register on have their values, those written before it are preset. -/
def presented (order : List TaskReg) : Taskfile := fun k =>
  if k ∈ order.dropWhile (· ≠ .driveHead) then q k else preset k

variable {preset q}

/-- Writes of other registers. -/
theorem foldl_write_of_notMem {order : List TaskReg} (h : .driveHead ∉ order) (t : Taskfile) :
    order.foldl (write preset q) t = fun k => if k ∈ order then q k else t k := by
  induction order generalizing t with
  | nil => rfl
  | cons r order ih =>
    obtain ⟨hr, horder⟩ := not_or.mp (mt List.mem_cons.mpr h)
    rw [List.foldl_cons, ih horder]
    funext k
    by_cases hk : k ∈ order
    · rw [if_pos hk, if_pos (List.mem_cons_of_mem r hk)]
    · by_cases hkr : k = r
      · rw [if_neg hk, write, if_pos hkr, if_pos (List.mem_cons.mpr (Or.inl hkr))]
      · rw [if_neg hk, write, if_neg hkr, if_neg (Ne.symm hr), if_neg]
        exact fun hmem => (List.mem_cons.mp hmem).elim hkr hk

/-- Writes of each register once leave what their order presents. -/
theorem foldl_write {order : List TaskReg} (hnd : order.Nodup) (h : .driveHead ∈ order)
    (t : Taskfile) : order.foldl (write preset q) t = presented preset q order := by
  induction order generalizing t with
  | nil => cases h
  | cons r order ih =>
    obtain ⟨hr, hnd⟩ := List.nodup_cons.mp hnd
    rw [List.foldl_cons]
    by_cases hhead : r = .driveHead
    · subst hhead
      rw [foldl_write_of_notMem hr]
      funext k
      rw [presented, List.dropWhile_cons_of_neg (by decide)]
      by_cases hk : k ∈ order
      · rw [if_pos hk, if_pos (List.mem_cons_of_mem _ hk)]
      · by_cases hkr : k = .driveHead
        · rw [if_neg hk, write, if_pos hkr, if_pos (List.mem_cons.mpr (Or.inl hkr))]
        · rw [if_neg hk, write, if_neg hkr, if_pos rfl, if_neg]
          exact fun hmem => (List.mem_cons.mp hmem).elim hkr hk
    · rw [ih hnd ((List.mem_cons.mp h).resolve_left (Ne.symm hhead))]
      funext k
      have hpos : decide (r ≠ .driveHead) = true := decide_eq_true hhead
      rw [presented, presented, List.dropWhile_cons, if_pos hpos]

/-- The drive/head register is not preset. -/
theorem presented_driveHead {order : List TaskReg} (h : .driveHead ∈ order) :
    presented preset q order .driveHead = q .driveHead := by
  refine if_pos ?_
  induction order with
  | nil => cases h
  | cons r order ih =>
    rw [List.dropWhile_cons]
    by_cases hr : r = .driveHead
    · rw [hr, if_neg (by decide)]
      exact List.mem_cons_self
    · have hpos : decide (r ≠ .driveHead) = true := decide_eq_true hr
      rw [if_pos hpos]
      exact ih ((List.mem_cons.mp h).resolve_left (Ne.symm hr))

/-- Nothing is preset if the drive/head register is written first. -/
theorem presented_of_head {order : List TaskReg} (hperm : order.Perm TaskReg.all)
    (h : order.head? = some .driveHead) : presented preset q order = q := by
  obtain ⟨rest, rfl⟩ : ∃ rest, order = .driveHead :: rest := by
    cases order with
    | nil => cases h
    | cons r rest => exact ⟨rest, by rw [Option.some.inj h]⟩
  funext k
  rw [presented, List.dropWhile_cons_of_neg (by decide), if_pos (hperm.mem_iff.mpr ?_)]
  cases k <;> decide

end Taskfile

/-! ## Writing the taskfile -/

/-- The disk answers, and its medium reads `content`, a sector at a time. -/
structure Disk.Serves {μ : Type} (d : Disk μ) (content : Nat → Byte) (w : World μ) : Prop where
  /-- The disk is there. -/
  attached : d.isAttached w = true
  /-- A read of a sector gives its bytes. -/
  read : ∀ m, d.media = some m → ∀ lba : Word, lba < d.totalSectors →
    (w m).read lba 1 = (.ok, (List.range 512).map fun i => content (512 * lba.toNat + i))

/-- A flat image serves as a disk as long as its file stays. -/
theorem Disk.serves_file {μ : Type} {file : List Byte} {d : Disk μ} {w : World μ} {m : μ}
    (hopen : (FileBlockMedia.openFile 512 file).1 = .ok) (hsize : file.length < 2 ^ 64)
    (hmedia : d.media = some m) (hm : w m = (FileBlockMedia.openFile 512 file).2.media file)
    (htotal : d.totalSectors.toNat = file.length / 512) :
    d.Serves (fun i => file.getD i 0) w where
  attached := by
    have hpresent : (FileBlockMedia.openFile 512 file).2.isOpen = true := by
      unfold FileBlockMedia.openFile at hopen ⊢
      split at hopen
      · cases hopen
      · rename_i hne
        rw [if_neg hne]
    rw [Disk.isAttached, ready, hmedia, Option.any_some, hm]
    exact Bool.and_eq_true_iff.mpr ⟨hpresent, hpresent⟩
  read := by
    intro m' hm' lba hlba
    obtain rfl : m = m' := Option.some.inj (hmedia.symm.trans hm')
    rw [BitVec.lt_def, htotal] at hlba
    have hok := FileBlockMedia.read_ok hopen lba 1 hsize hlba
    have hblock : (FileBlockMedia.openFile 512 file).2.blockSize = 512 := by
      unfold FileBlockMedia.openFile
      split <;> rfl
    have hdata := FileBlockMedia.holds (FileBlockMedia.openFile 512 file).2 file lba 1 _
      (Prod.ext hok rfl)
    rw [hm]
    refine Prod.ext hok (hdata.trans ?_)
    rw [hblock, Nat.one_mul, Nat.mul_comm 512]

namespace Channel

variable {μ : Type}

/-- What is in the taskfile. -/
def taskfile (c : Channel μ) : Taskfile
  | .sectorCount => c.sectorCount
  | .lbaLow => c.lbaLow
  | .lbaMid => c.lbaMid
  | .lbaHigh => c.lbaHigh
  | .driveHead => c.driveHead

/-- A write of a taskfile register with the value it has in `q`. -/
def writeReg (q : Taskfile) (c : Channel μ) (e : World μ × TaskReg) : Channel μ :=
  c.cmdWrite e.1 ((q e.2).setWidth 64) e.2.index

/-- A read of the data register. -/
def readReg (c : Channel μ) (w : World μ) : Channel μ × Word := c.cmdRead w 0

variable {c : Channel μ} {q : Taskfile} {content : Nat → Byte}

/-- The units of the channel are those it had. -/
def SameUnits (c c' : Channel μ) : Prop := c'.disk = c.disk ∧ c'.dev = c.dev

/-- A select of a unit that is there presets the taskfile. -/
theorem loadSignature_spec {w : World μ} {unit : Bool} (h : c.present w unit = true) :
    (∀ k, k ≠ .driveHead →
        (c.loadSignature w unit).taskfile k = Taskfile.signature (c.isAtapi unit) k) ∧
      (c.loadSignature w unit).driveHead = c.driveHead ∧
      SameUnits c (c.loadSignature w unit) := by
  have hload : c.loadSignature w unit = { c with
      phase := .idle
      cdbPos := 0
      pioPos := 0
      pioLen := 0
      status := kDRDY ||| kDSC
      error := 0
      sectorCount := 1
      lbaLow := 1
      lbaMid := Taskfile.signature (c.isAtapi unit) .lbaMid
      lbaHigh := Taskfile.signature (c.isAtapi unit) .lbaHigh } := by
    refine (if_pos h).trans ?_
    cases hatapi : c.isAtapi unit with
    | true => exact (if_pos hatapi).trans rfl
    | false => exact (if_neg (ne_true_of_eq_false hatapi)).trans rfl
  rw [hload]
  refine ⟨fun k hk => ?_, rfl, rfl, rfl⟩
  cases k <;> first | rfl | exact absurd rfl hk

/-- A write of a register is one of the taskfile, and keeps the units. -/
theorem writeReg_spec (e : World μ × TaskReg) (h : (c.disk q.unit).isAttached e.1 = true) :
    (c.writeReg q e).taskfile =
        Taskfile.write (Taskfile.signature (c.isAtapi q.unit)) q c.taskfile e.2 ∧
      SameUnits c (c.writeReg q e) := by
  obtain ⟨w, r⟩ := e
  have hbyte := extract_setWidth (w := 64) (by decide) (q r)
  cases r with
  | driveHead =>
    have hwrite : c.writeReg q (w, .driveHead) =
        loadSignature w { c with driveHead := q .driveHead } q.unit := by
      simp only [writeReg, TaskReg.index, cmdWrite, hbyte]
      rfl
    have hpresent : present w { c with driveHead := q .driveHead } q.unit = true := by
      rw [present, isDisk]
      exact Bool.or_eq_true_iff.mpr (Or.inr h)
    obtain ⟨hsig, hhead, hunits⟩ := loadSignature_spec hpresent
    rw [hwrite]
    refine ⟨?_, hunits⟩
    funext k
    by_cases hk : k = .driveHead
    · rw [hk, Taskfile.write, if_pos rfl]
      exact hhead
    · rw [Taskfile.write, if_neg hk, if_pos rfl]
      exact hsig k hk
  | _ =>
    refine ⟨?_, rfl, rfl⟩
    funext k
    cases k <;> first | rfl | exact hbyte

/-- Units that stay twice stay. -/
theorem SameUnits.trans {c c' c'' : Channel μ} (h : SameUnits c c') (h' : SameUnits c' c'') :
    SameUnits c c'' := ⟨h'.1.trans h.1, h'.2.trans h.2⟩

/-- The writes leave the taskfile that their order presents. -/
theorem writes_spec (writes : List (World μ × TaskReg))
    (h : ∀ e ∈ writes, (c.disk q.unit).isAttached e.1 = true) :
    (runFrom (writeReg q) c writes).taskfile = (writes.map Prod.snd).foldl
        (Taskfile.write (Taskfile.signature (c.isAtapi q.unit)) q) c.taskfile ∧
      SameUnits c (runFrom (writeReg q) c writes) := by
  induction writes generalizing c with
  | nil => exact ⟨rfl, rfl, rfl⟩
  | cons e writes ih =>
    obtain ⟨htask, hunits⟩ := writeReg_spec e (h e List.mem_cons_self)
    have hatapi : (c.writeReg q e).isAtapi q.unit = c.isAtapi q.unit := by
      rw [isAtapi, isAtapi, hunits.2]
    obtain ⟨htask', hunits'⟩ := ih (c := c.writeReg q e) fun e' he' => by
      rw [hunits.1]
      exact h e' (List.mem_cons_of_mem e he')
    rw [runFrom_cons, List.map_cons, List.foldl_cons, ← htask, ← hatapi]
    exact ⟨htask', hunits.trans hunits'⟩

/-! ## Starting the read -/

/-- The address that a command takes is that of the taskfile. -/
theorem toNat_taskfileLba (c : Channel μ) : c.taskfileLba.toNat = c.taskfile.lba := by
  have hhead : (c.driveHead.extractLsb' 0 4).toNat = c.driveHead.toNat % 16 := by
    rw [toNat_extract]
    omega
  have hlow := c.lbaLow.isLt
  have hmid := c.lbaMid.isLt
  have hhigh := c.lbaHigh.isLt
  have hlba : c.taskfile.lba =
      ((c.driveHead.toNat % 16 * 256 + c.lbaHigh.toNat) * 256 + c.lbaMid.toNat) * 256 +
        c.lbaLow.toNat := rfl
  rw [taskfileLba, BitVec.toNat_setWidth, toNat_append_eq_add, toNat_append_eq_add,
    toNat_append_eq_add, hhead, hlba]
  omega

/-- There are between one and 256 sectors. -/
theorem count_bounds (q : Taskfile) : 0 < q.count ∧ q.count ≤ 256 := by
  have hlt := (q .sectorCount).isLt
  unfold Taskfile.count
  split
  · omega
  · rename_i hne
    have hne : (q .sectorCount).toNat ≠ 0 := fun h => hne (BitVec.eq_of_toNat_eq h)
    omega

/-- The address has 28 bits. -/
theorem lba_lt (q : Taskfile) : q.lba < 2 ^ 28 := by
  have hlow := (q .lbaLow).isLt
  have hmid := (q .lbaMid).isLt
  have hhigh := (q .lbaHigh).isLt
  unfold Taskfile.lba
  omega

/-- The limit check compares numbers: no sum of an address and a count wraps. -/
theorem limit_iff (c : Channel μ) (total : Word) :
    total < c.taskfileLba + BitVec.ofNat 64 c.taskfileCount ↔
      total.toNat < c.taskfile.lba + c.taskfile.count := by
  have hlba := lba_lt c.taskfile
  have hcount := (count_bounds c.taskfile).2
  have hc : c.taskfileCount = c.taskfile.count := rfl
  rw [BitVec.lt_def, BitVec.toNat_add, toNat_taskfileLba, BitVec.toNat_ofNat, hc]
  omega

/-- A read command is started on the disk that is selected. -/
theorem handleCommand_read {w : World μ} {cmd : Byte} (hcmd : cmd = 0x20 ∨ cmd = 0x21)
    (h : (c.disk c.selectedUnit).isAttached w = true) :
    c.handleCommand w cmd =
      startDiskRead w { c with issued := c.issued + 1 } c.selectedUnit := by
  have hdisk : isDisk w { c with issued := c.issued + 1 } c.selectedUnit = true := h
  have hpresent : present w { c with issued := c.issued + 1 } c.selectedUnit = true :=
    Bool.or_eq_true_iff.mpr (Or.inr hdisk)
  have hne : cmd ≠ 0xEC := by
    obtain rfl | rfl := hcmd <;> decide
  calc c.handleCommand w cmd
    _ = handleDiskCommand w { c with issued := c.issued + 1 } c.selectedUnit cmd :=
      (if_pos hpresent).trans (if_pos hdisk)
    _ = startDiskRead w { c with issued := c.issued + 1 } c.selectedUnit :=
      (if_neg hne).trans (if_pos hcmd)

/-! ## The stream of sectors -/

/-- A sector is in the buffer with the cursor somewhere in it, and the rest of the request lies on
the disk. The sector begins at byte `base` of the disk. -/
structure Streaming (c : Channel μ) (content : Nat → Byte) (base : Nat) : Prop where
  /-- Data are to be read. -/
  phase : c.phase = .dataIn
  /-- They are requested. -/
  drq : c.drq = true
  /-- A sector is in the buffer. -/
  len : c.pioLen = 512
  /-- The cursor is in it. -/
  pos : c.pioPos < 512
  /-- It is at a word. -/
  even : c.pioPos % 2 = 0
  /-- The sector is that of the disk. -/
  buffer : ∀ i, i < 512 → c.pio i = content (base + i)
  /-- The next sector is behind it. -/
  next : 512 * c.diskLba.toNat = base + 512
  /-- The sectors still to come are on the disk. -/
  inside : c.diskLba.toNat + c.diskRemaining ≤ (c.disk c.selectedUnit).totalSectors.toNat

/-- The bytes that are still to be read. -/
def left (c : Channel μ) : Nat := 512 * c.diskRemaining + 512 - c.pioPos

/-- The unit that is selected, and its disk, are the same. -/
def SameDisk (c c' : Channel μ) : Prop := c'.disk = c.disk ∧ c'.driveHead = c.driveHead

/-- The bytes of a word of the data register. -/
def wordBytes (v : Word) : List Byte := [v.extractLsb' 0 8, v.extractLsb' 8 8]

/-- Loading a sector starts or goes on with the stream. -/
theorem loadDiskSector_spec {w : World μ} (hs : (c.disk c.selectedUnit).Serves content w)
    (hrem : 0 < c.diskRemaining)
    (hin : c.diskLba.toNat + c.diskRemaining ≤ (c.disk c.selectedUnit).totalSectors.toNat) :
    Streaming (c.loadDiskSector w) content (512 * c.diskLba.toNat) ∧
      (c.loadDiskSector w).pioPos = 0 ∧ (c.loadDiskSector w).left = 512 * c.diskRemaining ∧
      SameDisk c (c.loadDiskSector w) := by
  have htotal := (c.disk c.selectedUnit).totalSectors.isLt
  obtain ⟨m, hm⟩ : ∃ m, (c.disk c.selectedUnit).media = some m := by
    have hready := hs.attached
    cases hmedia : (c.disk c.selectedUnit).media with
    | none =>
      rw [Disk.isAttached, hmedia] at hready
      cases hready
    | some m => exact ⟨m, rfl⟩
  have hlt : c.diskLba < (c.disk c.selectedUnit).totalSectors := by
    rw [BitVec.lt_def]
    omega
  have hread := hs.read m hm c.diskLba hlt
  obtain ⟨pio, hload, hbuf⟩ : ∃ pio : Buffer,
      c.loadDiskSector w = { c with
        pio := pio
        filledBy := (c.selectedUnit, c.streamOf)
        pioPos := 0
        pioLen := kSectorBytes
        status := kDRDY ||| kDRQ ||| kDSC
        error := 0
        phase := .dataIn
        diskLba := c.diskLba + 1
        diskRemaining := c.diskRemaining - 1 } ∧
      ∀ i, i < 512 → pio i = content (512 * c.diskLba.toNat + i) := by
    refine ⟨Buffer.zero.copy ((List.range 512).map fun i =>
      content (512 * c.diskLba.toNat + i)), ?_, fun i hi => Buffer.copy_map_range _ hi⟩
    simp only [loadDiskSector, hm, Option.elim_some, hread, if_true]
  have hnext : (c.diskLba + 1).toNat = c.diskLba.toNat + 1 := by
    rw [BitVec.toNat_add, show (1 : Word).toNat = 1 from rfl]
    omega
  rw [hload]
  have hdrq : (kDRDY ||| kDRQ ||| kDSC).getLsbD 3 = true := by decide
  refine ⟨⟨rfl, hdrq, rfl, Nat.zero_lt_succ 511, rfl, hbuf, ?_, ?_⟩, rfl, ?_, rfl, rfl⟩
  · change 512 * (c.diskLba + 1).toNat = _
    omega
  · change (c.diskLba + 1).toNat + (c.diskRemaining - 1) ≤ (c.disk c.selectedUnit).totalSectors.toNat
    omega
  · change 512 * (c.diskRemaining - 1) + 512 - 0 = 512 * c.diskRemaining
    omega

/-- What is left is the rest of this sector and those still to come. -/
theorem left_eq (c : Channel μ) : c.left = 512 * c.diskRemaining + 512 - c.pioPos := rfl

section Word

variable {base : Nat} (h : Streaming c content base)
include h

/-- The next word has the next two bytes. -/
theorem Streaming.wordBytes_dataWord :
    wordBytes c.dataWord = [content (base + c.pioPos), content (base + c.pioPos + 1)] := by
  have hpos := h.pos
  have heven := h.even
  have hlen := h.len
  have hword : c.dataWord = (c.pio (c.pioPos + 1) ++ c.pio c.pioPos).setWidth 64 := by
    simp only [dataWord]
    rw [if_pos (by omega), if_pos (by omega)]
  have hlo := (c.pio c.pioPos).isLt
  have hhi := (c.pio (c.pioPos + 1)).isLt
  have hnat : c.dataWord.toNat = (c.pio (c.pioPos + 1)).toNat * 2 ^ 8 + (c.pio c.pioPos).toNat := by
    rw [hword, BitVec.toNat_setWidth, toNat_append_eq_add]
    omega
  have hfirst : c.dataWord.extractLsb' 0 8 = c.pio c.pioPos := by
    rw [← BitVec.toNat_inj, toNat_extract, hnat]
    omega
  have hsecond : c.dataWord.extractLsb' 8 8 = c.pio (c.pioPos + 1) := by
    rw [← BitVec.toNat_inj, toNat_extract, hnat]
    omega
  rw [wordBytes, hfirst, hsecond, h.buffer _ hpos, h.buffer _ (by omega), Nat.add_assoc]

/-- A read inside a sector moves the cursor. -/
theorem Streaming.readReg_inside (w : World μ) (hpos : c.pioPos + 2 < 512) :
    c.readReg w = ({ c with pioPos := c.pioPos + 2 }, c.dataWord) := by
  have hlen := h.len
  have hcur : ¬ c.pioLen ≤ c.pioPos + 2 := by omega
  calc c.readReg w
    _ = (if c.pioLen ≤ c.pioPos + 2 then pioDrained w { c with pioPos := c.pioPos + 2 }
        else { c with pioPos := c.pioPos + 2 }, c.dataWord) := if_pos h.phase
    _ = ({ c with pioPos := c.pioPos + 2 }, c.dataWord) := by rw [if_neg hcur]

/-- The read of its last word goes on to the next sector, or ends the command. -/
theorem Streaming.readReg_last (w : World μ) (hpos : c.pioPos + 2 = 512) :
    c.readReg w = (pioDrained w { c with pioPos := c.pioPos + 2 }, c.dataWord) := by
  have hlen := h.len
  have hcur : c.pioLen ≤ c.pioPos + 2 := by omega
  calc c.readReg w
    _ = (if c.pioLen ≤ c.pioPos + 2 then pioDrained w { c with pioPos := c.pioPos + 2 }
        else { c with pioPos := c.pioPos + 2 }, c.dataWord) := if_pos h.phase
    _ = (pioDrained w { c with pioPos := c.pioPos + 2 }, c.dataWord) := by rw [if_pos hcur]

/-- **One read of the data register.** -/
theorem Streaming.readReg_spec {w : World μ} (hs : (c.disk c.selectedUnit).Serves content w) :
    (c.readReg w).2 = c.dataWord ∧ SameDisk c (c.readReg w).1 ∧
      (2 < c.left → ∃ base', Streaming (c.readReg w).1 content base' ∧
        base' + (c.readReg w).1.pioPos = base + c.pioPos + 2 ∧
        (c.readReg w).1.left = c.left - 2) ∧
      (c.left = 2 → (c.readReg w).1.drq = false) := by
  have hlt := h.pos
  have heven := h.even
  have hnext := h.next
  have hleft := left_eq c
  obtain hpos | hpos : c.pioPos + 2 < 512 ∨ c.pioPos + 2 = 512 := by omega
  · rw [h.readReg_inside w hpos]
    refine ⟨rfl, ⟨rfl, rfl⟩, fun _ => ⟨base, ?_, (Nat.add_assoc _ _ _).symm, ?_⟩, fun hl => ?_⟩
    · refine ⟨h.phase, h.drq, h.len, hpos, ?_, h.buffer, h.next, h.inside⟩
      change (c.pioPos + 2) % 2 = 0
      omega
    · change 512 * c.diskRemaining + 512 - (c.pioPos + 2) = c.left - 2
      omega
    · omega
  · rw [h.readReg_last w hpos]
    by_cases hrem : 0 < c.diskRemaining
    · have hdrain : pioDrained w { c with pioPos := c.pioPos + 2 } =
          loadDiskSector w { c with pioPos := c.pioPos + 2 } := if_pos hrem
      obtain ⟨hstream, hzero, hleft', hsame⟩ := loadDiskSector_spec
        (c := { c with pioPos := c.pioPos + 2 }) hs hrem h.inside
      rw [hdrain]
      refine ⟨rfl, hsame, fun _ => ⟨_, hstream, ?_, ?_⟩, fun hl => ?_⟩
      · rw [hzero]
        change 512 * c.diskLba.toNat + 0 = _
        omega
      · rw [hleft']
        change 512 * c.diskRemaining = _
        omega
      · omega
    · have hdrain : pioDrained w { c with pioPos := c.pioPos + 2 } =
          packetComplete { c with pioPos := c.pioPos + 2 } := if_neg hrem
      have hdrq : (kDRDY ||| kDSC).getLsbD 3 = false := by decide
      rw [hdrain]
      refine ⟨rfl, ⟨rfl, rfl⟩, fun hl => ?_, fun _ => hdrq⟩
      omega

end Word

/-- **Reading on.** The words are the bytes of the disk in order, and DRQ is set until the last. -/
theorem Streaming.outputs_spec {base : Nat} (h : Streaming c content base)
    (reads : List (World μ)) (hs : ∀ w ∈ reads, (c.disk c.selectedUnit).Serves content w)
    (hle : 2 * reads.length ≤ c.left) :
    (outputs readReg c reads).flatMap wordBytes =
        (List.range (2 * reads.length)).map (fun i => content (base + c.pioPos + i)) ∧
      (runFrom (fun c w => (readReg c w).1) c reads).drq = decide (2 * reads.length < c.left) := by
  induction reads generalizing c base with
  | nil =>
    have hpos := h.pos
    have hleft := left_eq c
    refine ⟨rfl, ?_⟩
    rw [runFrom_nil, h.drq, List.length_nil]
    exact (decide_eq_true (by omega)).symm
  | cons w reads ih =>
    obtain ⟨hword, hsame, hmore, hlast⟩ := h.readReg_spec (hs w List.mem_cons_self)
    rw [List.length_cons] at hle ⊢
    have hrange : List.range (2 * (reads.length + 1)) =
        [0, 1] ++ (List.range (2 * reads.length)).map (2 + ·) := by
      rw [show 2 * (reads.length + 1) = 2 + 2 * reads.length by omega, List.range_add]
      rfl
    rw [outputs, List.flatMap_cons, hword, h.wordBytes_dataWord, runFrom_cons, hrange,
      List.map_append, List.map_map]
    obtain hl | hl : 2 < c.left ∨ c.left = 2 := by omega
    · obtain ⟨base', hstream, hoff, hleft⟩ := hmore hl
      obtain ⟨hbytes, hdrq⟩ := ih hstream (fun w' hw' => by
        rw [selectedUnit, hsame.1, hsame.2]
        exact hs w' (List.mem_cons_of_mem w hw')) (by omega)
      refine ⟨?_, ?_⟩
      · rw [hbytes, hoff]
        refine congrArg₂ _ rfl (List.map_congr_left fun i _ => ?_)
        exact congrArg content (Nat.add_assoc _ _ _)
      · rw [hdrq, hleft, decide_eq_decide]
        omega
    · have hnil : reads = [] := List.length_eq_zero_iff.mp (by omega)
      subst hnil
      refine ⟨rfl, ?_⟩
      rw [runFrom_nil, hlast hl, hl, List.length_nil]
      rfl

/-! ## The command -/

/-- The disk's sectors come through the data register, in order, and DRQ is set until all of them
have been read. -/
def Delivers (c : Channel μ) (d : Disk μ) (content : Nat → Byte) (q : Taskfile) : Prop :=
  ∀ reads : List (World μ), (∀ w ∈ reads, d.Serves content w) → reads.length ≤ 256 * q.count →
    (outputs readReg c reads).flatMap wordBytes =
        (List.range (2 * reads.length)).map (fun i => content (512 * q.lba + i)) ∧
      (runFrom (fun c w => (readReg c w).1) c reads).drq = decide (reads.length < 256 * q.count)

/-- The command is aborted, and the data register gives nothing. -/
def Refuses (c : Channel μ) : Prop :=
  c.error = kERR_ABRT ∧ c.status = kDRDY ||| kERR ∧
    ∀ reads : List (World μ), outputs readReg c reads = List.replicate reads.length 0 ∧
      runFrom (fun c w => (readReg c w).1) c reads = c

/-- A read of the sectors in the taskfile `q`. -/
def ReadSectorsLaw (c : Channel μ) (d : Disk μ) (content : Nat → Byte) (q : Taskfile) : Prop :=
  (q.lba + q.count ≤ d.totalSectors.toNat → Delivers c d content q) ∧
    (d.totalSectors.toNat < q.lba + q.count → Refuses c)

/-- An aborted command gives nothing. -/
theorem refuses_abortTransfer (c : Channel μ) : Refuses c.abortTransfer := by
  refine ⟨rfl, rfl, fun reads => ?_⟩
  induction reads with
  | nil => exact ⟨rfl, rfl⟩
  | cons w reads ih =>
    have hphase : c.abortTransfer.phase ≠ .dataIn := fun h => by cases h
    have hread : c.abortTransfer.readReg w = (c.abortTransfer, 0) := by
      change c.abortTransfer.readData w = _
      rw [readData, if_neg hphase]
    rw [outputs, runFrom_cons, hread, List.length_cons, List.replicate_succ, ih.1]
    exact ⟨rfl, ih.2⟩

/-- What a read command does follows from the taskfile it finds. -/
theorem handleCommand_readSectorsLaw {w : World μ} {cmd : Byte} (hcmd : cmd = 0x20 ∨ cmd = 0x21)
    (hs : (c.disk c.selectedUnit).Serves content w) :
    ReadSectorsLaw (c.handleCommand w cmd) (c.disk c.selectedUnit) content c.taskfile := by
  have hlimit := limit_iff { c with issued := c.issued + 1 } (c.disk c.selectedUnit).totalSectors
  have hcount := count_bounds c.taskfile
  rw [handleCommand_read hcmd hs.attached]
  refine ⟨fun hin => ?_, fun hout => ?_⟩
  · have hstart : startDiskRead w { c with issued := c.issued + 1 } c.selectedUnit =
        loadDiskSector w { c with
          issued := c.issued + 1
          diskLba := c.taskfileLba
          diskRemaining := c.taskfileCount
          streamOf := c.issued + 1 } := if_neg (mt hlimit.mp (Nat.not_lt.mpr hin))
    have hlba := toNat_taskfileLba c
    obtain ⟨hstream, hpos, hleft, hsame⟩ := loadDiskSector_spec
      (c := { c with
        issued := c.issued + 1
        diskLba := c.taskfileLba
        diskRemaining := c.taskfileCount
        streamOf := c.issued + 1 }) hs hcount.1 (hlba ▸ hin)
    rw [hstart]
    intro reads hreads hlen
    have hall : _ = 512 * c.taskfile.count := hleft
    obtain ⟨hbytes, hdrq⟩ := hstream.outputs_spec reads (fun w' hw' => by
      rw [selectedUnit, hsame.1, hsame.2]
      exact hreads w' hw') (by omega)
    refine ⟨?_, ?_⟩
    · rw [hbytes, hpos, Nat.add_zero]
      change (List.range _).map (fun i => content (512 * c.taskfileLba.toNat + i)) = _
      rw [hlba]
    · rw [hdrq, hall, decide_eq_decide]
      omega
  · have hstart : startDiskRead w { c with issued := c.issued + 1 } c.selectedUnit =
        abortTransfer { c with issued := c.issued + 1 } := if_pos (hlimit.mpr hout)
    rw [hstart]
    exact refuses_abortTransfer _

/-- **READ SECTORS.** Whatever the channel was doing, whatever order the driver writes the taskfile
in, and whichever read command it gives: the command reads the sectors that the order presents. -/
theorem readSectors (content : Nat → Byte) (q : Taskfile) (c : Channel μ)
    (writes : List (World μ × TaskReg)) (w : World μ) (cmd : Byte)
    (horder : (writes.map Prod.snd).Perm TaskReg.all) (hcmd : cmd = 0x20 ∨ cmd = 0x21)
    (hwrites : ∀ e ∈ writes, (c.disk q.unit).Serves content e.1)
    (hw : (c.disk q.unit).Serves content w) :
    ReadSectorsLaw ((runFrom (writeReg q) c writes).cmdWrite w (cmd.setWidth 64) 7)
        (c.disk q.unit) content
        (Taskfile.presented (Taskfile.signature (c.isAtapi q.unit)) q (writes.map Prod.snd)) ∧
      ((writes.map Prod.snd).head? = some .driveHead →
        Taskfile.presented (Taskfile.signature (c.isAtapi q.unit)) q (writes.map Prod.snd) = q) := by
  refine ⟨?_, Taskfile.presented_of_head horder⟩
  obtain ⟨htask, hunits⟩ := writes_spec writes fun e he => (hwrites e he).attached
  have hhead : TaskReg.driveHead ∈ writes.map Prod.snd := horder.mem_iff.mpr (by decide)
  have hnodup : (writes.map Prod.snd).Nodup := horder.nodup_iff.mpr (by decide)
  rw [Taskfile.foldl_write hnodup hhead] at htask
  have hunit : (runFrom (writeReg q) c writes).selectedUnit = q.unit := by
    have hdrive := congrFun htask .driveHead
    rw [Taskfile.presented_driveHead hhead] at hdrive
    exact congrArg (BitVec.getLsbD · 4) hdrive
  have hdisk : (runFrom (writeReg q) c writes).disk
      (runFrom (writeReg q) c writes).selectedUnit = c.disk q.unit := by
    rw [hunit, hunits.1]
  have hbyte := extract_setWidth (w := 64) (by decide) cmd
  have hwrite : (runFrom (writeReg q) c writes).cmdWrite w (cmd.setWidth 64) 7 =
      (runFrom (writeReg q) c writes).handleCommand w cmd := by
    rw [cmdWrite, hbyte]
  have hlaw := handleCommand_readSectorsLaw (c := runFrom (writeReg q) c writes) (w := w) hcmd
    (hdisk.symm ▸ hw)
  rw [hdisk, htask] at hlaw
  rw [hwrite]
  exact hlaw

/-! ## Two sectors of a disk of three -/

/-- The request for sectors 1 and 2 of the master. -/
def lastSectors : Taskfile
  | .sectorCount => 2
  | .lbaLow => 1
  | .driveHead => 0x40
  | _ => 0

/-- A file of three sectors, all 1, all 7 and all 9. -/
def threeSectors : List Byte :=
  List.replicate 512 1 ++ (List.replicate 512 7 ++ List.replicate 512 9)

/-- The file as a disk. -/
def threeSectorDisk : World Unit := fun _ =>
  (FileBlockMedia.openFile 512 threeSectors).2.media threeSectors

/-- A channel with that disk. -/
def threeSectorChannel : Channel Unit :=
  { disk := fun _ => { media := some (), totalSectors := 3 } }

/-- The drive/head register first, and then the others. -/
def headFirst : List (World Unit × TaskReg) :=
  [.driveHead, .sectorCount, .lbaLow, .lbaMid, .lbaHigh].map fun r => (threeSectorDisk, r)

/-- The channel once the driver has written the taskfile and the command. -/
def startedChannel : Channel Unit :=
  (runFrom (writeReg lastSectors) threeSectorChannel headFirst).cmdWrite threeSectorDisk
    ((0x20 : Byte).setWidth 64) 7

/-- The file has three sectors. -/
theorem length_threeSectors : threeSectors.length = 1536 := by
  simp only [threeSectors, List.length_append, List.length_replicate]

/-- The disk serves the bytes of the file. -/
theorem threeSectors_serves (unit : Bool) :
    (threeSectorChannel.disk unit).Serves (fun i => threeSectors.getD i 0) threeSectorDisk := by
  have hopen : (FileBlockMedia.openFile 512 threeSectors).1 = .ok := by
    simp [FileBlockMedia.openFile, length_threeSectors]
  exact Disk.serves_file (m := ()) hopen (by rw [length_threeSectors]; decide) rfl rfl
    (by rw [length_threeSectors]; rfl)

/-- The drive/head register first: 512 reads of the data register get both sectors and leave DRQ
clear. -/
theorem readSectors_last :
    (outputs readReg startedChannel (List.replicate 512 threeSectorDisk)).flatMap wordBytes =
        List.replicate 512 7 ++ List.replicate 512 9 ∧
      (runFrom (fun c w => (readReg c w).1) startedChannel
        (List.replicate 512 threeSectorDisk)).drq = false := by
  have hserves := threeSectors_serves (Taskfile.unit lastSectors)
  obtain ⟨hlaw, hsame⟩ := readSectors _ lastSectors threeSectorChannel headFirst threeSectorDisk
    0x20 (by decide) (Or.inl rfl) (fun e he => by
      obtain ⟨r, -, rfl⟩ := List.mem_map.mp he
      exact hserves) hserves
  rw [hsame rfl] at hlaw
  obtain ⟨hbytes, hdrq⟩ := hlaw.1 (by decide) (List.replicate 512 threeSectorDisk)
    (fun w hw => List.eq_of_mem_replicate hw ▸ hserves) (by rw [List.length_replicate]; decide)
  have hlen : 512 * lastSectors.lba + 2 * 512 ≤ threeSectors.length := by
    rw [length_threeSectors]
    decide
  have hdrop : threeSectors.drop (512 * lastSectors.lba) =
      List.replicate 512 7 ++ List.replicate 512 9 :=
    List.drop_left' (List.length_replicate.trans (by decide))
  have hall : (List.replicate 512 (7 : Byte) ++ List.replicate 512 9).length ≤ 2 * 512 := by
    rw [List.length_append, List.length_replicate, List.length_replicate]
  rw [List.length_replicate, ← FileBlockMedia.take_drop_eq_map_range _ _ hlen, hdrop] at hbytes
  rw [List.length_replicate] at hdrq
  exact ⟨hbytes.trans (List.take_of_length_le hall), hdrq.trans (by decide)⟩

/-! ## One sector -/

/-- The request for the first sector of the master. -/
def firstSector : Taskfile
  | .sectorCount => 1
  | .driveHead => 0x40
  | _ => 0

/-- A disk of one sector, all of it the byte 7. -/
def oneSector : World Unit := fun _ =>
  (FileBlockMedia.openFile 512 (List.replicate 512 7)).2.media (List.replicate 512 7)

/-- A channel with that disk. -/
def oneSectorChannel : Channel Unit :=
  { disk := fun _ => { media := some (), totalSectors := 1 } }

/-- The disk serves its byte. -/
theorem oneSector_serves (unit : Bool) :
    (oneSectorChannel.disk unit).Serves (fun i => (List.replicate 512 (7 : Byte)).getD i 0)
      oneSector :=
  Disk.serves_file (m := ()) (by decide +kernel) (by rw [List.length_replicate]; decide) rfl rfl
    (by rw [List.length_replicate]; rfl)

/-- The drive/head register last: the request for the first sector is aborted. -/
theorem not_readSectorsLaw_headLast : ¬ ∀ (content : Nat → Byte) (q : Taskfile)
    (c : Channel Unit) (writes : List (World Unit × TaskReg)) (w : World Unit) (cmd : Byte),
    (writes.map Prod.snd).Perm TaskReg.all → cmd = 0x20 ∨ cmd = 0x21 →
    (∀ e ∈ writes, (c.disk q.unit).Serves content e.1) → (c.disk q.unit).Serves content w →
    ReadSectorsLaw ((runFrom (writeReg q) c writes).cmdWrite w (cmd.setWidth 64) 7)
      (c.disk q.unit) content q := by
  intro h
  have hserves := oneSector_serves (Taskfile.unit firstSector)
  have hlaw := h _ firstSector oneSectorChannel (TaskReg.all.map fun r => (oneSector, r)) oneSector
    0x20 (by decide) (Or.inl rfl) (fun e he => by
      obtain ⟨r, -, rfl⟩ := List.mem_map.mp he
      exact hserves) hserves
  have hdrq := (hlaw.1 (by decide) [] (fun w' hw' => by cases hw') (Nat.zero_le _)).2
  exact absurd hdrq (by decide +kernel)

end Channel

end Cy82C693Ide

end EmulatR
