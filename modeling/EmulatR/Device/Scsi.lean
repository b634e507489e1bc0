import EmulatR.Pte.AlphaPte

/-! # Block media and the virtual CD drive

The CD drive behind the ATAPI channel (deviceLib/scsi/VirtualIsoDevice.h) takes a 12-byte command
block and a buffer, and answers with a status, sense data and the number of bytes it has put into
the buffer. It reads from a block medium (IBlockMedia.h). What a medium answers may change from one
access to the next, with the disc or with the host file under it, so an access is made in a `World`
that says what each medium answers at that moment. -/

namespace EmulatR

/-- A byte of a device buffer. -/
abbrev Byte := BitVec 8

/-- A device buffer, by offset. -/
abbrev Buffer := Nat → Byte

namespace Buffer

/-- The buffer filled with zeros. -/
def zero : Buffer := fun _ => 0

/-- Copy bytes to the start of the buffer. -/
def copy (buf : Buffer) (data : List Byte) : Buffer := fun i => data.getD i (buf i)

/-- Set one byte. -/
def set (buf : Buffer) (off : Nat) (v : Byte) : Buffer := fun i => if i = off then v else buf i

/-- A buffer has the bytes that were copied to it. -/
theorem copy_map_range (buf : Buffer) {f : Nat → Byte} {n i : Nat} (h : i < n) :
    buf.copy ((List.range n).map f) i = f i := by
  rw [copy, List.getD_eq_getElem?_getD, List.getElem?_map, List.getElem?_range h]
  rfl

end Buffer

/-- The bytes of an ASCII text. -/
def asciiBytes (s : String) : List Byte := s.toList.map fun c => BitVec.ofNat 8 c.toNat

namespace Scsi

/-! ## Media -/

/-- What comes of a transfer. -/
inductive MediaStatus
  /-- It was read. -/
  | ok
  /-- There is no medium. -/
  | noMedia
  /-- The block is not on the medium. -/
  | outOfRange
  /-- The host could not read it. -/
  | ioError
  /-- The medium cannot be written. -/
  | readOnly
  /-- The medium is not open. -/
  | notOpen
  deriving DecidableEq

/-- What a medium answers at one moment. -/
structure BlockMedia where
  /-- It is open. -/
  isOpen : Bool
  /-- It is loaded. -/
  isPresent : Bool
  /-- The number of its blocks. -/
  blockCount : Word
  /-- A read of some blocks: the status, and what it leaves at the start of the buffer. -/
  read : (lba : Word) → (cnt : Nat) → MediaStatus × List Byte

/-- What every medium answers at one moment. -/
abbrev World (μ : Type) := μ → BlockMedia

/-- The medium of a slot can be used. -/
def ready {μ : Type} (w : World μ) (media : Option μ) : Bool :=
  media.any fun m => (w m).isOpen && (w m).isPresent

/-! ## Commands -/

/-- The status of a command. -/
inductive ScsiStatus
  /-- The command was done. -/
  | good
  /-- It was not, and the sense data say why. -/
  | checkCondition
  deriving DecidableEq

/-- Fixed-format sense data. -/
structure SenseData where
  /-- The sense key. -/
  key : BitVec 4 := 0
  /-- The additional sense code. -/
  asc : Byte := 0
  /-- Its qualifier. -/
  ascq : Byte := 0
  deriving DecidableEq

/-- The 18 bytes of the sense data. -/
def SenseData.bytes (s : SenseData) : List Byte :=
  [0x70, 0, s.key.setWidth 8, 0, 0, 0, 0, 0x0A, 0, 0, 0, 0, s.asc, s.ascq, 0, 0, 0, 0]

/-- There is no medium. -/
def senseNotReadyMediumNotPresent : SenseData := { key := 2, asc := 0x3A }

/-- There is no such command. -/
def senseInvalidOpcode : SenseData := { key := 5, asc := 0x20 }

/-- There is no such block. -/
def senseLbaOutOfRange : SenseData := { key := 5, asc := 0x21 }

/-- The block cannot be read. -/
def senseUnrecoveredReadError : SenseData := { key := 3, asc := 0x11 }

/-- A command on its way through the drive. -/
structure ScsiCommand where
  /-- The command block. -/
  cdb : Nat → Byte
  /-- The caller's buffer. -/
  dataBuffer : Buffer
  /-- Its capacity. -/
  dataBufferLength : Nat
  /-- The bytes moved. -/
  dataTransferred : Nat := 0
  /-- The status. -/
  status : ScsiStatus := .good
  /-- The sense data, if the status is a check condition. -/
  senseData : SenseData := {}

namespace ScsiCommand

variable (cmd : ScsiCommand)

/-- The operation code of a command. -/
def opcode : Nat := (cmd.cdb 0).toNat

/-- The command was done. -/
def setGood : ScsiCommand := { cmd with status := .good }

/-- The command failed, and the sense data say why. -/
def setCheckCondition (s : SenseData) : ScsiCommand :=
  { cmd with status := .checkCondition, senseData := s }

/-- Answer with the first `n` of some bytes. -/
def reply (data : List Byte) (n : Nat) : ScsiCommand :=
  { cmd with dataBuffer := cmd.dataBuffer.copy (data.take n), dataTransferred := n }.setGood

/-- Two bytes of the command block, the high one first. -/
def be16 (off : Nat) : Nat := (cmd.cdb off).toNat * 256 + (cmd.cdb (off + 1)).toNat

/-- Four bytes of the command block, the high one first. -/
def be32 (off : Nat) : Nat := cmd.be16 off * 65536 + cmd.be16 (off + 2)

end ScsiCommand

/-- Four bytes, the high one first. -/
def putBe32 (v : BitVec 32) : List Byte :=
  [v.extractLsb' 24 8, v.extractLsb' 16 8, v.extractLsb' 8 8, v.extractLsb' 0 8]

/-! ## The drive -/

/-- The CD drive. -/
structure VirtualIsoDevice (μ : Type) where
  /-- The disc. -/
  media : Option μ := none
  /-- What the next REQUEST SENSE reports. -/
  lastSense : SenseData := senseNotReadyMediumNotPresent

namespace VirtualIsoDevice

variable {μ : Type} (w : World μ) (d : VirtualIsoDevice μ) (cmd : ScsiCommand)

/-- The peripheral device type: a CD drive. -/
def deviceType (_ : VirtualIsoDevice μ) : Byte := 0x05

/-- The size of a block. -/
def kBlockBytes : Nat := 2048

/-- A medium is in the drive. -/
def hasMedia : Bool := ready w d.media

/-- The number of its blocks. -/
def blockCount : Word := if d.hasMedia w then d.media.elim 0 fun m => (w m).blockCount else 0

/-- Fail because there is no medium. -/
def failNotReady : VirtualIsoDevice μ × ScsiCommand :=
  ({ d with lastSense := senseNotReadyMediumNotPresent },
    cmd.setCheckCondition senseNotReadyMediumNotPresent)

/-- Fail, and keep the sense data. -/
def failCheck (s : SenseData) : VirtualIsoDevice μ × ScsiCommand :=
  ({ d with lastSense := s }, { cmd.setCheckCondition s with dataTransferred := 0 })

/-- The sense data of a failed transfer. -/
def mapMediaFailure : MediaStatus → VirtualIsoDevice μ × ScsiCommand
  | .outOfRange => d.failCheck cmd senseLbaOutOfRange
  | .ioError => d.failCheck cmd senseUnrecoveredReadError
  | _ => d.failNotReady cmd

/-- INQUIRY: what the drive is. -/
def doInquiry : ScsiCommand :=
  let inq := [0x05, 0x80, 0x05, 0x02, 36 - 5, 0, 0, 0] ++ asciiBytes "DEC     " ++
    asciiBytes "RRD46   (C) DEC " ++ asciiBytes "1337"
  cmd.reply inq (min cmd.dataBufferLength 36)

/-- REQUEST SENSE: why the last command failed. -/
def doRequestSense : ScsiCommand := cmd.reply d.lastSense.bytes (min cmd.dataBufferLength 18)

/-- READ CAPACITY: the last block and the size of one. -/
def doReadCapacity10 : ScsiCommand :=
  let blocks := d.blockCount w
  let lastLba : BitVec 32 := if 0 < blocks then (blocks - 1).setWidth 32 else 0
  cmd.reply (putBe32 lastLba ++ putBe32 (BitVec.ofNat 32 kBlockBytes))
    (min cmd.dataBufferLength 8)

/-- The address of a read, by the form of its command block. -/
def readLba : Word :=
  if cmd.opcode = 0x08 then
    BitVec.ofNat 64 (((cmd.cdb 1).toNat % 32) * 65536 + cmd.be16 2)
  else BitVec.ofNat 64 (cmd.be32 2)

/-- The blocks a read asks for; in the short form zero stands for 256. -/
def readBlocks : Nat :=
  if cmd.opcode = 0x08 then if cmd.cdb 4 = 0 then 256 else (cmd.cdb 4).toNat
  else if cmd.opcode = 0x28 then cmd.be16 7
  else cmd.be32 6

/-- A read moves no more blocks than fit into the buffer. -/
def doRead : VirtualIsoDevice μ × ScsiCommand :=
  let nBlocks := min (readBlocks cmd) (cmd.dataBufferLength / kBlockBytes)
  if readBlocks cmd = 0 ∨ nBlocks = 0 then (d, { cmd with dataTransferred := 0 }.setGood)
  else
    let xfer := nBlocks * kBlockBytes
    let buf := cmd.dataBuffer.copy (List.replicate xfer 0)
    let r := d.media.elim (.notOpen, []) fun m => (w m).read (readLba cmd) nBlocks
    let cmd := { cmd with dataBuffer := buf.copy r.2 }
    if r.1 = .ok then (d, { cmd with dataTransferred := xfer }.setGood)
    else d.mapMediaFailure cmd r.1

/-- READ TOC: one data track and the lead-out. -/
def doReadToc : ScsiCommand :=
  let toc := [0x00, 0x12, 0x01, 0x01, 0x00, 0x14, 0x01, 0x00] ++ putBe32 0 ++
    [0x00, 0x14, 0xAA, 0x00] ++ putBe32 ((d.blockCount w).setWidth 32)
  let alloc := cmd.be16 7
  let n := if alloc ≠ 0 ∧ alloc < 20 then alloc else 20
  cmd.reply toc (min cmd.dataBufferLength n)

/-- A command that needs the disc. -/
def onMedia (r : VirtualIsoDevice μ × ScsiCommand) : VirtualIsoDevice μ × ScsiCommand :=
  if d.hasMedia w then r else d.failNotReady cmd

/-- **One command.** -/
def handleCommand : VirtualIsoDevice μ × ScsiCommand :=
  match cmd.opcode with
  | 0x12 => (d, doInquiry cmd)
  | 0x03 => (d, d.doRequestSense cmd)
  | 0x00 => d.onMedia w cmd (d, cmd.setGood)
  | 0x25 => d.onMedia w cmd (d, d.doReadCapacity10 w cmd)
  | 0x08 => d.onMedia w cmd (d.doRead w cmd)
  | 0x28 => d.onMedia w cmd (d.doRead w cmd)
  | 0xA8 => d.onMedia w cmd (d.doRead w cmd)
  | 0x43 => d.onMedia w cmd (d, d.doReadToc w cmd)
  | 0x1B => (d, cmd.setGood)
  | 0x1E => (d, cmd.setGood)
  | _ => (d, cmd.setCheckCondition senseInvalidOpcode)

/-- Put a medium into the drive, or none. -/
def setMedia (_ : VirtualIsoDevice μ) (media : Option μ) : VirtualIsoDevice μ :=
  { media := media
    lastSense := if ready w media then {} else senseNotReadyMediumNotPresent }

/-- Take the medium out. -/
def ejectMedia (_ : VirtualIsoDevice μ) : VirtualIsoDevice μ :=
  { media := none, lastSense := senseNotReadyMediumNotPresent }

/-! ## The transfer fits the buffer -/

variable {w d cmd}

/-- A command that fails for want of a medium transfers nothing. -/
theorem failNotReady_dataTransferred :
    (d.failNotReady cmd).2.dataTransferred = cmd.dataTransferred := rfl

/-- A command that fails on the medium transfers nothing. -/
theorem mapMediaFailure_dataTransferred (h : cmd.dataTransferred = 0) (st : MediaStatus) :
    (d.mapMediaFailure cmd st).2.dataTransferred = 0 := by
  cases st with
  | outOfRange => rfl
  | ioError => rfl
  | _ => exact h

/-- A read transfers no more than the buffer holds. -/
theorem doRead_dataTransferred_le (h : cmd.dataTransferred = 0) :
    (d.doRead w cmd).2.dataTransferred ≤ cmd.dataBufferLength := by
  simp only [doRead]
  split
  · exact Nat.zero_le _
  · split
    · -- whole blocks, and as many as fit
      calc min (readBlocks cmd) (cmd.dataBufferLength / kBlockBytes) * kBlockBytes
          ≤ cmd.dataBufferLength / kBlockBytes * kBlockBytes :=
            Nat.mul_le_mul_right _ (Nat.min_le_right _ _)
        _ ≤ cmd.dataBufferLength := Nat.div_mul_le_self _ _
    · refine le_of_eq_of_le (mapMediaFailure_dataTransferred ?_ _) (Nat.zero_le _)
      exact h

/-- A command that needs a medium transfers no more than its buffer holds, if what it does on the
medium does not. -/
theorem onMedia_dataTransferred_le {r : VirtualIsoDevice μ × ScsiCommand}
    (h : cmd.dataTransferred = 0) (hr : r.2.dataTransferred ≤ cmd.dataBufferLength) :
    (d.onMedia w cmd r).2.dataTransferred ≤ cmd.dataBufferLength := by
  unfold onMedia
  split
  · exact hr
  · rw [failNotReady_dataTransferred, h]
    exact Nat.zero_le _

/-- **The drive never moves more bytes than the buffer holds.** -/
theorem handleCommand_dataTransferred_le (h : cmd.dataTransferred = 0) :
    (d.handleCommand w cmd).2.dataTransferred ≤ cmd.dataBufferLength := by
  have hzero : cmd.dataTransferred ≤ cmd.dataBufferLength := by omega
  unfold handleCommand
  split
  · exact Nat.min_le_left _ _
  · exact Nat.min_le_left _ _
  · exact onMedia_dataTransferred_le h hzero
  · exact onMedia_dataTransferred_le h (Nat.min_le_left _ _)
  · exact onMedia_dataTransferred_le h (doRead_dataTransferred_le h)
  · exact onMedia_dataTransferred_le h (doRead_dataTransferred_le h)
  · exact onMedia_dataTransferred_le h (doRead_dataTransferred_le h)
  · exact onMedia_dataTransferred_le h (Nat.min_le_left _ _)
  · exact hzero
  · exact hzero
  · exact hzero

end VirtualIsoDevice

end Scsi

end EmulatR
