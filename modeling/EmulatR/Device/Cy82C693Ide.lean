import EmulatR.Device.Scsi

/-! # The IDE controller

Function 1 of the Cypress CY82C693 (deviceLib/Tsunami/Cy82C693Ide.h): two channels of two units
each, behind the legacy taskfile ports. A unit is a fixed disk, which answers ATA commands and
streams its sectors through the data register, or an ATAPI drive, which takes a 12-byte packet and
streams its answer back.

A channel keeps the taskfile, the phase of the current command, the packet, the data buffer with
its cursor, and the sectors that are still to be streamed. Three fields are not the program's:
`issued` counts the commands written to the channel, and `filledBy` and `streamOf` remember which of
them, and which unit, the buffer and the sector stream belong to.

`Channel` is a channel, `readData`, `writeData`, `cmdRead`, `cmdWrite` and `ctrlWrite` are its
ports, `Cy82C693Ide` is the controller. -/

namespace EmulatR

open Scsi

namespace Cy82C693Ide

/-! ## The channel -/

/-- The phase of a command. -/
inductive Phase
  /-- A command is due. -/
  | idle
  /-- The bytes of a packet are due. -/
  | awaitCdb
  /-- Data are to be read. -/
  | dataIn
  /-- A packet command is finished. -/
  | complete
  deriving DecidableEq

/-- A fixed disk. -/
structure Disk (μ : Type) where
  /-- Its medium. -/
  media : Option μ := none
  /-- Its size. -/
  totalSectors : Word := 0
  /-- Its geometry. -/
  cylinders : BitVec 16 := 0
  /-- The heads it pretends to have. -/
  heads : BitVec 16 := 0
  /-- The sectors of a track. -/
  sectors : BitVec 16 := 0

/-- The disk answers. -/
def Disk.isAttached {μ : Type} (w : World μ) (d : Disk μ) : Bool := ready w d.media

/-- A channel. Units are numbered by the select bit: `false` is the master. -/
structure Channel (μ : Type) where
  /-- The features register. -/
  features : Byte := 0
  /-- The error register. -/
  error : Byte := 0
  /-- The sector count, or the interrupt reason of a packet. -/
  sectorCount : Byte := 0
  /-- The low byte of the address. -/
  lbaLow : Byte := 0
  /-- The middle byte, or the low byte of a packet's byte count. -/
  lbaMid : Byte := 0
  /-- The high byte, or the high byte of that count. -/
  lbaHigh : Byte := 0
  /-- The selected unit and the top of the address. -/
  driveHead : Byte := 0
  /-- The status register. -/
  status : Byte := 0
  /-- The device control. -/
  devCtrl : Byte := 0
  /-- The ATAPI drives. -/
  dev : Bool → Option (VirtualIsoDevice μ) := fun _ => none
  /-- The fixed disks. -/
  disk : Bool → Disk μ := fun _ => {}
  /-- Where the channel is. -/
  phase : Phase := .idle
  /-- The packet, and how much of it has come. -/
  cdb : Buffer := .zero
  /-- The bytes of the packet that have come. -/
  cdbPos : Nat := 0
  /-- The data buffer, its cursor and its length. -/
  pio : Buffer := .zero
  /-- The bytes of the buffer that have been read. -/
  pioPos : Nat := 0
  /-- The bytes that are in it. -/
  pioLen : Nat := 0
  /-- The next sector to stream, and how many are left after the one in the buffer. -/
  diskLba : Word := 0
  /-- The sectors still to be loaded. -/
  diskRemaining : Nat := 0
  /-- The commands written so far; the last of them is the current one. -/
  issued : Nat := 0
  /-- The unit and the command the buffer was filled for. -/
  filledBy : Bool × Nat := (false, 0)
  /-- The command that started the sector stream. -/
  streamOf : Nat := 0

/-- The unit is ready. -/
def kDRDY : Byte := 0x40
/-- The seek is complete. -/
def kDSC : Byte := 0x10
/-- Data are requested. -/
def kDRQ : Byte := 0x08
/-- The command failed. -/
def kERR : Byte := 0x01
/-- It was aborted. -/
def kERR_ABRT : Byte := 0x04

/-- The size of the data buffer. -/
def pioSize : Nat := 2048

/-- The size of a sector. -/
def kSectorBytes : Nat := 512

namespace Channel

variable {μ : Type} (w : World μ) (c : Channel μ)

/-- The selected unit. -/
def selectedUnit : Bool := c.driveHead.getLsbD 4

/-- A disk is at the unit. -/
def isDisk (unit : Bool) : Bool := (c.disk unit).isAttached w

/-- Something is at the unit. -/
def present (unit : Bool) : Bool := (c.dev unit).isSome || c.isDisk w unit

/-- A CD-ROM drive is at the unit. -/
def isAtapi (unit : Bool) : Bool := (c.dev unit).any fun d => d.deviceType == 0x05

/-- The taskfile after a reset or a select: the signature of the unit. -/
def loadSignature (unit : Bool) : Channel μ :=
  let c := { c with phase := .idle, cdbPos := 0, pioPos := 0, pioLen := 0 }
  if c.present w unit then
    let c := { c with status := kDRDY ||| kDSC, error := 0, sectorCount := 0x01, lbaLow := 0x01 }
    if c.isAtapi unit then { c with lbaMid := 0x14, lbaHigh := 0xEB }
    else { c with lbaMid := 0, lbaHigh := 0 }
  else
    { c with status := 0, error := 0, sectorCount := 0, lbaLow := 0, lbaMid := 0, lbaHigh := 0 }

/-- The command is over. -/
def packetComplete : Channel μ :=
  { c with
    status := kDRDY ||| kDSC
    error := 0
    sectorCount := 0x03
    phase := .complete
    pioPos := 0
    pioLen := 0 }

/-- The command is refused. Only the status and the error register say so. -/
def abort : Channel μ := { c with error := kERR_ABRT, status := kDRDY ||| kERR }

/-- The transfer is broken off. -/
def abortTransfer : Channel μ :=
  { c with
    error := kERR_ABRT
    status := kDRDY ||| kERR
    phase := .complete
    pioPos := 0
    pioLen := 0
    diskRemaining := 0 }

/-! ## Identify blocks -/

/-- Set a word of the identify block, the low byte first. -/
def setIdWord (pio : Buffer) (word : Nat) (val : BitVec 16) : Buffer :=
  (pio.set (word * 2) (val.extractLsb' 0 8)).set (word * 2 + 1) (val.extractLsb' 8 8)

/-- Set a text of the identify block: padded, and swapped within each word. -/
def setIdStr (pio : Buffer) (firstWord : Nat) (s : String) (maxChars : Nat) : Buffer :=
  let ch (i : Nat) : Byte := (asciiBytes s).getD i 0x20
  (List.range (maxChars / 2)).foldl
    (fun pio k => (pio.set (firstWord * 2 + 2 * k) (ch (2 * k + 1))).set
      (firstWord * 2 + 2 * k + 1) (ch (2 * k))) pio

/-- The identify block of an ATAPI drive. -/
def buildAtapiIdentify : Channel μ :=
  let pio := (Buffer.zero.set 0 0xC0).set 1 0x85
  { c with
    pio := setIdStr pio 27 "EMULATR VIRTUAL CDROM                   " 40
    filledBy := (c.selectedUnit, c.issued) }

/-- The identify block of a fixed disk. -/
def buildAtaIdentify (unit : Bool) : Channel μ :=
  let d := c.disk unit
  let cap : BitVec 32 := d.totalSectors.setWidth 32
  let pio := setIdWord .zero 0 0x0040
  let pio := setIdWord pio 1 d.cylinders
  let pio := setIdWord pio 3 d.heads
  let pio := setIdWord pio 6 d.sectors
  let pio := setIdStr pio 10 "EMULATR-0001" 20
  let pio := setIdStr pio 23 "1.0" 8
  let pio := setIdStr pio 27 "EMULATR VIRTUAL DISK" 40
  let pio := setIdWord pio 47 0x0000
  let pio := setIdWord pio 49 0x0200
  let pio := setIdWord pio 53 0x0001
  let pio := setIdWord pio 54 d.cylinders
  let pio := setIdWord pio 55 d.heads
  let pio := setIdWord pio 56 d.sectors
  let pio := setIdWord pio 57 (cap.extractLsb' 0 16)
  let pio := setIdWord pio 58 (cap.extractLsb' 16 16)
  let pio := setIdWord pio 60 (cap.extractLsb' 0 16)
  let pio := setIdWord pio 61 (cap.extractLsb' 16 16)
  { c with pio := pio, filledBy := (unit, c.issued) }

/-! ## The disk path -/

/-- Read the next sector of the stream into the buffer and present it. -/
def loadDiskSector : Channel μ :=
  let d := c.disk c.selectedUnit
  let r := d.media.elim (.notOpen, []) fun m => (w m).read c.diskLba 1
  let c := { c with pio := Buffer.zero.copy r.2, filledBy := (c.selectedUnit, c.streamOf) }
  if r.1 = .ok then
    { c with
      pioPos := 0
      pioLen := kSectorBytes
      status := kDRDY ||| kDRQ ||| kDSC
      error := 0
      phase := .dataIn
      diskLba := c.diskLba + 1
      diskRemaining := c.diskRemaining - 1 }
  else c.abortTransfer

/-- The address in the taskfile: 28 bits. -/
def taskfileLba : Word :=
  (c.driveHead.extractLsb' 0 4 ++ c.lbaHigh ++ c.lbaMid ++ c.lbaLow).setWidth 64

/-- The sectors in the taskfile; zero stands for 256. -/
def taskfileCount : Nat := if c.sectorCount = 0 then 256 else c.sectorCount.toNat

/-- Begin a read of sectors. -/
def startDiskRead (unit : Bool) : Channel μ :=
  let lba := c.taskfileLba
  if (c.disk unit).totalSectors < lba + BitVec.ofNat 64 c.taskfileCount then c.abortTransfer
  else
    { c with
      diskLba := lba
      diskRemaining := c.taskfileCount
      streamOf := c.issued }.loadDiskSector w

/-- The buffer has been read out: the next sector of a stream, or the end of the command. -/
def pioDrained : Channel μ :=
  if 0 < c.diskRemaining then c.loadDiskSector w else c.packetComplete

/-- A command for a fixed disk. -/
def handleDiskCommand (unit : Bool) (cmd : Byte) : Channel μ :=
  if cmd = 0xEC then
    { c.buildAtaIdentify unit with
      pioLen := kSectorBytes
      pioPos := 0
      diskRemaining := 0
      status := kDRDY ||| kDRQ ||| kDSC
      error := 0
      phase := .dataIn }
  else if cmd = 0x20 ∨ cmd = 0x21 then c.startDiskRead w unit
  else if cmd = 0x90 then { c with error := 0x01, status := kDRDY ||| kDSC }
  else if cmd = 0xEF ∨ cmd = 0x91 then { c with error := 0, status := kDRDY ||| kDSC }
  else if cmd = 0x08 then c.loadSignature w unit
  else c.abort

/-! ## The packet path -/

/-- The packet as a command for the drive. -/
def packet : ScsiCommand := { cdb := c.cdb, dataBuffer := c.pio, dataBufferLength := pioSize }

/-- Run the packet on the drive and present its answer. -/
def executePacket : Channel μ :=
  let unit := c.selectedUnit
  (c.dev unit).elim c.packetComplete fun dev =>
    let r := dev.handleCommand w c.packet
    let cmd := r.2
    let c := { c with
      dev := fun u => if u = unit then some r.1 else c.dev u
      pio := cmd.dataBuffer
      filledBy := (unit, c.issued) }
    if cmd.status = .checkCondition then
      { c with
        error := (cmd.senseData.key ++ 0#4) ||| kERR_ABRT
        status := kDRDY ||| kERR
        sectorCount := 0x03
        phase := .complete
        pioPos := 0
        pioLen := 0 }
    else if 0 < cmd.dataTransferred then
      { c with
        pioLen := cmd.dataTransferred
        pioPos := 0
        lbaMid := BitVec.ofNat 8 cmd.dataTransferred
        lbaHigh := BitVec.ofNat 8 (cmd.dataTransferred / 256)
        sectorCount := 0x02
        status := kDRDY ||| kDRQ
        error := 0
        phase := .dataIn }
    else c.packetComplete

/-- A command for a unit that is no disk. -/
def handlePacketCommand (unit : Bool) (cmd : Byte) : Channel μ :=
  if cmd = 0x08 then c.loadSignature w unit
  else if cmd = 0xEC then
    if c.isAtapi unit then { c.abort with lbaMid := 0x14, lbaHigh := 0xEB } else c.abort
  else if cmd = 0xA1 then
    if c.isAtapi unit then
      { c.buildAtapiIdentify with
        pioLen := 512
        pioPos := 0
        sectorCount := 0x02
        status := kDRDY ||| kDRQ
        error := 0
        phase := .dataIn }
    else c.abort
  else if cmd = 0xA0 then
    if c.isAtapi unit then
      { c with
        phase := .awaitCdb
        cdbPos := 0
        sectorCount := 0x01
        status := kDRDY ||| kDRQ
        error := 0 }
    else c.abort
  else c.abort

/-- The current command goes to the selected unit, if there is one. -/
def dispatchCommand (cmd : Byte) : Channel μ :=
  if c.present w c.selectedUnit then
    if c.isDisk w c.selectedUnit then c.handleDiskCommand w c.selectedUnit cmd
    else c.handlePacketCommand w c.selectedUnit cmd
  else { c with status := 0 }

/-- A command. -/
def handleCommand (cmd : Byte) : Channel μ :=
  { c with issued := c.issued + 1 }.dispatchCommand w cmd

/-! ## Registers -/

/-- Take one byte of the packet. -/
def takeCdb (v : Byte) : Channel μ :=
  if c.cdbPos < 12 then { c with cdb := c.cdb.set c.cdbPos v, cdbPos := c.cdbPos + 1 } else c

/-- Take a word of the packet. -/
def takeCdbWord (value : Word) : Channel μ :=
  (c.takeCdb (value.extractLsb' 0 8)).takeCdb (value.extractLsb' 8 8)

/-- A write of the data register: the word that completes the packet runs it. -/
def writeData (value : Word) : Channel μ :=
  if c.phase = .awaitCdb then
    let c := c.takeCdbWord value
    if 12 ≤ c.cdbPos then c.executePacket w else c
  else c

/-- The word under the cursor. -/
def dataWord : Word :=
  let lo : Byte := if c.pioPos < c.pioLen then c.pio c.pioPos else 0
  let hi : Byte := if c.pioPos + 1 < c.pioLen then c.pio (c.pioPos + 1) else 0
  (hi ++ lo).setWidth 64

/-- A read of the data register. -/
def readData : Channel μ × Word :=
  if c.phase = .dataIn then
    let c' := { c with pioPos := c.pioPos + 2 }
    (if c'.pioLen ≤ c'.pioPos then c'.pioDrained w else c', c.dataWord)
  else (c, 0)

/-- A read of a command register. -/
def cmdRead : Nat → Channel μ × Word
  | 0 => c.readData w
  | 1 => (c, c.error.setWidth 64)
  | 2 => (c, c.sectorCount.setWidth 64)
  | 3 => (c, c.lbaLow.setWidth 64)
  | 4 => (c, c.lbaMid.setWidth 64)
  | 5 => (c, c.lbaHigh.setWidth 64)
  | 6 => (c, c.driveHead.setWidth 64)
  | 7 => (c, c.status.setWidth 64)
  | _ => (c, 0xFF)

/-- A write of a command register. -/
def cmdWrite (value : Word) : Nat → Channel μ
  | 0 => c.writeData w value
  | 1 => { c with features := value.extractLsb' 0 8 }
  | 2 => { c with sectorCount := value.extractLsb' 0 8 }
  | 3 => { c with lbaLow := value.extractLsb' 0 8 }
  | 4 => { c with lbaMid := value.extractLsb' 0 8 }
  | 5 => { c with lbaHigh := value.extractLsb' 0 8 }
  | 6 =>
    let c := { c with driveHead := value.extractLsb' 0 8 }
    c.loadSignature w c.selectedUnit
  | 7 => c.handleCommand w (value.extractLsb' 0 8)
  | _ => c

/-- A write of the control register: a soft reset takes effect when its bit falls. -/
def ctrlWrite (v : Byte) : Channel μ :=
  let srstWas := c.devCtrl.getLsbD 2
  let c := { c with devCtrl := v }
  if srstWas && !v.getLsbD 2 then c.loadSignature w c.selectedUnit else c

/-- The channel after `reset`. -/
def reset : Channel μ :=
  { c with
    features := 0
    error := 0
    sectorCount := 0
    lbaLow := 0
    lbaMid := 0
    lbaHigh := 0
    driveHead := 0
    devCtrl := 0
    phase := .idle
    cdbPos := 0
    pioPos := 0
    pioLen := 0 }.loadSignature w false

end Channel

end Cy82C693Ide

/-! ## The controller -/

open Cy82C693Ide

/-- The controller. Channels are numbered `false`, the primary, and `true`. -/
structure Cy82C693Ide (μ : Type) where
  /-- The channels. -/
  chan : Bool → Channel μ := fun _ => {}
  /-- The channel of the last taskfile access. -/
  curChan : Bool := false

namespace Cy82C693Ide

variable {μ : Type} (w : World μ) (s : Cy82C693Ide μ)

/-- Replace a channel. -/
def setChan (ch : Bool) (c : Channel μ) : Cy82C693Ide μ :=
  { s with chan := fun k => if k = ch then c else s.chan k }

/-- A channel that was set is there. -/
@[simp] theorem setChan_self (ch : Bool) (c : Channel μ) : (s.setChan ch c).chan ch = c :=
  if_pos rfl

/-- The other channel is as before. -/
theorem setChan_of_ne {ch k : Bool} (h : k ≠ ch) (c : Channel μ) :
    (s.setChan ch c).chan k = s.chan k := if_neg h

/-- What a port is. -/
inductive Port
  /-- A command register of a channel. -/
  | cmd (ch : Bool) (reg : Nat)
  /-- Its control register. -/
  | ctrl (ch : Bool)
  /-- No port of the controller. -/
  | none
  deriving DecidableEq

/-- The ports of the two channels. -/
def decodePort (port : Nat) : Port :=
  if 0x1F0 ≤ port ∧ port ≤ 0x1F7 then .cmd false (port - 0x1F0)
  else if 0x170 ≤ port ∧ port ≤ 0x177 then .cmd true (port - 0x170)
  else if port = 0x3F6 then .ctrl false
  else if port = 0x376 then .ctrl true
  else .none

/-- A port read. The width of the access plays no part. -/
def ioRead (port : BitVec 16) : Cy82C693Ide μ × Word :=
  match decodePort port.toNat with
  | .cmd ch reg =>
    let r := (s.chan ch).cmdRead w reg
    ({ s with curChan := ch }.setChan ch r.1, r.2)
  | .ctrl ch => (s, (s.chan ch).status.setWidth 64)
  | .none => (s, 0xFF)

/-- A port write. -/
def ioWrite (port : BitVec 16) (value : Word) : Cy82C693Ide μ :=
  match decodePort port.toNat with
  | .cmd ch reg => { s with curChan := ch }.setChan ch ((s.chan ch).cmdWrite w value reg)
  | .ctrl ch => s.setChan ch ((s.chan ch).ctrlWrite w (value.extractLsb' 0 8))
  | .none => s

/-- A slot that changes under the current channel's selected unit shows its signature. -/
def refresh (ch unit : Bool) : Cy82C693Ide μ :=
  if ch = s.curChan ∧ unit = (s.chan ch).selectedUnit then
    s.setChan ch ((s.chan ch).loadSignature w unit)
  else s

/-- Attach an ATAPI drive, or take it out. -/
def attachDevice (ch unit : Bool) (dev : Option (VirtualIsoDevice μ)) : Cy82C693Ide μ :=
  (s.setChan ch { s.chan ch with
    dev := fun u => if u = unit then dev else (s.chan ch).dev u }).refresh w ch unit

/-- Put a disk into a slot. -/
def setDisk (ch unit : Bool) (d : Disk μ) : Cy82C693Ide μ :=
  s.setChan ch { s.chan ch with disk := fun u => if u = unit then d else (s.chan ch).disk u }

/-- Attach a medium as a fixed disk. One that is not ready, or empty, leaves the slot empty. -/
def attachMedia (ch unit : Bool) (media : Option μ) : Cy82C693Ide μ :=
  let blocks := media.elim 0 fun m => (w m).blockCount
  if ready w media ∧ blocks ≠ 0 then
    let cyl := max 1 (min 65535 (blocks.toNat / (16 * 63)))
    (s.setDisk ch unit
      { media := media
        totalSectors := blocks
        heads := 16
        sectors := 63
        cylinders := BitVec.ofNat 16 cyl }).refresh w ch unit
  else s.setDisk ch unit {}

/-- Take a fixed disk out. -/
def detachDisk (ch unit : Bool) : Cy82C693Ide μ := (s.setDisk ch unit {}).refresh w ch unit

/-- The controller as it is constructed: no units, and a reset of both channels. -/
def make : Cy82C693Ide μ := { chan := fun _ => ({} : Channel μ).reset w }

end Cy82C693Ide

end EmulatR
