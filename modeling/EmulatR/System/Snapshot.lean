import EmulatR.Library.Codec
import EmulatR.System.Board

/-! # Snapshot files

`save` writes the board as a sequence of sections and a checksum, and `load` reads them back into a
board (systemLib/Snapshot.cpp and the `serialize` and `deserialize` of every chip). The writer and
the reader of a section are two separate lists of fields, kept here as the source has them.

Raw blocks are written with their length cut to a 32-bit `int` (`rawLength`): a negative one writes
and reads nothing. On the load side the target buffer is already there, so what a raw read does not
reach keeps its content. A rejected load leaves behind what it had already stored: the error carries
the board. -/

namespace EmulatR

open Library.Codec

namespace Snapshot

/-! ## Format -/

/-- "EMULATR1". -/
def kSnapshotMagic : Stream := [0x45, 0x4D, 0x55, 0x4C, 0x41, 0x54, 0x52, 0x31]
/-- The version of the file. -/
def kFormatVersion : BitVec 32 := 1
/-- The version of the CPU's section. -/
def kCpuStateVersion : BitVec 32 := 10
/-- The version of the chipset's sections. -/
def kChipsetVersion : BitVec 32 := 5
/-- The size of the comment. -/
def kCommentSize : Nat := 256

/-- The 64-bit FNV-1a hash. -/
def fnv1a64 (bytes : Stream) : Word :=
  bytes.foldl (fun h b => (h ^^^ b.setWidth 64) * 0x100000001b3) 0xcbf29ce484222325

/-- The length a raw block is transferred with. -/
def rawLength (n : Nat) : Nat := (BitVec.ofNat 32 n).toInt.toNat

/-- Read a raw block into a cleared buffer of the given size. -/
def getBlock (n : Nat) : Reader Stream :=
  (fun bytes => fillFrom (List.replicate n 0) bytes) <$> getRaw (rawLength n)

/-- The comment field: the text up to its end or 255 bytes, padded with zeros. -/
def commentField (comment : Stream) : Stream :=
  let text := (comment.takeWhile (· != 0)).take (kCommentSize - 1)
  text ++ List.replicate (kCommentSize - text.length) 0

/-! ## Guest memory -/

/-- The size of a page. -/
def kPageSize : Nat := 0x10000

/-- The bytes of a block. The page table is indexed unchecked, so there is no answer for a page
outside it. -/
def readBlock (mem : GuestMemory) (pa : Word) (len : Nat) : Option Stream :=
  if (List.range len).all fun k => mem.inRange (pa + BitVec.ofNat 64 k) then
    some ((List.range len).map fun k => mem.bytes (GuestMemory.cell (pa + BitVec.ofNat 64 k)))
  else none

/-- The save loop over the pages. -/
def savePages (mem : GuestMemory) (savePa remaining : Nat) : Option Stream :=
  if remaining = 0 then some []
  else
    let pageBytes := min remaining kPageSize
    (readBlock mem (BitVec.ofNat 64 savePa) pageBytes).bind fun page =>
      (savePages mem (savePa + pageBytes) (remaining - pageBytes)).map (page ++ ·)
termination_by remaining
decreasing_by
  simp only [kPageSize]
  omega

/-- A page whose front is overwritten. -/
def fillPage (mem : GuestMemory) (pidx : BitVec 32) (bytes : Stream) : GuestMemory :=
  { mem with bytes := fun c =>
      if c.toNat / kPageSize = pidx.toNat then bytes.getD (c.toNat % kPageSize) (mem.bytes c)
      else mem.bytes c }

/-- The load loop over the pages: no page, or the memory and the rest of the stream. -/
def loadPages (mem : GuestMemory) (pidx : BitVec 32) (remaining : Nat) (s : Stream) :
    Except GuestMemory (GuestMemory × Stream) :=
  if remaining = 0 then .ok (mem, s)
  -- `ensurePage` has no page past the end of the table
  else if mem.pageCount ≤ pidx then .error mem
  else
    let pageBytes := min remaining kPageSize
    loadPages (fillPage mem pidx (s.take pageBytes)) (pidx + 1) (remaining - pageBytes)
      (s.drop pageBytes)
termination_by remaining
decreasing_by
  simp only [kPageSize]
  omega

/-! ## The chips -/

/-- A string: its size in bytes, then its units. -/
def putQString (q : QString) : Stream :=
  putU32 (BitVec.ofNat 32 (2 * q.units.length)) ++ q.units.flatMap (leBytes 2)

/-- A size of all ones is the null string, and an odd one is corrupt. -/
def getQString : Reader (List (BitVec 16)) := do
  let size ← getU32
  if size = 0xFFFFFFFF ∨ size.toNat % 2 = 1 then pure [] else getMany (getWord 16 2) (size.toNat / 2)

/-- Write an array address. -/
def putAar (a : TsunamiBus.Aar) : Stream := putU64 a.base ++ putU64 a.mask ++ putBool a.enabled

/-- Read one. -/
def getAar : Reader TsunamiBus.Aar := do
  let base ← getU64
  let mask ← getU64
  let enabled ← getBool
  pure { base, mask, enabled }

instance : Inhabited TsunamiBus.Aar := ⟨{}⟩

/-- `TsunamiCchip::serialize`. -/
def putCchip (c : TsunamiCchip) (k : CchipConfig) : Stream :=
  putU64 k.csc ++ putU64 k.mtr ++ putU64 c.misc ++ putU64 k.mpd ++ putU64 k.prben ++
    putU64 k.ttr ++ putU64 k.tdr ++ putArray putAar k.aar ++ putArray putU64 k.mpr ++
    putU64 c.drir ++ putArray putU64 c.dim ++ putArray putU64 c.iic

/-- `TsunamiCchip::deserialize`. -/
def getCchip : Reader (TsunamiCchip.Image × CchipConfig) := do
  let csc ← getU64
  let mtr ← getU64
  let misc ← getU64
  let mpd ← getU64
  let prben ← getU64
  let ttr ← getU64
  let tdr ← getU64
  let aar ← getArray 4 getAar
  let mpr ← getArray 4 getU64
  let drir ← getU64
  let dim ← getArray 4 getU64
  let iic ← getArray 4 getU64
  pure ({ misc, drir, dim, iic }, { csc, mtr, mpd, prben, ttr, tdr, aar, mpr })

/-- `TsunamiDchip::serialize`. -/
def putDchip (d : TsunamiDchip) : Stream :=
  putU64 d.dsc ++ putU64 d.str ++ putU64 d.drev ++ putU64 d.dsc2

/-- `TsunamiDchip::deserialize`. -/
def getDchip : Reader TsunamiDchip := do
  let dsc ← getU64
  let str ← getU64
  let drev ← getU64
  let dsc2 ← getU64
  pure { dsc, str, drev, dsc2 }

/-- `TsunamiPchip::serialize`. -/
def putPchip (p : TsunamiPchip) : Stream :=
  putArray putU64 p.wsba ++ putArray putU64 p.wsm ++ putArray putU64 p.tba ++ putU64 p.pctl ++
    putU64 p.plat ++ putU64 p.perror ++ putU64 p.perrmask ++ putU64 p.pmonctl ++ putU64 p.pmoncnt

/-- `TsunamiPchip::deserialize`. -/
def getPchip : Reader TsunamiPchip := do
  let wsba ← getArray 4 getU64
  let wsm ← getArray 4 getU64
  let tba ← getArray 4 getU64
  let pctl ← getU64
  let plat ← getU64
  let perror ← getU64
  let perrmask ← getU64
  let pmonctl ← getU64
  let pmoncnt ← getU64
  pure { wsba, wsm, tba, pctl, plat, perror, perrmask, pmonctl, pmoncnt }

/-- `Uart16550::serialize`. -/
def putUart (u : Uart16550) : Stream :=
  putU8 u.ier ++ putU8 u.fcr ++ putU8 u.lcr ++ putU8 u.mcr ++ putU8 u.scr ++ putU8 u.dll ++
    putU8 u.dlm ++ putBool u.fifosEnabled ++ putBool u.threLatch ++ putU8 u.lsrSticky ++
    putU32 (BitVec.ofNat 32 u.rxFifo.length) ++ u.rxFifo.flatMap putU8

/-- `Uart16550::deserialize`: the FIFO takes no more than it can hold, and the transmit filter is
left alone. -/
def getUart (old : Uart16550) : Reader Uart16550 := do
  let ier ← getU8
  let fcr ← getU8
  let lcr ← getU8
  let mcr ← getU8
  let scr ← getU8
  let dll ← getU8
  let dlm ← getU8
  let fifosEnabled ← getBool
  let threLatch ← getBool
  let lsrSticky ← getU8
  let rxCount ← getU32
  let rx ← getMany getU8 (min rxCount.toNat Uart16550.kRxFifoDepth)
  pure { old with
    ier, fcr, lcr, mcr, scr, dll, dlm, fifosEnabled, threLatch, lsrSticky
    rxFifo := rx.take Uart16550.kRxFifoDepth
    rxFifo_le := List.length_take_le .. }

/-- The number of an initialisation state. -/
def initCode : InitState → BitVec 8
  | .idle => 0
  | .expectIcw2 => 1
  | .expectIcw3 => 2
  | .expectIcw4 => 3
  | .ready => 4

/-- The state of a number. The enumeration has no others. -/
def initOfCode (code : BitVec 8) : InitState :=
  if code = 1 then .expectIcw2
  else if code = 2 then .expectIcw3
  else if code = 3 then .expectIcw4
  else if code = 4 then .ready
  else .idle

/-- Write an interrupt controller. -/
def putPicUnit (u : PicUnit) : Stream :=
  putU8 u.irr ++ putU8 u.isr ++ putU8 u.imr ++ putU8 u.icw2 ++ putU8 u.icw3 ++ putU8 u.icw4 ++
    putU8 (initCode u.initState) ++ putBool u.readIsrSelected ++ putBool u.pollArmed ++
    putBool u.ltim

/-- Read one. -/
def getPicUnit : Reader PicUnit := do
  let irr ← getU8
  let isr ← getU8
  let imr ← getU8
  let icw2 ← getU8
  let icw3 ← getU8
  let icw4 ← getU8
  let init ← getU8
  let readIsrSelected ← getBool
  let pollArmed ← getBool
  let ltim ← getBool
  pure { irr, isr, imr, icw2, icw3, icw4, initState := initOfCode init, readIsrSelected,
         pollArmed, ltim }

instance : Inhabited PicUnit := ⟨{}⟩

/-- `Pic8259Pair::serialize`. -/
def putPic (p : Pic8259Pair) : Stream :=
  putArray putPicUnit p.unit ++ putArray putU8 p.elcr ++ putArray putBool p.lastInput

/-- `Pic8259Pair::deserialize`. -/
def getPic : Reader Pic8259Pair := do
  let unit ← getArray 2 getPicUnit
  let elcr ← getArray 2 getU8
  let lastInput ← getArray 16 getBool
  pure { unit, elcr, lastInput }

/-! ## Flash, IIC and firmware -/

/-- Write the bytes of the flash ROM. -/
def putFlash (f : FlashRom) : Stream :=
  putU32 (BitVec.ofNat 32 FlashRom.kSize) ++ List.ofFn f.data

/-- `FlashRom::restoreImage`: what the image does not reach is erased, and the command sequence
starts over. -/
def restoreImage (image : Stream) : FlashRom where
  data i := if i.val < image.length then image.getD i 0xFF else 0xFF
  mode := .read

/-- Read them; the command machine is at rest then. -/
def getFlash (old : FlashRom) : Reader FlashRom := do
  let size ← getU32
  if size = 0 then pure old else restoreImage <$> getBlock size.toNat

/-- The content of the devices on the bus, one image after the other. -/
def contentImage (iic : IicPcf8584) : Stream := iic.devices.flatMap fun d => List.ofFn d.image

/-- Write the content of the IIC devices. -/
def putIic (iic : IicPcf8584) : Stream :=
  putU32 (BitVec.ofNat 32 iic.devices.length) ++
    (contentImage iic).take (rawLength (contentImage iic).length)

/-- New content leaves the addresses alone. -/
theorem address_mapIdx (devices : List IicPcf8584.IicDevice)
    (image : Nat → Fin IicPcf8584.kImageSize → BitVec 8) :
    (devices.mapIdx fun i d => { d with image := image i }).map (·.address) =
      devices.map (·.address) := by
  apply List.ext_getElem
  · simp
  · intro i hi hi'
    simp

/-- `IicPcf8584::restoreContentImage`: the bus keeps its devices and takes their content. A content
of another size is refused. -/
def restoreContentImage (iic : IicPcf8584) (content : Stream) : IicPcf8584 :=
  if content.length = iic.devices.length * IicPcf8584.kImageSize then
    { iic with
      devices := iic.devices.mapIdx fun i d =>
        { d with image := fun k => content.getD (i * IicPcf8584.kImageSize + k) 0 }
      nodup := by
        rw [address_mapIdx iic.devices fun i k =>
          content.getD (i * IicPcf8584.kImageSize + k) 0]
        exact iic.nodup }
  else iic

/-- Content of another number of devices is skipped. -/
def getIic (iic : IicPcf8584) : Reader IicPcf8584 := do
  let count ← getU32
  let bytes := count.toNat * IicPcf8584.kImageSize
  if count = BitVec.ofNat 32 iic.devices.length ∧ count ≠ 0 then
    restoreContentImage iic <$> getBlock bytes
  else if count ≠ 0 then (fun _ => iic) <$> getRaw (rawLength bytes)
  else pure iic

/-- Write the firmware staging. -/
def putSrm (s : SrmStaging) : Stream :=
  putBool s.descriptor.valid ++ putU64 s.descriptor.sigOffset ++ putU64 s.descriptor.payloadSize ++
    putU64 s.descriptor.targetPalBase ++ putU64 s.descriptor.finalPC ++
    putU64 s.descriptor.jsrOffset ++ putU64 s.loadPa ++ putBool s.palImageRelocated ++
    putU64 s.loadedStartPc ++ putBool s.loadedPalMode ++
    putU64 (BitVec.ofNat 64 s.payload.length) ++ s.payload.take (rawLength s.payload.length)

/-- Read it. -/
def getSrm : Reader SrmStaging := do
  let valid ← getBool
  let sigOffset ← getU64
  let payloadSize ← getU64
  let targetPalBase ← getU64
  let finalPC ← getU64
  let jsrOffset ← getU64
  let loadPa ← getU64
  let palImageRelocated ← getBool
  let loadedStartPc ← getU64
  let loadedPalMode ← getBool
  let payloadBytes ← getU64
  let payload ← getBlock payloadBytes.toNat
  pure {
    descriptor := { valid, sigOffset, payloadSize, targetPalBase, finalPC, jsrOffset }
    -- the buffer has the size that was read
    payload := payload.take payloadBytes.toNat
    payload_lt := (List.length_take_le ..).trans_lt payloadBytes.isLt
    loadPa, palImageRelocated, loadedStartPc, loadedPalMode }

/-! ## Sections -/

/-- The sections of a file, in their order. -/
inductive Section
  | header | cpu | memory | chipset | cchip | dchip | pchip | com1 | com2 | pic | picLevel | flash
  | iic | srm
  deriving DecidableEq, Repr

/-- The sections, in the order of the file. -/
def Section.all : List Section :=
  [.header, .cpu, .memory, .chipset, .cchip, .dchip, .pchip, .com1, .com2, .pic, .picLevel, .flash,
    .iic, .srm]

/-- Why a load is rejected. -/
inductive LoadError
  /-- The file is too small. -/
  | tooSmall
  /-- The checksum is wrong. -/
  | checksumMismatch
  /-- It is no snapshot. -/
  | badMagic
  /-- It is of another version. -/
  | versionMismatch (format cpuState chipset : BitVec 32)
  /-- It is of a machine with another memory. -/
  | memSizeMismatch (file machine : Word)
  /-- A page cannot be had. -/
  | ensurePageFailed
  /-- It is of another chipset. -/
  | variantMismatch
  /-- Its chipset has another memory. -/
  | chipMemSizeMismatch
  deriving DecidableEq, Repr

/-- The message of a rejection. -/
def LoadError.message : LoadError → String
  | tooSmall => "Snapshot::load: file too small to contain footer"
  | checksumMismatch => "Snapshot::load: checksum mismatch -- file corrupt"
  | badMagic => "Snapshot::load: bad magic -- not a EMULATR1 file"
  | versionMismatch format cpuState chipset =>
    "Snapshot::load: version mismatch (file=" ++ toString format.toNat ++ "/" ++
      toString cpuState.toNat ++ "/" ++ toString chipset.toNat ++ ", expected=" ++
      toString kFormatVersion.toNat ++ "/" ++ toString kCpuStateVersion.toNat ++ "/" ++
      toString kChipsetVersion.toNat ++ ")"
  | memSizeMismatch file machine =>
    "Snapshot::load: memory size mismatch (file=" ++ toString file.toNat ++ ", machine=" ++
      toString machine.toNat ++ ")"
  | ensurePageFailed => "Snapshot::load: ensurePage failed"
  | variantMismatch => "Snapshot::load: chipset variant mismatch"
  | chipMemSizeMismatch =>
    "Snapshot::load: chipset block memSize disagrees with memory block"

/-- A load in progress. The CPU and the firmware staging are stored last. -/
structure Loading (ε : Type) where
  /-- The machine, as far as it is restored. -/
  machine : Board ε
  /-- The CPU and the cycle count, kept back until the end. -/
  cpuTmp : CpuState × Word := ({}, 0)
  /-- The firmware staging, kept back too. -/
  srmTmp : SrmStaging := {}

section

variable {ε : Type} (pod : Pod (CpuState × Word))

/-- The bytes of a section, given those of guest memory. -/
def Section.bytes (ts : Word) (comment : Stream) (m : Board ε) (mem : Stream) : Section → Stream
  | header =>
    kSnapshotMagic ++ putU32 kFormatVersion ++ putU32 kCpuStateVersion ++ putU32 kChipsetVersion ++
      putU64 ts ++ putU64 m.cpu.cycleCount ++ putU64 m.cpu.ccOffset ++ commentField comment
  | cpu => pod.image (m.cpu, m.warp.warpCycles)
  | memory => putU64 m.memSize ++ mem
  | chipset =>
    putU32 (m.devices.variant.code.setWidth 32) ++ putQString m.devices.model ++
      putU32 (BitVec.ofNat 32 m.devices.irq.cchip.cpuCount) ++ putU64 m.memSize
  | cchip => putCchip m.devices.irq.cchip m.devices.cchipConfig
  | dchip => putDchip m.devices.dchip
  | pchip => putPchip m.devices.pci.pchip
  | com1 => putUart m.devices.pci.com1
  | com2 => putUart m.devices.pci.com2
  | pic => putPic m.devices.irq.pic
  | picLevel => putBool m.devices.irq.lastPicLevel
  | flash => putFlash m.devices.flash
  | iic => putIic m.devices.pci.iic
  | srm => putSrm m.devices.srm

/-- **`Snapshot::save`**: the file, where every page of guest memory can be read. -/
def save (ts : Word) (comment : Stream) (m : Board ε) : Option Stream :=
  (savePages m.memory 0 m.memSize.toNat).map fun mem =>
    let body := Section.all.flatMap (Section.bytes pod ts comment m mem)
    body ++ putU64 (fnv1a64 body)

/-- Let a reader take a value and store it. -/
def readInto {α : Type} (g : Reader α) (store : α → Board ε → Board ε) (x : Loading ε × Stream) :
    Except (LoadError × Loading ε) (Loading ε × Stream) :=
  .ok ({ x.1 with machine := store (g.run x.2).1 x.1.machine }, (g.run x.2).2)

/-- The magic, the versions, and four fields that are only logged. -/
def getHeader : Reader (Stream × BitVec 32 × BitVec 32 × BitVec 32) := do
  let magic ← getRaw 8
  let format ← getU32
  let cpuState ← getU32
  let chipset ← getU32
  let _timestamp ← getU64
  let _cycle ← getU64
  let _ccOffset ← getU64
  let _comment ← getRaw kCommentSize
  pure (fillFrom (List.replicate 8 0) magic, format, cpuState, chipset)

/-- Variant, model, CPU count and memory size; the model and the count are not looked at. -/
def getChipset : Reader (BitVec 32 × Word) := do
  let variant ← getU32
  let _model ← getQString
  let _cpuCount ← getU32
  let memSize ← getU64
  pure (variant, memSize)

/-- The board with another guest memory. -/
def setMemory (m : Board ε) (mem : GuestMemory) : Board ε :=
  { m with warp := { m.warp with machine := { m.warp.machine with
      bus := { m.warp.machine.bus with memory := mem } } } }

/-- The board with changed devices. -/
def modifyDevices (m : Board ε) (f : BoardDevices ε → BoardDevices ε) : Board ε :=
  m.setDevices (f m.devices)

/-- The board with a changed PCI side. -/
def modifyPci (m : Board ε) (f : PciSide ε → PciSide ε) : Board ε :=
  modifyDevices m fun d => { d with pci := f d.pci }

/-- Load a section. -/
def Section.load (s : Section) (x : Loading ε × Stream) :
    Except (LoadError × Loading ε) (Loading ε × Stream) :=
  match s with
  | header =>
    -- nothing is stored before the checks
    let r := getHeader.run x.2
    if r.1.1 ≠ kSnapshotMagic then .error (.badMagic, x.1)
    else if r.1.2 ≠ (kFormatVersion, kCpuStateVersion, kChipsetVersion) then
      .error (.versionMismatch r.1.2.1 r.1.2.2.1 r.1.2.2.2, x.1)
    else .ok (x.1, r.2)
  | cpu =>
    let r := (pod.get ({}, 0)).run x.2
    .ok ({ x.1 with cpuTmp := r.1 }, r.2)
  | memory =>
    let r := getU64.run x.2
    if r.1 ≠ x.1.machine.memSize then .error (.memSizeMismatch r.1 x.1.machine.memSize, x.1)
    else
      match loadPages x.1.machine.memory 0 r.1.toNat r.2 with
      | .error mem =>
        .error (.ensurePageFailed, { x.1 with machine := setMemory x.1.machine mem })
      | .ok (mem, rest) => .ok ({ x.1 with machine := setMemory x.1.machine mem }, rest)
  | chipset =>
    let r := getChipset.run x.2
    -- the enumeration is a byte, so the number is cut to one
    if r.1.1.setWidth 8 ≠ x.1.machine.devices.variant.code then .error (.variantMismatch, x.1)
    else if r.1.2 ≠ x.1.machine.memSize then .error (.chipMemSizeMismatch, x.1)
    else .ok (x.1, r.2)
  | cchip =>
    readInto getCchip (fun r m => modifyDevices m fun d => { d with
      irq := { d.irq with cchip := d.irq.cchip.deserialize r.1 }, cchipConfig := r.2 }) x
  | dchip => readInto getDchip (fun r m => modifyDevices m fun d => { d with dchip := r }) x
  | pchip => readInto getPchip (fun r m => modifyPci m fun p => { p with pchip := r }) x
  | com1 =>
    readInto (getUart x.1.machine.devices.pci.com1)
      (fun r m => modifyPci m fun p => { p with com1 := r }) x
  | com2 =>
    readInto (getUart x.1.machine.devices.pci.com2)
      (fun r m => modifyPci m fun p => { p with com2 := r }) x
  | pic =>
    readInto getPic (fun r m => modifyDevices m fun d => { d with
      irq := { d.irq with pic := r } }) x
  | picLevel =>
    readInto getBool (fun r m => modifyDevices m fun d => { d with
      irq := { d.irq with lastPicLevel := r } }) x
  | flash =>
    readInto (getFlash x.1.machine.devices.flash)
      (fun r m => modifyDevices m fun d => { d with flash := r }) x
  | iic =>
    readInto (getIic x.1.machine.devices.pci.iic)
      (fun r m => modifyPci m fun p => { p with iic := r }) x
  | srm =>
    let r := getSrm.run x.2
    .ok ({ x.1 with srmTmp := r.1 }, r.2)

/-- Store the CPU, then the firmware staging, with the clock at the CPU's counter
(`Machine::restoreSrmStaging`). The PAL_BASE of the stub is where it was loaded. -/
def Loading.commit (l : Loading ε) : Board ε :=
  let m := modifyDevices (l.machine.setCpu l.cpuTmp.1) fun d => { d with srm := l.srmTmp }
  { m with
    warp := { m.warp with warpCycles := l.cpuTmp.2 }
    systemClock := l.cpuTmp.1.cycleCount
    initialPalBase := l.srmTmp.loadPa }

/-- The sections of a file, one after the other. -/
def loadSections (m : Board ε) (file : Stream) (sections : List Section) :
    Except (LoadError × Loading ε) (Loading ε × Stream) :=
  sections.foldlM (fun x s => s.load pod x) ({ machine := m }, file)

/-- **`Snapshot::load`**: the restored board, or the reason of the rejection and what it has left of
the board. -/
def load (file : Stream) (m : Board ε) : Except (LoadError × Board ε) (Board ε) :=
  let bodySize := file.length - 8
  if file.length < 8 then .error (.tooSmall, m)
  else if fnv1a64 (file.take bodySize) ≠ (getU64.run (file.drop bodySize)).1 then
    .error (.checksumMismatch, m)
  else
    -- the sections are read from the whole file, footer included
    match loadSections pod m file Section.all with
    | .error e => .error (e.1, e.2.machine)
    | .ok x => .ok x.1.commit

end

end Snapshot

end EmulatR
