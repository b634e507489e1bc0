import EmulatR.Chipset.BusDecode
import EmulatR.System.Clock

/-! # The whole board

A `Board` is a machine with everything on it that a snapshot carries or a later step can look at:
the CPU and its warp state, guest memory and the lock monitor, the PAL scratch RAM, the chips with
their registers, the SRM staging and the clock (systemLib/Machine.h, chipsetLib/TsunamiChipset.h).
One cycle is an instruction and the system tick after it.

The interrupt chain, the decode of the bus, the pipeline and the tick are those of the other
modules. What a chip does with an access to its own registers is a parameter, `BoardParts`; its
types say which part of the board each chip can see. The devices without any snapshot support (the
keyboard controller, the clock chip, the IDE controller with its drives, SuperIO and floppy, the
south bridge, the RCM bank) and the host side of the console are one abstract state `ε`. -/

namespace EmulatR

/-! ## The chips -/

/-- The state of the console's clock-rate filter on the transmit side. -/
inductive BadgeState
  | normal | digits | suffix
  deriving DecidableEq, Repr

/-- The depth of the receive FIFO. -/
def Uart16550.kRxFifoDepth : Nat := 16

/-- A 16550 serial port (deviceLib/Tsunami/Uart16550.h). -/
structure Uart16550 where
  /-- Interrupt enable. -/
  ier : BitVec 8 := 0
  /-- FIFO control. -/
  fcr : BitVec 8 := 0
  /-- Line control; its bit 7 selects the divisor. -/
  lcr : BitVec 8 := 0
  /-- Modem control. -/
  mcr : BitVec 8 := 0
  /-- Scratch. -/
  scr : BitVec 8 := 0
  /-- The divisor latch, low and high. -/
  dll : BitVec 8 := 1
  /-- The high byte of the divisor. -/
  dlm : BitVec 8 := 0
  /-- The FIFOs are on. -/
  fifosEnabled : Bool := false
  /-- The transmitter-empty interrupt source. -/
  threLatch : Bool := false
  /-- The error bits of LSR that stay until they are read. -/
  lsrSticky : BitVec 8 := 0
  /-- The received bytes, the oldest first. -/
  rxFifo : List (BitVec 8) := []
  /-- The FIFO is never overfull. -/
  rxFifo_le : rxFifo.length ≤ Uart16550.kRxFifoDepth := by decide
  /-- The transmit filter and the bytes it holds back. -/
  badgeState : BadgeState := .normal
  /-- The digits that the badge filter holds back. -/
  badgePend : List (BitVec 8) := []
  /-- The letters behind them that it holds back. -/
  badgeSuf : List (BitVec 8) := []

/-- The size of the flash array, 2 MB. -/
def FlashRom.kSize : Nat := 0x200000

/-- Where the flash command sequence stands. -/
inductive FlashRom.Mode
  | read | step1 | step2 | autosel | program | erase3 | erase4 | erase5 | confirm0 | confirm1
  deriving DecidableEq, Repr

/-- The TIG flash (chipsetLib/FlashRom.h), without its backing file. -/
structure FlashRom where
  /-- The bytes of the part. -/
  data : Fin FlashRom.kSize → BitVec 8 := fun _ => 0xFF
  /-- Where its command machine is. -/
  mode : FlashRom.Mode := .read

/-- What a device on the IIC bus is. -/
inductive IicPcf8584.Kind
  | fruEeprom | nvram | status
  deriving DecidableEq, Repr

/-- Where an IIC transaction stands. -/
inductive IicPcf8584.Phase
  | idle | addrNak | writeData | readData
  deriving DecidableEq, Repr

/-- The size of a device's content. -/
def IicPcf8584.kImageSize : Nat := 256

/-- A device on the IIC bus. -/
structure IicPcf8584.IicDevice where
  /-- Its address on the bus. -/
  address : BitVec 8
  /-- What it is. -/
  kind : IicPcf8584.Kind
  /-- Its content. -/
  image : Fin IicPcf8584.kImageSize → BitVec 8
  /-- Its address pointer. -/
  offset : BitVec 8 := 0

/-- The transaction state of the PCF8584 controller. -/
structure IicPcf8584.Controller where
  /-- S1, as it is read. -/
  status : BitVec 8 := 0x81
  /-- S1, as it was written. -/
  control : BitVec 8 := 0
  /-- S0', the own address. -/
  ownAddr : BitVec 8 := 0
  /-- S2, the clock register. -/
  clock : BitVec 8 := 0
  /-- S3, the interrupt vector. -/
  vector : BitVec 8 := 0
  /-- S0, the byte that is staged. -/
  shift : BitVec 8 := 0
  /-- Where the transaction is. -/
  phase : IicPcf8584.Phase := .idle
  /-- The device that is addressed, by its place. -/
  curDev : Option Nat := none
  /-- The next byte that is written is an offset. -/
  firstWrite : Bool := false
  /-- The dummy byte of a read has been taken. -/
  dummyDone : Bool := false

/-- The IIC controller with its bus (deviceLib/Tsunami/IicPcf8584.h). -/
structure IicPcf8584 where
  /-- The controller. -/
  controller : IicPcf8584.Controller := {}
  /-- The configured devices, in manifest order. -/
  devices : List IicPcf8584.IicDevice := []
  /-- The validation of the manifest refuses two devices on one address; `configureDevices` takes
  its list as it comes, without this check. -/
  nodup : (devices.map (·.address)).Nodup := by decide

/-- The TIG registers (chipsetLib/TsunamiTig.h). -/
structure TsunamiTig where
  /-- The halt registers of the two CPUs. -/
  halt : Fin 2 → Word := fun _ => 0
  /-- The inter-processor registers. -/
  ipcr : Fin 4 → Word := fun _ => 0
  /-- The CPUs asked to start. -/
  cpuStartReq : BitVec 32 := 0
  /-- Arbiter control. -/
  arbCtrl : Word := 0

/-- The memory-configuration registers of the Cchip. -/
structure CchipConfig where
  /-- The system configuration. -/
  csc : Word
  /-- The memory timing. -/
  mtr : Word
  /-- The presence detect. -/
  mpd : Word
  /-- The probe enable. -/
  prben : Word
  /-- The TIGbus timing. -/
  ttr : Word
  /-- The TIGbus device timing. -/
  tdr : Word
  /-- The array addresses. -/
  aar : Fin 4 → TsunamiBus.Aar
  /-- The memory programming. -/
  mpr : Fin 4 → Word

/-- The Dchip registers. -/
structure TsunamiDchip where
  /-- The system configuration. -/
  dsc : Word
  /-- The system timing. -/
  str : Word
  /-- The revision. -/
  drev : Word
  /-- The second system configuration. -/
  dsc2 : Word

/-- The Pchip registers. -/
structure TsunamiPchip where
  /-- The window bases. -/
  wsba : Fin 4 → Word := fun _ => 0
  /-- The window masks. -/
  wsm : Fin 4 → Word := fun _ => 0
  /-- The translated bases. -/
  tba : Fin 4 → Word := fun _ => 0
  /-- Pchip control. -/
  pctl : Word := 0
  /-- The master latency. -/
  plat : Word := 0
  /-- The errors. -/
  perror : Word := 0
  /-- The error mask. -/
  perrmask : Word := 0
  /-- The control of the performance monitor. -/
  pmonctl : Word := 0
  /-- Its counters. -/
  pmoncnt : Word := 0

/-- The members of the chipset family. -/
inductive ChipsetVariant
  | tsunami | typhoon | titan | unknown
  deriving DecidableEq, Repr

/-- The number of a variant; the enumeration is a byte. -/
def ChipsetVariant.code : ChipsetVariant → BitVec 8
  | tsunami => 0
  | typhoon => 1
  | titan => 2
  | unknown => 0xFF

/-- A string of UTF-16 units, within the size a data stream allows it. -/
structure QString where
  /-- The UTF-16 code units. -/
  units : List (BitVec 16) := []
  /-- Its bytes can be counted in the length field of a stream. -/
  size_lt : 2 * units.length < 0xFFFFFFFF := by decide

/-- What the loader found out about a firmware image (systemLib/SrmLoader.h). The PAL_BASE it starts
with is kept apart, in `Board.initialPalBase`. -/
structure SrmDescriptor where
  /-- The payload has been recognized. -/
  valid : Bool := false
  /-- Where the signature of the stub is in the payload. -/
  sigOffset : Word := 0
  /-- The size of the payload. -/
  payloadSize : Word := 0
  /-- The PAL_BASE that the stub sets. -/
  targetPalBase : Word := 0
  /-- Where the stub jumps to in the end. -/
  finalPC : Word := 0
  /-- Where that jump is in the stub. -/
  jsrOffset : Word := 0

/-- Where execution enters the decompressed firmware. -/
def SrmDescriptor.entryPa (d : SrmDescriptor) : Word := d.targetPalBase + d.finalPC

/-- The firmware staging of the machine. -/
structure SrmStaging where
  /-- What the loader found out. -/
  descriptor : SrmDescriptor := {}
  /-- The firmware file. -/
  payload : List (BitVec 8) := []
  /-- A buffer size fits a machine word. -/
  payload_lt : payload.length < 2 ^ 64 := by decide
  /-- Where the payload was loaded. -/
  loadPa : Word := 0
  /-- The decompressed firmware has been entered. -/
  palImageRelocated : Bool := false
  /-- Where it is started. -/
  loadedStartPc : Word := 0
  /-- It is started in PALmode. -/
  loadedPalMode : Bool := false

namespace SrmStaging

variable (s : SrmStaging)

/-- An instruction word of the payload, if the address is in it. -/
def tryFetch (pa : Word) : Option Encoded :=
  if !s.descriptor.valid || pa < s.loadPa then none
  else
    let offset := pa - s.loadPa
    if BitVec.ofNat 64 s.payload.length < offset + 4 then none
    else
      some ((GuestMemory.leWord (fun i => s.payload.getD (offset.toNat + i) 0) 4).setWidth 32)

/-- The first fetch from the entry of the decompressed firmware is noted. -/
def onBeforeFetch (pa : Word) : SrmStaging :=
  if s.palImageRelocated then s
  else if !s.descriptor.valid then s
  else if pa ≠ s.descriptor.entryPa then s
  else { s with palImageRelocated := true }

end SrmStaging

/-! ## The board -/

/-- What answers on the PCI side: the Pchip registers, the serial ports, the IIC bus, and the
devices that a snapshot leaves out. -/
structure PciSide (ε : Type) where
  /-- The Pchip. -/
  pchip : TsunamiPchip := {}
  /-- The first serial port. -/
  com1 : Uart16550 := {}
  /-- The second one. -/
  com2 : Uart16550 := {}
  /-- The IIC controller. -/
  iic : IicPcf8584 := {}
  /-- The other devices. -/
  others : ε

/-- The chipset without guest memory and the PAL scratch RAM. -/
structure BoardDevices (ε : Type) where
  /-- The variant of the chipset. -/
  variant : ChipsetVariant
  /-- The name of the model. -/
  model : QString
  /-- The interrupt chain: the Cchip interrupt registers and latches, and the 8259 pair. -/
  irq : TsunamiChipset
  /-- The configuration registers of the Cchip. -/
  cchipConfig : CchipConfig
  /-- The Dchip. -/
  dchip : TsunamiDchip
  /-- The flash ROM. -/
  flash : FlashRom := {}
  /-- The TIG registers. -/
  tig : TsunamiTig := {}
  /-- What is behind the Pchip. -/
  pci : PciSide ε
  /-- What the firmware loader left. -/
  srm : SrmStaging := {}

/-- The machine. -/
structure Board (ε : Type) where
  /-- The CPU, the bus, the lock monitor and the warp state. -/
  warp : WarpMachine (TsunamiBus.BusSide (BoardDevices ε))
  /-- The size of guest memory in bytes. -/
  memSize : Word
  /-- The cycles since the reset. -/
  systemClock : Word := 0
  /-- The synthetic injection of the command line. -/
  injectInterruptCycle : Word := 0
  /-- The injected interrupt of a test run has been taken. -/
  injectInterruptFired : Bool := false
  /-- The PAL_BASE of the firmware stub, and of the loaded entry; read when the machine is loaded or
  reset, not while it runs. -/
  initialPalBase : Word := 0
  /-- The PAL_BASE of the firmware that was loaded. -/
  loadedPalBase : Word := 0

/-- An access to the PCI side. -/
inductive PciAccess
  /-- A read of sparse memory space. -/
  | readSparseMem (off : Word)
  /-- A read of sparse I/O space. -/
  | readSparseIo (off : Word)
  /-- A write of sparse I/O space. -/
  | writeSparseIo (off value : Word)
  /-- A read of the rest of the window. -/
  | read (off : Word) (width : Nat)
  /-- A write of it. -/
  | write (off value : Word) (width : Nat)

/-- What the chips do with accesses to their own state, and what passes between the devices and the
outside. -/
structure BoardParts (ε ι ο : Type) where
  /-- A read of a Cchip register that is not among the interrupt ones. -/
  cchipRead : CchipConfig → TsunamiCchip.Image → Word → Word
  /-- A write of a configuration register of the Cchip. -/
  cchipConfigWrite : CchipConfig → Word → Word → CchipConfig
  /-- A read of a Dchip register. -/
  dchipRead : TsunamiDchip → Word → Word
  /-- A write of one. -/
  dchipWrite : TsunamiDchip → Word → Word → TsunamiDchip
  /-- A read of the flash ROM, which may move its command machine. -/
  flashRead : FlashRom → BitVec 32 → FlashRom × Word
  /-- A write of it. -/
  flashWrite : FlashRom → BitVec 32 → Word → FlashRom
  /-- A read of a TIG register. -/
  tigRead : TsunamiTig → Word → Word
  /-- A write of one. -/
  tigWrite : TsunamiTig → Word → Word → TsunamiTig
  /-- The 8259 pair answers on the PCI side too. -/
  pci : Pic8259Pair × PciSide ε → PciAccess → (Pic8259Pair × PciSide ε) × Word
  /-- Input of the outside reaches the host side of the devices. -/
  arrive : ε → ι → ε
  /-- Move console input into the serial port. -/
  poll : PciSide ε → PciSide ε
  /-- The interrupt lines of the devices. -/
  levels : PciSide ε → DeviceLevels
  /-- Take what the devices have put out. -/
  emit : ε → ε × ο
  /-- The floating backend. -/
  fp : FpBackend
  /-- The platform is silicon. -/
  silicon : Bool

namespace BoardParts

variable {ε ι ο : Type} (P : BoardParts ε ι ο)

/-- Let the PCI side answer. -/
def pciAccess (d : BoardDevices ε) (a : PciAccess) : BoardDevices ε × Word :=
  let r := P.pci (d.irq.pic, d.pci) a
  ({ d with irq := { d.irq with pic := r.1.1 }, pci := r.1.2 }, r.2)

/-- The spurious vector of an interrupt acknowledge. -/
def kSpuriousIackVector : Word := 7

/-- The interrupt acknowledge cycle, which evaluates the device lines again. -/
def iack (d : BoardDevices ε) : BoardDevices ε × Word :=
  let pci := P.poll d.pci
  let r := d.irq.acknowledgeDeviceInterrupt (P.levels pci)
  ({ d with irq := r.1, pci := pci }, (r.2.map (·.setWidth 64)).getD kSpuriousIackVector)

/-- The claimants of the bus that are not RAM. -/
def busDevices : TsunamiBus.BusDevices (BoardDevices ε) where
  aar d := d.cchipConfig.aar
  flashRead d off := ({ d with flash := (P.flashRead d.flash off).1 }, (P.flashRead d.flash off).2)
  flashWrite d off value := { d with flash := P.flashWrite d.flash off value }
  -- the trace window belongs to the host
  setTraceWindowCountdown d _ := d
  tigRead d pa := (d, P.tigRead d.tig pa)
  tigWrite d pa value := { d with tig := P.tigWrite d.tig pa value }
  iack := P.iack
  cchipRead d off := (d, P.cchipRead d.cchipConfig d.irq.cchip.serialize off)
  cchipWrite d off value :=
    { d with
      irq := { d.irq with cchip := d.irq.cchip.write off value }
      cchipConfig := P.cchipConfigWrite d.cchipConfig off value }
  dchipRead d off := (d, P.dchipRead d.dchip off)
  dchipWrite d off value := { d with dchip := P.dchipWrite d.dchip off value }
  pchipReadSparseMem d off := P.pciAccess d (.readSparseMem off)
  pchipReadSparseIo d off := P.pciAccess d (.readSparseIo off)
  pchipWriteSparseIo d off value := (P.pciAccess d (.writeSparseIo off value)).1
  pchipRead d off width := P.pciAccess d (.read off width)
  pchipWrite d off value width := (P.pciAccess d (.write off value width)).1
  reportNxm d _ := { d with irq := { d.irq with cchip := d.irq.cchip.latchNxm 0 } }

/-- The machine's pipeline over the board. -/
def config : Config (TsunamiBus.BusSide (BoardDevices ε)) :=
  { devices := TsunamiBus.toDevices P.busDevices
    fp := P.fp
    silicon := P.silicon
    tryFetch := fun s pa => s.devices.srm.tryFetch pa : Platform _ }.config

end BoardParts

namespace Board

variable {ε ι ο : Type} (P : BoardParts ε ι ο) (sw : WarpSwitches) (m : Board ε)

/-- The CPU. -/
def cpu : CpuState := m.warp.machine.cpu

/-- Guest memory. -/
def memory : GuestMemory := m.warp.machine.bus.memory

/-- The devices. -/
def devices : BoardDevices ε := m.warp.machine.bus.devices.devices

/-- The PAL scratch RAM. -/
def palScratch : Nat → BitVec 8 := m.warp.machine.bus.devices.palScratch

/-- The board with other devices. -/
def setDevices (d : BoardDevices ε) : Board ε :=
  { m with warp := { m.warp with machine := { m.warp.machine with
      bus := TsunamiBus.setDevices m.warp.machine.bus d } } }

/-- The board with another CPU. -/
def setCpu (cpu : CpuState) : Board ε :=
  { m with warp := { m.warp with machine := { m.warp.machine with cpu := cpu } } }

/-! ## One cycle -/

/-- The hook in front of a fetch: the CPU runs and the PC translates. -/
def beforeFetch : Board ε :=
  match (Ev6Translator.translateInstruction m.cpu m.cpu.pc).pa? with
  | some pa =>
    if m.cpu.halted then m
    else m.setDevices { m.devices with srm := m.devices.srm.onBeforeFetch pa }
  | none => m

/-- The instruction, and the clock, which gains what the CPU's counter gained. -/
def instruct : Board ε :=
  let w := warpedStep P.config sw.rscc m.beforeFetch.warp
  { m with
    warp := w
    systemClock := m.systemClock + (w.machine.cpu.cycleCount - m.cpu.cycleCount) }

/-- What the outside contributes to one cycle. -/
structure Input (ι : Type) where
  /-- What arrives at the devices. -/
  arrives : ι
  /-- A stop has been requested. -/
  stop : Bool

/-- The PCI side after the input of a cycle. -/
def pciAfter (i : ι) : PciSide ε :=
  P.poll { m.devices.pci with others := P.arrive m.devices.pci.others i }

/-- What the tick finds. -/
def tickState : TickState where
  cpu := m.cpu
  chipset := m.devices.irq
  palImageRelocated := m.devices.srm.palImageRelocated
  systemClock := m.systemClock
  injectInterruptCycle := m.injectInterruptCycle
  injectInterruptFired := m.injectInterruptFired
  idleTickWarp := sw.idle

/-- The system tick. -/
def tick (i : ι) : Board ε :=
  let pci := m.pciAfter P i
  let t := (systemTick (m.tickState sw) (P.levels pci)).machine
  let m' := (m.setCpu t.cpu).setDevices { m.devices with irq := t.chipset, pci := pci }
  { m' with
    -- the tick moves the clock by the idle warp only
    warp := { m'.warp with warpCycles := m.warp.warpCycles + (t.systemClock - m.systemClock) }
    systemClock := t.systemClock
    injectInterruptFired := t.injectInterruptFired }

/-- The rest of a cycle after its instruction: the tick, unless the run breaks off. -/
def finish (i : Input ι) : Board ε :=
  if m.cpu.halted ∨ i.stop then m else m.tick P sw i.arrives

/-- Take what the devices have put out. -/
def emit : Board ε × ο :=
  let r := P.emit m.devices.pci.others
  (m.setDevices { m.devices with pci := { m.devices.pci with others := r.1 } }, r.2)

/-- The instruction of a cycle, with what the devices put out in it. -/
def execute : Board ε × ο := (m.instruct P sw).emit P

/-- **One cycle**: the board after it, and what its instruction and its tick have put out. -/
def cycle (i : Input ι) : Board ε × (ο × ο) :=
  let x := m.execute P sw
  let y := (x.1.finish P sw i).emit P
  (y.1, x.2, y.2)

end Board

end EmulatR
