import EmulatR.Library.Run
import EmulatR.Library.UniqueIndex
import EmulatR.Library.Barrier
import EmulatR.Library.Multiples
import EmulatR.Library.Codec
import EmulatR.Library.RoundRobin
import EmulatR.Library.BitFields
import EmulatR.Library.OnlineRewriting
import EmulatR.Library.Channel
import EmulatR.Library.Calendar
import EmulatR.Pte.AlphaPte
import EmulatR.Pte.ShardManager
import EmulatR.Pte.NoStale
import EmulatR.Pte.Freshness
import EmulatR.Pte.RealmIsolation
import EmulatR.Pte.Replacement
import EmulatR.Core.CpuState
import EmulatR.Core.Grain
import EmulatR.Core.CpuImage
import EmulatR.Memory.GuestMemory
import EmulatR.Memory.Bytes
import EmulatR.Memory.FlatMemory
import EmulatR.Memory.SystemBus
import EmulatR.Mmu.Translator
import EmulatR.Boxes.EBox
import EmulatR.Boxes.IBox
import EmulatR.Boxes.FBox
import EmulatR.Boxes.PalBox
import EmulatR.Boxes.Leaf
import EmulatR.Boxes.IprLaw
import EmulatR.Boxes.PackedIprs
import EmulatR.Pipeline.MemDrainer
import EmulatR.Pipeline.Unaligned
import EmulatR.Pipeline.Driver
import EmulatR.GrainFactory.Codegen
import EmulatR.GrainFactory.Lookup
import EmulatR.GrainFactory.GrainMaster
import EmulatR.GrainFactory.Agreement
import EmulatR.System.Machine
import EmulatR.System.Step
import EmulatR.System.Platform
import EmulatR.System.Operands
import EmulatR.Chipset.Pic8259Pair
import EmulatR.Chipset.PicDelivery
import EmulatR.Chipset.PicPoll
import EmulatR.Chipset.TsunamiCchip
import EmulatR.Chipset.DeviceIrqs
import EmulatR.Chipset.MiscInvariant
import EmulatR.Chipset.IpiDelivery
import EmulatR.Chipset.Arbitration
import EmulatR.Chipset.BusDecode
import EmulatR.Chipset.BusLaw
import EmulatR.System.SystemTick
import EmulatR.System.Warp
import EmulatR.System.Clock
import EmulatR.System.TimerTicks
import EmulatR.System.Board
import EmulatR.Chipset.MemoryArrays
import EmulatR.Chipset.FlashRom
import EmulatR.System.Snapshot
import EmulatR.System.SnapshotRoundTrip
import EmulatR.System.SnapshotRejection
import EmulatR.Chipset.FlashBacking
import EmulatR.System.Lockstep
import EmulatR.System.BoardLockstep
import EmulatR.System.SnapshotFidelity
import EmulatR.System.FetchOverlay
import EmulatR.Device.BadgeFilter
import EmulatR.Device.Uart16550
import EmulatR.Device.IicPcf8584
import EmulatR.Device.ToyRtc
import EmulatR.Device.Scsi
import EmulatR.Device.Cy82C693Ide
import EmulatR.Device.IdeFsm
import EmulatR.Sched.Harness
import EmulatR.Sched.LockHistory
import EmulatR.Sched.Drivers
import EmulatR.Sched.MockCpuAgent
import EmulatR.Invariants.ZeroRegs
import EmulatR.Invariants.PcShape
import EmulatR.Invariants.ShadowBank
import EmulatR.Invariants.FaultInfo
import EmulatR.Invariants.Privilege
import EmulatR.Invariants.PreciseFault
import EmulatR.Invariants.LoadLocked
import EmulatR.Invariants.Translation
import EmulatR.Invariants.TbRefill
import EmulatR.Invariants.Granularity
import EmulatR.Invariants.Superpage
import EmulatR.Invariants.ByteTranslation
import EmulatR.Invariants.CallPal
import EmulatR.Invariants.Fpcr
import EmulatR.Library.Rounding
import EmulatR.Fp.VaxFloat
import EmulatR.Fp.VaxRound
import EmulatR.Fp.VaxMulDiv
import EmulatR.Fp.VaxAdd
import EmulatR.Fp.VaxSqrt
import EmulatR.Fp.SoftFloat
import EmulatR.Fp.VaxBackend
import EmulatR.Fp.VaxCompare
import EmulatR.Fp.VaxConvert
import EmulatR.Fp.FpQualifiers
import EmulatR.Fp.FpFormats
import EmulatR.Fp.IeeeBackend
import EmulatR.Fp.IeeeProgram
import EmulatR.Device.FileBlockMedia
import EmulatR.Device.PioRead
import EmulatR.Device.AtapiContract
import EmulatR.Chipset.SparseIo
import EmulatR.Boxes.IntHelpers
import EmulatR.Device.Smc37c669SuperIo
import EmulatR.System.PciConfig
import EmulatR.Device.SrmEnvStore
import EmulatR.Invariants.ContextSwitch
import EmulatR.Device.HwrpbWellFormed
import EmulatR.Device.SrmConsoleDevice
import EmulatR.Isa.IntOperate
import EmulatR.Isa.UserMachine
import EmulatR.Isa.UserProgram
