import EmulatR.Boxes.Leaf
import EmulatR.Mmu.Translator
import EmulatR.Memory.SystemBus

/-! # The drain stage

The memory stage (pipelineLib/MemDrainer.h) performs the access a leaf described and commits its
register write. A load or store is translated, unless it is physical; a failed translation latches
MM_STAT and VA. The access then goes to the system bus, and the lock monitor is kept: LDx_L sets the
CPU's reservation, STx_C checks and drops it, and every store that reached the bus drops the other
CPUs' reservations of its line.

`drain` is the stage, `applyMemEffect` the access and `commit` the register write. -/

namespace EmulatR

/-- One CPU with the bus and the lock monitor it shares. -/
structure Machine (δ : Type) where
  /-- The CPU. -/
  cpu : CpuState
  /-- The system bus with guest memory. -/
  bus : Chipset δ
  /-- The lock monitor. -/
  locks : LockMonitor

namespace MemDrainer

/-- The register image of loaded data. -/
def formatLoadValue (raw : Word) (memSize : Nat) (regWriteIsFp isVax : Bool) : Word :=
  if regWriteIsFp then
    if memSize = 4 then
      -- a single in memory is widened to the register format
      if isVax then FpFormat.convertF_FloatingToRegister (raw.setWidth 32)
      else FpFormat.convertS_FloatingToRegister (raw.setWidth 32)
    else if memSize = 8 then
      if isVax then FpFormat.convertG_Floating raw else raw
    else raw
  -- an integer longword is sign-extended; bytes and words are not
  else if memSize = 4 then sext32 (raw.setWidth 32)
  else raw

/-- The status word of a failed data translation: bit 0 for a store, bits 1 to 3 for the kind of
fault, the opcode in bits 9:4. -/
def mmStatOf (isStore : Bool) (tr : TranslationResult) (op : BitVec 6) : Word :=
  (if isStore then 1 else 0) ||| (if tr = .accessViolation then 2 else 0)
    ||| (if tr = .faultOnRead then 4 else 0) ||| (if tr = .faultOnWrite then 8 else 0)
    ||| (op.setWidth 64 <<< 4)

/-- The instruction is a HW_LD of the virtual-PTE type. -/
def isVpteLoad (g : InstructionGrain) : Bool := g.primaryOp == 0x1B && g.encoded.hwType == 2

/-- The fault code of a failed data translation; a miss of a virtual-PTE load is a double miss. -/
def dataFaultCode (g : InstructionGrain) (tr : TranslationResult) : FaultCode :=
  if tr.toFaultCode = .dtbMiss ∧ isVpteLoad g then .dtbMissDouble else tr.toFaultCode

/-- The CPU after a bus error: MM_STAT gets the effective address and the Cbox logs the error. -/
def latchBusError (cpu : CpuState) (memAddr : Word) : CpuState :=
  { cpu with
    mmStat := memAddr
    cBox := { cpu.cBox with errorReg := cpu.cBox.errorReg ||| 1, dataReg := 1 } }

section

variable {δ : Type} (D : Devices δ) (silicon : Bool)

/-- A load from the translated address. Off silicon the longword at 0xBFFC reads as a constant. -/
def applyLoadEffect (m : Machine δ) (r : BoxResult) (pa : Word) : Machine δ × BoxResult :=
  let br := m.bus.read D pa r.memSize
  -- a bring-up constant of the emulated platforms
  let data := if !silicon && pa == 0xBFFC then 0xCAFEBEEF else br.2.data
  if br.2.status ≠ .ok then
    ({ m with bus := br.1, cpu := latchBusError m.cpu r.memAddr },
      { r with faultCode := .busError })
  else
    -- the reservation is taken only once the data has arrived
    ({ m with
        bus := br.1
        locks := if r.isLocked then m.locks.set m.cpu.cpuSlot pa else m.locks },
      { r with regWriteValue :=
          formatLoadValue data r.memSize r.regWriteIsFp (r.semFlags.contains .vaxFp) })

/-- The bus half of a store: the write, then the other CPUs' reservations of the line. -/
def performStore (m : Machine δ) (r : BoxResult) (pa : Word) : Machine δ × BoxResult :=
  let br := m.bus.write D pa r.memData r.memSize
  if br.2.status ≠ .ok then
    ({ m with bus := br.1, cpu := latchBusError m.cpu r.memAddr },
      { r with faultCode := .busError })
  else
    -- the storing CPU keeps its own reservation: only the others' are broken
    ({ m with bus := br.1, locks := m.locks.clearLine pa m.cpu.cpuSlot },
      if r.isLocked then { r with regWriteValue := 1 } else r)

/-- A store to the translated address. STx_C first checks the reservation and drops it, whatever
comes after; without a reservation it stops there. -/
def applyStoreEffect (m : Machine δ) (r : BoxResult) (pa : Word) : Machine δ × BoxResult :=
  if r.isLocked then
    -- dropped before the outcome of the store is known
    let m' := { m with locks := m.locks.clear m.cpu.cpuSlot }
    if m.locks.check m.cpu.cpuSlot pa then performStore D m' r pa
    else (m', { r with regWriteValue := 0 })
  else performStore D m r pa

/-- The kind of access a result asks for. -/
def accessKind (r : BoxResult) : AccessKind := if r.memIsStore then .dataWrite else .dataRead

/-- Where the access goes: a physical one is taken as it is. -/
def translate (cpu : CpuState) (r : BoxResult) : TranslationResult :=
  if r.isPhysAddr then .success r.memAddr
  else Ev6Translator.translateDataAligned cpu r.memAddr r.memSize (accessKind r)

/-- The CPU after a failed data translation. -/
def latchDataFault (g : InstructionGrain) (cpu : CpuState) (r : BoxResult)
    (tr : TranslationResult) : CpuState :=
  { cpu with mmStat := mmStatOf r.memIsStore tr g.encoded.primaryOp, va := r.memAddr }

/-- Translate and perform the access. -/
def applyMemEffect (g : InstructionGrain) (m : Machine δ) (r : BoxResult) :
    Machine δ × BoxResult :=
  match (translate m.cpu r).pa? with
  | none =>
    let tr := translate m.cpu r
    ({ m with cpu := latchDataFault g m.cpu r tr }, { r with faultCode := dataFaultCode g tr })
  | some pa =>
    if r.memIsStore then applyStoreEffect D m r pa else applyLoadEffect D silicon m r pa

/-- Commit the register write; index 31 suppresses it, and R31 is kept at zero. -/
def commitRegWrite (cpu : CpuState) (r : BoxResult) : CpuState :=
  let cpu :=
    if r.regWriteIdx = 31 then cpu
    else if r.regWriteIsFp then
      { cpu with fpReg := Function.update cpu.fpReg r.regWriteIdx r.regWriteValue }
    else { cpu with intReg := Function.update cpu.intReg r.regWriteIdx r.regWriteValue }
  -- a leaf may have written R31 directly
  if cpu.intReg 31 ≠ 0 then { cpu with intReg := Function.update cpu.intReg 31 0 } else cpu

/-- The register half of the drain: nothing after a fault. -/
def commit (m : Machine δ) (r : BoxResult) : Machine δ × BoxResult :=
  if r.faultCode ≠ .noFault then (m, r) else ({ m with cpu := commitRegWrite m.cpu r }, r)

/-- Drain a result: nothing after a fault, else the access and then the register write. -/
def drain (g : InstructionGrain) (m : Machine δ) (r : BoxResult) : Machine δ × BoxResult :=
  if r.faultCode ≠ .noFault then (m, r)
  else if r.memSize = 0 then commit m r
  else commit (applyMemEffect D silicon g m r).1 (applyMemEffect D silicon g m r).2

end

end MemDrainer

end EmulatR
