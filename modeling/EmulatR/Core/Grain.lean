import EmulatR.Core.CpuState

/-! # Grains and their results

A decoded instruction is a grain: its word, its address and the semantic flags of its table row
(coreLib/InstructionGrain.h). A leaf turns a grain and its two operands into a `BoxResult`, the
record of what it wants done (coreLib/BoxResult.h): a register write, a memory access, a change of
the PC, or a fault. The drain stage and the retire stage act on that record. -/

namespace EmulatR

/-- The semantic flags of a table row (grainFactoryLib/SemanticFlags.tsv). -/
inductive SemFlag
  | palFormat | braFormat | memFormat | opFormat | fpFormat | hwFormat | jmpFormat | miscFormat
  | readsRa | readsRb | writesRc | hasLit | readsInt | readsFp | writesInt | writesFp
  | load | store | locked | physAddr | noTbCheck | cacheable | writesRa | prefetchOnly
  | changesPC | uncond | branch | indirect | callBased | retBased
  | privileged | palEntry | palExit | opcDec | palTru64 | palVms | palIntrinsic | palLinux
  | fpTrap | fpcrRead | fpcrWrite | vaxFp
  | iprRead | iprWrite | mb | wmb | trapBarrier | excBarrier | imb
  | noTrace | rpccLike
  deriving DecidableEq, Repr

/-- A set of semantic flags, as the list of its members. -/
abbrev GrainSem := List SemFlag

/-- The instruction word. -/
abbrev Encoded := BitVec 32

namespace Encoded

variable (e : Encoded)

/-- The primary opcode, bits 31:26. -/
def primaryOp : BitVec 6 := e.extractLsb' 26 6
/-- The Ra field, bits 25:21. -/
def ra : BitVec 5 := e.extractLsb' 21 5
/-- The Rb field, bits 20:16. -/
def rb : BitVec 5 := e.extractLsb' 16 5
/-- The Rc field, bits 4:0. -/
def rc : BitVec 5 := e.extractLsb' 0 5
/-- The literal of an operate instruction, bits 20:13. -/
def lit : BitVec 8 := e.extractLsb' 13 8
/-- The literal flag of an operate instruction, bit 12. -/
def litFlag : Bool := e.getLsbD 12
/-- The sign-extended 16-bit displacement of a memory instruction. -/
def memDispSext : Word := (e.extractLsb' 0 16).signExtend 64
/-- The sign-extended 12-bit displacement of HW_LD and HW_ST. -/
def hwDispSext : Word := (e.extractLsb' 0 12).signExtend 64
/-- The byte displacement of a branch, four times the sign-extended 21-bit field. -/
def braDispSext : Word := (e.extractLsb' 0 21).signExtend 64 * 4
/-- The type field of HW_LD, bits 15:13. -/
def hwType : BitVec 3 := e.extractLsb' 13 3

end Encoded

/-- A decoded instruction at an address. -/
structure InstructionGrain where
  /-- The address, with PALmode in bit 0. -/
  pc : Word
  /-- The flags of the row, with S_PhysAddr added for a physical HW_LD or HW_ST. -/
  semFlags : GrainSem
  /-- The word. -/
  encoded : Encoded
  /-- The primary opcode. -/
  primaryOp : BitVec 6

/-- The operands the pipeline resolved for a leaf. -/
structure ExecCtx where
  /-- Operand A. -/
  opA : Word := 0
  /-- Operand B. -/
  opB : Word := 0
  deriving DecidableEq, Repr

/-- What a leaf wants done. -/
structure BoxResult where
  /-- The flags of the grain, as the leaf passes them on. -/
  semFlags : GrainSem := []
  /-- The value of the register write. -/
  regWriteValue : Word := 0
  /-- The effective address of the memory access. -/
  memAddr : Word := 0
  /-- The data of a store. -/
  memData : Word := 0
  /-- Where the PC goes when `divert` is set. -/
  divertTarget : Word := 0
  /-- The fault. -/
  faultCode : FaultCode := .noFault
  /-- The destination register; 31 suppresses the write. -/
  regWriteIdx : BitVec 5 := 31
  /-- The size of the memory access in bytes; 0 is none. -/
  memSize : Nat := 0
  /-- The destination is a floating register. -/
  regWriteIsFp : Bool := false
  /-- The memory access is a store. -/
  memIsStore : Bool := false
  /-- The PC does not simply advance. -/
  divert : Bool := false
  deriving DecidableEq

namespace BoxResult

variable (r : BoxResult)

/-- The access is one of a load-locked, store-conditional pair. -/
def isLocked : Bool := r.semFlags.contains .locked

/-- The access bypasses translation. -/
def isPhysAddr : Bool := r.semFlags.contains .physAddr

end BoxResult

/-! ## The shapes of result that leaves share -/

section Shapes

variable (g : InstructionGrain)

/-- Nothing but the flags. -/
def plainResult : BoxResult := { semFlags := g.semFlags }

/-- A fault and nothing else. -/
def faultResult (f : FaultCode) : BoxResult := { semFlags := g.semFlags, faultCode := f }

/-- A write of an integer register. -/
def intWrite (idx : BitVec 5) (value : Word) : BoxResult :=
  { semFlags := g.semFlags, regWriteIdx := idx, regWriteValue := value }

/-- A write of the floating register Fc (fpWrite). -/
def fpWrite (value : Word) : BoxResult :=
  { semFlags := g.semFlags, regWriteIdx := g.encoded.rc, regWriteIsFp := true,
    regWriteValue := value }

/-- A load into register Ra of the given file. -/
def loadResult (addr : Word) (size : Nat) (isFp : Bool) : BoxResult :=
  { semFlags := g.semFlags, regWriteIdx := g.encoded.ra, regWriteIsFp := isFp,
    memAddr := addr, memSize := size }

/-- A store. -/
def storeResult (addr data : Word) (size : Nat) : BoxResult :=
  { semFlags := g.semFlags, memAddr := addr, memData := data, memSize := size,
    memIsStore := true }

/-- A conditional branch. -/
def branchResult (taken : Bool) : BoxResult :=
  { semFlags := g.semFlags, divert := taken,
    divertTarget := if taken then g.pc + 4 + g.encoded.braDispSext else 0 }

/-- A transfer that links through Ra. The link is the updated PC with bits 1:0 clear. -/
def linkResult (target : Word) : BoxResult :=
  { semFlags := g.semFlags, regWriteIdx := g.encoded.ra,
    regWriteValue := (g.pc + 4) &&& ~~~3, divert := true, divertTarget := target }

end Shapes

end EmulatR
