import EmulatR.Boxes.IBox

/-! # The Fbox: floating operates

The floating leaves (fBoxLib/grains/Float.cpp and FloatVariants.cpp, fBoxLib/grains/FpFormat.h,
fBoxLib/grains/FpExec.h). The arithmetic itself is done by a backend (fpBoxLib/fp_backend.h) that is
a parameter here: it returns the result bits and the exceptions, and the leaf folds the exceptions
into FPCR and writes Fc.

`FpBackend` is the parameter, `FPVariant` and `fpVariantFromEncoded` are what a leaf tells it, and
`foldFpcrExc` is what becomes of its exceptions. -/

namespace EmulatR

/-! ## Register and memory formats -/

namespace FpFormat

/-- The eleven-bit exponent a longword exponent expands to. -/
def expandExp (exp8 : BitVec 8) : BitVec 11 :=
  let msb := exp8.getLsbD 7
  (BitVec.ofBool msb) ++ (if msb then 0#3 else 7#3) ++ exp8.extractLsb' 0 7

/-- The longword exponent of a register exponent. -/
def packExp (exp11 : BitVec 11) : BitVec 8 :=
  BitVec.ofBool (exp11.getLsbD 10) ++ exp11.extractLsb' 0 7

/-- LDS: S_floating memory to register. -/
def convertS_FloatingToRegister (mem : BitVec 32) : Word :=
  let sign := mem.extractLsb' 31 1
  let exp8 := mem.extractLsb' 23 8
  let frac := mem.extractLsb' 0 23
  if exp8 = 0 then sign ++ 0#63
  else sign ++ (if exp8 = 0xFF then 0x7FF#11 else expandExp exp8) ++ frac ++ 0#29

/-- STS: S_floating register to memory. -/
def convertS_FloatingToMemory (reg : Word) : BitVec 32 :=
  let sign := reg.extractLsb' 63 1
  let exp11 := reg.extractLsb' 52 11
  let frac := reg.extractLsb' 29 23
  if exp11 = 0 then sign ++ 0#31
  else sign ++ (if exp11 = 0x7FF then 0xFF#8 else packExp exp11) ++ frac

/-- LDF: F_floating memory to register. -/
def convertF_FloatingToRegister (mem : BitVec 32) : Word :=
  let sign := mem.extractLsb' 31 1
  let exp8 := mem.extractLsb' 23 8
  if exp8 = 0 then sign ++ 0#63
  else sign ++ expandExp exp8 ++ mem.extractLsb' 16 7 ++ mem.extractLsb' 0 16 ++ 0#29

/-- STF: F_floating register to memory. -/
def convertF_FloatingToMemory (reg : Word) : BitVec 32 :=
  let sign := reg.extractLsb' 63 1
  let exp11 := reg.extractLsb' 52 11
  let frac := reg.extractLsb' 29 23
  if exp11 = 0 then sign ++ 0#31 else sign ++ packExp exp11 ++ frac

/-- LDG and STG: reverse the four words of a G_floating value. -/
def convertG_Floating (v : Word) : Word :=
  v.extractLsb' 0 16 ++ v.extractLsb' 16 16 ++ v.extractLsb' 32 16 ++ v.extractLsb' 48 16

end FpFormat

/-! ## The backend -/

/-- The comparisons of the backend. -/
inductive FpCompare
  | eq | lt | le | un
  deriving DecidableEq, Repr

/-- The operations of the backend that take both operands. -/
inductive FpBinOp
  | addT | subT | mulT | divT | addS | subS | mulS | divS
  | addF | subF | mulF | divF | addG | subG | mulG | divG
  | cmpT (k : FpCompare) | cmpG (k : FpCompare)
  deriving DecidableEq, Repr

/-- The operations of the backend that take operand B. -/
inductive FpUnOp
  | sqrtT | sqrtS | sqrtF | sqrtG
  | cvtTS | cvtST | cvtTQ | cvtQT | cvtQS | cvtGF | cvtGD | cvtDG | cvtGQ | cvtQF | cvtQG
  deriving DecidableEq, Repr

/-- The rounding the function field selects. -/
inductive FpRoundingMode
  | useFPCR | roundToNearest | roundTowardZero | roundUp | roundDown
  deriving DecidableEq, Repr

/-- The trap qualifier the function field selects. -/
inductive FPTrapMode
  | none | underflow | software | su | sui
  deriving DecidableEq, Repr

/-- The qualifiers of a floating instruction. -/
structure FPVariant where
  /-- The rounding. -/
  roundingMode : FpRoundingMode := .useFPCR
  /-- The trap qualifier. -/
  trapMode : FPTrapMode := .none
  /-- /SU: the underflow exception is suppressed. -/
  suppressUnderflow : Bool := false
  /-- /SUI: the inexact exception is suppressed. -/
  suppressInexact : Bool := false
  /-- /C: round toward zero. -/
  chopped : Bool := false
  /-- /M: round toward minus infinity. -/
  minusInf : Bool := false
  /-- /D: round as FPCR says. -/
  dynamic : Bool := false
  /-- /U: the underflow trap is enabled. -/
  underflow : Bool := false
  /-- /S: software completion. -/
  software : Bool := false
  /-- /I: the inexact trap is enabled. -/
  inexact : Bool := false
  /-- The inexact trap is enabled. -/
  inexactEnable : Bool := false
  deriving DecidableEq, Repr

/-- The qualifiers with a rounding, a trap qualifier and an inexact enable; of the other flags only
the suppressions follow from them. -/
def FPVariant.ofModes (rm : FpRoundingMode) (tm : FPTrapMode) (ie : Bool) : FPVariant :=
  { roundingMode := rm, trapMode := tm, inexactEnable := ie, inexact := ie
    suppressUnderflow := tm == .su || tm == .sui, suppressInexact := tm == .sui }

/-- The rounding after the flags are folded in. -/
def FPVariant.getEffectiveRoundingMode (v : FPVariant) : FpRoundingMode :=
  if v.roundingMode ≠ .useFPCR then v.roundingMode
  else if v.chopped then .roundTowardZero
  else if v.minusInf then .roundDown
  else if v.dynamic then .useFPCR
  else .roundToNearest

/-- The operation is completed by software. -/
def FPVariant.hasSoftwareCompletion (v : FPVariant) : Bool :=
  v.software || v.suppressUnderflow || v.suppressInexact

/-- The exceptions of one operation. -/
structure FpExc where
  /-- Invalid operation. -/
  inv : Bool := false
  /-- Division by zero. -/
  dze : Bool := false
  /-- Overflow. -/
  ovf : Bool := false
  /-- Underflow. -/
  unf : Bool := false
  /-- Inexact. -/
  ine : Bool := false
  /-- Integer overflow. -/
  iov : Bool := false
  deriving DecidableEq, Repr

/-- The result of one operation. -/
structure FpResult where
  /-- The register image. -/
  bits : Word
  /-- The exceptions. -/
  exc : FpExc
  deriving DecidableEq, Repr

/-- A floating backend. -/
structure FpBackend where
  /-- The two-operand operations. -/
  bin : FpBinOp → Word → Word → FPVariant → Word → FpResult
  /-- The one-operand operations. -/
  un : FpUnOp → Word → FPVariant → Word → FpResult

/-- The qualifiers of a word: rounding in function bits 7:6, trap mode in function bits 10:8. -/
def fpVariantFromEncoded (e : Encoded) : FPVariant :=
  let func := e.extractLsb' 5 11
  let rnd := func.extractLsb' 6 2
  let trp := func.extractLsb' 8 3
  .ofModes
    (if rnd = 0 then .roundTowardZero else if rnd = 1 then .roundDown
      else if rnd = 2 then .roundToNearest else .useFPCR)
    (if trp = 0 then .none else if trp = 1 then .underflow else if trp = 5 then .su
      else if trp = 7 then .sui else .none)
    (trp = 7)

/-- The sticky exception bits of FPCR, 57:52. -/
def fpcrExcMask : Word := 0x3F <<< 52

/-- The sticky bits of a set of exceptions: INV, DZE, OVF, UNF, INE and IOV from bit 52 up. -/
def FpExc.bits (e : FpExc) : Word :=
  ((BitVec.ofBool e.iov ++ BitVec.ofBool e.ine ++ BitVec.ofBool e.unf ++ BitVec.ofBool e.ovf
    ++ BitVec.ofBool e.dze ++ BitVec.ofBool e.inv).setWidth 64) <<< 52

/-- Fold exceptions into FPCR and recompute its summary bit. -/
def foldFpcrExc (fpcr : Word) (e : FpExc) : Word :=
  let f := fpcr ||| e.bits
  let sum : Word := 1 <<< 63
  if f &&& fpcrExcMask ≠ 0 then f ||| sum else f &&& ~~~sum

/-! ## The leaves -/

/-- A two-operand arithmetic leaf or comparison. -/
def execFpBin (fp : FpBackend) (op : FpBinOp) (g : InstructionGrain) (c : ExecCtx)
    (cpu : CpuState) : CpuState × BoxResult :=
  let r := fp.bin op c.opA c.opB (fpVariantFromEncoded g.encoded) cpu.fpcr
  ({ cpu with fpcr := foldFpcrExc cpu.fpcr r.exc }, fpWrite g r.bits)

/-- A one-operand arithmetic leaf or conversion. -/
def execFpUn (fp : FpBackend) (op : FpUnOp) (g : InstructionGrain) (c : ExecCtx)
    (cpu : CpuState) : CpuState × BoxResult :=
  let r := fp.un op c.opB (fpVariantFromEncoded g.encoded) cpu.fpcr
  ({ cpu with fpcr := foldFpcrExc cpu.fpcr r.exc }, fpWrite g r.bits)

/-- The floating leaves that only move bits to Fc. -/
inductive FpMoveOp
  | cpys | cpysn | cpyse | cvtlq | cvtql | itoft | itofs | itoff
  deriving DecidableEq, Repr

/-- The value a floating move writes to Fc. -/
def FpMoveOp.value (op : FpMoveOp) (a b : Word) : Word :=
  match op with
  | cpys => a.extractLsb' 63 1 ++ b.extractLsb' 0 63
  | cpysn => ~~~a.extractLsb' 63 1 ++ b.extractLsb' 0 63
  | cpyse => a.extractLsb' 52 12 ++ b.extractLsb' 0 52
  | cvtlq => (b.extractLsb' 62 2 ++ b.extractLsb' 29 30).signExtend 64
  | cvtql => b.extractLsb' 30 2 ++ 0#3 ++ b.extractLsb' 0 30 ++ 0#29
  | itoft => a
  | itofs => FpFormat.convertS_FloatingToRegister (a.setWidth 32)
  | itoff => FpFormat.convertF_FloatingToRegister (a.setWidth 32)

/-- A floating move. -/
def execFpMove (op : FpMoveOp) (g : InstructionGrain) (c : ExecCtx) : BoxResult :=
  fpWrite g (op.value c.opA c.opB)

/-- The conditions of the floating conditional moves and branches. -/
inductive FpCond
  | eq | ne | lt | ge | le | gt
  deriving DecidableEq, Repr

/-- The register image is a NaN. -/
def isNaN (a : Word) : Bool := a.extractLsb' 52 11 == 0x7FF && a.extractLsb' 0 52 != 0

/-- The register image is a zero of either sign. -/
def isZeroT (a : Word) : Bool := a.extractLsb' 0 63 == 0

/-- A register, as an IEEE double, compares to zero. A NaN only meets `ne`. -/
def FpCond.met (cond : FpCond) (a : Word) : Bool :=
  let neg := a.getLsbD 63
  match cond with
  | eq => isZeroT a
  | ne => !isZeroT a
  | lt => !isNaN a && neg && !isZeroT a
  | ge => !isNaN a && (!neg || isZeroT a)
  | le => !isNaN a && (neg || isZeroT a)
  | gt => !isNaN a && !neg && !isZeroT a

/-- A floating conditional move. -/
def execFcmov (cond : FpCond) (g : InstructionGrain) (c : ExecCtx) : BoxResult :=
  if cond.met c.opA then fpWrite g c.opB else plainResult g

/-- A floating conditional branch. -/
def execFbcond (cond : FpCond) (g : InstructionGrain) (c : ExecCtx) : BoxResult :=
  branchResult g (cond.met c.opA)

/-- MF_FPCR. -/
def execMfFpcr (g : InstructionGrain) (cpu : CpuState) : BoxResult := fpWrite g cpu.fpcr

/-- MT_FPCR. -/
def execMtFpcr (g : InstructionGrain) (c : ExecCtx) (cpu : CpuState) : CpuState × BoxResult :=
  ({ cpu with fpcr := c.opA }, plainResult g)

/-- LDF, LDG, LDS and LDT: the drain converts by the size and the S_VaxFp flag. -/
def execFpLoad (size : Nat) (g : InstructionGrain) (c : ExecCtx) : BoxResult :=
  loadResult g (memEa g c) size true

/-- The memory formats of the floating stores. -/
inductive FpMemFormat
  | f | g | s | t
  deriving DecidableEq, Repr

/-- The memory image of a register. -/
def FpMemFormat.toMemory : FpMemFormat → Word → Word
  | f, v => (FpFormat.convertF_FloatingToMemory v).setWidth 64
  | g, v => FpFormat.convertG_Floating v
  | s, v => (FpFormat.convertS_FloatingToMemory v).setWidth 64
  | t, v => v

/-- The size of a memory format. -/
def FpMemFormat.size : FpMemFormat → Nat
  | f => 4
  | g => 8
  | s => 4
  | t => 8

/-- STF, STG, STS and STT. -/
def execFpStore (fmt : FpMemFormat) (g : InstructionGrain) (c : ExecCtx) : BoxResult :=
  storeResult g (memEa g c) (fmt.toMemory c.opA) fmt.size

end EmulatR
