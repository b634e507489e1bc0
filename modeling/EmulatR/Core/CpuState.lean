import EmulatR.Pte.ShardManager

/-! # The architectural state of one CPU

`CpuState` is the record every pipeline stage and leaf works on (coreLib/CpuState.h), split into the
groups the source's comments name. PALmode is bit 0 of the program counter and nothing else.

The eight shadowed registers R4–R7 and R20–R23 exist twice. The live copy is in `intReg`, the other
in `intShadow`, and `swapPalShadowRegs` exchanges them (coreLib/PalShadow.h). The exchange leaves no
trace of its own, so `CpuState` carries one history variable, `shadowLive`, that records which of
the two sets is in the live bank; no modelled function reads it. -/

namespace EmulatR

/-- A register file of 32 words, indexed by the five-bit fields of an instruction. -/
abbrev RegFile := BitVec 5 → Word

/-- The fault codes a leaf, the translator or the bus can raise (coreLib/BoxResult.h). -/
inductive FaultCode
  | noFault | opcDec | privileged | unimplemented | unaligned | dtbMiss | itbMiss | acv
  | faultOnRead | faultOnWrite | faultOnExecute | busError | nonCanonical | halt | dtbMissDouble
  deriving DecidableEq, Repr

/-- The Cbox registers behind C_DATA and C_SHFT (coreLib/CBoxState.h). -/
structure CBoxState where
  /-- The 36-bit write-many shift register. -/
  writeMany : Word := 0
  /-- The error register. -/
  errorReg : Word := 0
  /-- What a read of C_DATA returns. -/
  dataReg : BitVec 8 := 0
  /-- The C_SHFT control. -/
  shftCtrl : BitVec 8 := 0

/-- Shift a six-bit chunk into the write-many register. -/
def CBoxState.pushWriteMany (c : CBoxState) (chunk6 : Word) : CBoxState :=
  { c with writeMany := ((c.writeMany <<< 6) ||| (chunk6 &&& 0x3F)) &&& 0xFFFFFFFFF }

/-- Shift six bits of the error register out into the data register. -/
def CBoxState.shiftErrorOut (c : CBoxState) : CBoxState :=
  { c with dataReg := (c.errorReg &&& 0x3F).setWidth 8, errorReg := c.errorReg >>> 6 }

/-- The CPU's translation buffer geometry. -/
abbrev TbManager := SPAMShardManager 16 8

/-- The register files. -/
structure RegState where
  /-- The integer registers. -/
  intReg : RegFile := fun _ => 0
  /-- The floating registers. -/
  fpReg : RegFile := fun _ => 0
  /-- The floating control register. -/
  fpcr : Word := 0
  /-- The other copy of R4–R7 and R20–R23. -/
  intShadow : BitVec 3 → Word := fun _ => 0
  /-- History: the live bank holds the PAL shadow copies. -/
  shadowLive : Bool := false

/-- Sequencing and privilege. -/
structure ControlState where
  /-- The program counter, with PALmode in bit 0. -/
  pc : Word := 0
  /-- The current mode. -/
  mode : ModePrivilege := .kernel
  /-- The address a trap or CALL_PAL returns to, with its PALmode bit. -/
  excAddr : Word := 0
  /-- The base of the PAL entry vectors. -/
  palBase : Word := 0
  /-- I_CTL. -/
  iCtl : Word := 0
  /-- Which CALL_PAL table decodes: 1 is OpenVMS, anything else Tru64. -/
  palPersonality : BitVec 8 := 0
  /-- This CPU's number. -/
  cpuSlot : BitVec 32 := 0
  /-- The RC/RS flag. -/
  intrFlag : Word := 0
  /-- The CPU has stopped. -/
  halted : Bool := false
  /-- Whether a misaligned data access traps. -/
  unalignTrapEnabled : Bool := false
  /-- The last fault retired. -/
  lastFaultCode : FaultCode := .noFault

/-- The remaining internal processor registers. -/
structure IprState where
  /-- VA_CTL. -/
  vaCtl : Word := 0
  /-- M_CTL. -/
  mCtl : Word := 0
  /-- The I-side superpage enables, decoded from I_CTL. -/
  iSpe : BitVec 3 := 0
  /-- The D-side superpage enables, decoded from M_CTL. -/
  mSpe : BitVec 3 := 0
  /-- IER. -/
  ier : Word := 0
  /-- ISUM. -/
  isum : Word := 0
  /-- MM_STAT. -/
  mmStat : Word := 0
  /-- The faulting address. -/
  va : Word := 0
  /-- VPTB. -/
  vptb : Word := 0
  /-- SCBB. -/
  scbb : Word := 0
  /-- The PAL temporaries. -/
  palTemp : RegFile := fun _ => 0
  /-- The Cbox registers. -/
  cBox : CBoxState := {}

/-- Translation state. -/
structure TbState where
  /-- The page table base. -/
  ptbr : Word := 0
  /-- The current address space number. -/
  asn : Word := 0
  /-- The instruction translation buffer. -/
  itbMgr : TbManager := SPAMShardManager.clear
  /-- The data translation buffer. -/
  dtbMgr : TbManager := SPAMShardManager.clear
  /-- ITB_TAG, the address the next ITB_PTE write fills. -/
  itbTag : Word := 0
  /-- DTB_TAG0. -/
  dtbTag0 : Word := 0
  /-- DTB_TAG1. -/
  dtbTag1 : Word := 0
  /-- DTB_ASN0. -/
  dtbAsn0 : Word := 0
  /-- DTB_ASN1. -/
  dtbAsn1 : Word := 0
  /-- ITB_PTE_TEMP. -/
  itbPteTemp : Word := 0
  /-- DTB_PTE_TEMP. -/
  dtbPteTemp : Word := 0

/-- Process context and time. -/
structure ProcessState where
  /-- Kernel stack pointer. -/
  ksp : Word := 0
  /-- Executive stack pointer. -/
  esp : Word := 0
  /-- Supervisor stack pointer. -/
  ssp : Word := 0
  /-- User stack pointer. -/
  usp : Word := 0
  /-- Floating enable. -/
  fen : Word := 0
  /-- AST enable and summary. -/
  astenSr : Word := 0
  /-- The physical address of the current hardware PCB. -/
  pcbb : Word := 0
  /-- The cycle counter. -/
  cycleCount : Word := 0
  /-- The offset of the architectural cycle counter. -/
  ccOffset : Word := 0

/-- The state of one CPU. -/
structure CpuState extends RegState, ControlState, IprState, TbState, ProcessState

namespace CpuState

/-- PALmode is bit 0 of the PC. -/
def inPalMode (cpu : CpuState) : Bool := cpu.pc.getLsbD 0

/-- The SDE<1> enable of I_CTL, bit 7. -/
def iCtlSdeHigh (iCtl : Word) : Bool := iCtl.getLsbD 7

/-- Shadowing of R4–R7 and R20–R23 is enabled. -/
def sdeEnabled (cpu : CpuState) : Bool := iCtlSdeHigh cpu.iCtl

/-- The register that CALL_PAL links through: R23 when I_CTL<20> is set, else R27. -/
def callPalLinkageReg (cpu : CpuState) : BitVec 5 := if cpu.iCtl.getLsbD 20 then 23 else 27

/-- The shadow slot of a register: R4–R7 are slots 0–3, R20–R23 are slots 4–7. -/
def shadowSlot (r : BitVec 5) : Option (BitVec 3) :=
  if 4 ≤ r ∧ r ≤ 7 then some ((r - 4).setWidth 3)
  else if 20 ≤ r ∧ r ≤ 23 then some ((r - 16).setWidth 3)
  else none

/-- The register of a shadow slot. -/
def shadowedReg (i : BitVec 3) : BitVec 5 := if i < 4 then i.setWidth 5 + 4 else i.setWidth 5 + 16

/-- Every slot has its register. -/
@[simp] theorem shadowSlot_shadowedReg : ∀ i : BitVec 3, shadowSlot (shadowedReg i) = some i := by
  decide

/-- The live copies of the eight shadowed registers. -/
def liveBank (cpu : CpuState) : BitVec 3 → Word := fun i => cpu.intReg (shadowedReg i)

/-- Exchange the live and the other copies of the eight shadowed registers. -/
def swapPalShadowRegs (cpu : CpuState) : CpuState :=
  { cpu with
    intReg := fun r => match shadowSlot r with
      | some i => cpu.intShadow i
      | none => cpu.intReg r
    intShadow := cpu.liveBank
    shadowLive := !cpu.shadowLive }

/-- Enter PALmode: exchange the banks if shadowing is enabled, then raise PC<0>. -/
def palModeEnter (cpu : CpuState) : CpuState :=
  if cpu.inPalMode then cpu
  else
    -- the exchange comes first, while PC<0> still shows native mode
    let cpu := if cpu.sdeEnabled then cpu.swapPalShadowRegs else cpu
    { cpu with pc := cpu.pc ||| 1 }

/-- Leave PALmode: lower PC<0>, then exchange the banks if shadowing is enabled. -/
def palModeLeave (cpu : CpuState) : CpuState :=
  if !cpu.inPalMode then cpu
  else
    -- the mirror image of entering: PC<0> first, then the banks
    let cpu := { cpu with pc := cpu.pc &&& ~~~1 }
    if cpu.sdeEnabled then cpu.swapPalShadowRegs else cpu

/-- Switch to the given PALmode; no effect when it is already the current one. -/
def setPalMode (cpu : CpuState) (target : Bool) : CpuState :=
  if cpu.inPalMode = target then cpu
  else if target then cpu.palModeEnter else cpu.palModeLeave

/-! ## What the exchange does -/

/-- The exchange makes the other copies live. -/
@[simp] theorem liveBank_swapPalShadowRegs (cpu : CpuState) :
    cpu.swapPalShadowRegs.liveBank = cpu.intShadow := by
  funext i
  simp [swapPalShadowRegs, liveBank]

/-- The exchange puts the live copies away. -/
@[simp] theorem intShadow_swapPalShadowRegs (cpu : CpuState) :
    cpu.swapPalShadowRegs.intShadow = cpu.liveBank := rfl

/-- The exchange turns the record of which copies are live. -/
@[simp] theorem shadowLive_swapPalShadowRegs (cpu : CpuState) :
    cpu.swapPalShadowRegs.shadowLive = !cpu.shadowLive := rfl

/-- A register outside the shadowed eight is not moved. -/
theorem intReg_swapPalShadowRegs_of_none (cpu : CpuState) {r : BitVec 5}
    (h : shadowSlot r = none) : cpu.swapPalShadowRegs.intReg r = cpu.intReg r := by
  simp [swapPalShadowRegs, h]

/-- A shadowed register gets its other copy. -/
theorem intReg_swapPalShadowRegs_of_some (cpu : CpuState) {r : BitVec 5} {i : BitVec 3}
    (h : shadowSlot r = some i) : cpu.swapPalShadowRegs.intReg r = cpu.intShadow i := by
  simp [swapPalShadowRegs, h]

/-- A register has no other slot. -/
theorem shadowedReg_of_shadowSlot : ∀ (r : BitVec 5) (i : BitVec 3),
    shadowSlot r = some i → shadowedReg i = r := by
  decide

/-- Exchanging twice changes nothing. -/
theorem swapPalShadowRegs_swapPalShadowRegs (cpu : CpuState) :
    cpu.swapPalShadowRegs.swapPalShadowRegs = cpu := by
  have hreg : cpu.swapPalShadowRegs.swapPalShadowRegs.intReg = cpu.intReg := by
    funext r
    cases h : shadowSlot r with
    | none => rw [intReg_swapPalShadowRegs_of_none _ h, intReg_swapPalShadowRegs_of_none _ h]
    | some i =>
      -- the other copy of the other copy is the register the slot belongs to
      rw [intReg_swapPalShadowRegs_of_some _ h, intShadow_swapPalShadowRegs, liveBank,
        shadowedReg_of_shadowSlot r i h]
  have hshadow : cpu.swapPalShadowRegs.swapPalShadowRegs.intShadow = cpu.intShadow := by
    rw [intShadow_swapPalShadowRegs, liveBank_swapPalShadowRegs]
  have hlive : cpu.swapPalShadowRegs.swapPalShadowRegs.shadowLive = cpu.shadowLive := by
    rw [shadowLive_swapPalShadowRegs, shadowLive_swapPalShadowRegs, Bool.not_not]
  -- nothing else moves, so the three fields decide
  calc cpu.swapPalShadowRegs.swapPalShadowRegs
      = { cpu with
          intReg := cpu.swapPalShadowRegs.swapPalShadowRegs.intReg
          intShadow := cpu.swapPalShadowRegs.swapPalShadowRegs.intShadow
          shadowLive := cpu.swapPalShadowRegs.swapPalShadowRegs.shadowLive } := rfl
    _ = cpu := by rw [hreg, hshadow, hlive]

end CpuState

end EmulatR
