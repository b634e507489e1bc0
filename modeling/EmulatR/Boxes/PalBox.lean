import EmulatR.Boxes.FBox
import EmulatR.Memory.GuestMemory

/-! # The PalBox: CALL_PAL and the hardware instructions

CALL_PAL functions that execute inline, the divert into PALcode, HW_MFPR, HW_MTPR and HW_REI
(palBoxLib/grains/PalEntries.cpp, coreLib/HW_IPR.h, coreLib/IprFields.h). These leaves write the
CPU state directly; `readIpr` and `writeIpr` hold the two register switches. -/

namespace EmulatR

/-! ## Internal processor registers -/

/-- The internal processor registers HW_MFPR and HW_MTPR know, and one for all other selectors. -/
inductive HwIpr
  | itbTag | itbPte | itbIap | itbIa | itbIs | itbPteTemp | excAddr | ivaForm
  | cm | ier | ierCm | sirr | isum | intClr | excSum | palBase | iCtl
  | icFlushAsm | icFlush | pctrCtl | clrMap | iStat | sleep
  | dtbTag0 | dtbPte0 | dtbPteTemp | dtbIs0 | dtbAsn0 | dtbAltMode | mmStat | mCtl
  | dcCtl | dcStat | cData | cShft
  | dtbTag1 | dtbPte1 | dtbIap | dtbIa | dtbIs1 | dtbAsn1
  | cc | ccCtl | va | vaForm | vaCtl
  /-- One of the 32 PAL temporaries. -/
  | palTemp (i : BitVec 5)
  /-- No register. -/
  | unknown
  deriving DecidableEq, Repr

/-- The register a selector names, bits 15:8 of the word; 0x40 to 0x5F are the PAL temporaries. -/
def HwIpr.ofSelector (scbd : BitVec 8) : HwIpr :=
  match scbd.toNat with
  | 0x00 => itbTag
  | 0x01 => itbPte
  | 0x02 => itbIap
  | 0x03 => itbIa
  | 0x04 => itbIs
  | 0x05 => itbPteTemp
  | 0x06 => excAddr
  | 0x07 => ivaForm
  | 0x09 => cm
  | 0x0A => ier
  | 0x0B => ierCm
  | 0x0C => sirr
  | 0x0D => isum
  | 0x0E => intClr
  | 0x0F => excSum
  | 0x10 => palBase
  | 0x11 => iCtl
  | 0x12 => icFlushAsm
  | 0x13 => icFlush
  | 0x14 => pctrCtl
  | 0x15 => clrMap
  | 0x16 => iStat
  | 0x17 => sleep
  | 0x20 => dtbTag0
  | 0x21 => dtbPte0
  | 0x22 => dtbPteTemp
  | 0x24 => dtbIs0
  | 0x25 => dtbAsn0
  | 0x26 => dtbAltMode
  | 0x27 => mmStat
  | 0x28 => mCtl
  | 0x29 => dcCtl
  | 0x2A => dcStat
  | 0x2B => cData
  | 0x2C => cShft
  | 0xA0 => dtbTag1
  | 0xA1 => dtbPte1
  | 0xA2 => dtbIap
  | 0xA3 => dtbIa
  | 0xA4 => dtbIs1
  | 0xA5 => dtbAsn1
  | 0xC0 => cc
  | 0xC1 => ccCtl
  | 0xC2 => va
  | 0xC3 => vaForm
  | 0xC4 => vaCtl
  | n => if 0x40 ≤ n ∧ n < 0x60 then palTemp (BitVec.ofNat 5 (n - 0x40)) else unknown

/-- The register an instruction selects. -/
def iprSelector (e : Encoded) : HwIpr := HwIpr.ofSelector (e.extractLsb' 8 8)

namespace IprFields

/-- IER without the mode field, bits 4:3. -/
def ierCmIerPortion (v : Word) : Word := v &&& ~~~0x18

/-- The mode field of IER_CM. -/
def ierCmExtractMode (v : Word) : ModePrivilege := .ofBits (v.extractLsb' 3 2)

/-- IER_CM as one register. -/
def ierCmCompose (ier : Word) (mode : ModePrivilege) : Word :=
  ierCmIerPortion ier ||| (mode.toBits.setWidth 64 <<< 3)

/-- The bits PAL_BASE keeps, 42:15. -/
def palBaseSanitize (v : Word) : Word := v &&& 0x7FFFFFF8000

/-- The virtual page table base of I_CTL, sign-extended from bit 47. -/
def iCtlVptb (iCtl : Word) : Word :=
  let lower := iCtl &&& ((0x3FFFF : Word) <<< 30)
  if iCtl.getLsbD 47 then lower ||| 0xFFFF000000000000 else lower

/-- The formatted fault address. -/
def computeVaForm (vptb faultVa : Word) (form32 : Bool) : Word :=
  vptb ||| ((faultVa >>> 10) &&& (if form32 then 0x3FFFF8 else 0x1FFFFFFF8))

end IprFields

open IprFields in
/-- HW_MFPR: the value of a register; `none` for an unknown selector. Reads of the ITB registers
fall through to IER. -/
def readIpr (cpu : CpuState) : HwIpr → Option Word
  | .excAddr => some cpu.excAddr
  | .palBase => some cpu.palBase
  | .iCtl => some cpu.iCtl
  | .mCtl => some cpu.mCtl
  | .mmStat => some cpu.mmStat
  | .vaCtl => some cpu.vaCtl
  -- the architectural counter is the cycle counter plus an offset
  | .cc => some (cpu.cycleCount + cpu.ccOffset)
  | .cm => some (cpu.mode.toBits.setWidth 64)
  | .isum => some cpu.isum
  | .ivaForm => some (computeVaForm (iCtlVptb cpu.iCtl) cpu.excAddr (cpu.iCtl.getLsbD 16))
  | .vaForm =>
    some (computeVaForm (cpu.vaCtl &&& 0xFFFFFFFFC0000000) cpu.va (cpu.vaCtl.getLsbD 2))
  | .itbPteTemp => some cpu.itbPteTemp
  | .dtbPteTemp => some cpu.dtbPteTemp
  -- the ITB registers are write-only, and their cases fall through to the next label
  | .itbTag => some cpu.ier
  | .itbPte => some cpu.ier
  | .itbIap => some cpu.ier
  | .itbIa => some cpu.ier
  | .itbIs => some cpu.ier
  | .ier => some cpu.ier
  | .ierCm => some (ierCmCompose cpu.ier cpu.mode)
  | .cData => some (cpu.cBox.dataReg.setWidth 64)
  | .va => some cpu.va
  | .palTemp i => some (cpu.palTemp i)
  -- write-only or not kept: the read is zero
  | .sirr => some 0
  | .intClr => some 0
  | .excSum => some 0
  | .icFlushAsm => some 0
  | .icFlush => some 0
  | .pctrCtl => some 0
  | .clrMap => some 0
  | .iStat => some 0
  | .sleep => some 0
  | .dtbTag0 => some 0
  | .dtbPte0 => some 0
  | .dtbIap => some 0
  | .dtbIa => some 0
  | .dtbIs0 => some 0
  | .dtbAsn0 => some 0
  | .dtbAltMode => some 0
  | .dcCtl => some 0
  | .dcStat => some 0
  | .dtbTag1 => some 0
  | .dtbPte1 => some 0
  | .dtbIs1 => some 0
  | .dtbAsn1 => some 0
  | .cShft => some 0
  | .ccCtl => some 0
  | .unknown => none

/-- The granularity hint of a PTE register image. -/
def pteGh (v : Word) : BitVec 2 := v.extractLsb' 5 2

/-- I_CTL: a write that changes SDE<1> in PALmode exchanges the register banks. -/
def writeICtl (cpu : CpuState) (v : Word) : CpuState :=
  let cpu' := { cpu with iCtl := v, iSpe := v.extractLsb' 3 3 }
  if cpu.inPalMode && (CpuState.iCtlSdeHigh cpu.iCtl != CpuState.iCtlSdeHigh v) then
    cpu'.swapPalShadowRegs
  else cpu'

/-- C_SHFT: a one in bit 0 shifts the error register. -/
def writeCShft (cpu : CpuState) (v : Word) : CpuState :=
  let box := { cpu.cBox with shftCtrl := (v &&& 1).setWidth 8 }
  { cpu with cBox := if v &&& 1 ≠ 0 then box.shiftErrorOut else box }

open IprFields in
/-- HW_MTPR: write a register; `none` for an unknown selector. -/
def writeIpr (cpu : CpuState) (v : Word) : HwIpr → Option CpuState
  | .excAddr => some { cpu with excAddr := v }
  | .palBase => some { cpu with palBase := palBaseSanitize v }
  | .iCtl => some (writeICtl cpu v)
  | .mCtl => some { cpu with mCtl := v, mSpe := v.extractLsb' 1 3 }
  | .ier => some { cpu with ier := ierCmIerPortion v }
  | .ierCm => some { cpu with ier := ierCmIerPortion v, mode := ierCmExtractMode v }
  | .mmStat => some { cpu with mmStat := v }
  | .vaCtl => some { cpu with vaCtl := v }
  -- the cycle counter itself is never written
  | .cc => some { cpu with ccOffset := v - cpu.cycleCount }
  | .cm => some { cpu with mode := .ofBits (v.extractLsb' 0 2) }
  -- the ITB is filled and invalidated under the CPU's own address space number
  | .itbTag => some { cpu with itbTag := v }
  | .itbPte => some { cpu with
      itbPteTemp := v
      itbMgr := cpu.itbMgr.insert .itb cpu.itbTag cpu.asn (canonicalFromItbPte v) (pteGh v) }
  | .itbIap => some { cpu with itbMgr := cpu.itbMgr.invalidateAllProcess }
  | .itbIa => some { cpu with itbMgr := cpu.itbMgr.invalidateAll }
  | .itbIs => some { cpu with itbMgr := cpu.itbMgr.invalidateSingle .itb v cpu.asn }
  -- the DTB is filled and invalidated under the staged numbers, not the CPU's
  | .dtbTag0 => some { cpu with dtbTag0 := v }
  | .dtbTag1 => some { cpu with dtbTag1 := v }
  | .dtbAsn0 => some { cpu with dtbAsn0 := (v >>> 56) &&& 0xFF }
  | .dtbAsn1 => some { cpu with dtbAsn1 := (v >>> 56) &&& 0xFF }
  | .dtbPte0 => some { cpu with
      dtbPteTemp := v
      dtbMgr := cpu.dtbMgr.insert .dtb cpu.dtbTag0 cpu.dtbAsn0 (canonicalFromDtbPte v) (pteGh v) }
  | .dtbPte1 => some { cpu with
      dtbPteTemp := v
      dtbMgr := cpu.dtbMgr.insert .dtb cpu.dtbTag1 cpu.dtbAsn1 (canonicalFromDtbPte v) (pteGh v) }
  | .dtbIap => some { cpu with dtbMgr := cpu.dtbMgr.invalidateAllProcess }
  | .dtbIa => some { cpu with dtbMgr := cpu.dtbMgr.invalidateAll }
  | .dtbIs0 => some { cpu with dtbMgr := cpu.dtbMgr.invalidateSingle .dtb v cpu.dtbAsn0 }
  | .dtbIs1 => some { cpu with dtbMgr := cpu.dtbMgr.invalidateSingle .dtb v cpu.dtbAsn1 }
  -- the temporaries can be written without a fill
  | .itbPteTemp => some { cpu with itbPteTemp := v }
  | .dtbPteTemp => some { cpu with dtbPteTemp := v }
  | .cData => some { cpu with cBox := cpu.cBox.pushWriteMany (v &&& 0x3F) }
  | .cShft => some (writeCShft cpu v)
  | .palTemp i => some { cpu with palTemp := Function.update cpu.palTemp i v }
  -- accepted and ignored
  | .ivaForm => some cpu
  | .sirr => some cpu
  | .isum => some cpu
  | .intClr => some cpu
  | .excSum => some cpu
  | .icFlushAsm => some cpu
  | .icFlush => some cpu
  | .pctrCtl => some cpu
  | .clrMap => some cpu
  | .iStat => some cpu
  | .sleep => some cpu
  | .dtbAltMode => some cpu
  | .dcCtl => some cpu
  | .dcStat => some cpu
  | .ccCtl => some cpu
  | .va => some cpu
  | .vaForm => some cpu
  | .unknown => none

/-! ## The hardware instructions -/

/-- HW_MFPR: read a register into Ra. -/
def execHwMfpr (g : InstructionGrain) (cpu : CpuState) : BoxResult :=
  match readIpr cpu (iprSelector g.encoded) with
  | some v => intWrite g g.encoded.ra v
  | none => faultResult g .unimplemented

/-- HW_MTPR: write a register from operand B. -/
def execHwMtpr (g : InstructionGrain) (c : ExecCtx) (cpu : CpuState) : CpuState × BoxResult :=
  match writeIpr cpu c.opB (iprSelector g.encoded) with
  | some cpu' => (cpu', plainResult g)
  | none => (cpu, faultResult g .unimplemented)

/-- The target of HW_REI: EXC_ADDR if bit 12 is set, else register Rb, taken as it is. -/
def hwReiTarget (e : Encoded) (cpu : CpuState) : Word :=
  if e.litFlag then cpu.excAddr else cpu.intReg e.rb

/-- HW_REI: switch to the PALmode of the target's bit 0 and go there. -/
def execHwRei (g : InstructionGrain) (cpu : CpuState) : CpuState × BoxResult :=
  let rawTarget := hwReiTarget g.encoded cpu
  (cpu.setPalMode (rawTarget.getLsbD 0),
    { plainResult g with divert := true, divertTarget := rawTarget })

/-! ## CALL_PAL -/

/-- The entry of a CALL_PAL function: bit 7 selects the unprivileged half. -/
def computeCallPalEntry (palBase : Word) (funcCode : BitVec 26) : Word :=
  (palBase &&& ~~~(0x7FFF : Word)) ||| (if funcCode.getLsbD 7 then 0x3000 else 0x2000)
    ||| ((funcCode.extractLsb' 0 6).setWidth 64 <<< 6)

/-- The function code of a CALL_PAL, bits 25:0. -/
def palFunc (e : Encoded) : BitVec 26 := e.extractLsb' 0 26

/-- The return address of a CALL_PAL, with the caller's PALmode bit. -/
def callPalLinkage (g : InstructionGrain) (cpu : CpuState) : Word :=
  (g.pc + 4) ||| (if cpu.inPalMode then 1 else 0)

/-- CALL_PAL by divert: save the return address, enter PALmode, link through R23 or R27 and go to
the function's entry. The link register is written after the banks are exchanged. -/
def execCallPalDispatch (g : InstructionGrain) (cpu : CpuState) : CpuState × BoxResult :=
  -- taken before the switch, so that it carries the caller's mode
  let linkage := callPalLinkage g cpu
  let cpu' := ({ cpu with excAddr := linkage }).palModeEnter
  -- after the exchange: a shadowed linkage register is PALcode's copy
  ({ cpu' with intReg := Function.update cpu'.intReg cpu'.callPalLinkageReg linkage },
    { plainResult g with
      divert := true
      divertTarget := computeCallPalEntry cpu.palBase (palFunc g.encoded) ||| 1 })

/-- The services of CSERVE. -/
inductive CserveFunc
  | ldlp | stlp | ldbp | stbp | mtprExcAddr | getBase | halt | whami | other
  deriving DecidableEq, Repr

/-- The service R16 selects in its low byte. -/
def CserveFunc.ofR16 (r16 : Word) : CserveFunc :=
  match (r16 &&& 0xFF).toNat with
  | 0x10 => ldlp
  | 0x11 => stlp
  | 0x12 => ldbp
  | 0x13 => stbp
  | 0x44 => mtprExcAddr
  | 0x3F => getBase
  | 0x40 => halt
  | 0x41 => whami
  | _ => other

/-- What a leaf leaves behind: the CPU, guest memory and its result. -/
structure ExecOut where
  /-- The CPU. -/
  cpu : CpuState
  /-- Guest memory. -/
  memory : GuestMemory
  /-- The result. -/
  result : BoxResult

/-- CSERVE executes inline. Service 0x44 sets EXC_ADDR and the PC to R17 as it is. -/
def execCserve (g : InstructionGrain) (cpu : CpuState) (mem : GuestMemory) : ExecOut :=
  let r16 := cpu.intReg 16
  let r17 := cpu.intReg 17
  let r18 := cpu.intReg 18
  match CserveFunc.ofR16 r16 with
  | .ldlp => ⟨cpu, mem, intWrite g 0 (sext32 ((mem.read r17 4).setWidth 32))⟩
  | .stlp => ⟨cpu, (mem.write r17 r18 4).1, plainResult g⟩
  | .ldbp => ⟨cpu, mem, intWrite g 0 ((mem.read1 r17).setWidth 64)⟩
  | .stbp => ⟨cpu, (mem.write1 r17 (r18.setWidth 8)).1, plainResult g⟩
  | .mtprExcAddr =>
    -- the PALmode bit arrives with the target and no exchange of the banks goes with it
    ⟨{ cpu with excAddr := r17 }, mem,
      { plainResult g with divert := true, divertTarget := r17 }⟩
  | .getBase => ⟨cpu, mem, faultResult g .halt⟩
  | .halt => ⟨cpu, mem, faultResult g .halt⟩
  | .whami => ⟨cpu, mem, intWrite g 0 (cpu.cpuSlot.setWidth 64)⟩
  | .other => ⟨cpu, mem, plainResult g⟩

/-- LDQP and STQP fault: the address in R16 is not a quadword's and alignment traps are enabled. -/
def quadTraps (cpu : CpuState) : Bool :=
  (cpu.intReg 16 &&& 7 ≠ 0) && cpu.unalignTrapEnabled

/-- LDQP: R0 from the physical quadword at R16. -/
def execLdqpVms (g : InstructionGrain) (cpu : CpuState) : CpuState × BoxResult :=
  let ea := cpu.intReg 16
  if quadTraps cpu then ({ cpu with mmStat := ea }, faultResult g .unaligned)
  else (cpu, { semFlags := g.semFlags ++ [.physAddr, .load], memAddr := ea, memSize := 8,
               regWriteIdx := 0 })

/-- STQP: R17 to the physical quadword at R16. -/
def execStqpVms (g : InstructionGrain) (cpu : CpuState) : CpuState × BoxResult :=
  let ea := cpu.intReg 16
  if quadTraps cpu then ({ cpu with mmStat := ea }, faultResult g .unaligned)
  else (cpu, { semFlags := g.semFlags ++ [.physAddr, .store], memAddr := ea,
               memData := cpu.intReg 17, memSize := 8, memIsStore := true })

/-- MFPR_VPTB. -/
def execMfprVptbVms (g : InstructionGrain) (cpu : CpuState) : BoxResult := intWrite g 0 cpu.vptb

/-- MTPR_VPTB. -/
def execMtprVptbVms (g : InstructionGrain) (cpu : CpuState) : CpuState × BoxResult :=
  ({ cpu with vptb := cpu.intReg 16 }, plainResult g)

/-- WTINT returns zero at once. -/
def execWtint (g : InstructionGrain) : BoxResult := intWrite g 0 0

/-- MFPR_WHAMI. -/
def execMfprWhami (g : InstructionGrain) (cpu : CpuState) : BoxResult :=
  intWrite g 0 (cpu.cpuSlot.setWidth 64)

/-! ## Context switch -/

/-- The hardware process control block (deviceLib/Hwrpb.h), as SWPCTX stores and loads it. -/
structure Hwpcb where
  /-- Kernel stack pointer. -/
  ksp : Word
  /-- Executive stack pointer. -/
  esp : Word
  /-- Supervisor stack pointer. -/
  ssp : Word
  /-- User stack pointer. -/
  usp : Word
  /-- Page table base. -/
  ptbr : Word
  /-- Address space number. -/
  asn : Word
  /-- AST enable and summary. -/
  astenSr : Word
  /-- Floating enable. -/
  fen : Word
  /-- Cycle counter. -/
  cc : Word

/-- The context of a CPU (deviceLib/HwpcbContext.h). -/
def storeCpuToHwpcb (cpu : CpuState) : Hwpcb :=
  { ksp := cpu.ksp, esp := cpu.esp, ssp := cpu.ssp, usp := cpu.usp, ptbr := cpu.ptbr,
    asn := cpu.asn, astenSr := cpu.astenSr, fen := cpu.fen, cc := cpu.cycleCount + cpu.ccOffset }

/-- Load a context into a CPU; bit 63 of the page table base is dropped. -/
def loadCpuFromHwpcb (cpu : CpuState) (src : Hwpcb) : CpuState :=
  { cpu with
    ksp := src.ksp, esp := src.esp, ssp := src.ssp, usp := src.usp
    ptbr := src.ptbr &&& 0x7FFFFFFFFFFFFFFF
    asn := src.asn, astenSr := src.astenSr, fen := src.fen
    ccOffset := src.cc - cpu.cycleCount }

/-- The nine quadwords of a context, in memory order. -/
def Hwpcb.quads (h : Hwpcb) : List Word :=
  [h.ksp, h.esp, h.ssp, h.usp, h.ptbr, h.asn, h.astenSr, h.fen, h.cc]

/-- Write consecutive quadwords. -/
def writeQuads (mem : GuestMemory) (pa : Word) : List Word → GuestMemory
  | [] => mem
  | q :: qs => writeQuads (mem.write pa q 8).1 (pa + 8) qs

/-- Read a context. -/
def readHwpcb (mem : GuestMemory) (pa : Word) : Hwpcb :=
  { ksp := mem.read pa 8, esp := mem.read (pa + 0x08) 8, ssp := mem.read (pa + 0x10) 8
    usp := mem.read (pa + 0x18) 8, ptbr := mem.read (pa + 0x20) 8, asn := mem.read (pa + 0x28) 8
    astenSr := mem.read (pa + 0x30) 8, fen := mem.read (pa + 0x38) 8
    cc := mem.read (pa + 0x40) 8 }

/-- Switch to a context at a new PCBB; its kernel stack pointer becomes R30. -/
def enterContext (cpu : CpuState) (newPcbb : Word) (ctx : Hwpcb) : CpuState :=
  { loadCpuFromHwpcb cpu ctx with
    pcbb := newPcbb
    intReg := Function.update cpu.intReg 30 ctx.ksp }

/-- SWPCTX: save the context at PCBB with R30 as its kernel stack pointer, load the one at R16, and
return the old page table base in R0. No row of the instruction table names this leaf. -/
def execSwpctxVms (g : InstructionGrain) (cpu : CpuState) (mem : GuestMemory) : ExecOut :=
  let newPcbb := cpu.intReg 16
  -- the old context is saved before the new one is read, which matters when they are the same
  let mem' := writeQuads mem cpu.pcbb { storeCpuToHwpcb cpu with ksp := cpu.intReg 30 }.quads
  ⟨enterContext cpu newPcbb (readHwpcb mem' newPcbb), mem', intWrite g 0 cpu.ptbr⟩

/-- The OPCDEC entry. -/
def execOpcDec (g : InstructionGrain) : BoxResult :=
  { semFlags := g.semFlags ++ [.opcDec], faultCode := .opcDec }

end EmulatR
