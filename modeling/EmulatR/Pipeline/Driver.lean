import EmulatR.Pipeline.MemDrainer

/-! # The pipeline driver

One step (pipelineLib/PipelineDriver.h) fetches a word, decodes it, resolves the operands, runs the
leaf, drains the result and retires it. `issue` is everything up to the retire stage; `retire`
delivers a fault to its PAL entry (coreLib/Ev6EntryVectors.h) or moves the PC on. -/

namespace EmulatR

/-- An entry of the dispatch tables. -/
structure GrainEntry where
  /-- The leaf. -/
  leaf : Leaf
  /-- The flags of the row. -/
  semFlags : GrainSem
  deriving DecidableEq

/-- What a machine is built with. -/
structure Config (δ : Type) where
  /-- The devices on the bus. -/
  devices : Devices δ
  /-- The floating backend. -/
  fp : FpBackend
  /-- The platform is silicon. -/
  silicon : Bool
  /-- The firmware payload that overlays instruction fetch. -/
  tryFetch : δ → Word → Option Encoded
  /-- The decoder, by the word and the PAL personality. -/
  decode : Encoded → BitVec 8 → GrainEntry

/-! ## Operands -/

/-- Resolve the operands of a grain from its flags. Bit 12 selects the literal in both the operate
and the floating operate format. -/
def buildCtx (g : InstructionGrain) (cpu : CpuState) : ExecCtx :=
  let has := fun f => g.semFlags.contains f
  { opA :=
      if has .readsRa then
        if has .readsFp then cpu.fpReg g.encoded.ra else cpu.intReg g.encoded.ra
      else 0
    opB :=
      if has .readsRb then
        if (has .opFormat || has .fpFormat) && g.encoded.litFlag then g.encoded.lit.setWidth 64
        -- a floating load or store still takes its base from the integer file
        else if has .readsFp && !has .memFormat then cpu.fpReg g.encoded.rb
        else cpu.intReg g.encoded.rb
      else 0 }

/-! ## Fault delivery -/

/-- The PAL entries a fault can be delivered to. -/
inductive PalEntry
  | opcDec | unalign | dtbmSingle | dtbmDouble3 | itbMiss | dfault | iacv | mchk
  deriving DecidableEq, Repr

/-- The offset of an entry from PAL_BASE. -/
def PalEntry.offset : PalEntry → Word
  | opcDec => 0x400
  | unalign => 0x280
  | dtbmSingle => 0x300
  | dtbmDouble3 => 0x100
  | itbMiss => 0x580
  | dfault => 0x380
  | iacv => 0x480
  | mchk => 0x500

/-- The entry of a fault. An access violation goes to DFAULT whichever stream it came from. -/
def entryForFault : FaultCode → Option PalEntry
  | .noFault => none
  | .opcDec => some .opcDec
  | .privileged => some .opcDec
  | .unimplemented => some .opcDec
  | .unaligned => some .unalign
  | .dtbMiss => some .dtbmSingle
  | .itbMiss => some .itbMiss
  | .acv => some .dfault
  | .faultOnRead => some .dfault
  | .faultOnWrite => some .dfault
  | .faultOnExecute => some .iacv
  | .busError => some .mchk
  | .nonCanonical => some .dfault
  | .halt => none
  | .dtbMissDouble => some .dtbmDouble3

/-- The address of an entry. -/
def computeHwExceptionEntry (palBase : Word) (e : PalEntry) : Word :=
  (palBase &&& ~~~(0x7FFF : Word)) ||| e.offset

/-- The address a delivered fault returns to: the instruction itself, or the next one after a bus
error, with the PALmode bit. -/
def faultReturnPc (pc : Word) (f : FaultCode) (inPal : Bool) : Word :=
  ((pc &&& ~~~1) + (if f = .busError then 4 else 0)) ||| (if inPal then 1 else 0)

/-- Deliver a fault to a PAL entry. -/
def deliverFault (pc : Word) (f : FaultCode) (e : PalEntry) (cpu : CpuState) : CpuState :=
  let cpu := ({ cpu with excAddr := faultReturnPc pc f cpu.inPalMode }).palModeEnter
  -- the vector is built on the base as it stands after the switch
  { cpu with pc := computeHwExceptionEntry cpu.palBase e ||| 1 }

/-- Retire a faulting instruction. HALT only stops the CPU; a fault without PALcode or without an
entry stops it too. -/
def retireFault (pc : Word) (f : FaultCode) (cpu : CpuState) : CpuState :=
  if f = .halt then { cpu with halted := true, lastFaultCode := .halt }
  else
    let cpu := { cpu with lastFaultCode := f }
    match entryForFault f with
    | some e =>
      -- no PALcode to deliver to
      if cpu.palBase = 0 then { cpu with excAddr := pc, halted := true }
      else deliverFault pc f e cpu
    | none => { cpu with excAddr := pc, halted := true }

/-- Retire a result. -/
def retire (pc : Word) (r : BoxResult) (cpu : CpuState) : CpuState :=
  if r.faultCode ≠ .noFault then retireFault pc r.faultCode cpu
  else { cpu with pc := if r.divert then r.divertTarget else pc + 4 }

/-! ## One step -/

section Step

variable {δ : Type} (cfg : Config δ)

/-- Fetch the word at the PC. -/
def fetchWord (m : Machine δ) : Chipset δ × Except FaultCode Encoded :=
  match (Ev6Translator.translateInstruction m.cpu m.cpu.pc).pa? with
  | none => (m.bus, .error (Ev6Translator.translateInstruction m.cpu m.cpu.pc).toFaultCode)
  | some pa =>
    -- the payload is asked before the bus
    match cfg.tryFetch m.bus.devices pa with
    | some e => (m.bus, .ok e)
    | none =>
      let fr := m.bus.fetch cfg.devices pa 4
      (fr.1, if fr.2.status ≠ .ok then .error .busError else .ok (fr.2.data.setWidth 32))

/-- The CPU after a failed fetch: VA and MM_STAT both get the PC. -/
def latchFetchFault (cpu : CpuState) : CpuState := { cpu with va := cpu.pc, mmStat := cpu.pc }

/-- The row a word decodes to under the CPU's personality. -/
def decodeEntry (cpu : CpuState) (e : Encoded) : GrainEntry := cfg.decode e cpu.palPersonality

/-- The grain of a word. HW_LD and HW_ST of a physical type get S_PhysAddr. -/
def makeGrain (cpu : CpuState) (e : Encoded) : InstructionGrain :=
  let flags := (decodeEntry cfg cpu e).semFlags
  { pc := cpu.pc
    semFlags :=
      if (e.primaryOp = 0x1B ∨ e.primaryOp = 0x1F) ∧ e.extractLsb' 14 2 = 0 then
        flags ++ [.physAddr]
      else flags
    encoded := e
    primaryOp := e.primaryOp }

/-- Run the leaf of a word. -/
def execWord (m : Machine δ) (e : Encoded) : ExecOut :=
  let g := makeGrain cfg m.cpu e
  (decodeEntry cfg m.cpu e).leaf.exec cfg.fp g (buildCtx g m.cpu) m.cpu m.bus.memory

/-- The machine after a leaf has run. -/
def Machine.afterLeaf (m : Machine δ) (out : ExecOut) : Machine δ :=
  { m with cpu := out.cpu, bus := { m.bus with memory := out.memory } }

/-- Execute and drain a word. -/
def executeWord (m : Machine δ) (e : Encoded) : Machine δ × BoxResult :=
  -- a leaf may change the CPU and memory before the drain
  let out := execWord cfg m e
  MemDrainer.drain cfg.devices cfg.silicon (makeGrain cfg m.cpu e) (m.afterLeaf out) out.result

/-- Everything up to the retire stage. -/
def issue (m : Machine δ) : Machine δ × BoxResult :=
  match (fetchWord cfg m).2 with
  | .error f =>
    ({ m with bus := (fetchWord cfg m).1, cpu := latchFetchFault m.cpu }, { faultCode := f })
  | .ok e => executeWord cfg { m with bus := (fetchWord cfg m).1 } e

/-- **One instruction.** A halted CPU does nothing. -/
def stepCpu (m : Machine δ) : Machine δ :=
  if m.cpu.halted then m
  else
    let x := issue cfg m
    -- the return address of a fault is the PC before the step, whatever the leaf did to it
    let cpu := retire m.cpu.pc x.2 x.1.cpu
    { x.1 with cpu := { cpu with cycleCount := cpu.cycleCount + 1 } }

end Step

end EmulatR
