import EmulatR.Fp.FpQualifiers
import EmulatR.Fp.IeeeBackend
import EmulatR.GrainFactory.GrainMaster
import EmulatR.Pipeline.Driver

/-! # Programs of IEEE operates

The floating registers and the sticky bits of FPCR, seen through the data the registers hold, go
through a program of IEEE arithmetic and comparisons as a machine of the standard does
(`ofCpu_execProgram`). An instruction takes its operands from the pipeline (`buildCtx`), its leaf
folds the exceptions into FPCR and the drain writes Fc.

Three habits of the code show in that machine. A word with bit 12 set gets its literal for operand
B, as an operate of any format does (`buildCtx` of pipelineLib/PipelineDriver.h). A word with the /D
qualifier rounds to nearest whatever rounding FPCR holds, since the backend does not look there
(`IeeeInstr.mode`). And S arithmetic first narrows its operands, dropping the exceptions of that. -/

namespace EmulatR

open Library SoftFloat SoftFloatBackend

/-! ## Instructions -/

/-- The four operations. -/
inductive IeeeArith
  | add | sub | mul | div
  deriving DecidableEq, Repr

/-- The IEEE operates of two operands. -/
inductive IeeeOp
  /-- Arithmetic in double precision. -/
  | t (op : IeeeArith)
  /-- Arithmetic in single precision. -/
  | s (op : IeeeArith)
  /-- A comparison. -/
  | cmp (k : FpCompare)
  deriving DecidableEq, Repr

/-- The backend's name of an operation. -/
def IeeeOp.backendOp : IeeeOp → FpBinOp
  | t .add => .addT
  | t .sub => .subT
  | t .mul => .mulT
  | t .div => .divT
  | s .add => .addS
  | s .sub => .subS
  | s .mul => .mulS
  | s .div => .divS
  | cmp k => .cmpT k

/-- An instruction: its row and its word. -/
structure IeeeInstr where
  /-- The operation of the row. -/
  op : IeeeOp
  /-- The word. -/
  word : Encoded
  deriving DecidableEq

namespace IeeeInstr

/-- The grain of an instruction. -/
def grain (x : IeeeInstr) (cpu : CpuState) : InstructionGrain :=
  { pc := cpu.pc, semFlags := GrainMaster.fpBinFlags, encoded := x.word, primaryOp := x.word.primaryOp }

/-- Execute an instruction and write its result. -/
def exec (fp : FpBackend) (cpu : CpuState) (x : IeeeInstr) : CpuState :=
  let g := x.grain cpu
  let out := execFpBin fp x.op.backendOp g (buildCtx g cpu) cpu
  MemDrainer.commitRegWrite out.1 out.2

end IeeeInstr

/-- Execute a program. -/
def execProgram (fp : FpBackend) (cpu : CpuState) (xs : List IeeeInstr) : CpuState :=
  runFrom (IeeeInstr.exec fp) cpu xs

/-! ## The machine of the standard -/

/-- Registers that hold data, and the exceptions raised so far. -/
structure IeeeState where
  /-- The registers. -/
  regs : BitVec 5 → Ieee.Datum ℚ
  /-- The exceptions. -/
  raised : FpExc

/-- The exceptions of either. -/
def FpExc.union (a b : FpExc) : FpExc :=
  { inv := a.inv || b.inv, dze := a.dze || b.dze, ovf := a.ovf || b.ovf, unf := a.unf || b.unf
    ine := a.ine || b.ine, iov := a.iov || b.iov }

/-- What the standard calls an operation. -/
def IeeeArith.standard : IeeeArith → FloatFormat → Ieee.Mode → Ieee.Datum ℚ → Ieee.Datum ℚ →
    Ieee.Outcome ℚ
  | add => Ieee.add
  | sub => Ieee.sub
  | mul => Ieee.mul
  | div => Ieee.div

/-- The outcome of an operation in a rounding mode. -/
def IeeeOp.standard (mode : Ieee.Mode) (d e : Ieee.Datum ℚ) : IeeeOp → Ieee.Outcome ℚ
  | t op => op.standard f64.format mode d e
  | s op =>
    -- operands that are no singles are rounded first
    op.standard f32.format mode (Ieee.convert f32.format mode d).datum
      (Ieee.convert f32.format mode e).datum
  | cmp k =>
    { datum := .finite false (if relates k d e then 2 else 0)
      invalid := k != .un && (d.isSignaling || e.isSignaling) }

namespace IeeeInstr

/-- The rounding a word asks for; FPCR is not asked. -/
def mode (x : IeeeInstr) : Ieee.Mode :=
  if rndOf x.word = 0 then .towardZero else if rndOf x.word = 1 then .towardNegative
  else .nearestEven

/-- Operand B: the literal of the word if it has one. -/
def operandB (s : IeeeState) (x : IeeeInstr) : Ieee.Datum ℚ :=
  if x.word.litFlag then f64.datum (x.word.lit.setWidth 64 : Word).toNat else s.regs x.word.rb

/-- The outcome of an instruction. -/
def outcome (s : IeeeState) (x : IeeeInstr) : Ieee.Outcome ℚ :=
  x.op.standard x.mode (s.regs x.word.ra) (x.operandB s)

end IeeeInstr

/-- One instruction of the machine of the standard. -/
def IeeeState.step (s : IeeeState) (x : IeeeInstr) : IeeeState :=
  { regs := if x.word.rc = 31 then s.regs else
      Function.update s.regs x.word.rc (x.outcome s).datum
    raised := s.raised.union (excOf (x.outcome s)) }

/-- The data and the exceptions a CPU holds. -/
def IeeeState.ofCpu (cpu : CpuState) : IeeeState :=
  { regs := fun r => f64.datum (cpu.fpReg r).toNat
    raised :=
      { inv := cpu.fpcr.getLsbD 52, dze := cpu.fpcr.getLsbD 53, ovf := cpu.fpcr.getLsbD 54
        unf := cpu.fpcr.getLsbD 55, ine := cpu.fpcr.getLsbD 56, iov := cpu.fpcr.getLsbD 57 } }

/-! ## One instruction -/

section Instruction

variable (left : RoundingMode) (rest : FpBackend)

/-- S arithmetic on any registers: the arithmetic of single precision on the narrowed operands. -/
theorem delivers_sBinary_narrowed
    {op : RoundingMode → BitVec 32 → BitVec 32 → BitVec 32 × ExceptionFlags}
    {f : Ieee.Datum ℚ → Ieee.Datum ℚ → Ieee.Outcome ℚ} {c : FpExecCtx}
    (hop : ∀ x y, f32.wordOutcome (op (resolveRm c) x y) = f (f32.datum x.toNat) (f32.datum y.toNat))
    (hquiet : ∀ d e, (f d e).datum.isSignaling = false) (a b : Word) :
    Delivers (sBinary op a b c)
      (f (Ieee.convert f32.format (resolveRm c).attribute (f64.datum a.toNat)).datum
        (Ieee.convert f32.format (resolveRm c).attribute (f64.datum b.toNat)).datum) := by
  have hnarrow : ∀ a : Word, f32.datum (f64ToF32 (resolveRm c) a).1.toNat =
      (Ieee.convert f32.format (resolveRm c).attribute (f64.datum a.toNat)).datum :=
    fun a => congrArg Ieee.Outcome.datum (wordOutcome_f64ToF32 (resolveRm c) a)
  have hout := hop (f64ToF32 (resolveRm c) a).1 (f64ToF32 (resolveRm c) b).1
  rw [hnarrow, hnarrow] at hout
  exact (delivers_widen hout (hquiet _ _)).1

/-- The backend delivers what the standard does. -/
theorem delivers_standard (op : IeeeOp) (a b : Word) (v : FPVariant) (fpcr : Word) :
    Delivers ((reference left rest).bin op.backendOp a b v fpcr)
      (op.standard (modeOf v fpcr) (f64.datum a.toNat) (f64.datum b.toNat)) := by
  cases op with
  | t op =>
    cases op with
    | add => exact delivers_of_wordOutcome (wordOutcome_f64Add _ a b)
    | sub => exact delivers_of_wordOutcome (wordOutcome_f64Sub _ a b)
    | mul => exact delivers_of_wordOutcome (wordOutcome_f64Mul _ a b)
    | div => exact delivers_of_wordOutcome (wordOutcome_f64Div _ a b)
  | s op =>
    cases op with
    | add => exact delivers_sBinary_narrowed (wordOutcome_f32Add _) (Ieee.isSignaling_add _ _) a b
    | sub =>
      exact delivers_sBinary_narrowed (wordOutcome_f32Sub _)
        (fun _ _ => Ieee.isSignaling_add _ _ _ _) a b
    | mul => exact delivers_sBinary_narrowed (wordOutcome_f32Mul _) (Ieee.isSignaling_mul _ _) a b
    | div => exact delivers_sBinary_narrowed (wordOutcome_f32Div _) (Ieee.isSignaling_div _ _) a b
  | cmp k =>
    have hcmp : (reference left rest).bin (.cmpT k) a b v fpcr = cmpT k a b := rfl
    have hbits : ∀ r : Bool, f64.datum (if r then 0x4000000000000000 else 0 : Word).toNat =
        .finite false (if r then 2 else 0) := by decide +kernel
    rw [IeeeOp.backendOp, hcmp, cmpT_eq, IeeeOp.standard]
    exact ⟨hbits _, rfl⟩

/-- The rounding of a word, whatever FPCR holds. -/
theorem modeOf_word (x : IeeeInstr) (fpcr : Word) :
    modeOf (fpVariantFromEncoded x.word) fpcr = x.mode := by
  rw [modeOf, resolveRm_fpVariantFromEncoded, IeeeInstr.mode]
  split_ifs <;> rfl

/-- Operand B of an instruction, as bits. -/
def IeeeInstr.bitsB (x : IeeeInstr) (cpu : CpuState) : Word :=
  if x.word.litFlag then x.word.lit.setWidth 64 else cpu.fpReg x.word.rb

/-- What the backend returns for an instruction. -/
def IeeeInstr.result (fp : FpBackend) (cpu : CpuState) (x : IeeeInstr) : FpResult :=
  fp.bin x.op.backendOp (cpu.fpReg x.word.ra) (x.bitsB cpu) (fpVariantFromEncoded x.word) cpu.fpcr

/-- An instruction folds the exceptions into FPCR and writes the result. -/
theorem exec_eq (fp : FpBackend) (cpu : CpuState) (x : IeeeInstr) :
    x.exec fp cpu = MemDrainer.commitRegWrite
      { cpu with fpcr := foldFpcrExc cpu.fpcr (x.result fp cpu).exc }
      (fpWrite (x.grain cpu) (x.result fp cpu).bits) := rfl

/-- In the pipeline a word that decodes to the row of an instruction does what the instruction
does. -/
theorem executeWord_ieee {δ : Type} (cfg : Config δ) (m : Machine δ) (x : IeeeInstr)
    (hop : x.word.primaryOp ≠ 0x1B ∧ x.word.primaryOp ≠ 0x1F)
    (hdec : decodeEntry cfg m.cpu x.word =
      ⟨.ordinary (.fpBin x.op.backendOp), GrainMaster.fpBinFlags⟩) :
    (executeWord cfg m x.word).1 = { m with cpu := x.exec cfg.fp m.cpu } := by
  have hgrain : makeGrain cfg m.cpu x.word = x.grain m.cpu := by
    rw [makeGrain, hdec, if_neg fun h => h.1.elim hop.1 hop.2]
    rfl
  have hout : execWord cfg m x.word =
      ⟨(execFpBin cfg.fp x.op.backendOp (x.grain m.cpu) (buildCtx (x.grain m.cpu) m.cpu) m.cpu).1,
        m.bus.memory,
        (execFpBin cfg.fp x.op.backendOp (x.grain m.cpu) (buildCtx (x.grain m.cpu) m.cpu) m.cpu).2⟩ := by
    rw [execWord, hgrain, hdec]
    rfl
  rw [executeWord, hout, hgrain]
  rfl

/-- Every instruction delivers what the standard says of its operands. -/
theorem delivers_result (cpu : CpuState) (x : IeeeInstr) :
    Delivers (x.result (reference left rest) cpu) (x.outcome (IeeeState.ofCpu cpu)) := by
  have h := delivers_standard left rest x.op (cpu.fpReg x.word.ra) (x.bitsB cpu)
    (fpVariantFromEncoded x.word) cpu.fpcr
  have hB : f64.datum (x.bitsB cpu).toNat = x.operandB (IeeeState.ofCpu cpu) := by
    rw [IeeeInstr.operandB, IeeeInstr.bitsB]
    split <;> rfl
  rw [modeOf_word, hB] at h
  exact h

/-- A sticky bit after a fold. -/
theorem raised_foldFpcrExc (fpcr : Word) (e : FpExc) :
    (⟨(foldFpcrExc fpcr e).getLsbD 52, (foldFpcrExc fpcr e).getLsbD 53,
      (foldFpcrExc fpcr e).getLsbD 54, (foldFpcrExc fpcr e).getLsbD 55,
      (foldFpcrExc fpcr e).getLsbD 56, (foldFpcrExc fpcr e).getLsbD 57⟩ : FpExc) =
      FpExc.union ⟨fpcr.getLsbD 52, fpcr.getLsbD 53, fpcr.getLsbD 54, fpcr.getLsbD 55,
        fpcr.getLsbD 56, fpcr.getLsbD 57⟩ e := by
  have hbits : ∀ inv dze ovf unf ine iov : Bool,
      (⟨inv, dze, ovf, unf, ine, iov⟩ : FpExc).bits.getLsbD 52 = inv ∧
      (⟨inv, dze, ovf, unf, ine, iov⟩ : FpExc).bits.getLsbD 53 = dze ∧
      (⟨inv, dze, ovf, unf, ine, iov⟩ : FpExc).bits.getLsbD 54 = ovf ∧
      (⟨inv, dze, ovf, unf, ine, iov⟩ : FpExc).bits.getLsbD 55 = unf ∧
      (⟨inv, dze, ovf, unf, ine, iov⟩ : FpExc).bits.getLsbD 56 = ine ∧
      (⟨inv, dze, ovf, unf, ine, iov⟩ : FpExc).bits.getLsbD 57 = iov := by decide
  obtain ⟨h0, h1, h2, h3, h4, h5⟩ := hbits e.inv e.dze e.ovf e.unf e.ine e.iov
  simp only [getLsbD_foldFpcrExc _ _ (by decide : 52 < 63),
    getLsbD_foldFpcrExc _ _ (by decide : 53 < 63),
    getLsbD_foldFpcrExc _ _ (by decide : 54 < 63), getLsbD_foldFpcrExc _ _ (by decide : 55 < 63),
    getLsbD_foldFpcrExc _ _ (by decide : 56 < 63), getLsbD_foldFpcrExc _ _ (by decide : 57 < 63),
    h0, h1, h2, h3, h4, h5, FpExc.union]

/-- Committing a floating result leaves FPCR alone. -/
theorem commit_fpWrite (g : InstructionGrain) (bits : Word) (cpu : CpuState) :
    (MemDrainer.commitRegWrite cpu (fpWrite g bits)).fpcr = cpu.fpcr ∧
      (MemDrainer.commitRegWrite cpu (fpWrite g bits)).fpReg =
        if g.encoded.rc = 31 then cpu.fpReg else Function.update cpu.fpReg g.encoded.rc bits := by
  unfold MemDrainer.commitRegWrite fpWrite
  by_cases hrc : g.encoded.rc = 31 <;> simp only [hrc, if_true, if_false] <;> split <;> exact ⟨rfl, rfl⟩

/-- One instruction does what the machine of the standard does. -/
theorem ofCpu_exec (cpu : CpuState) (x : IeeeInstr) :
    IeeeState.ofCpu (x.exec (reference left rest) cpu) = (IeeeState.ofCpu cpu).step x := by
  obtain ⟨hdatum, hexc⟩ := delivers_result left rest cpu x
  rw [exec_eq]
  generalize x.result (reference left rest) cpu = r at hdatum hexc
  obtain ⟨hfpcr, hreg⟩ := commit_fpWrite (x.grain cpu) r.bits
    { cpu with fpcr := foldFpcrExc cpu.fpcr r.exc }
  rw [IeeeState.ofCpu, hfpcr, hreg, raised_foldFpcrExc, hexc, IeeeState.step, ← hdatum]
  refine congrArg (fun regs => IeeeState.mk regs _) ?_
  funext i
  have hrc : (x.grain cpu).encoded.rc = x.word.rc := rfl
  rw [hrc]
  by_cases h31 : x.word.rc = 31
  · rw [if_pos h31, if_pos h31]
    rfl
  · rw [if_neg h31, if_neg h31]
    by_cases hi : i = x.word.rc
    · rw [hi, Function.update_self, Function.update_self]
    · rw [Function.update_of_ne hi, Function.update_of_ne hi]
      rfl

end Instruction

/-- Over any program the registers and the exceptions are those of the machine of the standard. -/
theorem ofCpu_execProgram (left : RoundingMode) (rest : FpBackend) (cpu : CpuState)
    (xs : List IeeeInstr) :
    IeeeState.ofCpu (execProgram (reference left rest) cpu xs) =
      runFrom IeeeState.step (IeeeState.ofCpu cpu) xs := by
  exact (List.foldl_hom IeeeState.ofCpu fun cpu x => (ofCpu_exec left rest cpu x).symm).symm

end EmulatR
