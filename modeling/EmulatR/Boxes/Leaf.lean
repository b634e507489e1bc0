import EmulatR.Boxes.PalBox

/-! # Leaves

A table row names a leaf; `Leaf.exec` runs it. The leaves fall into two groups. An ordinary leaf
touches the CPU at most in FPCR and in the RC/RS flag. A PAL leaf (CALL_PAL, HW_MFPR, HW_MTPR,
HW_REI) may write the CPU state or guest memory itself. -/

namespace EmulatR

/-- The leaves of the Ebox, Ibox, Mbox, Cbox and Fbox. -/
inductive OrdinaryLeaf
  | opcDec | unimplemented | barrier
  | int (op : IntOp) | cmov (cond : RegCond) | rc | rs | rpcc
  | br | bcond (cond : RegCond) | jmp
  | lda | ldah | load (size : Nat) | ldqU | store (size : Nat) | stqU | storeC (size : Nat)
  | hwLd | hwSt
  | fpBin (op : FpBinOp) | fpUn (op : FpUnOp) | fpMove (op : FpMoveOp)
  | fcmov (cond : FpCond) | fbcond (cond : FpCond) | mfFpcr | mtFpcr
  | fpLoad (size : Nat) | fpStore (fmt : FpMemFormat)
  deriving DecidableEq, Repr

/-- The leaves of the PalBox. -/
inductive PalLeaf
  | callPalDispatch | halt | cserve | ldqpVms | stqpVms | mfprVptbVms | mtprVptbVms | wtint
  | mfprWhami | swpctxVms | hwMfpr | hwMtpr | hwRei
  deriving DecidableEq, Repr

/-- The leaves. -/
inductive Leaf
  /-- A leaf that sees registers only. -/
  | ordinary (l : OrdinaryLeaf)
  /-- A leaf of the PAL box, which sees the processor and memory. -/
  | pal (l : PalLeaf)
  deriving DecidableEq, Repr

section Exec

variable (fp : FpBackend) (g : InstructionGrain) (c : ExecCtx) (cpu : CpuState)

/-- Run an ordinary leaf. A stub is a leaf nobody has written yet. The barriers TRAPB, EXCB, MB and
WMB, and FETCH and ECB, only pass their flags on. -/
def OrdinaryLeaf.exec : OrdinaryLeaf → CpuState × BoxResult
  | opcDec => (cpu, execOpcDec g)
  | unimplemented => (cpu, faultResult g .unimplemented)
  | barrier => (cpu, plainResult g)
  | int op => (cpu, execIntOp op g c)
  | cmov cond => (cpu, execCmov cond g c)
  | rc => execRc g cpu
  | rs => execRs g cpu
  | rpcc => (cpu, execRpcc g cpu)
  | br => (cpu, execBr g)
  | bcond cond => (cpu, execBcond cond g c)
  | jmp => (cpu, execJmp g c)
  | lda => (cpu, execLda g c)
  | ldah => (cpu, execLdah g c)
  | load size => (cpu, execLoad size g c)
  | ldqU => (cpu, execLdqU g c)
  | store size => (cpu, execStore size g c)
  | stqU => (cpu, execStqU g c)
  | storeC size => (cpu, execStoreC size g c)
  | hwLd => (cpu, execHwLd g c)
  | hwSt => (cpu, execHwSt g c)
  | fpBin op => execFpBin fp op g c cpu
  | fpUn op => execFpUn fp op g c cpu
  | fpMove op => (cpu, execFpMove op g c)
  | fcmov cond => (cpu, execFcmov cond g c)
  | fbcond cond => (cpu, execFbcond cond g c)
  | mfFpcr => (cpu, execMfFpcr g cpu)
  | mtFpcr => execMtFpcr g c cpu
  | fpLoad size => (cpu, execFpLoad size g c)
  | fpStore fmt => (cpu, execFpStore fmt g c)

/-- Run a leaf of the PalBox. -/
def PalLeaf.exec (mem : GuestMemory) : PalLeaf → ExecOut
  | callPalDispatch => ⟨(execCallPalDispatch g cpu).1, mem, (execCallPalDispatch g cpu).2⟩
  | halt => ⟨cpu, mem, faultResult g .halt⟩
  | cserve => execCserve g cpu mem
  | ldqpVms => ⟨(execLdqpVms g cpu).1, mem, (execLdqpVms g cpu).2⟩
  | stqpVms => ⟨(execStqpVms g cpu).1, mem, (execStqpVms g cpu).2⟩
  | mfprVptbVms => ⟨cpu, mem, execMfprVptbVms g cpu⟩
  | mtprVptbVms => ⟨(execMtprVptbVms g cpu).1, mem, (execMtprVptbVms g cpu).2⟩
  | wtint => ⟨cpu, mem, execWtint g⟩
  | mfprWhami => ⟨cpu, mem, execMfprWhami g cpu⟩
  | swpctxVms => execSwpctxVms g cpu mem
  | hwMfpr => ⟨cpu, mem, execHwMfpr g cpu⟩
  | hwMtpr => ⟨(execHwMtpr g c cpu).1, mem, (execHwMtpr g c cpu).2⟩
  | hwRei => ⟨(execHwRei g cpu).1, mem, (execHwRei g cpu).2⟩

/-- Run a leaf. -/
def Leaf.exec (mem : GuestMemory) : Leaf → ExecOut
  | ordinary l => ⟨(l.exec fp g c cpu).1, mem, (l.exec fp g c cpu).2⟩
  | pal l => l.exec g c cpu mem

end Exec

/-! ## What a leaf can do -/

section Effects

variable (fp : FpBackend) (g : InstructionGrain) (c : ExecCtx) (cpu : CpuState)

/-- **An ordinary leaf touches FPCR and the RC/RS flag only.** -/
theorem OrdinaryLeaf.exec_cpu (l : OrdinaryLeaf) :
    ∃ f i, (l.exec fp g c cpu).1 = { cpu with fpcr := f, intrFlag := i } := by
  cases l with
  -- five leaves write the CPU; the others return it as it is
  | rc => exact ⟨cpu.fpcr, 0, rfl⟩
  | rs => exact ⟨cpu.fpcr, 1, rfl⟩
  | fpBin op => exact ⟨_, cpu.intrFlag, rfl⟩
  | fpUn op => exact ⟨_, cpu.intrFlag, rfl⟩
  | mtFpcr => exact ⟨c.opA, cpu.intrFlag, rfl⟩
  | _ => exact ⟨cpu.fpcr, cpu.intrFlag, rfl⟩

/-- An ordinary leaf that faults or asks for a memory access has left the CPU as it was. -/
theorem OrdinaryLeaf.exec_cpu_of_interrupted (l : OrdinaryLeaf)
    (h : (l.exec fp g c cpu).2.faultCode ≠ .noFault ∨ (l.exec fp g c cpu).2.memSize ≠ 0) :
    (l.exec fp g c cpu).1 = cpu := by
  cases l with
  -- the five that write the CPU neither fault nor ask for an access
  | rc => exact absurd h (by simp [exec, execRc, intWrite])
  | rs => exact absurd h (by simp [exec, execRs, intWrite])
  | fpBin op => exact absurd h (by simp [exec, execFpBin, fpWrite])
  | fpUn op => exact absurd h (by simp [exec, execFpUn, fpWrite])
  | mtFpcr => exact absurd h (by simp [exec, execMtFpcr, plainResult])
  | _ => rfl

/-- The leaf is a LDQP or a STQP, and it traps on its alignment. -/
def Leaf.quadFaults (l : Leaf) (cpu : CpuState) : Bool :=
  (l == .pal .ldqpVms || l == .pal .stqpVms) && quadTraps cpu

/-- The CPU after a leaf that is interrupted: a LDQP or STQP that traps writes MM_STAT. -/
def Leaf.interruptedCpu (l : Leaf) (cpu : CpuState) : CpuState :=
  if l.quadFaults cpu then { cpu with mmStat := cpu.intReg 16 } else cpu

/-- A PAL leaf that faults or asks for a memory access has written MM_STAT at most. -/
theorem PalLeaf.exec_of_interrupted (l : PalLeaf) (mem : GuestMemory)
    (h : (l.exec g c cpu mem).result.faultCode ≠ .noFault ∨
      (l.exec g c cpu mem).result.memSize ≠ 0) :
    (l.exec g c cpu mem).cpu = (Leaf.pal l).interruptedCpu cpu ∧
      (l.exec g c cpu mem).memory = mem := by
  cases l with
  | callPalDispatch => exact absurd h (by simp [exec, execCallPalDispatch, plainResult])
  -- either the service does nothing to the CPU or it completes
  | cserve =>
    simp only [exec, execCserve] at h ⊢
    split at h <;>
      first
      | exact ⟨rfl, rfl⟩
      | exact absurd h (by simp [plainResult])
  | ldqpVms =>
    refine ⟨?_, rfl⟩
    simp only [exec, execLdqpVms, Leaf.interruptedCpu, Leaf.quadFaults, BEq.rfl, Bool.true_or,
      Bool.true_and]
    split <;> rfl
  | stqpVms =>
    refine ⟨?_, rfl⟩
    simp only [exec, execStqpVms, Leaf.interruptedCpu, Leaf.quadFaults, BEq.rfl, Bool.or_true,
      Bool.true_and]
    split <;> rfl
  | mtprVptbVms => exact absurd h (by simp [exec, execMtprVptbVms, plainResult])
  | swpctxVms => exact absurd h (by simp [exec, execSwpctxVms, intWrite])
  -- a known register completes; an unknown one faults before any write
  | hwMtpr =>
    refine ⟨?_, rfl⟩
    simp only [exec, execHwMtpr] at h ⊢
    split at h
    · exact absurd h (by simp [plainResult])
    · rfl
  | hwRei => exact absurd h (by simp [exec, execHwRei, plainResult])
  | _ => exact ⟨rfl, rfl⟩

/-- **A leaf that faults or asks for a memory access has done nothing else**, except that a
misaligned LDQP or STQP has written MM_STAT. -/
theorem Leaf.exec_of_interrupted (l : Leaf) (mem : GuestMemory)
    (h : (l.exec fp g c cpu mem).result.faultCode ≠ .noFault ∨
      (l.exec fp g c cpu mem).result.memSize ≠ 0) :
    (l.exec fp g c cpu mem).cpu = l.interruptedCpu cpu ∧
      (l.exec fp g c cpu mem).memory = mem := by
  cases l with
  | ordinary l => exact ⟨l.exec_cpu_of_interrupted fp g c cpu h, rfl⟩
  | pal l => exact l.exec_of_interrupted g c cpu mem h

/-- A LDQP or STQP that traps is a fault. -/
theorem Leaf.faultCode_of_quadFaults {l : Leaf} {cpu : CpuState} (h : l.quadFaults cpu)
    (mem : GuestMemory) : (l.exec fp g c cpu mem).result.faultCode = .unaligned := by
  simp only [Leaf.quadFaults, Bool.and_eq_true, Bool.or_eq_true, beq_iff_eq] at h
  obtain ⟨rfl | rfl, hq⟩ := h
  · simp only [exec, PalLeaf.exec, execLdqpVms, if_pos hq, faultResult]
  · simp only [exec, PalLeaf.exec, execStqpVms, if_pos hq, faultResult]

end Effects

end EmulatR
