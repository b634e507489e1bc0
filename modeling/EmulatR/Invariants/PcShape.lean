import EmulatR.System.Platform

/-! # The shape of the PC

Instructions are longwords, so PC<1> is zero and PC<0> is free to hold PALmode (coreLib/CpuState.h).
Branches, jumps, CALL_PAL and the fault entries all keep PC<1> clear. HW_REI and the CSERVE transfer
copy a register into the PC as it is, and the interrupt divert adds an offset to PAL_BASE as it is.
`pcShape_machineRun` says that these three are the only ways to lose the alignment.

`rei_loses_alignment` is a step outside the condition. -/

namespace EmulatR

/-! ## The low two bits -/

/-- The low two bits of an address. -/
def low2 (x : Word) : BitVec 2 := x.setWidth 2

/-- The two low bits are those of the word. -/
theorem getLsbD_low2 {x : Word} {i : Nat} (h : i < 2) : (low2 x).getLsbD i = x.getLsbD i := by
  rw [low2, BitVec.getLsbD_setWidth, decide_eq_true h, Bool.true_and]

/-- The two low bits add on their own. -/
theorem low2_add (x y : Word) : low2 (x + y) = low2 x + low2 y :=
  BitVec.setWidth_add x y (by decide)

/-- The next instruction has the same two low bits. -/
theorem low2_add_four (x : Word) : low2 (x + 4) = low2 x := by
  rw [low2_add, show low2 4 = 0#2 by decide, BitVec.add_zero]

/-- A branch displacement is a multiple of four. -/
theorem low2_add_braDispSext (x : Word) (e : Encoded) :
    low2 (x + e.braDispSext) = low2 x := by
  have h : low2 e.braDispSext = 0#2 := by
    rw [low2, Encoded.braDispSext, BitVec.setWidth_mul _ _ (by decide)]
    rw [show (4 : Word).setWidth 2 = 0#2 by decide, BitVec.mul_zero]
  rw [low2_add, h, BitVec.add_zero]

/-- OR acts on the two low bits alone. -/
theorem low2_or (x y : Word) : low2 (x ||| y) = low2 x ||| low2 y := BitVec.setWidth_or

/-- AND acts on the two low bits alone. -/
theorem low2_and (x y : Word) : low2 (x &&& y) = low2 x &&& low2 y := BitVec.setWidth_and

/-- A jump keeps PC<0> and clears PC<1>. -/
theorem low2_jumpTarget (g : InstructionGrain) (c : ExecCtx) :
    low2 (jumpTarget g c) = low2 g.pc &&& 1 := by
  rw [jumpTarget, low2_or, low2_and, low2_and, show low2 (~~~3) = 0#2 by decide, BitVec.and_zero,
    BitVec.zero_or, show low2 1 = 1 by decide]

/-- PC<1> is clear. -/
def PcAligned (cpu : CpuState) : Prop := cpu.pc.getLsbD 1 = false

/-! ## Where a leaf sends the PC -/

/-- The PC after a result that does not fault. -/
def nextPc (pc : Word) (r : BoxResult) : Word := if r.divert then r.divertTarget else pc + 4

section Leaves

variable (fp : FpBackend) (g : InstructionGrain) (c : ExecCtx) (cpu : CpuState)

/-- The branch is taken. -/
def OrdinaryLeaf.takes (l : OrdinaryLeaf) (a : Word) : Bool :=
  match l with
  | .br => true
  | .bcond cond => cond.met a
  | .fbcond cond => cond.met a
  | _ => false

/-- **An ordinary leaf goes to the next instruction, to a taken branch's target or to a jump's.** -/
theorem OrdinaryLeaf.nextPc_exec (l : OrdinaryLeaf) :
    nextPc g.pc (l.exec fp g c cpu).2 =
      if l = .jmp then jumpTarget g c
      else if l.takes c.opA then g.pc + 4 + g.encoded.braDispSext else g.pc + 4 := by
  cases l with
  -- a branch diverts only when it is taken
  | bcond cond =>
    rw [exec, execBcond, branchResult, nextPc, takes]
    cases cond.met c.opA <;> rfl
  | fbcond cond =>
    rw [exec, execFbcond, branchResult, nextPc, takes]
    cases cond.met c.opA <;> rfl
  -- a conditional move has two results, both without a divert
  | cmov cond =>
    simp only [exec, execCmov]
    split <;> rfl
  | fcmov cond =>
    simp only [exec, execFcmov]
    split <;> rfl
  | _ => rfl

/-- An ordinary instruction keeps both or clears PC<1>. -/
theorem low2_nextPc_ordinary (l : OrdinaryLeaf) :
    low2 (nextPc g.pc (l.exec fp g c cpu).2) = low2 g.pc ∨
      low2 (nextPc g.pc (l.exec fp g c cpu).2) = low2 g.pc &&& 1 := by
  rw [l.nextPc_exec]
  split
  · exact Or.inr (low2_jumpTarget g c)
  · refine Or.inl ?_
    split
    · rw [low2_add_braDispSext, low2_add_four]
    · exact low2_add_four g.pc

/-- A CSERVE that transfers. -/
def cserveTransfers : Bool := CserveFunc.ofR16 (cpu.intReg 16) == .mtprExcAddr

/-- A PAL leaf other than CALL_PAL by divert, HW_REI and the CSERVE transfer goes to the next
instruction. -/
theorem PalLeaf.nextPc_exec (l : PalLeaf) (mem : GuestMemory) (hc : l ≠ .callPalDispatch)
    (hr : l ≠ .hwRei) (hs : l = .cserve → ¬ cserveTransfers cpu) (pc : Word) :
    nextPc pc (l.exec g c cpu mem).result = pc + 4 := by
  cases l with
  | callPalDispatch => exact absurd rfl hc
  | hwRei => exact absurd rfl hr
  | cserve =>
    have hs' := hs rfl
    -- the one service that diverts is excluded
    simp only [exec, execCserve]
    split <;> first | rfl | (rename_i h; exact absurd (by rw [cserveTransfers, h]; rfl) hs')
  | ldqpVms => simp only [exec, execLdqpVms]; split <;> rfl
  | stqpVms => simp only [exec, execStqpVms]; split <;> rfl
  | hwMfpr => simp only [exec, execHwMfpr]; split <;> rfl
  | hwMtpr => simp only [exec, execHwMtpr]; split <;> rfl
  | _ => rfl

/-- A CALL_PAL entry is aligned and in PALmode. -/
theorem low2_computeCallPalEntry (palBase : Word) (func : BitVec 26) :
    low2 (computeCallPalEntry palBase func ||| 1) = 1#2 := by
  -- the function is shifted past the two low bits
  have hshift : ∀ x : Word, low2 (x <<< 6) = 0#2 := by
    intro x
    refine BitVec.eq_of_getLsbD_eq fun i hi => ?_
    rw [getLsbD_low2 hi, BitVec.getLsbD_shiftLeft, decide_eq_true (show i < 6 by omega)]
    simp
  rw [computeCallPalEntry, low2_or, low2_or, low2_or, low2_and, hshift]
  split <;> simp [low2]

/-- An exception entry is aligned and in PALmode. -/
theorem low2_computeHwExceptionEntry (palBase : Word) (e : PalEntry) :
    low2 (computeHwExceptionEntry palBase e ||| 1) = 1#2 := by
  rw [computeHwExceptionEntry, low2_or, low2_or, low2_and]
  -- every vector is a multiple of four
  cases e <;> simp [low2, PalEntry.offset]

end Leaves

/-! ## The alignment over runs -/

section Aligned

variable {δ : Type} (cfg : Config δ)

/-- The register the fetched word copies into the PC as it is, if it copies one: the target of
HW_REI, or R17 for the CSERVE transfer. -/
def rawTarget (m : Machine δ) : Option Word :=
  match fetched cfg m with
  | none => none
  | some e =>
    if (decodeEntry cfg m.cpu e).leaf = .pal .hwRei then some (hwReiTarget e m.cpu)
    else if (decodeEntry cfg m.cpu e).leaf = .pal .cserve ∧ cserveTransfers m.cpu then
      some (m.cpu.intReg 17)
    else none

/-- The event puts no unaligned value into the PC: a raw target has bit 1 clear, and so has PAL_BASE
when an interrupt diverts to it. -/
def PcOk (m : Machine δ) : Event δ → Prop
  | .step => m.cpu.halted ∨ ∀ t, rawTarget cfg m = some t → t.getLsbD 1 = false
  | .interrupt line relocated =>
    canAcceptInterrupt relocated m.cpu line.level → m.cpu.palBase.getLsbD 1 = false
  | .inject => m.cpu.palBase ≠ 0 → m.cpu.palBase.getLsbD 1 = false
  | .environment _ _ => True

variable {cfg} {cpu : CpuState} {m : Machine δ}

/-- The shape of an entry has PC<1> clear. -/
theorem pcAligned_of_low2 {pc : Word} (h : low2 pc = 1#2) : pc.getLsbD 1 = false := by
  rw [← getLsbD_low2 (by decide), h]
  rfl

/-- A fault goes to an aligned entry. -/
theorem PcAligned.retireFault (h : PcAligned cpu) (pc : Word) (f : FaultCode) :
    PcAligned (retireFault pc f cpu) := by
  simp only [EmulatR.retireFault]
  split
  · exact h
  · split
    · split
      · exact h
      · exact pcAligned_of_low2 (low2_computeHwExceptionEntry _ _)
    · exact h

/-- Entering PALmode keeps PC<1>. -/
theorem PcAligned.palModeEnter (h : PcAligned cpu) : PcAligned cpu.palModeEnter := by
  have hor : (cpu.pc ||| 1).getLsbD 1 = false := by
    rw [BitVec.getLsbD_or, show cpu.pc.getLsbD 1 = false from h]
    rfl
  rw [CpuState.palModeEnter]
  split
  · exact h
  · split
    · exact hor
    · exact hor

/-- An interrupt keeps PC<1> clear, if PAL_BASE has bit 1 clear. -/
theorem PcAligned.stageInterruptDivert (h : cpu.palBase.getLsbD 1 = false) (mask : Word) :
    PcAligned (stageInterruptDivert cpu mask) := by
  -- 0x680 does not reach the two low bits
  have hpc : (cpu.palBase + 0x680).getLsbD 1 = false := by
    rw [← getLsbD_low2 (by decide), low2_add, show low2 0x680 = 0#2 by decide, BitVec.add_zero,
      getLsbD_low2 (by decide), h]
  have henter : ∀ c : CpuState, PcAligned c → PcAligned ({ c.palModeEnter with isum := mask }) :=
    fun c hc => hc.palModeEnter
  exact henter { cpu with excAddr := cpu.pc, pc := cpu.palBase + 0x680 } hpc

/-- A leaf leaves the PC aligned unless it copies a raw target. -/
theorem PcAligned.nextPc (h : PcAligned m.cpu) {e : Encoded} (he : fetched cfg m = some e)
    (hok : ∀ t, rawTarget cfg m = some t → t.getLsbD 1 = false) :
    (nextPc m.cpu.pc (leafOut cfg m e).result).getLsbD 1 = false := by
  have hpc : (leafGrain cfg m e).pc = m.cpu.pc := rfl
  have hadd : (m.cpu.pc + 4).getLsbD 1 = false := by
    rw [← getLsbD_low2 (by decide), low2_add_four, getLsbD_low2 (by decide)]
    exact h
  rw [rawTarget, he] at hok
  rw [leafOut_eq]
  cases hl : (decodeEntry cfg m.cpu e).leaf with
  | ordinary l =>
    -- only the two low bits matter, and a leaf keeps them or keeps bit 0
    rw [← getLsbD_low2 (by decide), ← hpc]
    rw [Leaf.exec]
    rcases low2_nextPc_ordinary cfg.fp (leafGrain cfg m e) (leafCtx cfg m e) m.cpu l with hn | hn
    · rw [hn, hpc, getLsbD_low2 (by decide)]
      exact h
    · rw [hn, BitVec.getLsbD_and, show (1 : BitVec 2).getLsbD 1 = false by decide, Bool.and_false]
  | pal l =>
    rw [Leaf.exec]
    by_cases hc : l = .callPalDispatch
    · subst hc
      exact pcAligned_of_low2 (low2_computeCallPalEntry _ _)
    by_cases hr : l = .hwRei
    · subst hr
      -- HW_REI copies its target; the condition speaks of it
      exact hok _ (by simp only [hl, if_true]; rfl)
    by_cases hs : l = .cserve ∧ cserveTransfers m.cpu
    · obtain ⟨rfl, hs⟩ := hs
      -- and so does the CSERVE transfer
      have h17 := hok (m.cpu.intReg 17) (by simp [hl, hs])
      have hfun : CserveFunc.ofR16 (m.cpu.intReg 16) = .mtprExcAddr := by
        simpa [cserveTransfers] using hs
      simp only [PalLeaf.exec, execCserve, hfun]
      exact h17
    · rw [PalLeaf.nextPc_exec _ _ _ l _ hc hr (fun hl h => hs ⟨hl, h⟩)]
      exact hadd

/-- One instruction keeps the alignment. -/
theorem PcAligned.stepCpu (h : PcAligned m.cpu) (hok : PcOk cfg m .step) :
    PcAligned (stepCpu cfg m).cpu := by
  have hout := stepCpu_cases cfg m
  generalize EmulatR.stepCpu cfg m = m' at hout ⊢
  cases hout with
  | halted _ => exact h
  | fetchFault f _ _ =>
    have h' : PcAligned (latchFetchFault m.cpu) := h
    exact h'.retireFault m.cpu.pc f
  | fault e f x _ _ hl =>
    obtain ⟨⟨ms, va, cb, hcpu⟩, -⟩ := hl.frame
    have h' : PcAligned x.cpu := by rw [hcpu]; exact h
    exact h'.retireFault m.cpu.pc f
  | done e v x hh he _ => exact h.nextPc he (hok.resolve_left hh)

/-- **One event keeps the alignment.** -/
theorem PcAligned.machineStep (h : PcAligned m.cpu) {ev : Event δ} (hok : PcOk cfg m ev) :
    PcAligned (machineStep cfg m ev).cpu := by
  cases ev with
  | step => exact h.stepCpu hok
  | interrupt line relocated =>
    rw [EmulatR.machineStep]
    split
    · exact PcAligned.stageInterruptDivert (hok ‹_›) _
    · exact h
  | inject =>
    rw [EmulatR.machineStep]
    split
    · exact PcAligned.stageInterruptDivert (hok ‹_›) _
    · exact h
  | environment devices cycleCount => exact h

end Aligned

/-! ## How an instruction moves the PC -/

section Moves

variable {δ : Type} (p : Platform δ) {m : Machine δ} {e : Encoded}

/-- The fetched word is a branch that is taken. -/
def takesBranch (m : Machine δ) (e : Encoded) : Bool :=
  match (decodeEntry p.config m.cpu e).leaf with
  | .ordinary l => l.takes (leafCtx p.config m e).opA
  | .pal _ => false

/-- The PC an instruction other than CALL_PAL and HW_REI goes to: the target of a jump, the target
of a taken branch, or the next instruction. -/
def architectedNextPc (m : Machine δ) (e : Encoded) : Word :=
  if e.primaryOp = 0x1A then (m.cpu.intReg e.rb &&& ~~~3) ||| (m.cpu.pc &&& 1)
  else if takesBranch p m e then m.cpu.pc + 4 + e.braDispSext
  else m.cpu.pc + 4

/-- BR, BSR or a jump. -/
def isLinking (e : Encoded) : Bool :=
  e.primaryOp == 0x30 || e.primaryOp == 0x34 || e.primaryOp == 0x1A

/-- **How the next step moves the PC**, if it does not fault. -/
structure StepShape (m : Machine δ) (e : Encoded) : Prop where
  /-- An instruction other than CALL_PAL and HW_REI keeps PALmode. -/
  palMode : e.primaryOp ≠ 0 → e.primaryOp ≠ 0x1E →
    (stepCpu p.config m).cpu.inPalMode = m.cpu.inPalMode
  /-- It goes where the architecture says. -/
  nextPc : e.primaryOp ≠ 0 → e.primaryOp ≠ 0x1E →
    (stepCpu p.config m).cpu.pc = architectedNextPc p m e
  /-- Only a branch opcode takes a branch. -/
  branch : takesBranch p m e → 0x30 ≤ e.primaryOp
  /-- A link is the next instruction's address with bits 1:0 clear, in either mode. -/
  link : isLinking e → e.ra ≠ 31 →
    (stepCpu p.config m).cpu.intReg e.ra = (m.cpu.pc + 4) &&& ~~~3

/-- A jump reads operand B from Rb. -/
theorem opB_of_jmp (hl : (decodeEntry p.config m.cpu e).leaf = .ordinary .jmp) :
    (leafCtx p.config m e).opB = m.cpu.intReg e.rb := by
  -- a fact about the row, so it is decided over the table
  have hflags : (decodeEntry p.config m.cpu e).semFlags.contains .readsRb = true ∧
      (decodeEntry p.config m.cpu e).semFlags.contains .opFormat = false ∧
      (decodeEntry p.config m.cpu e).semFlags.contains .fpFormat = false ∧
      (decodeEntry p.config m.cpu e).semFlags.contains .readsFp = false := by
    revert hl
    refine p.decode_ind e m.cpu.palPersonality (P := fun x => x.leaf = .ordinary .jmp →
      x.semFlags.contains .readsRb = true ∧ x.semFlags.contains .opFormat = false ∧
        x.semFlags.contains .fpFormat = false ∧ x.semFlags.contains .readsFp = false) ?_
        (by decide) (by decide)
    decide +kernel
  obtain ⟨hrb, hop, hfp, hrf⟩ := hflags
  have henc : (leafGrain p.config m e).encoded = e := rfl
  simp only [leafCtx_eq, buildCtx, hrb, hop, hfp, hrf, henc, if_true, Bool.or_self, Bool.false_and,
    Bool.false_eq_true, if_false]

/-- The leaves of an instruction other than CALL_PAL and HW_REI. -/
theorem leaf_of_opcode (h0 : e.primaryOp ≠ 0) (h1 : e.primaryOp ≠ 0x1E) :
    (∃ l, (decodeEntry p.config m.cpu e).leaf = .ordinary l) ∨
      ∃ l, (decodeEntry p.config m.cpu e).leaf = .pal l ∧ (l = .hwMfpr ∨ l = .hwMtpr) ∧
        e.primaryOp ≠ 0x1A := by
  have hrun := p.runsUnder e m.cpu.palPersonality
  have h0' : e.primaryOp.toNat ≠ 0 := fun h => h0 (BitVec.eq_of_toNat_eq h)
  have h1' : e.primaryOp.toNat ≠ 0x1E := fun h => h1 (BitVec.eq_of_toNat_eq h)
  rw [show p.config.decode e m.cpu.palPersonality = decodeEntry p.config m.cpu e from rfl] at hrun
  cases hl : (decodeEntry p.config m.cpu e).leaf with
  | ordinary l => exact Or.inl ⟨l, rfl⟩
  | pal l =>
    rw [hl] at hrun
    -- the opcode excludes every PAL leaf but the two IPR accesses
    cases l with
    | hwMfpr => exact Or.inr ⟨_, rfl, Or.inl rfl, by rintro h; rw [h] at hrun; cases hrun⟩
    | hwMtpr => exact Or.inr ⟨_, rfl, Or.inr rfl, by rintro h; rw [h] at hrun; cases hrun⟩
    | hwRei => exact absurd (by simpa [Leaf.runsUnder] using hrun) h1'
    | _ => exact absurd (by simpa [Leaf.runsUnder] using hrun) h0'

/-- Under opcode 0x1A a leaf is the jump or OPCDEC, and under no other opcode is it the jump. -/
theorem jmp_iff {l : OrdinaryLeaf} (hl : (decodeEntry p.config m.cpu e).leaf = .ordinary l)
    (hl' : l ≠ .opcDec) : l = .jmp ↔ e.primaryOp = 0x1A := by
  have hrun : Leaf.runsUnder (.ordinary l) e.primaryOp.toNat :=
    hl ▸ p.runsUnder e m.cpu.palPersonality
  constructor
  · rintro rfl
    simp only [Leaf.runsUnder, beq_iff_eq] at hrun
    exact BitVec.eq_of_toNat_eq hrun
  · intro hop
    rw [hop] at hrun
    -- what each leaf may run under is a closed fact
    revert hrun hl'
    clear hl
    cases l <;> simp [Leaf.runsUnder]

/-- Only branch opcodes take a branch. -/
theorem le_of_takes {l : OrdinaryLeaf} (hl : (decodeEntry p.config m.cpu e).leaf = .ordinary l)
    {a : Word} (ht : l.takes a) : 0x30 ≤ e.primaryOp := by
  have hrun : Leaf.runsUnder (.ordinary l) e.primaryOp.toNat :=
    hl ▸ p.runsUnder e m.cpu.palPersonality
  rw [BitVec.le_def]
  cases l with
  -- the branch opcodes are the top quarter of the opcode space
  | br =>
    simp only [Leaf.runsUnder, Bool.or_eq_true, beq_iff_eq] at hrun
    rcases hrun with h | h <;> rw [h] <;> decide
  | bcond cond =>
    simp only [Leaf.runsUnder, decide_eq_true_eq] at hrun
    exact Nat.le_trans (by decide) hrun
  | fbcond cond =>
    simp only [Leaf.runsUnder, Bool.and_eq_true, decide_eq_true_eq] at hrun
    exact Nat.le_trans (by decide) hrun.1.1
  | _ => cases ht

/-- A linking opcode runs the branch leaf, the jump leaf or OPCDEC. -/
theorem leaf_of_isLinking (h : isLinking e) :
    (decodeEntry p.config m.cpu e).leaf = .ordinary .br ∨
      (decodeEntry p.config m.cpu e).leaf = .ordinary .jmp ∨
      (decodeEntry p.config m.cpu e).leaf = .ordinary .opcDec := by
  have hrun : (decodeEntry p.config m.cpu e).leaf.runsUnder e.primaryOp.toNat :=
    p.runsUnder e m.cpu.palPersonality
  have hop : e.primaryOp.toNat = 0x30 ∨ e.primaryOp.toNat = 0x34 ∨ e.primaryOp.toNat = 0x1A := by
    simp only [isLinking, Bool.or_eq_true, beq_iff_eq] at h
    rcases h with (h | h) | h <;> rw [h] <;> decide
  -- every leaf under each of the three opcodes; all but three are impossible
  revert hrun
  generalize (decodeEntry p.config m.cpu e).leaf = l
  rcases hop with hop | hop | hop <;> rw [hop] <;> rcases l with l | l <;> cases l <;>
    first | exact fun _ => Or.inl rfl | exact fun _ => Or.inr (Or.inl rfl) |
      exact fun _ => Or.inr (Or.inr rfl) | exact fun h => absurd h Bool.false_ne_true

/-- Where an ordinary leaf sends the PC. -/
theorem nextPc_leafOut_ordinary (cfg : Config δ) {l : OrdinaryLeaf}
    (hl : (decodeEntry cfg m.cpu e).leaf = .ordinary l) :
    nextPc m.cpu.pc (leafOut cfg m e).result =
      if l = .jmp then jumpTarget (leafGrain cfg m e) (leafCtx cfg m e)
      else if l.takes (leafCtx cfg m e).opA then m.cpu.pc + 4 + e.braDispSext
      else m.cpu.pc + 4 := by
  rw [leafOut_eq, hl]
  exact l.nextPc_exec cfg.fp (leafGrain cfg m e) (leafCtx cfg m e) m.cpu

/-- HW_MFPR and HW_MTPR go to the next instruction. -/
theorem nextPc_leafOut_hw (cfg : Config δ) {l : PalLeaf}
    (hl : (decodeEntry cfg m.cpu e).leaf = .pal l) (hhw : l = .hwMfpr ∨ l = .hwMtpr) :
    nextPc m.cpu.pc (leafOut cfg m e).result = m.cpu.pc + 4 := by
  rw [leafOut_eq, hl]
  refine l.nextPc_exec _ _ m.cpu _ ?_ ?_ ?_ m.cpu.pc <;> rcases hhw with rfl | rfl <;> nofun

/-- The opcode 0x1A and the taken branches are those of the leaf. -/
theorem architectedNextPc_eq (h0 : e.primaryOp ≠ 0) (h1 : e.primaryOp ≠ 0x1E)
    (hr : (leafOut p.config m e).result.faultCode = .noFault) :
    nextPc m.cpu.pc (leafOut p.config m e).result = architectedNextPc p m e := by
  rcases leaf_of_opcode p h0 h1 (m := m) with ⟨l, hl⟩ | ⟨l, hl, hhw, hne⟩
  -- the OPCDEC sentinel would have faulted
  · have hl' : l ≠ .opcDec := by
      rintro rfl
      rw [leafOut_eq, hl] at hr
      cases hr
    rw [nextPc_leafOut_ordinary p.config hl, architectedNextPc, takesBranch, hl]
    by_cases hj : l = .jmp
    · rw [if_pos hj, if_pos ((jmp_iff p hl hl').mp hj), jumpTarget, opB_of_jmp p (hj ▸ hl)]
      rfl
    · rw [if_neg hj, if_neg fun h => hj ((jmp_iff p hl hl').mpr h)]
  · rw [nextPc_leafOut_hw p.config hl hhw, architectedNextPc, takesBranch, hl, if_neg hne]
    rfl

/-- The architected next PC is in the same mode. -/
theorem getLsbD_architectedNextPc (m : Machine δ) (e : Encoded) :
    (architectedNextPc p m e).getLsbD 0 = m.cpu.pc.getLsbD 0 := by
  rw [architectedNextPc, ← getLsbD_low2 (by decide)]
  split
  · rw [low2_or, low2_and, low2_and, show low2 (~~~3) = 0#2 by decide, BitVec.and_zero,
      BitVec.zero_or, BitVec.getLsbD_and, show (low2 1).getLsbD 0 = true by decide, Bool.and_true,
      getLsbD_low2 (by decide)]
  · split
    · rw [low2_add_braDispSext, low2_add_four, getLsbD_low2 (by decide)]
    · rw [low2_add_four, getLsbD_low2 (by decide)]

/-- What BR, BSR and the jumps link. -/
theorem leafOut_of_isLinking (h : isLinking e)
    (hr : (leafOut p.config m e).result.faultCode = .noFault) :
    ∃ target, (leafOut p.config m e).result = linkResult (leafGrain p.config m e) target := by
  rw [leafOut_eq] at hr ⊢
  rcases leaf_of_isLinking p h (m := m) with hl | hl | hl
  · rw [hl]
    exact ⟨_, rfl⟩
  · rw [hl]
    exact ⟨_, rfl⟩
  · rw [hl] at hr
    cases hr

/-- **Every instruction that does not fault moves the PC and links as the architecture says.** -/
theorem stepShape (hh : ¬ m.cpu.halted) (he : fetched p.config m = some e)
    (hn : (issue p.config m).2.faultCode = .noFault) : StepShape p m e := by
  obtain ⟨hr, v, hv, hcpu⟩ := stepCpu_of_noFault p.config hh he hn
  have hpc : (stepCpu p.config m).cpu.pc =
      nextPc m.cpu.pc (leafOut p.config m e).result := by rw [hcpu]; rfl
  have hnext : e.primaryOp ≠ 0 → e.primaryOp ≠ 0x1E →
      (stepCpu p.config m).cpu.pc = architectedNextPc p m e :=
    fun h0 h1 => hpc.trans (architectedNextPc_eq p h0 h1 hr)
  refine ⟨fun h0 h1 => ?_, hnext, fun ht => ?_, fun hlink hra => ?_⟩
  · rw [CpuState.inPalMode, hnext h0 h1, getLsbD_architectedNextPc]
    rfl
  · rw [takesBranch] at ht
    split at ht
    · exact le_of_takes p ‹_› ht
    · cases ht
  -- the linked value is the leaf's own: a link asks for no memory access
  · obtain ⟨target, hres⟩ := leafOut_of_isLinking p hlink hr
    rw [hres] at hv
    rw [hcpu, hv rfl, doneCpu, hres]
    exact MemDrainer.intReg_commitRegWrite _ hra rfl

end Moves

/-! ## Runs -/

/-- **The shape of the PC.** Over every run that copies no unaligned value into the PC, PC<1> is
clear in every state reached; and whatever the state, an instruction that does not fault moves the
PC and links as the architecture says. -/
theorem pcShape_machineRun {δ : Type} (p : Platform δ) {m : Machine δ} (hm : PcAligned m.cpu)
    {es : List (Event δ)}
    (hrun : Library.RunMeets (machineStep p.config) (PcOk p.config) m es) :
    PcAligned (machineRun p.config m es).cpu ∧
      ∀ (m' : Machine δ) (e : Encoded), ¬ m'.cpu.halted → fetched p.config m' = some e →
        (issue p.config m').2.faultCode = .noFault → StepShape p m' e := by
  have hinv : PcAligned (machineRun p.config m es).cpu :=
    hrun.invariant (fun x : Machine δ => PcAligned x.cpu)
      (fun _ _ h hok => PcAligned.machineStep h hok) hm
  exact ⟨hinv, fun _ _ hh he hn => stepShape p hh he hn⟩

/-- HW_REI copies its target into the PC as it is. -/
theorem pc_stepCpu_of_hwRei {δ : Type} {cfg : Config δ} {m : Machine δ} {e : Encoded}
    (hh : ¬ m.cpu.halted) (he : fetched cfg m = some e)
    (hl : (decodeEntry cfg m.cpu e).leaf = .pal .hwRei) :
    (stepCpu cfg m).cpu.pc = hwReiTarget e m.cpu := by
  have hout : (leafOut cfg m e).result = (execHwRei (leafGrain cfg m e) m.cpu).2 := by
    rw [leafOut_eq, hl]
    rfl
  rw [stepCpu_of_plain cfg hh he (by rw [hout]; rfl) (by rw [hout]; rfl)]
  -- both halves of the result are HW_REI's: it diverts, and to its target
  show (if (leafOut cfg m e).result.divert then (leafOut cfg m e).result.divertTarget
    else m.cpu.pc + 4) = _
  rw [hout]
  rfl

/-- HW_REI (R0). -/
def hwReiR0 : Encoded := 0x7BE00000

/-- The HW_REI row of the table. -/
def hwReiRow : GrainRow :=
  ⟨"HW_REI", 0x1E, some 0, .hwRei,
    [.hwFormat, .privileged, .palExit, .changesPC, .uncond, .noTrace], .pal .hwRei⟩

/-- HW_REI is a row of the table. -/
theorem mem_rows_hwReiRow : hwReiRow ∈ GrainMaster.rows :=
  GrainMaster.mem_rows_of_family GrainMaster.hwRows (by simp [GrainMaster.families])
    (by simp [GrainMaster.hwRows, hwReiRow])

/-- The word decodes to that row. -/
theorem decodeEntry_hwRei {δ : Type} (p : Platform δ) (cpu : CpuState) :
    decodeEntry p.config cpu hwReiR0 = hwReiRow.entry :=
  p.decodeEntry_eq _ cpu mem_rows_hwReiRow
    (GrainRow.selected_of_isDirect (by decide) (by decide) (by decide)) (by decide)

/-- A CPU in PALmode at address 0 with a target in R0. -/
def reiCpu (target : Word) : CpuState :=
  { pc := 1, palBase := 0x600000, intReg := Function.update (fun _ => 0) 0 target }

/-- A machine about to execute HW_REI (R0). -/
def reiMachine (target : Word) : Machine Unit := ⟨reiCpu target, ⟨.empty 16, ()⟩, .empty⟩

/-- The machine fetches HW_REI. -/
theorem fetched_reiMachine (target : Word) :
    fetched (fetchOnly hwReiR0).config (reiMachine target) = some hwReiR0 :=
  fetched_fetchOnly_of_pal (show (reiMachine target).cpu.pc = 1 from rfl) (by decide) (by decide)

/-- The HW_REI of the machine goes where R0 says. -/
theorem rawTarget_reiMachine (target : Word) :
    rawTarget (fetchOnly hwReiR0).config (reiMachine target) = some target := by
  simp only [rawTarget, fetched_reiMachine]
  rw [decodeEntry_hwRei]
  rfl

/-- The PC is the raw target, bit 1 included. -/
theorem pc_reiMachine (target : Word) :
    (stepCpu (fetchOnly hwReiR0).config (reiMachine target)).cpu.pc = target :=
  pc_stepCpu_of_hwRei (by nofun) (fetched_reiMachine target)
    (congrArg GrainEntry.leaf (decodeEntry_hwRei _ _))

/-- HW_REI to an aligned target. -/
theorem pcShape_machineRun_rei :
    PcAligned (machineRun (fetchOnly hwReiR0).config (reiMachine 0x4000) [.step]).cpu := by
  have haligned : PcAligned (reiMachine 0x4000).cpu := rfl
  have hok : PcOk (fetchOnly hwReiR0).config (reiMachine 0x4000) .step := by
    refine Or.inr fun t ht => ?_
    rw [rawTarget_reiMachine] at ht
    cases ht
    rfl
  have hrun : Library.RunMeets (machineStep (fetchOnly hwReiR0).config)
      (PcOk (fetchOnly hwReiR0).config) (reiMachine 0x4000) [.step] := ⟨hok, trivial⟩
  exact (pcShape_machineRun (fetchOnly hwReiR0) haligned hrun).1

/-- HW_REI to a target with bit 1 set takes an aligned PC to an unaligned one. -/
theorem rei_loses_alignment :
    PcAligned (reiMachine 0x4002).cpu ∧
      ¬ PcAligned (machineRun (fetchOnly hwReiR0).config (reiMachine 0x4002) [.step]).cpu := by
  refine ⟨rfl, fun h => ?_⟩
  rw [machineRun_step, PcAligned, pc_reiMachine] at h
  revert h
  decide

end EmulatR
