import EmulatR.Invariants.PcShape

/-! # The shadow bank

R4–R7 and R20–R23 exist twice (coreLib/PalShadow.h). The live copy should be the PAL one exactly in
PALmode with I_CTL.SDE<1> set, and the exchange is made at every site that moves the CPU in or out
of that condition: CALL_PAL, the fault and interrupt diverts, HW_REI and the I_CTL write. Two sites
miss it: the CSERVE transfer writes PC<0> without an exchange, and the interrupt divert tests
PALmode only after it has overwritten the PC. `shadowBank_machineRun` says that along every run that
avoids these, the right bank is live and a stay in PALcode leaves the native registers alone.

`cserve_leaves_pal_copies_live` is a CSERVE that breaks it. -/

namespace EmulatR

/-- The live bank holds the PAL copies exactly in PALmode with shadowing enabled. -/
def BankInv (cpu : CpuState) : Prop := cpu.shadowLive = (cpu.inPalMode && cpu.sdeEnabled)

/-- The native values of the eight shadowed registers, wherever they are. -/
def nativeBank (cpu : CpuState) : BitVec 3 → Word :=
  if cpu.shadowLive then cpu.intShadow else cpu.liveBank

/-! ## The exchange -/

section Exchange

variable {cpu : CpuState}

/-- An address with its lowest bit set has it. -/
theorem getLsbD_or_one (x : Word) : (x ||| 1).getLsbD 0 = true := by
  rw [BitVec.getLsbD_or]
  exact Bool.or_true _

/-- One with its lowest bit cleared does not. -/
theorem getLsbD_and_not_one (x : Word) : (x &&& ~~~1).getLsbD 0 = false := by
  rw [BitVec.getLsbD_and]
  exact Bool.and_false _

/-- Moving the PC keeps the invariant if, with shadowing enabled, PALmode stays. -/
theorem BankInv.withPc (h : BankInv cpu) (pc : Word)
    (hpc : cpu.sdeEnabled → pc.getLsbD 0 = cpu.inPalMode) : BankInv { cpu with pc := pc } := by
  show cpu.shadowLive = (pc.getLsbD 0 && cpu.sdeEnabled)
  rw [h]
  by_cases hs : cpu.sdeEnabled
  · rw [hpc hs]
  · rw [Bool.not_eq_true] at hs
    rw [hs, Bool.and_false, Bool.and_false]

/-- Entering PALmode keeps the invariant. -/
theorem BankInv.palModeEnter (h : BankInv cpu) : BankInv cpu.palModeEnter := by
  rw [CpuState.palModeEnter]
  split
  · exact h
  · rename_i hp
    rw [Bool.not_eq_true] at hp
    have hlive : cpu.shadowLive = false := by rw [h, hp, Bool.false_and]
    split
    · rename_i hs
      show (!cpu.shadowLive) = ((cpu.pc ||| 1).getLsbD 0 && cpu.sdeEnabled)
      rw [hlive, getLsbD_or_one, hs]
      rfl
    · rename_i hs
      rw [Bool.not_eq_true] at hs
      show cpu.shadowLive = ((cpu.pc ||| 1).getLsbD 0 && cpu.sdeEnabled)
      rw [hlive, hs, Bool.and_false]

/-- Leaving PALmode keeps the invariant. -/
theorem BankInv.palModeLeave (h : BankInv cpu) : BankInv cpu.palModeLeave := by
  simp only [CpuState.palModeLeave]
  split
  · exact h
  · rename_i hp
    have hp' : cpu.inPalMode = true := by simpa using hp
    split
    · rename_i hs
      have hs' : cpu.sdeEnabled = true := hs
      -- the exchange puts the native copies back as PC<0> goes down
      show (!cpu.shadowLive) = ((cpu.pc &&& ~~~1).getLsbD 0 && cpu.sdeEnabled)
      rw [h, hp', hs', getLsbD_and_not_one]
      rfl
    · rename_i hs
      have hs' : cpu.sdeEnabled = false := Bool.eq_false_iff.mpr hs
      show cpu.shadowLive = ((cpu.pc &&& ~~~1).getLsbD 0 && cpu.sdeEnabled)
      rw [h, hs', Bool.and_false, Bool.and_false]

/-- After entering PALmode the CPU is in it. -/
theorem inPalMode_palModeEnter (cpu : CpuState) : cpu.palModeEnter.inPalMode = true := by
  rw [CpuState.palModeEnter]
  split
  · exact ‹_›
  · exact getLsbD_or_one _

/-- Entering keeps I_CTL. -/
theorem iCtl_palModeEnter (cpu : CpuState) : cpu.palModeEnter.iCtl = cpu.iCtl := by
  rw [CpuState.palModeEnter]
  split
  · rfl
  · split <;> rfl

/-- Entering PALmode keeps the register that links CALL_PAL. -/
theorem callPalLinkageReg_palModeEnter (cpu : CpuState) :
    cpu.palModeEnter.callPalLinkageReg = cpu.callPalLinkageReg := by
  rw [CpuState.callPalLinkageReg, iCtl_palModeEnter]
  rfl

/-- In PALmode the PAL copies are live iff shadowing is enabled. -/
theorem BankInv.shadowLive_palModeEnter (h : BankInv cpu) :
    cpu.palModeEnter.shadowLive = cpu.sdeEnabled := by
  rw [h.palModeEnter, inPalMode_palModeEnter, Bool.true_and, CpuState.sdeEnabled, iCtl_palModeEnter]
  rfl

/-- After leaving PALmode the CPU is not in it. -/
theorem inPalMode_palModeLeave (cpu : CpuState) : cpu.palModeLeave.inPalMode = false := by
  simp only [CpuState.palModeLeave]
  split
  · rename_i hp
    simpa using hp
  · split
    · exact getLsbD_and_not_one _
    · exact getLsbD_and_not_one _

/-- Setting the mode keeps the invariant. -/
theorem BankInv.setPalMode (h : BankInv cpu) (target : Bool) : BankInv (cpu.setPalMode target) := by
  rw [CpuState.setPalMode]
  split
  · exact h
  · split
    · exact h.palModeEnter
    · exact h.palModeLeave

/-- The mode is as it was set. -/
theorem inPalMode_setPalMode (cpu : CpuState) (target : Bool) :
    (cpu.setPalMode target).inPalMode = target := by
  rw [CpuState.setPalMode]
  split
  · assumption
  · cases target with
    | true => exact inPalMode_palModeEnter cpu
    | false => exact inPalMode_palModeLeave cpu

/-- A write of I_CTL keeps the invariant. -/
theorem BankInv.writeICtl (h : BankInv cpu) (v : Word) : BankInv (writeICtl cpu v) := by
  have hsde : cpu.sdeEnabled = CpuState.iCtlSdeHigh cpu.iCtl := rfl
  rw [BankInv, hsde] at h
  rw [EmulatR.writeICtl]
  split
  -- in PALmode a change of SDE flips both sides of the invariant
  · rename_i hc
    rw [Bool.and_eq_true, bne_iff_ne] at hc
    show (!cpu.shadowLive) = (cpu.inPalMode && CpuState.iCtlSdeHigh v)
    rw [h, hc.1, Bool.true_and, Bool.true_and]
    exact (Bool.eq_not_of_ne (Ne.symm hc.2)).symm
  -- natively the left side is false whatever SDE says
  · rename_i hc
    show cpu.shadowLive = (cpu.inPalMode && CpuState.iCtlSdeHigh v)
    rw [h]
    cases hp : cpu.inPalMode with
    | false => rfl
    | true => rw [hp] at hc; simpa using hc

/-! The native values survive every exchange. -/

/-- Swapping the shadow registers keeps the native bank. -/
theorem nativeBank_swapPalShadowRegs (cpu : CpuState) :
    nativeBank cpu.swapPalShadowRegs = nativeBank cpu := by
  rw [nativeBank, nativeBank, CpuState.shadowLive_swapPalShadowRegs,
    CpuState.intShadow_swapPalShadowRegs, CpuState.liveBank_swapPalShadowRegs]
  -- the bank that was outside is now inside, and the flag says so
  cases cpu.shadowLive <;> rfl

/-- Entering PALmode keeps the native bank. -/
theorem nativeBank_palModeEnter (cpu : CpuState) : nativeBank cpu.palModeEnter = nativeBank cpu := by
  rw [CpuState.palModeEnter]
  split
  · rfl
  · split
    · exact nativeBank_swapPalShadowRegs cpu
    · rfl

/-- Leaving PALmode keeps the native bank. -/
theorem nativeBank_palModeLeave (cpu : CpuState) : nativeBank cpu.palModeLeave = nativeBank cpu := by
  simp only [CpuState.palModeLeave]
  split
  · rfl
  · split
    · exact nativeBank_swapPalShadowRegs { cpu with pc := cpu.pc &&& ~~~1 }
    · rfl

/-- Setting the mode keeps the native bank. -/
theorem nativeBank_setPalMode (cpu : CpuState) (target : Bool) :
    nativeBank (cpu.setPalMode target) = nativeBank cpu := by
  rw [CpuState.setPalMode]
  split
  · rfl
  · split
    · exact nativeBank_palModeEnter cpu
    · exact nativeBank_palModeLeave cpu

/-- A write of I_CTL keeps the native bank. -/
theorem nativeBank_writeICtl (cpu : CpuState) (v : Word) :
    nativeBank (writeICtl cpu v) = nativeBank cpu := by
  rw [writeICtl]
  split
  · exact nativeBank_swapPalShadowRegs { cpu with iCtl := v, iSpe := v.extractLsb' 3 3 }
  · rfl

/-- A register write leaves the native values alone if the PAL copies are live or the register is
not one of the eight. -/
theorem nativeBank_update {r : BitVec 5} (h : cpu.shadowLive ∨ CpuState.shadowSlot r = none)
    (v : Word) :
    nativeBank { cpu with intReg := Function.update cpu.intReg r v } = nativeBank cpu := by
  by_cases hl : cpu.shadowLive
  · rw [nativeBank, nativeBank, if_pos hl, if_pos hl]
  · rw [nativeBank, nativeBank, if_neg hl, if_neg hl]
    -- the native copies are live, so the write must miss all eight
    funext i
    have hne : CpuState.shadowedReg i ≠ r := by
      rintro rfl
      have hslot := h.resolve_left hl
      rw [CpuState.shadowSlot_shadowedReg] at hslot
      cases hslot
    exact Function.update_of_ne hne v cpu.intReg

end Exchange

/-! ## The fault paths -/

section Fault

variable {cpu : CpuState}

/-- A fault keeps the invariant. -/
theorem BankInv.retireFault (h : BankInv cpu) (pc : Word) (f : FaultCode) :
    BankInv (retireFault pc f cpu) := by
  -- a vector address has PC<0> set, as the switch left it
  have henter : ∀ (x : Word) (c : CpuState), BankInv c → x.getLsbD 0 = true →
      BankInv { c.palModeEnter with pc := x } := fun x c hc hx =>
    hc.palModeEnter.withPc x fun _ => by rw [hx, inPalMode_palModeEnter]
  simp only [EmulatR.retireFault]
  split
  · exact h
  · split
    · split
      · exact h
      · exact henter _ { cpu with lastFaultCode := f, excAddr := _ } h (getLsbD_or_one _)
    · exact h

/-- A fault delivery keeps the native bank. -/
theorem nativeBank_retireFault (cpu : CpuState) (pc : Word) (f : FaultCode) :
    nativeBank (retireFault pc f cpu) = nativeBank cpu := by
  have henter : ∀ (x : Word) (c : CpuState),
      nativeBank { c.palModeEnter with pc := x } = nativeBank c :=
    fun x c => nativeBank_palModeEnter c
  simp only [retireFault]
  split
  · rfl
  · split
    · split
      · rfl
      · exact henter _ { cpu with lastFaultCode := f, excAddr := _ }
    · rfl

/-- An interrupt keeps the invariant if PAL_BASE has the bit of the mode. -/
theorem BankInv.stageInterruptDivert (h : BankInv cpu)
    (hpc : cpu.sdeEnabled → cpu.palBase.getLsbD 0 = cpu.inPalMode) (mask : Word) :
    BankInv (stageInterruptDivert cpu mask) := by
  -- 0x680 is even, so the divert target has the PALmode bit of PAL_BASE
  have hbit : (cpu.palBase + 0x680).getLsbD 0 = cpu.palBase.getLsbD 0 := by
    rw [← getLsbD_low2 (by decide), low2_add, show low2 0x680 = 0#2 by decide, BitVec.add_zero,
      getLsbD_low2 (by decide)]
  have henter : ∀ c : CpuState, BankInv c → BankInv ({ c.palModeEnter with isum := mask }) :=
    fun c hc => hc.palModeEnter
  have hexc : BankInv { cpu with excAddr := cpu.pc } := h
  have hpc' := hexc.withPc (cpu.palBase + 0x680) fun hs => hbit.trans (hpc hs)
  exact henter _ hpc'

/-- An interrupt divert keeps the native bank. -/
theorem nativeBank_stageInterruptDivert (cpu : CpuState) (mask : Word) :
    nativeBank (stageInterruptDivert cpu mask) = nativeBank cpu := by
  have henter : ∀ c : CpuState, nativeBank ({ c.palModeEnter with isum := mask }) = nativeBank c :=
    nativeBank_palModeEnter
  have hpc : ∀ pc : Word, nativeBank { cpu with excAddr := cpu.pc, pc := pc } = nativeBank cpu :=
    fun _ => rfl
  rw [stageInterruptDivert]
  exact (henter _).trans (hpc _)

end Fault

/-! ## The leaves -/

section Leaves

variable {δ : Type} {cfg : Config δ} {m : Machine δ} {e : Encoded} {cpu : CpuState}

/-- An IPR write keeps the invariant, PALmode and the native values. -/
theorem BankInv.writeIpr (h : BankInv cpu) {v : Word} {ipr : HwIpr} {cpu' : CpuState}
    (hw : writeIpr cpu v ipr = some cpu') :
    BankInv cpu' ∧ cpu'.inPalMode = cpu.inPalMode ∧ nativeBank cpu' = nativeBank cpu := by
  cases ipr with
  | iCtl =>
    -- the only register write that can exchange the banks
    obtain rfl := Option.some.inj hw
    refine ⟨h.writeICtl v, ?_, nativeBank_writeICtl cpu v⟩
    rw [EmulatR.writeICtl]
    split <;> rfl
  | unknown => cases hw
  | _ => obtain rfl := Option.some.inj hw; exact ⟨h, rfl, rfl⟩

/-- HW_MTPR keeps the invariant, the mode and the native bank. -/
theorem BankInv.execHwMtpr (h : BankInv cpu) (g : InstructionGrain) (c : ExecCtx) :
    BankInv (execHwMtpr g c cpu).1 ∧ (execHwMtpr g c cpu).1.inPalMode = cpu.inPalMode ∧
      nativeBank (execHwMtpr g c cpu).1 = nativeBank cpu := by
  rw [EmulatR.execHwMtpr]
  split
  · exact h.writeIpr ‹_›
  · exact ⟨h, rfl, rfl⟩

/-- CALL_PAL keeps the invariant. -/
theorem BankInv.execCallPalDispatch (h : BankInv cpu) (g : InstructionGrain) :
    BankInv { (execCallPalDispatch g cpu).1 with
      pc := (execCallPalDispatch g cpu).2.divertTarget } := by
  have h' : BankInv { cpu with excAddr := callPalLinkage g cpu } := h
  have hpc := h'.palModeEnter.withPc (computeCallPalEntry cpu.palBase (palFunc g.encoded) ||| 1)
    fun _ => by rw [getLsbD_or_one, inPalMode_palModeEnter]
  exact hpc

/-- HW_REI keeps the invariant. -/
theorem BankInv.execHwRei (h : BankInv cpu) (g : InstructionGrain) :
    BankInv { (execHwRei g cpu).1 with pc := (execHwRei g cpu).2.divertTarget } :=
  (h.setPalMode ((hwReiTarget g.encoded cpu).getLsbD 0)).withPc (hwReiTarget g.encoded cpu)
    fun _ => (inPalMode_setPalMode cpu _).symm

/-- A switch of contexts keeps the invariant. -/
theorem BankInv.enterContext (h : BankInv cpu) (pcbb : Word) (ctx : Hwpcb) :
    BankInv (enterContext cpu pcbb ctx) := h

/-- The CPU as the leaf left it, at the address it goes to. -/
def afterLeafCpu (cfg : Config δ) (m : Machine δ) (e : Encoded) : CpuState :=
  { (leafOut cfg m e).cpu with pc := nextPc m.cpu.pc (leafOut cfg m e).result }

/-- The next instruction has the mode bit of this one. -/
theorem getLsbD_add_four (x : Word) : (x + 4).getLsbD 0 = x.getLsbD 0 := by
  rw [← getLsbD_low2 (by decide), low2_add_four, getLsbD_low2 (by decide)]

/-- An ordinary leaf keeps PALmode. -/
theorem inPalMode_afterLeafCpu_ordinary {l : OrdinaryLeaf}
    (hl : (decodeEntry cfg m.cpu e).leaf = .ordinary l) :
    (afterLeafCpu cfg m e).inPalMode = m.cpu.inPalMode := by
  have hpc : (leafGrain cfg m e).pc = m.cpu.pc := rfl
  have hout : (leafOut cfg m e).result =
      (l.exec cfg.fp (leafGrain cfg m e) (leafCtx cfg m e) m.cpu).2 := by
    rw [leafOut_eq, hl]
    rfl
  show (nextPc m.cpu.pc (leafOut cfg m e).result).getLsbD 0 = m.cpu.pc.getLsbD 0
  rw [hout, ← getLsbD_low2 (by decide), ← hpc]
  -- a jump may clear bit 1 of the target, never bit 0
  rcases low2_nextPc_ordinary cfg.fp (leafGrain cfg m e) (leafCtx cfg m e) m.cpu l with hn | hn
  · rw [hn, getLsbD_low2 (by decide)]
  · rw [hn, BitVec.getLsbD_and, show (1 : BitVec 2).getLsbD 0 = true by decide, Bool.and_true,
      getLsbD_low2 (by decide)]

/-- The event flips PC<0> without an exchange: the CSERVE transfer. -/
def transfersRaw (cfg : Config δ) (m : Machine δ) (e : Encoded) : Prop :=
  (decodeEntry cfg m.cpu e).leaf = .pal .cserve ∧ cserveTransfers m.cpu

/-- Every instruction keeps the invariant, but CSERVE 0x44 to the other mode. -/
theorem BankInv.afterLeafCpu (h : BankInv m.cpu)
    (hok : transfersRaw cfg m e → m.cpu.sdeEnabled →
      (m.cpu.intReg 17).getLsbD 0 = m.cpu.inPalMode) :
    BankInv (afterLeafCpu cfg m e) := by
  -- a leaf that goes on to the next word keeps the mode of its PC
  have hplain : ∀ c : CpuState, BankInv c → c.inPalMode = m.cpu.inPalMode →
      BankInv { c with pc := m.cpu.pc + 4 } := by
    intro c hc hp
    refine hc.withPc _ fun _ => ?_
    rw [getLsbD_add_four, hp]
    rfl
  cases hl : (decodeEntry cfg m.cpu e).leaf with
  | ordinary l =>
    have hmode := inPalMode_afterLeafCpu_ordinary hl
    obtain ⟨f, i, hout⟩ := leafOut_cpu_of_ordinary cfg hl
    rw [EmulatR.afterLeafCpu, hout] at hmode ⊢
    exact h.withPc _ fun _ => hmode
  | pal l =>
    rw [EmulatR.afterLeafCpu, leafOut_eq, hl, Leaf.exec]
    -- the three leaves that divert, then the rest
    by_cases hc : l = .callPalDispatch
    · subst hc
      exact h.execCallPalDispatch (leafGrain cfg m e)
    by_cases hr : l = .hwRei
    · subst hr
      exact h.execHwRei (leafGrain cfg m e)
    by_cases hs : l = .cserve ∧ cserveTransfers m.cpu
    · obtain ⟨rfl, hs⟩ := hs
      -- the raw target carries the PALmode bit, so the condition of the run is used here
      have h17 := hok ⟨hl, hs⟩
      have hfun : CserveFunc.ofR16 (m.cpu.intReg 16) = .mtprExcAddr := by
        simpa [cserveTransfers] using hs
      simp only [PalLeaf.exec, execCserve, hfun]
      have h' : BankInv { m.cpu with excAddr := m.cpu.intReg 17 } := h
      exact h'.withPc _ h17
    rw [PalLeaf.nextPc_exec _ _ _ l _ hc hr fun hl h => hs ⟨hl, h⟩]
    cases l with
    | callPalDispatch => exact absurd rfl hc
    | hwRei => exact absurd rfl hr
    | hwMtpr =>
      obtain ⟨hb, hp, -⟩ := h.execHwMtpr (leafGrain cfg m e) (leafCtx cfg m e)
      exact hplain _ hb hp
    | cserve => simp only [PalLeaf.exec, execCserve]; split <;> exact hplain _ h rfl
    | ldqpVms => simp only [PalLeaf.exec, execLdqpVms]; split <;> exact hplain _ h rfl
    | stqpVms => simp only [PalLeaf.exec, execStqpVms]; split <;> exact hplain _ h rfl
    | mtprVptbVms => exact hplain { m.cpu with vptb := m.cpu.intReg 16 } h rfl
    | swpctxVms => exact hplain _ (h.enterContext _ _) rfl
    | _ => exact hplain m.cpu h rfl

/-- CALL_PAL by divert links through a register of the live bank; it is one of the native values
only with R23 as the link register and shadowing disabled. -/
theorem BankInv.nativeBank_execCallPalDispatch (hb : BankInv cpu) (g : InstructionGrain)
    (h : cpu.sdeEnabled ∨ cpu.callPalLinkageReg = 27) :
    nativeBank (EmulatR.execCallPalDispatch g cpu).1 = nativeBank cpu := by
  have hb' : BankInv { cpu with excAddr := callPalLinkage g cpu } := hb
  refine Eq.trans (nativeBank_update ?_ _)
    (nativeBank_palModeEnter { cpu with excAddr := callPalLinkage g cpu })
  rw [hb'.shadowLive_palModeEnter, callPalLinkageReg_palModeEnter]
  refine h.imp_right fun h27 => ?_
  have h27' : ({ cpu with excAddr := callPalLinkage g cpu } : CpuState).callPalLinkageReg = 27 := h27
  rw [h27']
  decide

/-- Every PAL leaf but HW_MFPR writes its result to R0 or to none. -/
theorem shadowSlot_regWriteIdx (l : PalLeaf) (hl : l ≠ .hwMfpr) (g : InstructionGrain)
    (c : ExecCtx) (mem : GuestMemory) :
    CpuState.shadowSlot (l.exec g c cpu mem).result.regWriteIdx = none := by
  cases l with
  | hwMfpr => exact absurd rfl hl
  | cserve => simp only [PalLeaf.exec, execCserve]; split <;> rfl
  | ldqpVms => simp only [PalLeaf.exec, execLdqpVms]; split <;> rfl
  | stqpVms => simp only [PalLeaf.exec, execStqpVms]; split <;> rfl
  | hwMtpr => simp only [PalLeaf.exec, execHwMtpr]; split <;> rfl
  | _ => rfl

/-- The register write leaves the native values alone under the condition of `nativeBank_update`. -/
theorem nativeBank_commitRegWrite {r : BoxResult}
    (h : cpu.shadowLive ∨ CpuState.shadowSlot r.regWriteIdx = none) :
    nativeBank (MemDrainer.commitRegWrite cpu r) = nativeBank cpu := by
  have hfix : ∀ c : CpuState, nativeBank (if c.intReg 31 ≠ 0 then
      { c with intReg := Function.update c.intReg 31 0 } else c) = nativeBank c := by
    intro c
    split
    · exact nativeBank_update (Or.inr rfl) 0
    · rfl
  rw [MemDrainer.commitRegWrite]
  refine (hfix _).trans ?_
  split
  · rfl
  · split
    · rfl
    · exact nativeBank_update h _

/-- A PAL leaf leaves the native values alone, unless CALL_PAL links through a native R23. -/
theorem BankInv.nativeBank_palLeaf (hb : BankInv cpu) (l : PalLeaf) (g : InstructionGrain)
    (c : ExecCtx) (mem : GuestMemory)
    (h : l = .callPalDispatch → cpu.sdeEnabled ∨ cpu.callPalLinkageReg = 27) :
    nativeBank (l.exec g c cpu mem).cpu = nativeBank cpu := by
  cases l with
  | callPalDispatch => exact hb.nativeBank_execCallPalDispatch g (h rfl)
  | hwRei => exact nativeBank_setPalMode cpu _
  | hwMtpr => exact (hb.execHwMtpr g c).2.2
  | cserve => simp only [PalLeaf.exec, execCserve]; split <;> rfl
  | ldqpVms => simp only [PalLeaf.exec, execLdqpVms]; split <;> rfl
  | stqpVms => simp only [PalLeaf.exec, execStqpVms]; split <;> rfl
  | swpctxVms => exact nativeBank_update (Or.inr rfl) _
  | _ => rfl

/-- A completed instruction keeps the invariant. -/
theorem BankInv.doneCpu (h : BankInv m.cpu)
    (hok : transfersRaw cfg m e → m.cpu.sdeEnabled →
      (m.cpu.intReg 17).getLsbD 0 = m.cpu.inPalMode) (v : Word) :
    BankInv (doneCpu cfg m e v) := by
  have hleaf : BankInv (EmulatR.afterLeafCpu cfg m e) := h.afterLeafCpu hok
  obtain ⟨ir, fr, hcommit⟩ := MemDrainer.commitRegWrite_frame (leafOut cfg m e).cpu
    { (leafOut cfg m e).result with regWriteValue := v }
  rw [EmulatR.doneCpu, hcommit]
  exact hleaf

/-- Writing the result back keeps the mode. -/
theorem inPalMode_doneCpu (v : Word) :
    (doneCpu cfg m e v).inPalMode = (afterLeafCpu cfg m e).inPalMode := rfl

/-- **An instruction leaves the native values alone** if the PAL copies are live, or if it takes the
CPU from native mode into PALmode without linking through a native R23. -/
theorem BankInv.nativeBank_doneCpu (h : BankInv m.cpu) (v : Word)
    (hlink : (decodeEntry cfg m.cpu e).leaf = .pal .callPalDispatch →
      m.cpu.sdeEnabled ∨ m.cpu.callPalLinkageReg = 27)
    (hlive : m.cpu.shadowLive ∨
      (m.cpu.inPalMode = false ∧ (EmulatR.doneCpu cfg m e v).inPalMode = true)) :
    nativeBank (EmulatR.doneCpu cfg m e v) = nativeBank m.cpu := by
  -- the commit can only touch the native values through a shadowed destination
  have hcommit : (leafOut cfg m e).cpu.shadowLive ∨
      CpuState.shadowSlot (leafOut cfg m e).result.regWriteIdx = none →
      nativeBank (EmulatR.doneCpu cfg m e v) = nativeBank (leafOut cfg m e).cpu := fun hc =>
    nativeBank_commitRegWrite (r := { (leafOut cfg m e).result with regWriteValue := v }) hc
  cases hl : (decodeEntry cfg m.cpu e).leaf with
  | ordinary l =>
    obtain ⟨f, i, hout⟩ := leafOut_cpu_of_ordinary cfg hl
    rcases hlive with hlive | ⟨hnative, hpal⟩
    · rw [hcommit (Or.inl (by rw [hout]; exact hlive)), hout]
      rfl
    · -- An ordinary leaf does not change the mode.
      rw [inPalMode_doneCpu, inPalMode_afterLeafCpu_ordinary hl, hnative] at hpal
      cases hpal
  | pal l =>
    have hcpu : (leafOut cfg m e).cpu =
        (l.exec (leafGrain cfg m e) (leafCtx cfg m e) m.cpu m.bus.memory).cpu := by
      rw [leafOut_eq, hl]
      rfl
    have hbank : nativeBank (leafOut cfg m e).cpu = nativeBank m.cpu := by
      rw [hcpu]
      exact h.nativeBank_palLeaf l _ _ _ fun hc => hlink (hc ▸ hl)
    -- HW_MFPR writes any register, so it needs the PAL copies to be live
    by_cases hm : l = .hwMfpr
    · subst hm
      rcases hlive with hlive | ⟨hnative, hpal⟩
      · rw [hcommit (Or.inl (by rw [hcpu]; exact hlive)), hbank]
      · have hpc : nextPc m.cpu.pc (leafOut cfg m e).result = m.cpu.pc + 4 :=
          nextPc_leafOut_hw cfg hl (Or.inl rfl)
        have hmode : (EmulatR.doneCpu cfg m e v).inPalMode = m.cpu.inPalMode := by
          rw [inPalMode_doneCpu, EmulatR.afterLeafCpu, hpc]
          exact getLsbD_add_four m.cpu.pc
        rw [hmode, hnative] at hpal
        cases hpal
    -- every other PAL leaf writes R0 or nothing
    · rw [hcommit (Or.inr ?_), hbank]
      have hres : (leafOut cfg m e).result =
          (l.exec (leafGrain cfg m e) (leafCtx cfg m e) m.cpu m.bus.memory).result := by
        rw [leafOut_eq, hl]
        rfl
      rw [hres]
      exact shadowSlot_regWriteIdx l hm _ _ _

end Leaves

/-! ## Runs -/

section Runs

variable {δ : Type} (cfg : Config δ)

/-- With shadowing enabled the event does not change PC<0> behind the exchange: a CSERVE transfer
stays in its mode, and an interrupt divert finds in PAL_BASE<0> the PALmode it leaves. -/
def BankOk (m : Machine δ) : Event δ → Prop
  | .step => m.cpu.halted ∨ ∀ e, fetched cfg m = some e → transfersRaw cfg m e →
      m.cpu.sdeEnabled → (m.cpu.intReg 17).getLsbD 0 = m.cpu.inPalMode
  | .interrupt line relocated => canAcceptInterrupt relocated m.cpu line.level →
      m.cpu.sdeEnabled → m.cpu.palBase.getLsbD 0 = m.cpu.inPalMode
  | .inject => m.cpu.palBase ≠ 0 → m.cpu.sdeEnabled →
      m.cpu.palBase.getLsbD 0 = m.cpu.inPalMode
  | .environment _ _ => True

/-- The event belongs to a stay in PALcode: an instruction executed in PALmode with shadowing
enabled, the native instruction that enters PALmode, or no instruction at all. A CALL_PAL that
enters with shadowing disabled links through R27, not through the native R23. -/
def InPalStay (m : Machine δ) : Event δ → Prop
  | .step => (m.cpu.inPalMode = true ∧ m.cpu.sdeEnabled = true) ∨
      (m.cpu.inPalMode = false ∧ (stepCpu cfg m).cpu.inPalMode = true ∧
        ∀ e, fetched cfg m = some e → (decodeEntry cfg m.cpu e).leaf = .pal .callPalDispatch →
          m.cpu.sdeEnabled ∨ m.cpu.callPalLinkageReg = 27)
  | _ => True

variable {cfg} {m : Machine δ}

/-- One instruction keeps the invariant. -/
theorem BankInv.stepCpu (h : BankInv m.cpu) (hok : BankOk cfg m .step) :
    BankInv (stepCpu cfg m).cpu := by
  have hout := stepCpu_cases cfg m
  generalize EmulatR.stepCpu cfg m = m' at hout ⊢
  cases hout with
  | halted _ => exact h
  | fetchFault f _ _ =>
    have h' : BankInv (latchFetchFault m.cpu) := h
    exact h'.retireFault m.cpu.pc f
  | fault e f x _ _ hl =>
    obtain ⟨⟨ms, va, cb, hcpu⟩, -⟩ := hl.frame
    have h' : BankInv x.cpu := by rw [hcpu]; exact h
    exact h'.retireFault m.cpu.pc f
  | done e v x hh he _ => exact h.doneCpu (hok.resolve_left hh e he) v

/-- Counting the cycle keeps the native bank. -/
theorem nativeBank_tick (cpu : CpuState) : nativeBank cpu.tick = nativeBank cpu := rfl

/-- The tick keeps the mode. -/
theorem inPalMode_tick (cpu : CpuState) : cpu.tick.inPalMode = cpu.inPalMode := rfl

/-- One instruction of a stay in PALcode leaves the native values alone. -/
theorem BankInv.nativeBank_stepCpu (h : BankInv m.cpu) (hstay : InPalStay cfg m .step) :
    nativeBank (EmulatR.stepCpu cfg m).cpu = nativeBank m.cpu := by
  have hout := stepCpu_cases cfg m
  rw [InPalStay] at hstay
  generalize EmulatR.stepCpu cfg m = m' at hout hstay ⊢
  cases hout with
  | halted _ => rfl
  | fetchFault f _ _ => exact nativeBank_retireFault (latchFetchFault m.cpu) m.cpu.pc f
  | fault e f x _ _ hl =>
    obtain ⟨⟨ms, va, cb, hcpu⟩, -⟩ := hl.frame
    refine (nativeBank_retireFault x.cpu m.cpu.pc f).trans ?_
    rw [hcpu]
    rfl
  | done e v x hh he _ =>
    rw [nativeBank_tick]
    rw [inPalMode_tick] at hstay
    rcases hstay with ⟨hpal, hsde⟩ | ⟨hnative, hpal, hlink⟩
    -- in PALmode with shadowing on, the invariant says the PAL copies are live
    · exact h.nativeBank_doneCpu v (fun _ => Or.inl hsde)
        (Or.inl (by rw [show m.cpu.shadowLive = _ from h, hpal, hsde]; rfl))
    · exact h.nativeBank_doneCpu v (hlink e he) (Or.inr ⟨hnative, hpal⟩)

/-- **One event keeps the invariant.** -/
theorem BankInv.machineStep (h : BankInv m.cpu) {ev : Event δ} (hok : BankOk cfg m ev) :
    BankInv (machineStep cfg m ev).cpu := by
  cases ev with
  | step => exact h.stepCpu hok
  | interrupt line relocated =>
    rw [EmulatR.machineStep]
    split
    · exact h.stageInterruptDivert (hok ‹_›) _
    · exact h
  | inject =>
    rw [EmulatR.machineStep]
    split
    · exact h.stageInterruptDivert (hok ‹_›) _
    · exact h
  | environment devices cycleCount => exact h

/-- One event of a stay in PALcode leaves the native values alone. -/
theorem BankInv.nativeBank_machineStep (h : BankInv m.cpu) {ev : Event δ}
    (hstay : InPalStay cfg m ev) : nativeBank (EmulatR.machineStep cfg m ev).cpu =
      nativeBank m.cpu := by
  cases ev with
  | step => exact h.nativeBank_stepCpu hstay
  | interrupt line relocated =>
    rw [EmulatR.machineStep]
    split
    · exact nativeBank_stageInterruptDivert m.cpu _
    · rfl
  | inject =>
    rw [EmulatR.machineStep]
    split
    · exact nativeBank_stageInterruptDivert m.cpu _
    · rfl
  | environment devices cycleCount => rfl

/-- In native mode the live bank holds the native values. -/
theorem BankInv.nativeBank_of_native {cpu : CpuState} (h : BankInv cpu)
    (hn : cpu.inPalMode = false) : nativeBank cpu = cpu.liveBank := by
  rw [nativeBank, if_neg (by rw [show cpu.shadowLive = _ from h, hn]; exact Bool.false_ne_true)]

variable (cfg)

/-- **The shadow bank.** Over every run in which no event changes PC<0> behind the exchange, the
live bank holds the PAL copies exactly in PALmode with shadowing enabled, in every state reached;
and a stay in PALcode, from native mode to native mode, leaves the eight registers unchanged. -/
theorem shadowBank_machineRun (hm : BankInv m.cpu) {es : List (Event δ)}
    (hrun : Library.RunMeets (EmulatR.machineStep cfg) (BankOk cfg) m es) :
    BankInv (machineRun cfg m es).cpu ∧
      (Library.RunMeets (EmulatR.machineStep cfg) (InPalStay cfg) m es →
        m.cpu.inPalMode = false → (machineRun cfg m es).cpu.inPalMode = false →
        ∀ i, (machineRun cfg m es).cpu.intReg (CpuState.shadowedReg i) =
          m.cpu.intReg (CpuState.shadowedReg i)) := by
  have hinv : BankInv (machineRun cfg m es).cpu :=
    hrun.invariant (fun m => BankInv m.cpu) (fun _ _ h hok => h.machineStep hok) hm
  refine ⟨hinv, fun hstay h0 h1 i => ?_⟩
  have hboth := Library.RunMeets.and hrun hstay
  -- the native values are carried along with the invariant
  have hnative : nativeBank (machineRun cfg m es).cpu = nativeBank m.cpu :=
    (hboth.invariant (fun x => BankInv x.cpu ∧ nativeBank x.cpu = nativeBank m.cpu)
      (fun _ _ h hok => ⟨h.1.machineStep hok.1, (h.1.nativeBank_machineStep hok.2).trans h.2⟩)
      ⟨hm, rfl⟩).2
  rw [hinv.nativeBank_of_native h1, hm.nativeBank_of_native h0] at hnative
  exact congrFun hnative i

end Runs

/-- A native process with shadowing enabled and the timer's interrupt open. Its registers hold 5,
those of PALcode 9. -/
def nativeProcess : Machine Unit :=
  ⟨{ pc := 0x1000, palBase := 0x600000, iCtl := 0x80, ier := 1 <<< 35
     intReg := fun r => if r = 0 then 0x4000 else 5
     intShadow := fun _ => 9 }, ⟨.empty 16, ()⟩, .empty⟩

/-- The process in its interrupt handler. -/
def interruptedProcess : Machine Unit :=
  { nativeProcess with cpu := stageInterruptDivert nativeProcess.cpu (IrqLine.isumMask .timer) }

/-- The timer interrupts the process. -/
theorem machineStep_interrupt_nativeProcess (cfg : Config Unit) :
    machineStep cfg nativeProcess (.interrupt .timer true) = interruptedProcess := by
  rw [machineStep, if_pos (by decide)]
  rfl

/-- An interrupt enters PALcode, which sees its own registers, and HW_REI comes back to those of the
process. -/
theorem shadowBank_machineRun_stay :
    (machineRun (fetchOnly hwReiR0).config nativeProcess [.interrupt .timer true]).cpu.liveBank =
        (fun _ => 9) ∧
      (machineRun (fetchOnly hwReiR0).config nativeProcess
        [.interrupt .timer true, .step]).cpu.liveBank = fun _ => 5 := by
  have hdivert := machineStep_interrupt_nativeProcess (fetchOnly hwReiR0).config
  have hpc : interruptedProcess.cpu.pc = 0x600681 := by decide
  have hpal : interruptedProcess.cpu.inPalMode = true ∧ interruptedProcess.cpu.sdeEnabled = true := by
    decide
  have hfetch : fetched (fetchOnly hwReiR0).config interruptedProcess = some hwReiR0 :=
    fetched_fetchOnly_of_pal hpc (by decide) (by decide)
  have hok : BankOk (fetchOnly hwReiR0).config interruptedProcess .step := by
    refine Or.inr fun e he ht => ?_
    rw [hfetch] at he
    cases he
    rw [transfersRaw, decodeEntry_hwRei] at ht
    cases ht.1
  have hrun : Library.RunMeets (machineStep (fetchOnly hwReiR0).config)
      (BankOk (fetchOnly hwReiR0).config) nativeProcess [.interrupt .timer true, .step] :=
    ⟨fun _ _ => by decide, hdivert ▸ hok, trivial⟩
  have hstay : Library.RunMeets (machineStep (fetchOnly hwReiR0).config)
      (InPalStay (fetchOnly hwReiR0).config) nativeProcess [.interrupt .timer true, .step] :=
    ⟨trivial, hdivert ▸ Or.inl hpal, trivial⟩
  have hback : (machineRun (fetchOnly hwReiR0).config nativeProcess
      [.interrupt .timer true, .step]).cpu.inPalMode = false := by
    have htarget := pc_stepCpu_of_hwRei (m := interruptedProcess) (by decide) hfetch
      (congrArg GrainEntry.leaf (decodeEntry_hwRei _ _))
    rw [CpuState.inPalMode, machineRun, Library.runFrom_cons, hdivert]
    exact (congrArg (BitVec.getLsbD · 0) htarget).trans (by decide)
  refine ⟨?_, funext fun i => ?_⟩
  · rw [machineRun, Library.runFrom_cons, hdivert]
    funext i
    revert i
    decide
  · have hfive : ∀ i, nativeProcess.cpu.intReg (CpuState.shadowedReg i) = 5 := by decide
    have hinv : BankInv nativeProcess.cpu := rfl
    have hsame := (shadowBank_machineRun _ hinv hrun).2 hstay (by decide) hback i
    rw [CpuState.liveBank, hsame, hfive]

/-- A CSERVE transfer moves the PC and leaves the banks where they are. -/
theorem stepCpu_of_transfersRaw {δ : Type} {cfg : Config δ} {m : Machine δ} {e : Encoded}
    (hh : ¬ m.cpu.halted) (he : fetched cfg m = some e) (ht : transfersRaw cfg m e) :
    (stepCpu cfg m).cpu.pc = m.cpu.intReg 17 ∧ (stepCpu cfg m).cpu.iCtl = m.cpu.iCtl ∧
      (stepCpu cfg m).cpu.shadowLive = m.cpu.shadowLive := by
  have hfun : CserveFunc.ofR16 (m.cpu.intReg 16) = .mtprExcAddr := by
    simpa [cserveTransfers] using ht.2
  have hout : leafOut cfg m e = ⟨{ m.cpu with excAddr := m.cpu.intReg 17 }, m.bus.memory,
      { plainResult (leafGrain cfg m e) with divert := true, divertTarget := m.cpu.intReg 17 }⟩ := by
    rw [leafOut_eq, ht.1]
    simp only [Leaf.exec, PalLeaf.exec, execCserve, hfun]
  -- the commit changes registers only, and the three fields are none
  obtain ⟨ir, fr, hcommit⟩ := MemDrainer.commitRegWrite_frame (leafOut cfg m e).cpu
    { (leafOut cfg m e).result with regWriteValue := (leafOut cfg m e).result.regWriteValue }
  rw [stepCpu_of_plain cfg hh he (by rw [hout]; rfl) (by rw [hout]; rfl), doneCpu, hcommit, hout]
  exact ⟨rfl, rfl, rfl⟩

/-- CALL_PAL CSERVE. -/
def cserveWord : Encoded := 0x00000009

/-- The CSERVE row of the table. -/
def cserveRow : GrainRow :=
  ⟨"CSERVE", 0x00, some 0x09, .pal, GrainMaster.palIntrinsicFlags ++ [.palTru64, .palVms, .palLinux],
    .pal .cserve⟩

/-- A machine in PALmode with shadowing enabled, about to execute CSERVE 0x44 with a native
target. -/
def cserveMachine : Machine Unit :=
  ⟨{ pc := 1, palBase := 0x600000, iCtl := 0x80, shadowLive := true,
     intReg := Function.update (Function.update (fun _ => 0) 16 0x44) 17 0x4000 },
    ⟨.empty 16, ()⟩, .empty⟩

/-- CSERVE 0x44 to a native target leaves the PAL copies live in native mode. -/
theorem cserve_leaves_pal_copies_live :
    BankInv cserveMachine.cpu ∧
      ¬ BankInv (machineRun (fetchOnly cserveWord).config cserveMachine [.step]).cpu := by
  refine ⟨rfl, fun h => ?_⟩
  have hrow : cserveRow ∈ GrainMaster.rows :=
    GrainMaster.mem_rows_of_family GrainMaster.palIntrinsicRows (by simp [GrainMaster.families])
      (by decide +kernel)
  have hdec : decodeEntry (fetchOnly cserveWord).config cserveMachine.cpu cserveWord =
      cserveRow.entry :=
    (fetchOnly cserveWord).decodeEntry_eq _ _ hrow
      (show cserveRow.Selected cserveWord 0 by unfold GrainRow.Selected; decide) (by decide)
  have ht : transfersRaw (fetchOnly cserveWord).config cserveMachine cserveWord :=
    ⟨congrArg GrainEntry.leaf hdec, by decide⟩
  obtain ⟨hpc, hctl, hlive⟩ := stepCpu_of_transfersRaw Bool.false_ne_true
    (fetched_fetchOnly_of_pal (show cserveMachine.cpu.pc = 1 from rfl) (by decide) (by decide)) ht
  rw [machineRun_step, BankInv, CpuState.inPalMode, CpuState.sdeEnabled, hpc, hctl, hlive] at h
  revert h
  decide

end EmulatR
