import EmulatR.Invariants.ShadowBank
import EmulatR.Invariants.ZeroRegs

/-! # CALL_PAL and back

CALL_PAL leaves the return address, with the caller's PALmode in bit 0, in two places: EXC_ADDR and
the linkage register, R23 or R27 by I_CTL. The banks are exchanged before the linkage register is
written, so with shadowing enabled R23 is written in its PAL copy. HW_REI returns through either
place. This module follows a call to its return: whatever the handler did in between, if it keeps
what a handler must keep, the caller is resumed after the CALL_PAL with its registers.

Only the shadow set of SDE<1>, R4–R7 and R20–R23, is implemented; R27 has no shadow.

`callPal_returns` is the result. -/

namespace EmulatR

/-! ## The native registers -/

namespace CpuState

/-- The live bank is the PAL one. -/
def palBankLive (cpu : CpuState) : Bool := cpu.inPalMode && cpu.sdeEnabled

/-- The value of a register in native mode, wherever it is now. -/
def nativeReg (cpu : CpuState) (r : BitVec 5) : Word :=
  if cpu.palBankLive then (shadowSlot r).elim (cpu.intReg r) cpu.intShadow else cpu.intReg r

/-- Writes of the register in PALmode go to a PAL copy. -/
def isShadowed (cpu : CpuState) (r : BitVec 5) : Bool := cpu.sdeEnabled && (shadowSlot r).isSome

end CpuState

section Native

variable {cpu : CpuState}

/-- The registers of a CPU whose banks are exchanged, with PALmode switched along. -/
theorem nativeReg_swap {pc : Word} {r : BitVec 5} (hs : cpu.sdeEnabled = true)
    (hp : pc.getLsbD 0 = !cpu.inPalMode) :
    ({ cpu.swapPalShadowRegs with pc := pc } : CpuState).nativeReg r = cpu.nativeReg r := by
  -- the bank read for the native values flips together with the mode
  have hlive : ({ cpu.swapPalShadowRegs with pc := pc } : CpuState).palBankLive
      = !cpu.inPalMode := by
    show (pc.getLsbD 0 && cpu.sdeEnabled) = !cpu.inPalMode
    rw [hp, hs, Bool.and_true]
  have hlive' : cpu.palBankLive = cpu.inPalMode := by
    rw [CpuState.palBankLive, hs, Bool.and_true]
  rw [CpuState.nativeReg, CpuState.nativeReg, hlive, hlive']
  cases hslot : CpuState.shadowSlot r with
  | none =>
    have hr := CpuState.intReg_swapPalShadowRegs_of_none cpu hslot
    cases cpu.inPalMode <;> exact hr
  | some i =>
    -- one bank is read before and the other after, and they hold each other's values
    have hr := CpuState.intReg_swapPalShadowRegs_of_some cpu hslot
    have hbank : cpu.liveBank i = cpu.intReg r := by
      rw [CpuState.liveBank, CpuState.shadowedReg_of_shadowSlot r i hslot]
    cases cpu.inPalMode with
    | false => exact hbank
    | true => exact hr

/-- Without shadowing the live registers are the native ones in either mode. -/
theorem nativeReg_of_not_sdeEnabled (r : BitVec 5) (h : cpu.sdeEnabled = false) :
    cpu.nativeReg r = cpu.intReg r := by
  rw [CpuState.nativeReg, CpuState.palBankLive, h, Bool.and_false]
  exact if_neg Bool.false_ne_true

/-- Entering PALmode keeps the native registers. -/
theorem nativeReg_palModeEnter (r : BitVec 5) : cpu.palModeEnter.nativeReg r = cpu.nativeReg r := by
  rw [CpuState.palModeEnter]
  split
  · rfl
  rename_i hp
  rw [Bool.not_eq_true] at hp
  split
  · rename_i hs
    exact nativeReg_swap hs (by rw [getLsbD_or_one, hp]; rfl)
  · rename_i hs
    rw [Bool.not_eq_true] at hs
    rw [nativeReg_of_not_sdeEnabled r hs, nativeReg_of_not_sdeEnabled r (show
      ({ cpu with pc := cpu.pc ||| 1 } : CpuState).sdeEnabled = false from hs)]

/-- Leaving PALmode keeps the native registers. -/
theorem nativeReg_palModeLeave (r : BitVec 5) : cpu.palModeLeave.nativeReg r = cpu.nativeReg r := by
  simp only [CpuState.palModeLeave]
  split
  · rfl
  rename_i hp
  have hp' : cpu.inPalMode = true := by simpa using hp
  split
  · rename_i hs
    have hs' : cpu.sdeEnabled = true := hs
    have hswap : ({ cpu.swapPalShadowRegs with pc := cpu.pc &&& ~~~1 } : CpuState).nativeReg r =
        cpu.nativeReg r := nativeReg_swap hs' (by rw [getLsbD_and_not_one, hp']; rfl)
    exact hswap
  · rename_i hs
    have hs' : cpu.sdeEnabled = false := Bool.eq_false_iff.mpr hs
    rw [nativeReg_of_not_sdeEnabled r hs', nativeReg_of_not_sdeEnabled r (show
      ({ cpu with pc := cpu.pc &&& ~~~1 } : CpuState).sdeEnabled = false from hs')]

/-- Switching PALmode in either direction keeps the native registers. -/
theorem nativeReg_setPalMode (target : Bool) (r : BitVec 5) :
    (cpu.setPalMode target).nativeReg r = cpu.nativeReg r := by
  rw [CpuState.setPalMode]
  split
  · rfl
  · split
    · exact nativeReg_palModeEnter r
    · exact nativeReg_palModeLeave r

/-- A write of a live register in PALmode changes its native value only if it is not shadowed. -/
theorem nativeReg_updateInt {l r : BitVec 5} {v : Word} (hp : cpu.inPalMode = true)
    (h : r = l → cpu.isShadowed l = true) :
    ({ cpu with intReg := Function.update cpu.intReg l v } : CpuState).nativeReg r =
      cpu.nativeReg r := by
  have hlive : ({ cpu with intReg := Function.update cpu.intReg l v } : CpuState).palBankLive =
      cpu.palBankLive := rfl
  rw [CpuState.nativeReg, CpuState.nativeReg, hlive]
  by_cases hr : r = l
  · subst hr
    have hsh := h rfl
    rw [CpuState.isShadowed, Bool.and_eq_true] at hsh
    obtain ⟨i, hi⟩ := Option.isSome_iff_exists.mp hsh.2
    have hpal : cpu.palBankLive = true := by rw [CpuState.palBankLive, hp, hsh.1]; rfl
    rw [if_pos hpal, if_pos hpal, hi]
    rfl
  · show (if _ then (CpuState.shadowSlot r).elim (Function.update cpu.intReg l v r) cpu.intShadow
      else Function.update cpu.intReg l v r) = _
    rw [Function.update_of_ne hr]

end Native

/-! ## The two instructions -/

section Step

variable {δ : Type} {cfg : Config δ} {m : Machine δ} {e : Encoded}

/-- The word after the PC is in the same mode. -/
theorem getLsbD_pc_add_four (cpu : CpuState) : (cpu.pc + 4).getLsbD 0 = cpu.inPalMode :=
  getLsbD_add_four cpu.pc

/-- The return address of a CALL_PAL is the next word; bit 0 of the PC carries the mode along. -/
theorem callPalLinkage_eq {g : InstructionGrain} {cpu : CpuState} (hg : g.pc = cpu.pc) :
    callPalLinkage g cpu = cpu.pc + 4 := by
  have hbit := getLsbD_pc_add_four cpu
  rw [callPalLinkage, hg]
  split
  · rename_i hp
    -- bit 0 is already set, so or-ing it in changes nothing
    apply BitVec.eq_of_getLsbD_eq
    intro i hi
    rw [BitVec.getLsbD_or]
    by_cases h0 : i = 0
    · subst h0
      rw [hbit, hp]
      rfl
    · have hone : (1 : Word).getLsbD i = false := by
        rw [show (1 : Word) = 1#64 from rfl, BitVec.getLsbD_one]
        simp [h0]
      rw [hone, Bool.or_false]
  · exact BitVec.or_zero

/-- A result that writes no register only has R31 set to zero. -/
theorem commitRegWrite_of_noWrite (cpu : CpuState) {r : BoxResult} (h : r.regWriteIdx = 31) :
    MemDrainer.commitRegWrite cpu r =
      { cpu with intReg := Function.update cpu.intReg 31 0 } := by
  simp only [MemDrainer.commitRegWrite, if_pos h]
  split
  · rfl
  -- R31 was zero already, and writing zero again is no change
  · rename_i hz
    rw [not_not] at hz
    rw [← hz, Function.update_eq_self]

/-- The CPU goes to an address; R31 is zero and one more cycle has passed. -/
def CpuState.goTo (cpu : CpuState) (pc : Word) : CpuState :=
  ({ cpu with intReg := Function.update cpu.intReg 31 0, pc := pc } : CpuState).tick

/-- A leaf that diverts and does nothing else leaves the CPU it computed at its target. -/
theorem stepCpu_of_divert {out : ExecOut} (hh : ¬ m.cpu.halted) (he : fetched cfg m = some e)
    (hout : leafOut cfg m e = out) (hf : out.result.faultCode = .noFault)
    (hs : out.result.memSize = 0) (hi : out.result.regWriteIdx = 31)
    (hd : out.result.divert = true) :
    (stepCpu cfg m).cpu = out.cpu.goTo out.result.divertTarget := by
  subst hout
  have hcommit := commitRegWrite_of_noWrite (leafOut cfg m e).cpu
    (r := { (leafOut cfg m e).result with
      regWriteValue := (leafOut cfg m e).result.regWriteValue }) hi
  rw [stepCpu_of_plain cfg hh he hf hs, doneCpu, hcommit, if_pos hd]
  rfl

/-- The jump writes no register but R31. -/
theorem intReg_goTo (cpu : CpuState) (pc : Word) {r : BitVec 5} (hr : r ≠ 31) :
    (cpu.goTo pc).intReg r = cpu.intReg r := Function.update_of_ne hr _ _

/-- Going to an address of the same mode leaves the native registers alone. -/
theorem nativeReg_goTo {cpu : CpuState} {pc : Word} {r : BitVec 5} (hr : r ≠ 31)
    (hpc : pc.getLsbD 0 = cpu.inPalMode) : (cpu.goTo pc).nativeReg r = cpu.nativeReg r := by
  show (if pc.getLsbD 0 && cpu.sdeEnabled then
      (CpuState.shadowSlot r).elim ((cpu.goTo pc).intReg r) cpu.intShadow
    else (cpu.goTo pc).intReg r) = _
  rw [intReg_goTo cpu pc hr, hpc]
  rfl

/-- What the CALL_PAL leaf leaves behind. -/
theorem execCallPalDispatch_spec (g : InstructionGrain) (cpu : CpuState) :
    (execCallPalDispatch g cpu).1.inPalMode = true ∧
      (execCallPalDispatch g cpu).1.iCtl = cpu.iCtl ∧
      (execCallPalDispatch g cpu).1.excAddr = callPalLinkage g cpu ∧
      (execCallPalDispatch g cpu).1.intReg cpu.callPalLinkageReg = callPalLinkage g cpu ∧
      ∀ r, (r = cpu.callPalLinkageReg → cpu.isShadowed r = true) →
        (execCallPalDispatch g cpu).1.nativeReg r = cpu.nativeReg r := by
  -- the CPU in PALmode, before the linkage register is written
  generalize hlink : callPalLinkage g cpu = link
  have hpal := inPalMode_palModeEnter { cpu with excAddr := link }
  have hctl : ({ cpu with excAddr := link } : CpuState).palModeEnter.iCtl = cpu.iCtl :=
    iCtl_palModeEnter _
  have hreg : ({ cpu with excAddr := link } : CpuState).palModeEnter.callPalLinkageReg =
      cpu.callPalLinkageReg := callPalLinkageReg_palModeEnter _
  have hexc : ({ cpu with excAddr := link } : CpuState).palModeEnter.excAddr = link := by
    obtain ⟨ir, sh, sl, pc, h⟩ := palModeEnter_frame { cpu with excAddr := link }
    rw [h]
  -- entering exchanges the banks and the mode together: the native values stay
  have hnat : ∀ r, ({ cpu with excAddr := link } : CpuState).palModeEnter.nativeReg r =
      cpu.nativeReg r := fun r => nativeReg_palModeEnter r
  simp only [execCallPalDispatch, hlink, hreg]
  generalize ({ cpu with excAddr := link } : CpuState).palModeEnter = c at hpal hctl hreg hexc hnat
  refine ⟨hpal, hctl, hexc, Function.update_self .., fun r hr => ?_⟩
  -- then one live register is written, in the PAL bank if it is shadowed
  refine (nativeReg_updateInt hpal fun h => ?_).trans (hnat r)
  have hsh := hr h
  rw [CpuState.isShadowed, CpuState.sdeEnabled] at hsh ⊢
  rw [hctl, ← h]
  exact hsh

/-- **After CALL_PAL.** The CPU is in PALmode, both copies of the return address are in place, and
the native registers are the caller's but for a linkage register without a shadow. -/
theorem stepCpu_of_callPal (hh : ¬ m.cpu.halted) (he : fetched cfg m = some e)
    (hl : (decodeEntry cfg m.cpu e).leaf = .pal .callPalDispatch) :
    (stepCpu cfg m).cpu.inPalMode = true ∧ (stepCpu cfg m).cpu.iCtl = m.cpu.iCtl ∧
      (stepCpu cfg m).cpu.excAddr = m.cpu.pc + 4 ∧
      (stepCpu cfg m).cpu.intReg m.cpu.callPalLinkageReg = m.cpu.pc + 4 ∧
      ∀ r, r ≠ 31 → (r = m.cpu.callPalLinkageReg → m.cpu.isShadowed r = true) →
        (stepCpu cfg m).cpu.nativeReg r = m.cpu.nativeReg r := by
  have hout : leafOut cfg m e = ⟨(execCallPalDispatch (leafGrain cfg m e) m.cpu).1, m.bus.memory,
      (execCallPalDispatch (leafGrain cfg m e) m.cpu).2⟩ := by
    rw [leafOut_eq, hl]
    rfl
  obtain ⟨hpal, hctl, hexc, hreg, hnat⟩ :=
    execCallPalDispatch_spec (leafGrain cfg m e) m.cpu
  rw [callPalLinkage_eq rfl] at hexc hreg
  -- the entry address carries bit 0, so the divert does not leave PALmode
  have htarget : (execCallPalDispatch (leafGrain cfg m e) m.cpu).2.divertTarget.getLsbD 0 = true :=
    getLsbD_or_one _
  rw [stepCpu_of_divert hh he hout rfl rfl rfl rfl]
  refine ⟨htarget, hctl, hexc, ?_, fun r hr hsh => ?_⟩
  · exact (intReg_goTo _ _ (callPalLinkageReg_ne m.cpu)).trans hreg
  · exact (nativeReg_goTo hr (htarget.trans hpal.symm)).trans (hnat r hsh)

/-- **After HW_REI.** Which form of HW_REI it was does not matter, only its target. -/
theorem stepCpu_of_hwRei (hh : ¬ m.cpu.halted) (he : fetched cfg m = some e)
    (hl : (decodeEntry cfg m.cpu e).leaf = .pal .hwRei) :
    (stepCpu cfg m).cpu =
      (m.cpu.setPalMode ((hwReiTarget e m.cpu).getLsbD 0)).goTo (hwReiTarget e m.cpu) := by
  have hout : leafOut cfg m e = ⟨m.cpu.setPalMode ((hwReiTarget e m.cpu).getLsbD 0), m.bus.memory,
      { plainResult (leafGrain cfg m e) with
        divert := true, divertTarget := hwReiTarget e m.cpu }⟩ := by
    rw [leafOut_eq, hl]
    rfl
  exact stepCpu_of_divert hh he hout rfl rfl rfl rfl

end Step

/-! ## The call as a whole -/

section Call

variable {δ : Type} (cfg : Config δ)

/-- The machine when the handler of a CALL_PAL is about to return, the events of the handler
given. -/
def handlerEnd (m : Machine δ) (es : List (Event δ)) : Machine δ :=
  machineRun cfg (stepCpu cfg m) es

/-- **A call of PALcode.** The machine executes a CALL_PAL, the handler `es`, and then the HW_REI
`e`. The handler keeps the caller's native registers, and what its HW_REI returns through: EXC_ADDR
for the stacked form, the linkage register for the other. -/
structure PalCall (m : Machine δ) (es : List (Event δ)) (e : Encoded) : Prop where
  /-- The caller runs. -/
  running : ¬ m.cpu.halted
  /-- It executes a CALL_PAL that enters PALcode. -/
  call : ∃ c, fetched cfg m = some c ∧ (decodeEntry cfg m.cpu c).leaf = .pal .callPalDispatch
  /-- The handler has not stopped the CPU. -/
  returning : ¬ (handlerEnd cfg m es).cpu.halted
  /-- The handler ends in the HW_REI. -/
  rei : fetched cfg (handlerEnd cfg m es) = some e ∧
    (decodeEntry cfg (handlerEnd cfg m es).cpu e).leaf = .pal .hwRei
  /-- The handler keeps the native registers; it owns a linkage register without a shadow. -/
  keepsNative : ∀ r, r ≠ 31 → (r = m.cpu.callPalLinkageReg → m.cpu.isShadowed r = true) →
    (handlerEnd cfg m es).cpu.nativeReg r = (stepCpu cfg m).cpu.nativeReg r
  /-- The stacked form needs EXC_ADDR. -/
  keepsExcAddr : e.litFlag = true →
    (handlerEnd cfg m es).cpu.excAddr = (stepCpu cfg m).cpu.excAddr
  /-- The register form needs the linkage register. -/
  keepsLinkage : e.litFlag = false → e.rb = m.cpu.callPalLinkageReg ∧
    (handlerEnd cfg m es).cpu.intReg e.rb = (stepCpu cfg m).cpu.intReg e.rb

variable {cfg} {m : Machine δ} {es : List (Event δ)} {e : Encoded}

/-- Either form of HW_REI returns to the word after the CALL_PAL. -/
theorem PalCall.hwReiTarget_eq (h : PalCall cfg m es e) :
    hwReiTarget e (handlerEnd cfg m es).cpu = m.cpu.pc + 4 := by
  obtain ⟨c, hc, hl⟩ := h.call
  obtain ⟨-, -, hexc, hreg, -⟩ := stepCpu_of_callPal h.running hc hl
  rw [hwReiTarget]
  -- the return address was stored twice, and each form reads the copy the handler kept
  split
  · rename_i hlit
    rw [h.keepsExcAddr hlit, hexc]
  · rename_i hlit
    rw [Bool.not_eq_true] at hlit
    obtain ⟨hrb, hkeep⟩ := h.keepsLinkage hlit
    rw [hkeep, hrb, hreg]

/-- **CALL_PAL returns.** Whatever the caller's mode, the shadow enable, the linkage register and
the form of HW_REI, the caller is resumed at the word after the CALL_PAL in the mode it was in, and
every native register has its value from before the call, a linkage register without a shadow
apart. The CPU resumed is the handler's, switched to the caller's mode and sent to that word, and so
the same for both forms of HW_REI. -/
theorem callPal_returns (h : PalCall cfg m es e) :
    (stepCpu cfg (handlerEnd cfg m es)).cpu =
        ((handlerEnd cfg m es).cpu.setPalMode m.cpu.inPalMode).goTo (m.cpu.pc + 4) ∧
      (stepCpu cfg (handlerEnd cfg m es)).cpu.pc = m.cpu.pc + 4 ∧
      (stepCpu cfg (handlerEnd cfg m es)).cpu.inPalMode = m.cpu.inPalMode ∧
      ∀ r, r ≠ 31 → (r = m.cpu.callPalLinkageReg → m.cpu.isShadowed r = true) →
        (stepCpu cfg (handlerEnd cfg m es)).cpu.nativeReg r = m.cpu.nativeReg r := by
  -- bit 0 of the return address is the caller's mode
  have hbit := getLsbD_pc_add_four m.cpu
  have hcpu : (stepCpu cfg (handlerEnd cfg m es)).cpu =
      ((handlerEnd cfg m es).cpu.setPalMode m.cpu.inPalMode).goTo (m.cpu.pc + 4) := by
    rw [stepCpu_of_hwRei h.returning h.rei.1 h.rei.2, h.hwReiTarget_eq, hbit]
  refine ⟨hcpu, by rw [hcpu]; rfl, by rw [hcpu]; exact hbit, fun r hr hsh => ?_⟩
  obtain ⟨c, hc, hl⟩ := h.call
  obtain ⟨-, -, -, -, hcall⟩ := stepCpu_of_callPal h.running hc hl
  calc (stepCpu cfg (handlerEnd cfg m es)).cpu.nativeReg r
      = ((handlerEnd cfg m es).cpu.setPalMode m.cpu.inPalMode).nativeReg r := by
        rw [hcpu, nativeReg_goTo hr (hbit.trans (inPalMode_setPalMode _ _).symm)]
    _ = (handlerEnd cfg m es).cpu.nativeReg r := nativeReg_setPalMode _ r
    _ = (stepCpu cfg m).cpu.nativeReg r := h.keepsNative r hr hsh
    _ = m.cpu.nativeReg r := hcall r hr hsh

end Call

/-! ## A call -/

/-- CALL_PAL CHMK. -/
def callPalChmk : Encoded := 0x00000083

/-- The CHMK row of the table. -/
def chmkRow : GrainRow :=
  ⟨"CHMK", 0x00, some 0x83, .pal, GrainMaster.palEntryFlags ++ [.palTru64, .palVms, .palLinux],
    .pal .callPalDispatch⟩

/-- HW_REI in the stacked form. -/
def hwReiStacked : Encoded := 0x7BE01000

/-- A platform with CHMK at address 0 and HW_REI everywhere else. -/
def returnPlatform : Platform Unit :=
  { fetchOnly hwReiStacked with
    tryFetch := fun _ pa => some (if pa = 0 then callPalChmk else hwReiStacked) }

/-- A native caller in the superpage with shadowing enabled, linking through R23. -/
def callerMachine : Machine Unit :=
  ⟨{ pc := 0xFFFF800000000000, palBase := 0x600000, vaCtl := 2, iSpe := 4, iCtl := 0x100080 },
    ⟨.empty 16, ()⟩, .empty⟩

/-- A handler that returns at once. -/
theorem palCall_returnPlatform :
    PalCall returnPlatform.config callerMachine [] hwReiStacked := by
  have htr : Ev6Translator.translateInstruction callerMachine.cpu callerMachine.cpu.pc =
      .success 0 := by decide
  have hc : fetched returnPlatform.config callerMachine = some callPalChmk :=
    fetched_of_tryFetch (congrArg TranslationResult.pa? htr) rfl
  have hrow : chmkRow ∈ GrainMaster.rows :=
    GrainMaster.mem_rows_of_family GrainMaster.callPalRows (by simp [GrainMaster.families])
      (by decide +kernel)
  have hl : decodeEntry returnPlatform.config callerMachine.cpu callPalChmk = chmkRow.entry :=
    returnPlatform.decodeEntry_eq _ _ hrow
      (show chmkRow.Selected callPalChmk 0 by unfold GrainRow.Selected; decide) (by decide)
  have hleaf : (decodeEntry returnPlatform.config callerMachine.cpu callPalChmk).leaf =
      .pal .callPalDispatch := congrArg GrainEntry.leaf hl
  have hout : leafOut returnPlatform.config callerMachine callPalChmk =
      ⟨(execCallPalDispatch (leafGrain returnPlatform.config callerMachine callPalChmk)
        callerMachine.cpu).1, callerMachine.bus.memory,
      (execCallPalDispatch (leafGrain returnPlatform.config callerMachine callPalChmk)
        callerMachine.cpu).2⟩ := by
    rw [leafOut_eq, hleaf]
    rfl
  have hcpu := stepCpu_of_divert Bool.false_ne_true hc hout rfl rfl rfl rfl
  -- 0x6030C0 is the CHMK entry: unprivileged base 0x3000 and 64 bytes a function
  have htr' : Ev6Translator.translateInstruction (stepCpu returnPlatform.config callerMachine).cpu
      (stepCpu returnPlatform.config callerMachine).cpu.pc = .success 0x6030C0 := by
    rw [hcpu]
    rfl
  refine ⟨Bool.false_ne_true, ⟨_, hc, hleaf⟩, ?_, ⟨?_, ?_⟩, fun _ _ _ => rfl, fun _ => rfl,
    fun h => absurd h (by decide)⟩
  · show ¬ (stepCpu returnPlatform.config callerMachine).cpu.halted
    rw [hcpu]
    exact Bool.false_ne_true
  · exact fetched_of_tryFetch (congrArg TranslationResult.pa? htr') rfl
  · exact congrArg GrainEntry.leaf (returnPlatform.decodeEntry_eq hwReiStacked _ mem_rows_hwReiRow
      (GrainRow.selected_of_isDirect (by decide) (by decide) (by decide)) (by decide))

/-- The caller is resumed natively at the next word, with its R23. -/
theorem callPal_returns_chmk :
    (stepCpu returnPlatform.config (handlerEnd returnPlatform.config callerMachine [])).cpu.pc =
        0xFFFF800000000004 ∧
      (stepCpu returnPlatform.config
        (handlerEnd returnPlatform.config callerMachine [])).cpu.nativeReg 23 = 0 := by
  obtain ⟨-, hpc, -, hreg⟩ := callPal_returns palCall_returnPlatform
  exact ⟨hpc, hreg 23 (by decide) (by decide)⟩

end EmulatR
