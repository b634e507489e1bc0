import EmulatR.Invariants.FaultInfo
import EmulatR.Invariants.PcShape

/-! # Privilege confinement

The five hardware instructions carry S_Privileged, which the flag table describes as raising OPCDEC
outside PALmode (grainFactoryLib/SemanticFlags.tsv). The pipeline never reads the flag: a native
program that executes one of them runs its leaf. The only native words that do end in OPCDEC are
HW_MFPR and HW_MTPR with a selector that names no register, because the leaf itself faults.
`privilegeConfinement` says exactly this, and that the rest of the instruction set is confined.

`native_mtpr_writes_palBase` is a native write that is not confined. -/

namespace EmulatR

/-! ## The privileged rows -/

/-- HW_MFPR or HW_MTPR with a selector that names no register. -/
def UnknownIpr (e : Encoded) : Prop :=
  (e.primaryOp = 0x19 ∨ e.primaryOp = 0x1D) ∧ iprSelector e = .unknown

instance (e : Encoded) : Decidable (UnknownIpr e) := inferInstanceAs (Decidable (_ ∧ _))

namespace GrainMaster

/-- The privileged rows are among the five of the hardware opcodes. -/
theorem mem_hwRows_of_privileged :
    ∀ r ∈ rows, r.flags.contains .privileged → r ∈ hwRows := by
  decide +kernel

/-- The rows of HW_MFPR, HW_MTPR and HW_REI are privileged. -/
theorem privileged_of_hwLeaf : ∀ r ∈ rows,
    r.leaf = .pal .hwMfpr ∨ r.leaf = .pal .hwMtpr ∨ r.leaf = .pal .hwRei →
      r.flags.contains .privileged := by
  decide +kernel

end GrainMaster

section Rows

variable {δ : Type} (p : Platform δ) {cpu : CpuState} {e : Encoded}

/-- The row of the word carries S_Privileged. -/
def isPrivileged (cpu : CpuState) (e : Encoded) : Bool :=
  (decodeEntry p.config cpu e).semFlags.contains .privileged

/-- The leaf of a privileged word is that of its opcode. -/
theorem leaf_of_isPrivileged (h : isPrivileged p cpu e) :
    ((decodeEntry p.config cpu e).leaf = .pal .hwMfpr ∧ e.primaryOp = 0x19) ∨
      ((decodeEntry p.config cpu e).leaf = .pal .hwMtpr ∧ e.primaryOp = 0x1D) ∨
      ((decodeEntry p.config cpu e).leaf = .pal .hwRei ∧ e.primaryOp = 0x1E) ∨
      ((decodeEntry p.config cpu e).leaf = .ordinary .hwLd ∧ e.primaryOp = 0x1B) ∨
      ((decodeEntry p.config cpu e).leaf = .ordinary .hwSt ∧ e.primaryOp = 0x1F) := by
  rw [isPrivileged, decodeEntry] at h
  rw [decodeEntry]
  rcases p.decode_cases e cpu.palPersonality with ⟨r, hr, hdec, hop⟩ | hdec | ⟨-, hdec⟩
  · rw [hdec] at h ⊢
    -- the flag puts the row into the HW family, which is small enough to enumerate
    have hhw := GrainMaster.mem_hwRows_of_privileged r hr h
    have hop' : e.primaryOp = BitVec.ofNat 6 r.primaryOpcode.toNat := by
      rw [hop, Int.toNat_natCast, BitVec.ofNat_toNat, BitVec.setWidth_eq]
    rw [hop']
    clear hdec hop hop' h hr
    revert hhw r
    decide
  · rw [hdec] at h
    cases h
  · rw [hdec] at h
    -- the CALL_PAL entries of both personalities are unprivileged
    have hpal : ∀ vms, (Dispatch.callPal vms).entry.semFlags.contains .privileged = false := by
      decide
    rw [hpal] at h
    cases h

/-- A word other than CALL_PAL that is not privileged runs an ordinary leaf. -/
theorem ordinary_of_not_isPrivileged (h : ¬ isPrivileged p cpu e) (h0 : e.primaryOp ≠ 0) :
    ∃ l, (decodeEntry p.config cpu e).leaf = .ordinary l := by
  cases hl : (decodeEntry p.config cpu e).leaf with
  | ordinary l => exact ⟨l, rfl⟩
  | pal l =>
    exfalso
    have h0' : e.primaryOp.toNat ≠ 0 := fun h => h0 (BitVec.eq_of_toNat_eq h)
    -- of the PAL leaves only the three HW ones run under an opcode other than 0
    have hrun := p.runsUnder e cpu.palPersonality
    have hpriv : l = .hwMfpr ∨ l = .hwMtpr ∨ l = .hwRei → False := by
      intro hor
      refine h (p.decode_ind e cpu.palPersonality
        (P := fun x => x.leaf = .pal .hwMfpr ∨ x.leaf = .pal .hwMtpr ∨ x.leaf = .pal .hwRei →
          x.semFlags.contains .privileged) GrainMaster.privileged_of_hwLeaf (by decide)
          (by decide) ?_)
      rw [show p.config.decode e cpu.palPersonality = decodeEntry p.config cpu e from rfl, hl]
      simpa using hor
    rw [show p.config.decode e cpu.palPersonality = decodeEntry p.config cpu e from rfl, hl] at hrun
    cases l with
    | hwMfpr => exact hpriv (Or.inl rfl)
    | hwMtpr => exact hpriv (Or.inr (Or.inl rfl))
    | hwRei => exact hpriv (Or.inr (Or.inr rfl))
    | _ => exact absurd (by simpa [Leaf.runsUnder] using hrun) h0'

end Rows

/-- Every register but the unknown can be read. -/
theorem readIpr_eq_none {cpu : CpuState} {ipr : HwIpr} :
    readIpr cpu ipr = none ↔ ipr = .unknown := by
  cases ipr <;> simp [readIpr]

/-- Every register but the unknown can be written. -/
theorem writeIpr_eq_none {cpu : CpuState} {v : Word} {ipr : HwIpr} :
    writeIpr cpu v ipr = none ↔ ipr = .unknown := by
  cases ipr <;> simp [writeIpr]

/-! ## One privileged word -/

section Word

variable {δ : Type} (cfg : Config δ) {m : Machine δ} {e : Encoded}

/-- **The step delivers OPCDEC and does nothing else**: the state after it is that of delivering the
fault to the machine as it was. -/
structure DeliversOpcDec (m : Machine δ) : Prop where
  /-- The fault has the OPCDEC entry. -/
  fault : entryForFault (issue cfg m).2.faultCode = some .opcDec
  /-- There is PALcode to deliver it to. -/
  palCode : m.cpu.palBase ≠ 0
  /-- The CPU is the old one with the fault delivered. -/
  cpu : (stepCpu cfg m).cpu = (deliverFault m.cpu.pc (issue cfg m).2.faultCode .opcDec
    { m.cpu with lastFaultCode := (issue cfg m).2.faultCode }).tick
  /-- Guest memory is the old one. -/
  memory : (stepCpu cfg m).bus.memory = m.bus.memory
  /-- So are the reservations. -/
  locks : (stepCpu cfg m).locks = m.locks

variable {cfg}

/-- An access never ends in OPCDEC. -/
theorem entryForFault_of_access {D : Devices δ} {g : InstructionGrain} {x x' : Machine δ}
    {r : BoxResult} {f : FaultCode} (hr : r.faultCode = .noFault)
    (h : MemDrainer.FaultLatch D g x r f x') : entryForFault f ≠ some .opcDec := by
  cases h with
  | leaf h => exact absurd hr h
  | translation _ _ hpa =>
    obtain ⟨entry, hmem, hentry, -⟩ := entryForFault_dataFaultCode g
      (MemDrainer.translate_isDataOutcome x.cpu r) hpa
    rw [hentry]
    rintro h
    cases h
    revert hmem
    decide
  | load _ _ _ _ _ _ => decide
  | store _ _ _ _ _ _ _ => decide

/-- An instruction that ends in OPCDEC has a leaf that faults so. -/
theorem entryForFault_leafOut (he : fetched cfg m = some e)
    (h : entryForFault (issue cfg m).2.faultCode = some .opcDec) :
    entryForFault (leafOut cfg m e).result.faultCode = some .opcDec := by
  rcases issue_cases cfg he with hf | ⟨hr, v, -, hres, -⟩
  · rcases hf.leaf_or_access with ⟨hleaf, -⟩ | ⟨hr, hlatch⟩
    · rw [hleaf]
      exact h
    · exact absurd h (entryForFault_of_access hr hlatch)
  · rw [hres] at h
    exact h

end Word

section Privileged

variable {δ : Type} (p : Platform δ) {m : Machine δ} {e : Encoded}

/-- What a privileged word's leaf faults with. -/
theorem leafOut_of_isPrivileged (hp : isPrivileged p m.cpu e) :
    (UnknownIpr e ∧ leafOut p.config m e =
        ⟨m.cpu, m.bus.memory, faultResult (leafGrain p.config m e) .unimplemented⟩) ∨
      (¬ UnknownIpr e ∧ (leafOut p.config m e).result.faultCode = .noFault) := by
  have henc : (leafGrain p.config m e).encoded = e := rfl
  rw [leafOut_eq]
  rcases leaf_of_isPrivileged p hp with ⟨hl, hop⟩ | ⟨hl, hop⟩ | ⟨hl, hop⟩ | ⟨hl, hop⟩ | ⟨hl, hop⟩
  · rw [hl, Leaf.exec, PalLeaf.exec, execHwMfpr, henc]
    by_cases hu : iprSelector e = .unknown
    · refine Or.inl ⟨⟨Or.inl hop, hu⟩, ?_⟩
      rw [readIpr_eq_none.mpr hu]
    · refine Or.inr ⟨fun h => hu h.2, ?_⟩
      split
      · rfl
      · exact absurd (readIpr_eq_none.mp ‹_›) hu
  · rw [hl, Leaf.exec, PalLeaf.exec, execHwMtpr, henc]
    by_cases hu : iprSelector e = .unknown
    · refine Or.inl ⟨⟨Or.inr hop, hu⟩, ?_⟩
      rw [writeIpr_eq_none.mpr hu]
    · refine Or.inr ⟨fun h => hu h.2, ?_⟩
      split
      · rfl
      · exact absurd (writeIpr_eq_none.mp ‹_›) hu
  all_goals
    -- HW_REI, HW_LD and HW_ST name no register and never fault in the leaf
    refine Or.inr ⟨fun h => ?_, by rw [hl]; rfl⟩
    rcases h.1 with h | h <;> rw [hop] at h <;> cases h

/-- **A privileged word is confined exactly when its leaf does not know the register it names.** -/
theorem deliversOpcDec_iff (hh : ¬ m.cpu.halted) (he : fetched p.config m = some e)
    (hp : isPrivileged p m.cpu e) :
    DeliversOpcDec p.config m ↔ m.cpu.palBase ≠ 0 ∧ UnknownIpr e := by
  rcases leafOut_of_isPrivileged p hp with ⟨hu, hout⟩ | ⟨hu, hr⟩
  -- the leaf faults before the drain, so the machine delivered to is the old one
  · have hfault : (leafOut p.config m e).result.faultCode = .unimplemented := by rw [hout]; rfl
    have hissue := issue_of_leafFault p.config he (by rw [hfault]; decide)
    have hcode : (issue p.config m).2.faultCode = .unimplemented := by rw [hissue]; exact hfault
    have hcpu : (issue p.config m).1.cpu = m.cpu := by rw [hissue]; rw [preDrain, hout]; rfl
    refine ⟨fun h => ⟨h.palCode, hu⟩, fun h => ⟨by rw [hcode]; rfl, h.1, ?_, ?_, ?_⟩⟩
    · have hb := h.1
      rw [stepCpu_eq p.config hh, hcpu, hcode, retire, if_pos (by rw [hcode]; decide), hcode]
      simp only [retireFault, entryForFault, if_neg hb, if_neg (show FaultCode.unimplemented ≠ .halt
        by decide)]
    · rw [stepCpu_eq p.config hh, hissue]
      show (preDrain p.config m e).bus.memory = _
      rw [preDrain, hout]
      rfl
    · rw [stepCpu_eq p.config hh, hissue]
      rfl
  · refine ⟨fun h => ?_, fun h => absurd h.2 hu⟩
    -- with a known register the leaf does not fault, and no access faults with OPCDEC
    have hentry := entryForFault_leafOut he h.fault
    rw [hr] at hentry
    cases hentry

end Privileged

/-! ## Runs of native code -/

/-- What privilege protects: the mode, PAL_BASE, the translation buffers and PALmode. -/
def privState (cpu : CpuState) : ModePrivilege × Word × TbManager × TbManager × Bool :=
  (cpu.mode, cpu.palBase, cpu.itbMgr, cpu.dtbMgr, cpu.inPalMode)

section Runs

variable {δ : Type} (p : Platform δ)

/-- A privileged word is executed natively only if it is confined. -/
def Confined (m : Machine δ) : Event δ → Prop
  | .step => m.cpu.inPalMode = false → ∀ e, fetched p.config m = some e →
      isPrivileged p m.cpu e → m.cpu.palBase ≠ 0 ∧ UnknownIpr e
  | .interrupt _ _ => True
  | .inject => True
  | .environment _ _ => True

/-- The event is no CALL_PAL, no fault and no interrupt. -/
def Quiet (m : Machine δ) : Event δ → Prop
  | .step => m.cpu.halted ∨ (issue p.config m).2.faultCode = .noFault ∧
      ∀ e, fetched p.config m = some e → e.primaryOp ≠ 0
  | .interrupt line relocated => ¬ canAcceptInterrupt relocated m.cpu line.level
  | .inject => m.cpu.palBase = 0
  | .environment _ _ => True

variable {p} {m : Machine δ}

/-- An ordinary leaf that completes leaves what privilege protects alone. -/
theorem privState_doneCpu {cfg : Config δ} {e : Encoded} {l : OrdinaryLeaf}
    (hl : (decodeEntry cfg m.cpu e).leaf = .ordinary l) (v : Word) :
    privState (doneCpu cfg m e v) = privState m.cpu := by
  obtain ⟨f, i, hcpu⟩ := leafOut_cpu_of_ordinary cfg hl
  obtain ⟨ir, fr, hcommit⟩ := MemDrainer.commitRegWrite_frame (leafOut cfg m e).cpu
    { (leafOut cfg m e).result with regWriteValue := v }
  -- bits 1:0 of the next PC are those of the PC, or the PC's with bit 1 cleared
  have hpal : (doneCpu cfg m e v).inPalMode = m.cpu.inPalMode := by
    show (nextPc m.cpu.pc (leafOut cfg m e).result).getLsbD 0 = m.cpu.pc.getLsbD 0
    rw [leafOut_eq, hl, ← getLsbD_low2 (by decide), ← getLsbD_low2 (by decide)]
    rcases low2_nextPc_ordinary cfg.fp (leafGrain cfg m e) (leafCtx cfg m e) m.cpu l with hn | hn
    · exact congrArg (·.getLsbD 0) hn
    · refine (congrArg (·.getLsbD 0) hn).trans ?_
      simp only [BitVec.getLsbD_and]
      exact Bool.and_true _
  rw [privState, hpal, doneCpu, hcommit, hcpu]
  rfl

/-- A fetch that fails ends in a fault. -/
theorem fetched_of_noFault {cfg : Config δ} (h : (issue cfg m).2.faultCode = .noFault) :
    ∃ e, fetched cfg m = some e := by
  cases hf : (fetchWord cfg m).2 with
  | error f =>
    rw [issue_of_error cfg hf] at h
    exact absurd h (fetchWord_error_ne_noFault cfg hf)
  | ok e => exact ⟨e, (fetched_eq_some cfg).mpr hf⟩

/-- The tick changes no privileged state. -/
theorem privState_tick (cpu : CpuState) : privState cpu.tick = privState cpu := rfl

/-- One native instruction that is no CALL_PAL and no fault. -/
theorem privState_stepCpu (hn : m.cpu.inPalMode = false) (hc : Confined p m .step)
    (hq : Quiet p m .step) : privState (stepCpu p.config m).cpu = privState m.cpu := by
  rcases hq with hh | ⟨hf, h0⟩
  · rw [stepCpu, if_pos hh]
  by_cases hh : m.cpu.halted
  · rw [stepCpu, if_pos hh]
  obtain ⟨e, he⟩ := fetched_of_noFault hf
  -- a privileged word would be confined, and then the step would end in the OPCDEC vector
  have hp : ¬ isPrivileged p m.cpu e := by
    intro hp
    have hdel := (deliversOpcDec_iff p hh he hp).mpr (hc hn e he hp)
    have hentry := hdel.fault
    rw [hf] at hentry
    cases hentry
  obtain ⟨l, hl⟩ := ordinary_of_not_isPrivileged p hp (h0 e he)
  obtain ⟨-, v, -, hcpu⟩ := stepCpu_of_noFault p.config hh he hf
  rw [hcpu, privState_tick]
  exact privState_doneCpu hl v

/-- **One event of a native run that is no CALL_PAL, no fault and no interrupt.** -/
theorem privState_machineStep (hn : m.cpu.inPalMode = false) {ev : Event δ}
    (hc : Confined p m ev) (hq : Quiet p m ev) :
    privState (machineStep p.config m ev).cpu = privState m.cpu := by
  cases ev with
  | step => exact privState_stepCpu hn hc hq
  | interrupt line relocated => rw [machineStep, if_neg hq]
  | inject =>
    have hb : m.cpu.palBase = 0 := hq
    rw [machineStep, if_neg (not_not.mpr hb)]
  | environment devices cycleCount => rfl

variable (p)

/-- **Privilege confinement.** A privileged word in native mode delivers OPCDEC and does nothing
else exactly when there is PALcode and the word is HW_MFPR or HW_MTPR with an unknown selector; and
over every native run in which all privileged words are of that kind, the mode, PAL_BASE, the
translation buffers and PALmode change only through CALL_PAL, a fault or an interrupt. -/
theorem privilegeConfinement :
    (∀ (m : Machine δ) (e : Encoded), m.cpu.inPalMode = false → ¬ m.cpu.halted →
        fetched p.config m = some e → isPrivileged p m.cpu e →
        (DeliversOpcDec p.config m ↔ m.cpu.palBase ≠ 0 ∧ UnknownIpr e)) ∧
      ∀ (m : Machine δ) (es : List (Event δ)), m.cpu.inPalMode = false →
        Library.RunMeets (machineStep p.config) (Confined p) m es →
        Library.RunMeets (machineStep p.config) (Quiet p) m es →
        privState (machineRun p.config m es).cpu = privState m.cpu := by
  refine ⟨fun m e _ hh he hp => deliversOpcDec_iff p hh he hp, fun m es hn hc hq => ?_⟩
  refine (hc.and hq).invariant (fun x : Machine δ => privState x.cpu = privState m.cpu) ?_ rfl
  intro x ev hx hok
  -- PALmode is part of what the invariant keeps, so the run stays native
  have hnx : x.cpu.inPalMode = false := by
    rw [← hn]
    exact congrArg (·.2.2.2.2) hx
  exact (privState_machineStep hnx hok.1 hok.2).trans hx

end Runs

/-- A machine in native kernel mode at the base of the superpage, with 0x10000 in R1. -/
def nativeMachine : Machine Unit :=
  ⟨{ pc := 0xFFFF800000000000, palBase := 0x600000, vaCtl := 2, iSpe := 4,
     intReg := Function.update (fun _ => 0) 1 0x10000 }, ⟨.empty 16, ()⟩, .empty⟩

/-- The machine fetches the word. -/
theorem fetched_nativeMachine (e : Encoded) :
    fetched (fetchOnly e).config nativeMachine = some e := by
  have htr : Ev6Translator.translateInstruction nativeMachine.cpu nativeMachine.cpu.pc =
      .success 0 := by decide
  exact fetched_fetchOnly (congrArg TranslationResult.pa? htr)

/-- HW_MFPR R1 with a selector that names no register. -/
def mfprUnknown : Encoded := 0x6420FF00

/-- The HW_MFPR row of the table. -/
def hwMfprRow : GrainRow :=
  ⟨"HW_MFPR", 0x19, some 0, .hwMfpr, [.hwFormat, .privileged, .iprRead, .writesRa, .writesInt],
    .pal .hwMfpr⟩

/-- The word decodes to HW_MFPR. -/
theorem decodeEntry_mfprUnknown {δ : Type} (p : Platform δ) (cpu : CpuState) :
    decodeEntry p.config cpu mfprUnknown = hwMfprRow.entry := by
  have hrow : hwMfprRow ∈ GrainMaster.rows :=
    GrainMaster.mem_rows_of_family GrainMaster.hwRows (by simp [GrainMaster.families])
      (by simp [GrainMaster.hwRows, hwMfprRow])
  exact p.decodeEntry_eq _ cpu hrow
    (GrainRow.selected_of_isDirect (by decide) (by decide) (by decide)) (by decide)

/-- HW_MFPR of an unknown register is confined. -/
theorem privilegeConfinement_mfpr : DeliversOpcDec (fetchOnly mfprUnknown).config nativeMachine := by
  have hp : isPrivileged (fetchOnly mfprUnknown) nativeMachine.cpu mfprUnknown := by
    rw [isPrivileged, decodeEntry_mfprUnknown]
    decide
  exact ((privilegeConfinement (fetchOnly mfprUnknown)).1 nativeMachine mfprUnknown rfl (by nofun)
    (fetched_nativeMachine _) hp).mpr ⟨by decide, by decide⟩

/-- HW_MTPR R1, PAL_BASE. -/
def mtprPalBase : Encoded := 0x77E11000

/-- The HW_MTPR row of the table. -/
def hwMtprRow : GrainRow :=
  ⟨"HW_MTPR", 0x1D, some 0, .hwMtpr, [.hwFormat, .privileged, .iprWrite, .readsRb, .readsInt],
    .pal .hwMtpr⟩

/-- The word decodes to HW_MTPR. -/
theorem decodeEntry_mtprPalBase {δ : Type} (p : Platform δ) (cpu : CpuState) :
    decodeEntry p.config cpu mtprPalBase = hwMtprRow.entry := by
  have hrow : hwMtprRow ∈ GrainMaster.rows :=
    GrainMaster.mem_rows_of_family GrainMaster.hwRows (by simp [GrainMaster.families])
      (by simp [GrainMaster.hwRows, hwMtprRow])
  exact p.decodeEntry_eq _ cpu hrow
    (GrainRow.selected_of_isDirect (by decide) (by decide) (by decide)) (by decide)

/-- A native HW_MTPR to PAL_BASE with I_CTL<HWE> clear is executed. -/
theorem native_mtpr_writes_palBase :
    nativeMachine.cpu.inPalMode = false ∧ nativeMachine.cpu.iCtl.getLsbD 12 = false ∧
      fetched (fetchOnly mtprPalBase).config nativeMachine = some mtprPalBase ∧
      isPrivileged (fetchOnly mtprPalBase) nativeMachine.cpu mtprPalBase ∧
      ¬ DeliversOpcDec (fetchOnly mtprPalBase).config nativeMachine ∧
      nativeMachine.cpu.palBase = 0x600000 ∧
      (machineRun (fetchOnly mtprPalBase).config nativeMachine [.step]).cpu.palBase = 0x10000 := by
  have hp : isPrivileged (fetchOnly mtprPalBase) nativeMachine.cpu mtprPalBase := by
    rw [isPrivileged, decodeEntry_mtprPalBase]
    decide
  have he := fetched_nativeMachine mtprPalBase
  have hout : leafOut (fetchOnly mtprPalBase).config nativeMachine mtprPalBase =
      ⟨{ nativeMachine.cpu with palBase := 0x10000 }, nativeMachine.bus.memory,
        plainResult (grainOf hwMtprRow.entry nativeMachine.cpu.pc mtprPalBase)⟩ := by
    rw [leafOut_of_entry _ (decodeEntry_mtprPalBase _ _)]
    rfl
  refine ⟨rfl, rfl, he, hp, fun h => ?_, rfl, ?_⟩
  · have hu := ((deliversOpcDec_iff _ (by nofun) he hp).mp h).2
    revert hu
    decide
  · obtain ⟨ir, fr, hcommit⟩ := MemDrainer.commitRegWrite_frame
      (leafOut (fetchOnly mtprPalBase).config nativeMachine mtprPalBase).cpu
      { (leafOut (fetchOnly mtprPalBase).config nativeMachine mtprPalBase).result with
        regWriteValue :=
          (leafOut (fetchOnly mtprPalBase).config nativeMachine mtprPalBase).result.regWriteValue }
    rw [machineRun_step, stepCpu_of_plain _ (by nofun) he (by rw [hout]; rfl) (by rw [hout]; rfl),
      doneCpu, hcommit, hout]
    rfl

end EmulatR
