import EmulatR.Chipset.BusLaw
import EmulatR.System.SnapshotFidelity

/-! # The firmware overlay of the instruction fetch

The decompressor of the firmware overwrites its own code, which an Alpha goes on executing from its
instruction cache. There is no such cache here; instead a fetch from the range the firmware file was
loaded to is served from the file (`Machine::tryFetch` of systemLib/Machine.cpp), also once the
decompressed firmware runs. `fetch_overlay` says where a fetch is coherent with memory.

`store_is_not_fetched` is a store that no fetch sees. -/

namespace EmulatR

open Library

namespace SrmStaging

variable (s : SrmStaging)

/-- The longword at the address is in the range the firmware file was loaded to. -/
def Overlaid (pa : Word) : Prop :=
  s.descriptor.valid = true ∧ s.loadPa.toNat ≤ pa.toNat ∧
    pa.toNat + 4 ≤ s.loadPa.toNat + s.payload.length

/-- The longword of the file at an address. -/
def payloadWord (pa : Word) : Encoded :=
  (GuestMemory.leWord
    (fun i => s.payload.getD (pa.toNat - s.loadPa.toNat + i) 0) 4).setWidth 32

instance (pa : Word) : Decidable (s.Overlaid pa) := inferInstanceAs (Decidable (_ ∧ _ ∧ _))

/-- The payload answers in its range. -/
theorem tryFetch_eq {pa : Word} (hpa : pa.toNat < 2 ^ 40) :
    s.tryFetch pa = if s.Overlaid pa then some (s.payloadWord pa) else none := by
  have hlen : (BitVec.ofNat 64 s.payload.length).toNat = s.payload.length := by
    rw [BitVec.toNat_ofNat, Nat.mod_eq_of_lt s.payload_lt]
  rw [tryFetch]
  cases hvalid : s.descriptor.valid with
  | false =>
    have hout : ¬ s.Overlaid pa := by
      rw [Overlaid, hvalid]
      exact fun h => Bool.false_ne_true h.1
    rw [if_pos (by simp), if_neg hout]
  | true =>
    by_cases hlow : pa < s.loadPa
    · rw [if_pos (by simp [hlow]), if_neg fun h => Nat.not_le.2 (BitVec.lt_def.1 hlow) h.2.1]
    · have hle : s.loadPa.toNat ≤ pa.toNat := Nat.le_of_not_lt fun h => hlow (BitVec.lt_def.2 h)
      have hoffset : (pa - s.loadPa).toNat = pa.toNat - s.loadPa.toNat :=
        BitVec.toNat_sub_of_le (BitVec.le_def.2 hle)
      have hend : BitVec.ofNat 64 s.payload.length < pa - s.loadPa + 4 ↔
          ¬ s.Overlaid pa := by
        rw [BitVec.lt_def, BitVec.toNat_add, hlen, hoffset, Overlaid, hvalid]
        have hfour : (4 : BitVec 64).toNat = 4 := rfl
        rw [hfour, Nat.mod_eq_of_lt (by omega)]
        simp only [hle, true_and]
        omega
      rw [if_neg (by simp [hlow])]
      simp only [hend, payloadWord, hoffset]
      by_cases h : s.Overlaid pa
      · rw [if_neg (not_not.2 h), if_pos h]
      · rw [if_pos h, if_neg h]

/-- The staged file stays, and so does the note that the decompressed firmware has been entered. -/
structure Stays (s s' : SrmStaging) : Prop where
  /-- The descriptor is the same. -/
  descriptor : s'.descriptor = s.descriptor
  /-- So is the image. -/
  payload : s'.payload = s.payload
  /-- So is the place it is loaded at. -/
  loadPa : s'.loadPa = s.loadPa
  /-- Once relocated, it stays relocated. -/
  relocated : s.palImageRelocated = true → s'.palImageRelocated = true

/-- Staging data stay as they are. -/
theorem stays_self : s.Stays s := ⟨rfl, rfl, rfl, id⟩

/-- Two steps in a row. -/
theorem Stays.trans {s s' s'' : SrmStaging} (h : s.Stays s') (h' : s'.Stays s'') : s.Stays s'' :=
  ⟨h'.descriptor.trans h.descriptor, h'.payload.trans h.payload, h'.loadPa.trans h.loadPa,
    fun hr => h'.relocated (h.relocated hr)⟩

/-- The hook in front of a fetch sets the note at most. -/
theorem onBeforeFetch_eq (pa : Word) :
    s.onBeforeFetch pa = { s with
      palImageRelocated := s.palImageRelocated ||
        (s.descriptor.valid && decide (pa = s.descriptor.entryPa)) } := by
  obtain ⟨descriptor, payload, hlt, loadPa, relocated, startPc, palMode⟩ := s
  rw [onBeforeFetch]
  dsimp only
  cases relocated with
  | true => rw [if_pos rfl, Bool.true_or]
  | false =>
    rw [if_neg Bool.false_ne_true]
    cases hvalid : descriptor.valid with
    | false => rw [if_pos (by decide), Bool.false_and, Bool.or_false]
    | true =>
      rw [if_neg (by decide)]
      by_cases hpa : pa = descriptor.entryPa
      · rw [if_neg (not_not.2 hpa), decide_eq_true hpa]
        rfl
      · rw [if_pos hpa, decide_eq_false hpa]
        rfl

/-- The hook before a fetch sets the relocated flag at most. -/
theorem stays_onBeforeFetch (pa : Word) : s.Stays (s.onBeforeFetch pa) := by
  rw [s.onBeforeFetch_eq]
  exact ⟨rfl, rfl, rfl, fun h => by rw [h, Bool.true_or]⟩

variable {s}

/-- The overlaid addresses are the same. -/
theorem Stays.overlaid_iff {s' : SrmStaging} (h : s.Stays s') (pa : Word) :
    s'.Overlaid pa ↔ s.Overlaid pa := by
  rw [Overlaid, Overlaid, h.descriptor, h.loadPa, h.payload]

/-- The words behind the overlaid addresses are the same. -/
theorem Stays.payloadWord_eq {s' : SrmStaging} (h : s.Stays s') (pa : Word) :
    s'.payloadWord pa = s.payloadWord pa := by
  rw [payloadWord, payloadWord, h.loadPa, h.payload]

end SrmStaging

/-! ## The staging along a run -/

namespace TsunamiBus

variable {ε ι ο : Type} (P : BoardParts ε ι ο) (s : BusSide (BoardDevices ε))

/-- No device read touches the staging data. -/
theorem srm_mmioRead (d : BoardDevices ε) (off : Word) (width : Nat) :
    (mmioRead P.busDevices d off width).1.srm = d.srm := by
  unfold mmioRead
  cases routeRead off <;> rfl

/-- No device write touches the staging data. -/
theorem srm_mmioWrite (d : BoardDevices ε) (off value : Word) (width : Nat) :
    (mmioWrite P.busDevices d off value width).srm = d.srm := by
  unfold mmioWrite
  cases routeWrite off <;> rfl

/-- No access to a device reaches the staging. -/
theorem srm_read (pa : Word) (width : Nat) :
    ((toDevices P.busDevices).read s pa width).1.devices.srm = s.devices.srm := by
  simp only [toDevices, read]
  cases decodeRead P.busDevices s.devices pa with
  | mmio off => exact srm_mmioRead P s.devices off width
  | _ => rfl

/-- No store touches the staging data. -/
theorem srm_write (pa value : Word) (width : Nat) :
    ((toDevices P.busDevices).write s pa value width).1.devices.srm = s.devices.srm := by
  simp only [toDevices, write]
  split
  · rfl
  · cases decodeWrite P.busDevices s.devices pa with
    | mmio off => exact srm_mmioWrite P s.devices off value width
    | palScratch off =>
      dsimp only
      split <;> rfl
    | _ => rfl

end TsunamiBus

namespace Board

variable {ε ι ο : Type} (P : BoardParts ε ι ο) (sw : WarpSwitches) (m : Board ε)

/-- The firmware staging. -/
def srm : SrmStaging := m.devices.srm

/-- The hook, on the machine. -/
theorem stays_beforeFetch : m.srm.Stays m.beforeFetch.srm := by
  rw [beforeFetch]
  split
  · split
    · exact m.srm.stays_self
    · exact m.srm.stays_onBeforeFetch _
  · exact m.srm.stays_self

/-- The instruction itself leaves the staging data alone. -/
theorem srm_instruct : (m.instruct P sw).srm = m.beforeFetch.srm :=
  WarpMachine.warpedStep_keeps
    (fun s : TsunamiBus.BusSide (BoardDevices ε) => s.devices.srm = m.beforeFetch.srm)
    (fun hs pa width => (TsunamiBus.srm_read P _ pa width).trans hs)
    (fun hs pa value width => (TsunamiBus.srm_write P _ pa value width).trans hs) sw.rscc rfl

/-- The rest of the cycle leaves the staging data alone. -/
theorem srm_finish (i : Input ι) : (m.finish P sw i).srm = m.srm := by
  rw [finish]
  split <;> rfl

/-- **One cycle** leaves the staging, but for the note of the relocation. -/
theorem stays_cycle (i : Input ι) : m.srm.Stays (m.cycle P sw i).1.srm := by
  have hcycle : (m.cycle P sw i).1.srm = m.beforeFetch.srm :=
    calc (m.cycle P sw i).1.srm
      _ = ((m.execute P sw).1.finish P sw i).srm := rfl
      _ = (m.execute P sw).1.srm := srm_finish P sw _ i
      _ = (m.instruct P sw).srm := rfl
      _ = m.beforeFetch.srm := m.srm_instruct P sw
  rw [hcycle]
  exact m.stays_beforeFetch

/-- **The staging data stay over every run**, the flag apart. -/
theorem stays_run (inputs : List (Input ι)) : m.srm.Stays (m.run P sw inputs).srm :=
  runFrom_invariant (fun b : Board ε => m.srm.Stays b.srm)
    (fun b i h => h.trans (b.stays_cycle P sw i)) inputs m.srm.stays_self

/-! ## The fetch -/

/-- What a fetch from an address gets: the payload is asked before the bus. -/
def fetchAt (pa : Word) : Option Encoded :=
  match m.srm.tryFetch pa with
  | some e => some e
  | none =>
    let fr := (m.warp.machine.bus.fetch P.config.devices pa 4).2
    if fr.status ≠ .ok then none else some (fr.data.setWidth 32)

/-- The machine fetches that word, at the address its PC translates to. -/
theorem fetched_eq_fetchAt :
    fetched P.config m.warp.machine =
      (Ev6Translator.translateInstruction m.cpu m.cpu.pc).pa?.bind (m.fetchAt P) := by
  have htry : ∀ pa, P.config.tryFetch m.warp.machine.bus.devices pa = m.srm.tryFetch pa :=
    fun _ => rfl
  rw [fetched, fetchWord, show m.warp.machine.cpu = m.cpu from rfl]
  cases (Ev6Translator.translateInstruction m.cpu m.cpu.pc).pa? with
  | none => rfl
  | some pa =>
    simp only [Option.bind_some, fetchAt, htry]
    cases m.srm.tryFetch pa with
    | some e => rfl
    | none =>
      dsimp only
      split_ifs <;> rfl

/-- The longword of guest memory at an address. -/
def longword (pa : Word) : Encoded := (m.memory.read pa 4).setWidth 32

/-- DRAM claims the address. -/
def IsDram (pa : Word) : Prop :=
  TsunamiBus.decodeRead P.busDevices m.devices pa = .dram pa

/-- DRAM lies below the range of a fetch. -/
theorem lt_of_isDram {pa : Word} (h : m.IsDram P pa) : pa.toNat < 2 ^ 40 := by
  obtain ⟨⟨i, hholds⟩, -⟩ := (TsunamiBus.decodeRead_eq_iff P.busDevices).1 h
  exact hholds.lt.trans (by decide)

/-- **A fetch from DRAM**: the payload in its range, memory elsewhere. -/
theorem fetchAt_eq {pa : Word} (h : m.IsDram P pa) :
    m.fetchAt P pa = some (if m.srm.Overlaid pa then m.srm.payloadWord pa else m.longword pa) := by
  have hclaimed : TsunamiBus.decodeRead P.busDevices m.warp.machine.bus.devices.devices pa =
      .dram pa := h
  have hfetch : (m.warp.machine.bus.fetch P.config.devices pa 4).2 = ⟨.ok, m.memory.read pa 4⟩ := by
    rw [Chipset.fetch, show P.config.devices = TsunamiBus.toDevices P.busDevices from rfl,
      TsunamiBus.chipset_read_eq, TsunamiBus.read, hclaimed]
    exact TsunamiBus.dramRead_eq _ _ (Or.inr (Or.inr (Or.inl rfl)))
  rw [fetchAt, m.srm.tryFetch_eq (m.lt_of_isDram P h)]
  by_cases ho : m.srm.Overlaid pa
  · rw [if_pos ho, if_pos ho]
  · rw [if_neg ho, if_neg ho, hfetch]
    rfl

/-- Before the fetch nothing else of the machine changes. -/
theorem beforeFetch_eq :
    ∃ relocated, m.beforeFetch =
      m.setDevices { m.devices with srm := { m.srm with palImageRelocated := relocated } } := by
  rw [beforeFetch]
  split
  · split
    · exact ⟨m.srm.palImageRelocated, rfl⟩
    · rw [SrmStaging.onBeforeFetch_eq]
      exact ⟨_, rfl⟩
  · exact ⟨m.srm.palImageRelocated, rfl⟩

/-- The instruction of a cycle whose PC is in DRAM. -/
theorem fetched_of_isDram {pa : Word}
    (hpa : (Ev6Translator.translateInstruction m.cpu m.cpu.pc).pa? = some pa)
    (h : m.IsDram P pa) :
    fetched P.config m.beforeFetch.warp.machine = m.fetchAt P pa := by
  obtain ⟨relocated, heq⟩ := m.beforeFetch_eq
  have hdram : m.beforeFetch.IsDram P pa := by
    rw [heq]
    exact h
  have hpa' : (Ev6Translator.translateInstruction m.beforeFetch.cpu m.beforeFetch.cpu.pc).pa? =
      some pa := by
    rw [heq]
    exact hpa
  rw [fetched_eq_fetchAt, hpa', Option.bind_some, fetchAt_eq P _ hdram, fetchAt_eq P _ h, heq]
  rfl

/-- **The overlay over a run.** What was staged stays. A fetch from outside the range of the
firmware file gets what memory holds now, and one from inside it gets the word of the file; so it
gets another word than memory holds exactly where the guest has overwritten the file there. -/
theorem fetch_overlay (inputs : List (Input ι)) :
    let v := m.run P sw inputs
    m.srm.Stays v.srm ∧
      ∀ pa, v.IsDram P pa →
        ((Ev6Translator.translateInstruction v.cpu v.cpu.pc).pa? = some pa →
          fetched P.config v.beforeFetch.warp.machine = v.fetchAt P pa) ∧
        (¬ m.srm.Overlaid pa → v.fetchAt P pa = some (v.longword pa)) ∧
        (m.srm.Overlaid pa → v.fetchAt P pa = some (m.srm.payloadWord pa)) ∧
        (v.fetchAt P pa = some (v.longword pa) ↔
          (m.srm.Overlaid pa → v.longword pa = m.srm.payloadWord pa)) := by
  intro v
  have hstays : m.srm.Stays v.srm := m.stays_run P sw inputs
  refine ⟨hstays, fun pa hdram => ?_⟩
  have hfetch := v.fetchAt_eq P hdram
  rw [hstays.payloadWord_eq] at hfetch
  simp only [hstays.overlaid_iff] at hfetch
  refine ⟨fun hpa => v.fetched_of_isDram P hpa hdram, fun hout => ?_, fun hin => ?_, ?_⟩
  · rw [hfetch, if_neg hout]
  · rw [hfetch, if_pos hin]
  · rw [hfetch, Option.some.injEq]
    by_cases hin : m.srm.Overlaid pa
    · rw [if_pos hin]
      exact ⟨fun h _ => h.symm, fun h => (h hin).symm⟩
    · rw [if_neg hin]
      exact ⟨fun _ h => absurd h hin, fun _ => rfl⟩

/-! ### A store that is not fetched -/

open Snapshot

/-- The row of STL. -/
def stlRow : GrainRow :=
  ⟨"STL", 0x2C, some 0, .direct,
    [.memFormat, .readsRa, .readsRb, .readsInt, .store, .cacheable], .ordinary (.store 4)⟩

/-- The board about to enter the decompressed firmware at 0x600000, which starts with
STL R1, 0(R2). R2 points at the start of the firmware file, which is in memory as it was loaded. -/
def entryBoard : Board Unit :=
  let b := blankBoard.setCpu
    { pc := 0x600001, palBase := 0x600000, vaCtl := 2, mSpe := 4
      intReg := Function.update (fun _ => 0) 2 0xFFFF800000900000 }
  let bus := { b.warp.machine.bus with
    memory := (b.memory.pokes 0x600000 0xB0220000 4).pokes 0x900000 0xC3E00000 4
    devices := { b.warp.machine.bus.devices with
      devices := { b.devices with
        srm :=
          { descriptor := { valid := true, payloadSize := 4, targetPalBase := 0x600000 }
            payload := [0x00, 0x00, 0xE0, 0xC3]
            payload_lt := by decide
            loadPa := 0x900000 } } } }
  { b with warp := { b.warp with machine := { b.warp.machine with bus := bus } } }

/-- The word decodes to STL. -/
theorem decodeEntry_stl (cpu : CpuState) :
    decodeEntry silentParts.config cpu 0xB0220000 = stlRow.entry := by
  have hrow : stlRow ∈ GrainMaster.rows :=
    GrainMaster.mem_rows_of_family GrainMaster.memoryRows (by simp [GrainMaster.families])
      (by decide +kernel)
  exact Platform.decodeEntry_eq _ _ cpu hrow
    (GrainRow.selected_of_isDirect (by decide) (by decide) (by decide)) (by decide)

/-- The run of the entry board is one STL. -/
theorem run_entryBoard :
    entryBoard.run silentParts {} [⟨(), false⟩] = cycleBy stlRow.entry entryBoard := by
  rw [run, runFrom_cons, runFrom_nil]
  exact cycle_eq_cycleBy (by decide +kernel) (decodeEntry_stl _)

/-- **The firmware stores into the range of its file, and a fetch there does not see it.** -/
theorem store_is_not_fetched :
    entryBoard.longword 0x900000 = 0xC3E00000 ∧
      let v := entryBoard.run silentParts {} [⟨(), false⟩]
      v.srm.palImageRelocated = true ∧ v.IsDram silentParts 0x900000 ∧
        v.longword 0x900000 = 0 ∧ v.fetchAt silentParts 0x900000 = some 0xC3E00000 := by
  rw [run_entryBoard]
  refine ⟨by decide +kernel, by decide +kernel, ?_, by decide +kernel, ?_⟩
  · rw [IsDram]
    decide +kernel
  · decide +kernel

end Board

end EmulatR
