import EmulatR.Library.Run
import EmulatR.Device.Cy82C693Ide

/-! # The state machine of an IDE channel

A channel spreads the state of its command over the status register, the phase, the buffer cursor
and the count of sectors still to stream. `FsmInv` says what they are meant to agree on. A command
that the unit refuses writes the status and nothing else, so it leaves a transfer that is under way
half alive; and the ATAPI commands do not reset the sector count, so they inherit what an abandoned
disk read has left there. `fsmInv_run_iff` says that nothing else breaks the invariant. -/

namespace EmulatR

open Library Scsi

namespace Cy82C693Ide

namespace Channel

variable {μ : Type} (c : Channel μ)

/-! ## The invariant -/

/-- The host is asked for a packet, or offered data. -/
def Active : Prop := c.phase = .awaitCdb ∨ c.phase = .dataIn

instance : Decidable c.Active := inferInstanceAs (Decidable (_ ∨ _))

/-- DRQ is set. -/
def drq : Bool := c.status.getLsbD 3

/-- **What the state of a channel is meant to agree on.** -/
structure FsmInv : Prop where
  /-- DRQ goes with the phase. -/
  drq : c.drq = true ↔ c.Active
  /-- The cursor is inside the buffer. -/
  cursor : c.phase = .dataIn → c.pioPos < c.pioLen ∧ c.pioLen ≤ pioSize
  /-- The buffer was filled for the selected unit and the current command. -/
  owner : c.phase = .dataIn → c.filledBy = (c.selectedUnit, c.issued)
  /-- A command that has not started a sector stream is over when its buffer is read out. -/
  stream : c.phase = .dataIn → c.streamOf ≠ c.issued → ∀ w, c.pioDrained w = c.packetComplete

/-- The stream is not younger than the current command, nor as young as a packet. -/
structure Behind : Prop where
  /-- What streams belongs to a command that was issued. -/
  le : c.streamOf ≤ c.issued
  /-- While a packet is awaited it belongs to an earlier one. -/
  lt : c.phase = .awaitCdb → c.streamOf < c.issued

variable {c}

/-! ## Reading a sector -/

/-- A sector of the stream is shown to the host. -/
structure SectorShown (c c' : Channel μ) : Prop where
  /-- Data are requested. -/
  status : c'.status = kDRDY ||| kDRQ ||| kDSC
  /-- Data go in. -/
  phase : c'.phase = .dataIn
  /-- The cursor is at the first byte. -/
  pioPos : c'.pioPos = 0
  /-- There is one sector. -/
  pioLen : c'.pioLen = kSectorBytes
  /-- The buffer was filled for this unit and command. -/
  filledBy : c'.filledBy = (c.selectedUnit, c.streamOf)
  /-- The selection is as before. -/
  driveHead : c'.driveHead = c.driveHead

variable (c) in
/-- The next sector is shown, or the transfer is broken off. -/
theorem loadDiskSector_cases (w : World μ) :
    ((c.loadDiskSector w).status = kDRDY ||| kERR ∧ (c.loadDiskSector w).phase = .complete) ∨
      SectorShown c (c.loadDiskSector w) := by
  simp only [loadDiskSector]
  split
  · exact Or.inr ⟨rfl, rfl, rfl, rfl, rfl, rfl⟩
  · exact Or.inl ⟨rfl, rfl⟩

/-- Reading a sector leaves the command and the stream what they are. -/
theorem loadDiskSector_ids (w : World μ) :
    (c.loadDiskSector w).issued = c.issued ∧ (c.loadDiskSector w).streamOf = c.streamOf := by
  simp only [loadDiskSector]
  split <;> exact ⟨rfl, rfl⟩

/-- Loading a sector ends any wait for a packet. -/
theorem loadDiskSector_not_awaitCdb (w : World μ) : (c.loadDiskSector w).phase ≠ .awaitCdb := by
  rcases c.loadDiskSector_cases w with ⟨-, hph⟩ | hshown
  · rw [hph]
    decide
  · rw [hshown.phase]
    decide

/-! ## The invariant by the phase -/

/-- A drained buffer completes the command iff no sector is pending. -/
theorem pioDrained_eq_iff (w : World μ) :
    c.pioDrained w = c.packetComplete ↔ c.diskRemaining = 0 := by
  rw [pioDrained]
  by_cases h : c.diskRemaining = 0
  · rw [if_neg (by omega)]
    exact iff_of_true rfl h
  · rw [if_pos (by omega)]
    refine iff_of_false ?_ h
    -- the next sector or the failure to read it: neither shows the status of a completion
    intro heq
    have hstatus : (c.loadDiskSector w).status = kDRDY ||| kDSC := congrArg Channel.status heq
    rcases c.loadDiskSector_cases w with ⟨hend, -⟩ | hshown
    · exact absurd (hend.symm.trans hstatus) (by decide)
    · exact absurd (hshown.status.symm.trans hstatus) (by decide)

/-- Without DRQ the invariant is that the phase is not an active one. -/
theorem fsmInv_of_not_drq (h : c.drq = false) : c.FsmInv ↔ ¬ c.Active := by
  constructor
  · intro hi ha
    exact Bool.false_ne_true (h.symm.trans (hi.drq.mpr ha))
  · intro ha
    have hp : c.phase ≠ .dataIn := fun hp => ha (Or.inr hp)
    exact ⟨iff_of_false (by simp [h]) ha, fun h' => absurd h' hp, fun h' => absurd h' hp,
      fun h' => absurd h' hp⟩

/-- In data-in, with DRQ, it is the rest. -/
theorem fsmInv_of_dataIn (h : c.drq = true) (hp : c.phase = .dataIn) :
    c.FsmInv ↔ (c.pioPos < c.pioLen ∧ c.pioLen ≤ pioSize) ∧
      c.filledBy = (c.selectedUnit, c.issued) ∧ (c.streamOf ≠ c.issued → c.diskRemaining = 0) := by
  constructor
  · intro hi
    refine ⟨hi.cursor hp, hi.owner hp, fun hs => ?_⟩
    exact (pioDrained_eq_iff fun _ => ⟨false, false, 0, fun _ _ => (.ok, [])⟩).mp (hi.stream hp hs _)
  · rintro ⟨hcur, hown, hstr⟩
    exact ⟨iff_of_true h (Or.inr hp), fun _ => hcur, fun _ => hown,
      fun _ hs w => (pioDrained_eq_iff w).mpr (hstr hs)⟩

/-- While a packet is awaited it is DRQ. -/
theorem fsmInv_of_awaitCdb (h : c.drq = true) (hp : c.phase = .awaitCdb) : c.FsmInv := by
  have hne : c.phase ≠ .dataIn := by rw [hp]; decide
  exact ⟨iff_of_true h (Or.inl hp), fun h' => absurd h' hne, fun h' => absurd h' hne,
    fun h' => absurd h' hne⟩

/-- The invariant looks at a few fields only. -/
theorem FsmInv.congr {c' : Channel μ} (h : c.FsmInv) (hst : c'.status = c.status)
    (hph : c'.phase = c.phase) (hpos : c'.pioPos = c.pioPos) (hlen : c'.pioLen = c.pioLen)
    (hown : c'.filledBy = c.filledBy) (hhead : c'.driveHead = c.driveHead)
    (hiss : c'.issued = c.issued) (hstr : c'.streamOf = c.streamOf)
    (hrem : c'.diskRemaining = c.diskRemaining) : c'.FsmInv := by
  obtain ⟨h1, h2, h3, h4⟩ := h
  refine ⟨?_, ?_, ?_, ?_⟩
  · rw [Channel.drq, Active, hst, hph]
    exact h1
  · rw [hph, hpos, hlen]
    exact h2
  · rw [hph, hown, selectedUnit, hhead, hiss]
    exact h3
  · intro hp hs w
    rw [hph] at hp
    rw [hstr, hiss] at hs
    rw [pioDrained_eq_iff, hrem, ← pioDrained_eq_iff w]
    exact h4 hp hs w

/-- A command that is over keeps the invariant. -/
theorem fsmInv_of_ended {st : Byte} (hs : c.status = st) (hst : st.getLsbD 3 = false)
    (hp : c.phase = .idle ∨ c.phase = .complete) : c.FsmInv := by
  have hdrq : c.drq = false := by rw [Channel.drq, hs, hst]
  refine (fsmInv_of_not_drq hdrq).mpr ?_
  rcases hp with hp | hp <;> simp [Active, hp]

/-! ## What the handlers leave -/

/-- After a select the invariant holds. -/
theorem loadSignature_fsmInv (w : World μ) (unit : Bool) : (c.loadSignature w unit).FsmInv := by
  simp only [loadSignature]
  split
  · have hst : (kDRDY ||| kDSC).getLsbD 3 = false := by decide
    split
    · exact fsmInv_of_ended rfl hst (Or.inl rfl)
    · exact fsmInv_of_ended rfl hst (Or.inl rfl)
  · exact fsmInv_of_ended rfl (by decide : (0 : Byte).getLsbD 3 = false) (Or.inl rfl)

/-- After a completed command the invariant holds. -/
theorem packetComplete_fsmInv : c.packetComplete.FsmInv :=
  fsmInv_of_ended rfl (by decide : (kDRDY ||| kDSC).getLsbD 3 = false) (Or.inr rfl)

/-- After an aborted command the invariant holds. -/
theorem abortTransfer_fsmInv : c.abortTransfer.FsmInv :=
  fsmInv_of_ended rfl (by decide : (kDRDY ||| kERR).getLsbD 3 = false) (Or.inr rfl)

/-- The stream of the current command goes on. -/
theorem loadDiskSector_fsmInv (w : World μ) (h : c.streamOf = c.issued) :
    (c.loadDiskSector w).FsmInv := by
  obtain ⟨hiss, hstr⟩ := loadDiskSector_ids (c := c) w
  rcases c.loadDiskSector_cases w with ⟨hst, hph⟩ | hs
  · exact fsmInv_of_ended hst (by decide) (Or.inr hph)
  · have hdrq : (c.loadDiskSector w).drq = true := by rw [Channel.drq, hs.status]; decide
    refine (fsmInv_of_dataIn hdrq hs.phase).mpr ⟨?_, ?_, fun hne => ?_⟩
    · rw [hs.pioPos, hs.pioLen]
      decide
    · rw [hs.filledBy, hiss, h, selectedUnit, selectedUnit, hs.driveHead]
    · exact absurd (hstr.trans (h.trans hiss.symm)) hne

/-- Once a read is started the invariant holds. -/
theorem startDiskRead_fsmInv (w : World μ) (unit : Bool) : (c.startDiskRead w unit).FsmInv := by
  simp only [startDiskRead]
  split
  · exact abortTransfer_fsmInv
  · exact loadDiskSector_fsmInv w rfl

/-- A drained buffer: the stream goes on, or the command is over. -/
theorem pioDrained_fsmInv (w : World μ) (h : 0 < c.diskRemaining → c.streamOf = c.issued) :
    (c.pioDrained w).FsmInv := by
  rw [pioDrained]
  split
  · rename_i hrem
    exact loadDiskSector_fsmInv w (h hrem)
  · exact packetComplete_fsmInv

/-- A read of the data register keeps the invariant. -/
theorem readData_fsmInv (w : World μ) (h : c.FsmInv) : (c.readData w).1.FsmInv := by
  rw [readData]
  by_cases hp : c.phase = .dataIn
  · rw [if_pos hp]
    simp only
    have hrem : 0 < c.diskRemaining → c.streamOf = c.issued := by
      intro hrem
      by_contra hne
      exact absurd ((pioDrained_eq_iff w).mp (h.stream hp hne w)) (by omega)
    split
    · exact pioDrained_fsmInv w hrem
    · rename_i hlt
      have hdrq : c.drq = true := h.drq.mpr (Or.inr hp)
      refine (fsmInv_of_dataIn (c := { c with pioPos := c.pioPos + 2 }) hdrq hp).mpr
        ⟨⟨by simpa using hlt, (h.cursor hp).2⟩, h.owner hp, ?_⟩
      intro hne
      exact (pioDrained_eq_iff w).mp (h.stream hp hne w)
  · rw [if_neg hp]
    exact h

/-! ## The packet -/

variable (c)

/-- The selected drive answers the packet with data. -/
def AnswersData (w : World μ) : Prop :=
  ∃ dev, c.dev c.selectedUnit = some dev ∧
    (dev.handleCommand w c.packet).2.status ≠ .checkCondition ∧
    0 < (dev.handleCommand w c.packet).2.dataTransferred

/-- The write of this word completes a packet that is answered with data. -/
def StartsAnswer (w : World μ) (value : Word) : Prop :=
  c.phase = .awaitCdb ∧ 12 ≤ (c.takeCdbWord value).cdbPos ∧ (c.takeCdbWord value).AnswersData w

variable {c}

/-- The answer of the drive may be shown iff no sector of an older stream is pending. -/
theorem executePacket_fsmInv_iff (w : World μ) (hs : c.streamOf ≠ c.issued) :
    (c.executePacket w).FsmInv ↔ (c.AnswersData w → c.diskRemaining = 0) := by
  simp only [executePacket, AnswersData]
  cases hdev : c.dev c.selectedUnit with
  | none => exact iff_of_true packetComplete_fsmInv (by simp)
  | some dev =>
    simp only [Option.elim_some, Option.some.injEq, exists_eq_left']
    have hle : (dev.handleCommand w c.packet).2.dataTransferred ≤ pioSize :=
      VirtualIsoDevice.handleCommand_dataTransferred_le rfl
    generalize dev.handleCommand w c.packet = r at hle ⊢
    by_cases hcheck : r.2.status = .checkCondition
    · rw [if_pos hcheck]
      refine iff_of_true ?_ fun h => absurd hcheck h.1
      exact fsmInv_of_ended rfl (by decide : (kDRDY ||| kERR).getLsbD 3 = false) (Or.inr rfl)
    · rw [if_neg hcheck]
      by_cases hdata : 0 < r.2.dataTransferred
      · rw [if_pos hdata, fsmInv_of_dataIn (by exact (by decide : (kDRDY ||| kDRQ).getLsbD 3 = true))
          rfl]
        constructor
        · intro h _
          exact h.2.2 hs
        · intro h
          exact ⟨⟨hdata, hle⟩, rfl, fun _ => h ⟨hcheck, hdata⟩⟩
      · rw [if_neg hdata]
        exact iff_of_true packetComplete_fsmInv fun h => absurd h.2 hdata

/-- A byte of a packet changes the packet only. -/
theorem takeCdb_frame (v : Byte) :
    ∃ cdb pos, c.takeCdb v = { c with cdb := cdb, cdbPos := pos } := by
  rw [takeCdb]
  split
  · exact ⟨_, _, rfl⟩
  · exact ⟨c.cdb, c.cdbPos, rfl⟩

/-- Taking a word of the packet changes what taking its bytes changes. -/
theorem takeCdbWord_frame (value : Word) :
    ∃ cdb pos, c.takeCdbWord value = { c with cdb := cdb, cdbPos := pos } := by
  obtain ⟨cdb, pos, h⟩ := takeCdb_frame (c := c) (value.extractLsb' 0 8)
  obtain ⟨cdb', pos', h'⟩ := takeCdb_frame (c := c.takeCdb (value.extractLsb' 0 8))
    (value.extractLsb' 8 8)
  exact ⟨cdb', pos', by rw [takeCdbWord, h', h]⟩

/-- A write of the data register keeps the invariant iff it starts no answer over the remains of a
stream. -/
theorem writeData_fsmInv_iff (w : World μ) (value : Word) (h : c.FsmInv) (hb : c.Behind) :
    (c.writeData w value).FsmInv ↔ (c.StartsAnswer w value → c.diskRemaining = 0) := by
  rw [writeData, StartsAnswer]
  by_cases hp : c.phase = .awaitCdb
  · rw [if_pos hp]
    obtain ⟨cdb, pos, htake⟩ := takeCdbWord_frame (c := c) value
    have hne : (c.takeCdbWord value).streamOf ≠ (c.takeCdbWord value).issued := by
      rw [htake]
      exact (hb.lt hp).ne
    have hrem : (c.takeCdbWord value).diskRemaining = c.diskRemaining := by rw [htake]
    simp only
    by_cases hfull : 12 ≤ (c.takeCdbWord value).cdbPos
    · rw [if_pos hfull, executePacket_fsmInv_iff w hne, hrem]
      simp [hp, hfull]
    · rw [if_neg hfull]
      refine iff_of_true ?_ fun h' => absurd h'.2.1 hfull
      rw [htake]
      exact fsmInv_of_awaitCdb (h.drq.mpr (Or.inl hp)) hp
  · rw [if_neg hp]
    exact iff_of_true h fun h' => absurd h'.1 hp

/-! ## Commands -/

variable (c)

/-- The unit takes the command: it begins a transfer or resets the channel. Any other command is
answered in the status and error registers alone. -/
def Takes (w : World μ) (cmd : Byte) : Prop :=
  if c.isDisk w c.selectedUnit then cmd = 0xEC ∨ cmd = 0x20 ∨ cmd = 0x21 ∨ cmd = 0x08
  else c.present w c.selectedUnit ∧
    (cmd = 0x08 ∨ c.isAtapi c.selectedUnit ∧ (cmd = 0xA1 ∨ cmd = 0xA0))

/-- The unit answers the command with its ATAPI identify block. -/
def StartsIdentify (w : World μ) (cmd : Byte) : Prop :=
  ¬ c.isDisk w c.selectedUnit ∧ c.isAtapi c.selectedUnit ∧ cmd = 0xA1

variable {c}

/-- A refused command keeps the invariant iff nothing was under way. -/
theorem abort_fsmInv_iff : c.abort.FsmInv ↔ ¬ c.Active :=
  fsmInv_of_not_drq (c := c.abort) (by exact (by decide : (kDRDY ||| kERR).getLsbD 3 = false))

/-- A command for a disk keeps the invariant if the disk takes it, or if there is no transfer it
could leave behind. -/
theorem handleDiskCommand_fsmInv_iff (w : World μ) (cmd : Byte) :
    (c.handleDiskCommand w c.selectedUnit cmd).FsmInv ↔
      (cmd = 0xEC ∨ cmd = 0x20 ∨ cmd = 0x21 ∨ cmd = 0x08) ∨ ¬ c.Active := by
  have hquiet : (kDRDY ||| kDSC).getLsbD 3 = false := by decide
  have hlen : 0 < kSectorBytes ∧ kSectorBytes ≤ pioSize := by decide
  unfold handleDiskCommand
  split_ifs with hident hread hdiag hset hreset
  · refine iff_of_true ?_ (Or.inl (Or.inl hident))
    refine (fsmInv_of_dataIn ?_ rfl).mpr ⟨hlen, rfl, fun _ => rfl⟩
    exact (by decide : (kDRDY ||| kDRQ ||| kDSC).getLsbD 3 = true)
  · refine iff_of_true (startDiskRead_fsmInv w _) (Or.inl (Or.inr ?_))
    exact hread.imp_right Or.inl
  -- the disk answers without touching the phase
  · have hnot : ¬ (cmd = 0xEC ∨ cmd = 0x20 ∨ cmd = 0x21 ∨ cmd = 0x08) := by subst hdiag; decide
    exact (fsmInv_of_not_drq (c := { c with error := 0x01, status := kDRDY ||| kDSC }) hquiet).trans
      (or_iff_right hnot).symm
  · have hnot : ¬ (cmd = 0xEC ∨ cmd = 0x20 ∨ cmd = 0x21 ∨ cmd = 0x08) := by
      rcases hset with rfl | rfl <;> decide
    exact (fsmInv_of_not_drq (c := { c with error := 0, status := kDRDY ||| kDSC }) hquiet).trans
      (or_iff_right hnot).symm
  · exact iff_of_true (loadSignature_fsmInv w _) (Or.inl (Or.inr (Or.inr (Or.inr hreset))))
  · have hnot : ¬ (cmd = 0xEC ∨ cmd = 0x20 ∨ cmd = 0x21 ∨ cmd = 0x08) := by
      rintro (h | h | h | h)
      · exact hident h
      · exact hread (Or.inl h)
      · exact hread (Or.inr h)
      · exact hreset h
    exact abort_fsmInv_iff.trans (or_iff_right hnot).symm

/-- A command for another unit keeps it if the drive takes it, or if there is no transfer it could
leave behind; and the identify block only if no sector of an older stream is pending. -/
theorem handlePacketCommand_fsmInv_iff (w : World μ) (cmd : Byte) (hne : c.streamOf ≠ c.issued) :
    (c.handlePacketCommand w c.selectedUnit cmd).FsmInv ↔
      ((cmd = 0x08 ∨ c.isAtapi c.selectedUnit ∧ (cmd = 0xA1 ∨ cmd = 0xA0)) ∨ ¬ c.Active) ∧
        (c.isAtapi c.selectedUnit ∧ cmd = 0xA1 → c.diskRemaining = 0) := by
  have hshow : (kDRDY ||| kDRQ).getLsbD 3 = true := by decide
  have hquiet : (kDRDY ||| kERR).getLsbD 3 = false := by decide
  have hlen : 0 < 512 ∧ 512 ≤ pioSize := by decide
  -- for a command the drive does not take, the right side is that no transfer is under way
  have hrefused : ¬ (cmd = 0x08 ∨ c.isAtapi c.selectedUnit ∧ (cmd = 0xA1 ∨ cmd = 0xA0)) →
      (¬ c.Active ↔
        ((cmd = 0x08 ∨ c.isAtapi c.selectedUnit ∧ (cmd = 0xA1 ∨ cmd = 0xA0)) ∨ ¬ c.Active) ∧
          (c.isAtapi c.selectedUnit ∧ cmd = 0xA1 → c.diskRemaining = 0)) := by
    intro hnot
    rw [or_iff_right hnot, and_iff_left]
    exact fun h => absurd (Or.inr ⟨h.1, Or.inl h.2⟩) hnot
  unfold handlePacketCommand
  split_ifs with hreset hident hatapi hpid hatapi hpkt hatapi
  · subst hreset
    exact iff_of_true (loadSignature_fsmInv w _) ⟨Or.inl (Or.inl rfl), by simp⟩
  · subst hident
    exact (fsmInv_of_not_drq (c := { c.abort with lbaMid := 0x14, lbaHigh := 0xEB }) hquiet).trans
      (hrefused (by simp))
  · subst hident
    exact abort_fsmInv_iff.trans (hrefused (by simp))
  · subst hpid
    rw [fsmInv_of_dataIn (by exact hshow) rfl]
    constructor
    · intro h
      exact ⟨Or.inl (Or.inr ⟨hatapi, Or.inl rfl⟩), fun _ => h.2.2 hne⟩
    · intro h
      exact ⟨hlen, rfl, fun _ => h.2 ⟨hatapi, rfl⟩⟩
  · refine abort_fsmInv_iff.trans (hrefused ?_)
    rintro (h | ⟨h, -⟩)
    · exact hreset h
    · exact hatapi h
  · subst hpkt
    exact iff_of_true (fsmInv_of_awaitCdb hshow rfl) (by simp [hatapi])
  · refine abort_fsmInv_iff.trans (hrefused ?_)
    rintro (h | ⟨h, -⟩)
    · exact hreset h
    · exact hatapi h
  · refine abort_fsmInv_iff.trans (hrefused ?_)
    rintro (h | ⟨-, h | h⟩)
    · exact hreset h
    · exact hpid h
    · exact hpkt h

/-- An ATAPI unit is there. -/
theorem isAtapi_present (w : World μ) {unit : Bool} (h : c.isAtapi unit = true) :
    c.present w unit = true := by
  rw [isAtapi, Option.any_eq_true] at h
  obtain ⟨dev, hdev, -⟩ := h
  rw [present, hdev, Option.isSome_some, Bool.true_or]

/-- A command keeps the invariant iff it is taken or nothing was under way, and IDENTIFY finds no
sectors left. -/
theorem dispatchCommand_fsmInv_iff (w : World μ) (cmd : Byte) (hne : c.streamOf ≠ c.issued) :
    (c.dispatchCommand w cmd).FsmInv ↔
      (c.Takes w cmd ∨ ¬ c.Active) ∧ (c.StartsIdentify w cmd → c.diskRemaining = 0) := by
  rw [dispatchCommand, Takes, StartsIdentify]
  by_cases hdisk : c.isDisk w c.selectedUnit = true
  · have hpres : c.present w c.selectedUnit = true := by rw [present, hdisk, Bool.or_true]
    rw [if_pos hpres, if_pos hdisk, if_pos hdisk, handleDiskCommand_fsmInv_iff, and_iff_left]
    exact fun h => absurd hdisk h.1
  · rw [if_neg hdisk, if_neg hdisk, and_iff_right hdisk]
    by_cases hpres : c.present w c.selectedUnit = true
    · rw [if_pos hpres, and_iff_right hpres, handlePacketCommand_fsmInv_iff w cmd hne]
    · -- an absent unit only clears the status
      have hquiet : (0 : Byte).getLsbD 3 = false := by decide
      rw [if_neg hpres, or_iff_right fun h => hpres h.1, and_iff_left]
      · exact fsmInv_of_not_drq (c := { c with status := 0 }) hquiet
      · exact fun h => absurd (isAtapi_present w h.1) hpres

/-- **A command keeps the invariant iff the unit takes it or no transfer is under way, and no
identify block is put over the remains of a stream.** -/
theorem handleCommand_fsmInv_iff (w : World μ) (cmd : Byte) (hb : c.Behind) :
    (c.handleCommand w cmd).FsmInv ↔
      (c.Takes w cmd ∨ ¬ c.Active) ∧ (c.StartsIdentify w cmd → c.diskRemaining = 0) := by
  have hne : c.streamOf ≠ c.issued + 1 := by
    have := hb.le
    omega
  exact dispatchCommand_fsmInv_iff (c := { c with issued := c.issued + 1 }) w cmd hne

/-! ## Which command a stream belongs to -/

/-- A select issues no command. -/
theorem loadSignature_ids (w : World μ) (unit : Bool) :
    (c.loadSignature w unit).issued = c.issued ∧ (c.loadSignature w unit).streamOf = c.streamOf ∧
      (c.loadSignature w unit).phase = .idle := by
  simp only [loadSignature]
  split
  · split <;> exact ⟨rfl, rfl, rfl⟩
  · exact ⟨rfl, rfl, rfl⟩

/-- What does not touch the command, the stream and the phase keeps them in order. -/
theorem Behind.congr {c' : Channel μ} (h : c.Behind) (hi : c'.issued = c.issued)
    (hs : c'.streamOf = c.streamOf) (hp : c'.phase = .awaitCdb → c.phase = .awaitCdb) :
    c'.Behind := by
  refine ⟨?_, fun hp' => ?_⟩
  · rw [hi, hs]
    exact h.le
  · rw [hi, hs]
    exact h.lt (hp hp')

/-- A select keeps the count of commands. -/
theorem Behind.loadSignature (h : c.Behind) (w : World μ) (unit : Bool) :
    (c.loadSignature w unit).Behind := by
  obtain ⟨hi, hs, hp⟩ := loadSignature_ids (c := c) w unit
  exact h.congr hi hs fun hp' => absurd (hp.symm.trans hp') (by decide)

/-- Loading a sector keeps the count of commands. -/
theorem Behind.loadDiskSector (h : c.Behind) (w : World μ) : (c.loadDiskSector w).Behind := by
  obtain ⟨hi, hs⟩ := loadDiskSector_ids (c := c) w
  exact h.congr hi hs fun hp => absurd hp (loadDiskSector_not_awaitCdb w)

/-- The completion of a command keeps the count of commands. -/
theorem Behind.packetComplete (h : c.Behind) : c.packetComplete.Behind :=
  h.congr rfl rfl fun hp => absurd hp (by simp [Channel.packetComplete])

/-- A read of the data register keeps the count of commands. -/
theorem Behind.readData (h : c.Behind) (w : World μ) : (c.readData w).1.Behind := by
  have h' : ({ c with pioPos := c.pioPos + 2 } : Channel μ).Behind := ⟨h.le, h.lt⟩
  rw [Channel.readData]
  split
  · simp only [pioDrained]
    split
    · split
      · exact h'.loadDiskSector w
      · exact h'.packetComplete
    · exact h'
  · exact h

/-- The execution of a packet keeps the count of commands. -/
theorem Behind.executePacket (h : c.Behind) (w : World μ) : (c.executePacket w).Behind := by
  simp only [Channel.executePacket]
  cases c.dev c.selectedUnit with
  | none => exact h.packetComplete
  | some dev =>
    simp only [Option.elim_some]
    split
    · exact h.congr rfl rfl fun hp => absurd hp (by simp)
    · split
      · exact h.congr rfl rfl fun hp => absurd hp (by simp)
      · exact h.congr rfl rfl fun hp => absurd hp (by simp [Channel.packetComplete])

/-- A write of the data register keeps the count of commands. -/
theorem Behind.writeData (h : c.Behind) (w : World μ) (value : Word) :
    (c.writeData w value).Behind := by
  obtain ⟨cdb, pos, htake⟩ := takeCdbWord_frame (c := c) value
  have h' : (c.takeCdbWord value).Behind := by
    rw [htake]
    exact ⟨h.le, h.lt⟩
  rw [Channel.writeData]
  split
  · simp only
    split
    · exact h'.executePacket w
    · exact h'
  · exact h

/-- A read that starts now owns its stream. -/
theorem startDiskRead_behind (w : World μ) (unit : Bool) (h : c.streamOf < c.issued) :
    (c.startDiskRead w unit).Behind := by
  simp only [startDiskRead]
  split
  · exact ⟨h.le, fun _ => h⟩
  · obtain ⟨hi, hs⟩ := loadDiskSector_ids w (c := { c with
      diskLba := c.taskfileLba
      diskRemaining := c.taskfileCount
      streamOf := c.issued })
    exact ⟨(hs.trans hi.symm).le, fun hp => absurd hp (loadDiskSector_not_awaitCdb w)⟩

/-- No other command of a disk moves the stream. -/
theorem handleDiskCommand_behind (w : World μ) (unit : Bool) (cmd : Byte)
    (h : c.streamOf < c.issued) : (c.handleDiskCommand w unit cmd).Behind := by
  have hb : c.Behind := ⟨h.le, fun _ => h⟩
  unfold handleDiskCommand
  split_ifs
  · exact ⟨h.le, fun _ => h⟩
  · exact startDiskRead_behind w _ h
  · exact ⟨h.le, fun _ => h⟩
  · exact ⟨h.le, fun _ => h⟩
  · exact hb.loadSignature w _
  · exact ⟨h.le, fun _ => h⟩

/-- No command of a drive moves it. -/
theorem handlePacketCommand_behind (w : World μ) (unit : Bool) (cmd : Byte)
    (h : c.streamOf < c.issued) : (c.handlePacketCommand w unit cmd).Behind := by
  have hb : c.Behind := ⟨h.le, fun _ => h⟩
  unfold handlePacketCommand
  split_ifs
  · exact hb.loadSignature w _
  all_goals exact ⟨h.le, fun _ => h⟩

/-- A command keeps the count of commands. -/
theorem dispatchCommand_behind (w : World μ) (cmd : Byte) (h : c.streamOf < c.issued) :
    (c.dispatchCommand w cmd).Behind := by
  unfold dispatchCommand
  split_ifs
  · exact handleDiskCommand_behind w _ cmd h
  · exact handlePacketCommand_behind w _ cmd h
  · exact ⟨h.le, fun _ => h⟩

/-- A command is younger than every stream before it. -/
theorem Behind.handleCommand (h : c.Behind) (w : World μ) (cmd : Byte) :
    (c.handleCommand w cmd).Behind :=
  dispatchCommand_behind (c := { c with issued := c.issued + 1 }) w cmd (Nat.lt_succ_of_le h.le)

/-! ## Register accesses -/

variable (c)

/-- What keeps a write of a command register in order. -/
def WriteOk (w : World μ) (value : Word) (reg : Nat) : Prop :=
  (reg = 7 → (c.Takes w (value.extractLsb' 0 8) ∨ ¬ c.Active) ∧
    (c.StartsIdentify w (value.extractLsb' 0 8) → c.diskRemaining = 0)) ∧
  (reg = 0 → c.StartsAnswer w value → c.diskRemaining = 0)

variable {c}

/-- A read of a command register keeps the invariant. -/
theorem cmdRead_fsmInv (w : World μ) (reg : Nat) (h : c.FsmInv) : (c.cmdRead w reg).1.FsmInv := by
  unfold cmdRead
  split
  · exact readData_fsmInv w h
  all_goals exact h

/-- A read of the taskfile keeps the count of commands. -/
theorem Behind.cmdRead (h : c.Behind) (w : World μ) (reg : Nat) : (c.cmdRead w reg).1.Behind := by
  unfold Channel.cmdRead
  split
  · exact h.readData w
  all_goals exact h

/-- A write of a command register keeps the invariant iff it is one that the condition allows. -/
theorem cmdWrite_fsmInv_iff (w : World μ) (value : Word) (reg : Nat) (h : c.FsmInv)
    (hb : c.Behind) : (c.cmdWrite w value reg).FsmInv ↔ c.WriteOk w value reg := by
  unfold cmdWrite WriteOk
  split
  · rw [writeData_fsmInv_iff w value h hb]
    simp
  all_goals try exact iff_of_true (h.congr rfl rfl rfl rfl rfl rfl rfl rfl rfl) (by simp)
  · exact iff_of_true (loadSignature_fsmInv w _) (by simp)
  · rw [handleCommand_fsmInv_iff w _ hb]
    simp
  · rename_i hne0 _ _ _ _ _ _ hne7
    exact iff_of_true h ⟨fun h7 => (hne7 h7).elim, fun h0 => (hne0 h0).elim⟩

/-- A write of the taskfile keeps the count of commands. -/
theorem Behind.cmdWrite (h : c.Behind) (w : World μ) (value : Word) (reg : Nat) :
    (c.cmdWrite w value reg).Behind := by
  have h' : ({ c with driveHead := value.extractLsb' 0 8 } : Channel μ).Behind := ⟨h.le, h.lt⟩
  unfold Channel.cmdWrite
  split
  all_goals first
    | exact h.writeData w value
    | exact h'.loadSignature w _
    | exact h.handleCommand w _
    | exact ⟨h.le, h.lt⟩

/-- A write of the control register keeps the invariant. -/
theorem ctrlWrite_fsmInv (w : World μ) (v : Byte) (h : c.FsmInv) : (c.ctrlWrite w v).FsmInv := by
  simp only [ctrlWrite]
  split
  · exact loadSignature_fsmInv w _
  · exact h.congr rfl rfl rfl rfl rfl rfl rfl rfl rfl

/-- A write of the control register keeps the count of commands. -/
theorem Behind.ctrlWrite (h : c.Behind) (w : World μ) (v : Byte) : (c.ctrlWrite w v).Behind := by
  have h' : ({ c with devCtrl := v } : Channel μ).Behind := ⟨h.le, h.lt⟩
  simp only [Channel.ctrlWrite]
  split
  · exact h'.loadSignature w _
  · exact h'

end Channel

/-! ## Runs -/

variable {μ : Type}

/-- What is done to the controller: port accesses, and units put in and taken out. -/
inductive Access (μ : Type)
  /-- A read of a port. -/
  | ioRead (port : BitVec 16)
  /-- A write of one. -/
  | ioWrite (port : BitVec 16) (value : Word)
  /-- A drive is attached to a unit. -/
  | attachDevice (ch unit : Bool) (dev : Option (VirtualIsoDevice μ))
  /-- A disk is attached to a unit. -/
  | attachMedia (ch unit : Bool) (media : Option μ)
  /-- A disk is detached. -/
  | detachDisk (ch unit : Bool)

/-- An access, with what the media answer at that moment. -/
abbrev Event (μ : Type) := World μ × Access μ

/-- One access. -/
def step (s : Cy82C693Ide μ) (e : Event μ) : Cy82C693Ide μ :=
  match e.2 with
  | .ioRead port => (s.ioRead e.1 port).1
  | .ioWrite port value => s.ioWrite e.1 port value
  | .attachDevice ch unit dev => s.attachDevice e.1 ch unit dev
  | .attachMedia ch unit media => s.attachMedia e.1 ch unit media
  | .detachDisk ch unit => s.detachDisk e.1 ch unit

/-- The invariant of both channels. -/
def FsmInv (s : Cy82C693Ide μ) : Prop := ∀ ch, (s.chan ch).FsmInv

/-- No channel has a stream younger than its command. -/
def Behind (s : Cy82C693Ide μ) : Prop := ∀ ch, (s.chan ch).Behind

/-- **What keeps an access in order.** A write of the command register while a packet is awaited or
data is offered has to be a command the selected unit takes; and an ATAPI answer, to the identify
command or to the packet this write completes, is started only if no sector of a disk read is left
on the channel. -/
def Orderly (s : Cy82C693Ide μ) (e : Event μ) : Prop :=
  match e.2 with
  | .ioWrite port value => ∀ ch reg, decodePort port.toNat = .cmd ch reg →
      (s.chan ch).WriteOk e.1 value reg
  | _ => True

section Step

variable {s : Cy82C693Ide μ}

/-- Replacing a channel matters to that channel only. -/
theorem forall_setChan {P : Channel μ → Prop} (h : ∀ ch, P (s.chan ch)) (ch : Bool)
    (c : Channel μ) : (∀ k, P ((s.setChan ch c).chan k)) ↔ P c := by
  constructor
  · intro hall
    have hch := hall ch
    rwa [setChan_self] at hch
  · intro hc k
    by_cases hk : k = ch
    · rwa [hk, setChan_self]
    · rw [setChan_of_ne s hk]
      exact h k

/-- A change of a unit keeps the invariant of both channels. -/
theorem FsmInv.refresh (h : s.FsmInv) (w : World μ) (ch unit : Bool) :
    (s.refresh w ch unit).FsmInv := by
  rw [Cy82C693Ide.refresh]
  split
  · exact (forall_setChan h ch _).mpr (Channel.loadSignature_fsmInv w unit)
  · exact h

/-- A refresh of the channels keeps their counts of commands. -/
theorem Behind.refresh (h : s.Behind) (w : World μ) (ch unit : Bool) :
    (s.refresh w ch unit).Behind := by
  rw [Cy82C693Ide.refresh]
  split
  · exact (forall_setChan h ch _).mpr ((h ch).loadSignature w unit)
  · exact h

/-- A change of its disk keeps a channel's invariant. -/
theorem FsmInv.setDisk (h : s.FsmInv) (ch unit : Bool) (d : Disk μ) : (s.setDisk ch unit d).FsmInv :=
  (forall_setChan h ch _).mpr ((h ch).congr rfl rfl rfl rfl rfl rfl rfl rfl rfl)

/-- Which keeps the counts too. -/
theorem Behind.setDisk (h : s.Behind) (ch unit : Bool) (d : Disk μ) : (s.setDisk ch unit d).Behind :=
  (forall_setChan h ch _).mpr ⟨(h ch).le, (h ch).lt⟩

/-- A new medium keeps a channel's invariant. -/
theorem FsmInv.attachMedia (h : s.FsmInv) (w : World μ) (ch unit : Bool) (media : Option μ) :
    (s.attachMedia w ch unit media).FsmInv := by
  simp only [Cy82C693Ide.attachMedia]
  split
  · exact (h.setDisk ch unit _).refresh w ch unit
  · exact h.setDisk ch unit _

/-- Which keeps the counts too. -/
theorem Behind.attachMedia (h : s.Behind) (w : World μ) (ch unit : Bool) (media : Option μ) :
    (s.attachMedia w ch unit media).Behind := by
  simp only [Cy82C693Ide.attachMedia]
  split
  · exact (h.setDisk ch unit _).refresh w ch unit
  · exact h.setDisk ch unit _

/-- A read of a port keeps the invariant. -/
theorem FsmInv.ioRead (h : s.FsmInv) (w : World μ) (port : BitVec 16) :
    (s.ioRead w port).1.FsmInv := by
  rw [Cy82C693Ide.ioRead]
  cases decodePort port.toNat with
  | cmd ch reg =>
    exact (forall_setChan (s := { s with curChan := ch }) h ch _).mpr
      (Channel.cmdRead_fsmInv w reg (h ch))
  | ctrl ch => exact h
  | none => exact h

/-- A write of a port keeps it iff it is orderly. -/
theorem FsmInv.ioWrite_iff (h : s.FsmInv) (hb : s.Behind) (w : World μ) (port : BitVec 16)
    (value : Word) :
    (s.ioWrite w port value).FsmInv ↔ ∀ ch reg, decodePort port.toNat = .cmd ch reg →
      (s.chan ch).WriteOk w value reg := by
  rw [Cy82C693Ide.ioWrite]
  cases decodePort port.toNat with
  | cmd ch reg =>
    have hset := forall_setChan (s := { s with curChan := ch }) h ch
      ((s.chan ch).cmdWrite w value reg)
    refine hset.trans ((Channel.cmdWrite_fsmInv_iff w value reg (h ch) (hb ch)).trans ?_)
    simp
  | ctrl ch =>
    refine iff_of_true ?_ (by simp)
    exact (forall_setChan h ch _).mpr (Channel.ctrlWrite_fsmInv w _ (h ch))
  | none => exact iff_of_true h (by simp)

/-- **One access keeps the invariant iff it is orderly.** -/
theorem FsmInv.step_iff (h : s.FsmInv) (hb : s.Behind) (e : Event μ) :
    (s.step e).FsmInv ↔ s.Orderly e := by
  obtain ⟨w, a⟩ := e
  cases a with
  | ioRead port => exact iff_of_true (h.ioRead w port) trivial
  | ioWrite port value => exact h.ioWrite_iff hb w port value
  | attachDevice ch unit dev =>
    refine iff_of_true (FsmInv.refresh ?_ w ch unit) trivial
    exact (forall_setChan h ch _).mpr ((h ch).congr rfl rfl rfl rfl rfl rfl rfl rfl rfl)
  | attachMedia ch unit media => exact iff_of_true (h.attachMedia w ch unit media) trivial
  | detachDisk ch unit => exact iff_of_true ((h.setDisk ch unit _).refresh w ch unit) trivial

/-- Every event keeps the counts of commands. -/
theorem Behind.step (h : s.Behind) (e : Event μ) : (s.step e).Behind := by
  obtain ⟨w, a⟩ := e
  cases a with
  | ioRead port =>
    simp only [Cy82C693Ide.step, Cy82C693Ide.ioRead]
    cases decodePort port.toNat with
    | cmd ch reg =>
      exact (forall_setChan (s := { s with curChan := ch }) h ch _).mpr ((h ch).cmdRead w reg)
    | ctrl ch => exact h
    | none => exact h
  | ioWrite port value =>
    simp only [Cy82C693Ide.step, Cy82C693Ide.ioWrite]
    cases decodePort port.toNat with
    | cmd ch reg =>
      exact (forall_setChan (s := { s with curChan := ch }) h ch _).mpr
        ((h ch).cmdWrite w value reg)
    | ctrl ch => exact (forall_setChan h ch _).mpr ((h ch).ctrlWrite w _)
    | none => exact h
  | attachDevice ch unit dev =>
    refine Behind.refresh ?_ w ch unit
    exact (forall_setChan h ch _).mpr ⟨(h ch).le, (h ch).lt⟩
  | attachMedia ch unit media => exact h.attachMedia w ch unit media
  | detachDisk ch unit => exact (h.setDisk ch unit _).refresh w ch unit

end Step

/-- **The invariant holds all along a run iff every access of the run is orderly.** -/
theorem fsmInv_run_iff (w : World μ) (es : List (Event μ)) :
    (∀ done, done <+: es → (runFrom step (make w) done).FsmInv) ↔
      RunMeets step Orderly (make w) es := by
  have hchan : ∀ ch, (make w).chan ch = ({} : Channel μ).loadSignature w false := fun _ => rfl
  have hstart : (make w).FsmInv := by
    intro ch
    rw [hchan]
    exact Channel.loadSignature_fsmInv w false
  have hbehind : (make w).Behind := by
    intro ch
    have hnew : ({} : Channel μ).Behind := ⟨le_rfl, fun hp => absurd hp (by simp)⟩
    rw [hchan]
    exact hnew.loadSignature w false
  exact forall_prefix_iff_runMeets (fun s e h hb => h.step_iff hb e) (fun s e _ hb => hb.step e)
    hstart hbehind es

/-! ## Broken runs -/

/-- A world with one disk of eight sectors, all zero. -/
def zeroDisk : World Unit := fun _ => ⟨true, true, 8, fun _ n => (.ok, List.replicate (512 * n) 0)⟩

/-- **A command refused during a transfer leaves the phase behind.** A drive has been asked for its
identify block; a command it does not know clears DRQ while the channel is still in data-in. The
same holds of the disk's SET FEATURES. -/
theorem refused_command_leaves_phase :
    ¬ ∀ (w : World Unit) (es : List (Event Unit)), (runFrom step (make w) es).FsmInv := by
  intro h
  have hinv := h zeroDisk [(zeroDisk, .attachDevice false false (some {})),
    (zeroDisk, .ioWrite 0x1F7 0xA1), (zeroDisk, .ioWrite 0x1F7 0xB7)]
  have hdrq := (hinv false).drq
  exact absurd (hdrq.mpr (by decide +kernel)) (by decide +kernel)

end Cy82C693Ide

end EmulatR
