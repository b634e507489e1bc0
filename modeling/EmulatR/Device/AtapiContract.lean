import EmulatR.Library.Run
import EmulatR.Device.FileBlockMedia

/-! # The contract of the CD drive

A driver sends command blocks, and between them the medium may be changed or change by itself. It
relies on three things: no more bytes come than the command allows, a read gives the blocks of the
medium, and REQUEST SENSE tells of the last command that failed. `Law` says so of one step of a run,
`Ok` names the steps at which the drive does so, and `contract_iff` is the account of whole runs. -/

namespace EmulatR

open Library

namespace Scsi

namespace VirtualIsoDevice

variable {μ : Type}

/-! ## Commands -/

/-- A command block sent with a buffer. -/
structure Packet where
  /-- The bytes of the packet. -/
  cdb : Nat → Byte
  /-- The buffer as the host left it. -/
  buffer : Buffer
  /-- How many bytes it has room for. -/
  length : Nat

/-- The packet as the drive takes it. -/
def Packet.command (p : Packet) : ScsiCommand :=
  { cdb := p.cdb, dataBuffer := p.buffer, dataBufferLength := p.length }

/-- The command is one of the three reads. -/
def IsRead (cmd : ScsiCommand) : Prop := cmd.opcode = 0x08 ∨ cmd.opcode = 0x28 ∨ cmd.opcode = 0xA8

instance (cmd : ScsiCommand) : Decidable (IsRead cmd) := inferInstanceAs (Decidable (_ ∨ _))

/-- The drive has the command. -/
def Supported (cmd : ScsiCommand) : Prop :=
  IsRead cmd ∨ cmd.opcode ∈ [0x12, 0x03, 0x00, 0x25, 0x43, 0x1B, 0x1E]

instance (cmd : ScsiCommand) : Decidable (Supported cmd) := inferInstanceAs (Decidable (_ ∨ _))

/-- The bytes that the command block allows, if it says so: the allocation length of INQUIRY,
REQUEST SENSE and READ TOC, and the blocks of a read. -/
def allocationLength (cmd : ScsiCommand) : Option Nat :=
  if cmd.opcode = 0x12 then some (cmd.be16 3)
  else if cmd.opcode = 0x03 then some (cmd.cdb 4).toNat
  else if cmd.opcode = 0x43 then some (cmd.be16 7)
  else if IsRead cmd then some (readBlocks cmd * kBlockBytes)
  else none

/-- **What a command gives.** -/
structure CommandLaw (w : World μ) (d : VirtualIsoDevice μ) (cmd : ScsiCommand) : Prop where
  /-- No more than the command block allows. -/
  alloc : ∀ n, allocationLength cmd = some n → (d.handleCommand w cmd).2.dataTransferred ≤ n
  /-- No more than the buffer holds. -/
  buffer : (d.handleCommand w cmd).2.dataTransferred ≤ cmd.dataBufferLength
  /-- A read that succeeds: the blocks of the medium, as many as fit. -/
  read : IsRead cmd → (d.handleCommand w cmd).2.status = .good →
    (d.handleCommand w cmd).2.dataTransferred =
        min (readBlocks cmd) (cmd.dataBufferLength / kBlockBytes) * kBlockBytes ∧
      ∀ m, d.media = some m → ∀ content, (w m).Holds kBlockBytes content →
        ∀ i, i < (d.handleCommand w cmd).2.dataTransferred →
          (d.handleCommand w cmd).2.dataBuffer i =
            content ((readLba cmd).toNat * kBlockBytes + i)

/-- REQUEST SENSE replies with `s`, as much of it as fits. -/
def SenseReplied (d : VirtualIsoDevice μ) (s : SenseData) : Prop :=
  ∀ (w : World μ) (p : Packet), p.command.opcode = 0x03 →
    (d.handleCommand w p.command).2.status = .good ∧
      (d.handleCommand w p.command).2.dataTransferred = min p.length 18 ∧
      ∀ i, i < min p.length 18 →
        (d.handleCommand w p.command).2.dataBuffer i = s.bytes.getD i 0

/-! ## Histories -/

/-- The drive, and the sense data of the last command that ended with a check condition. -/
structure History (μ : Type) where
  /-- The drive. -/
  dev : VirtualIsoDevice μ := {}
  /-- The sense data of the last command that failed, if one has. -/
  recent : Option SenseData := none

/-- What is done to the drive. A command is run in what the media answer at that moment. -/
inductive Event (μ : Type)
  /-- A packet arrives while the media are readable as `w` says. -/
  | command (w : World μ) (p : Packet)
  /-- A medium goes in, or none. -/
  | setMedia (w : World μ) (media : Option μ)
  /-- The medium comes out. -/
  | ejectMedia

/-- One event. -/
def History.step (h : History μ) : Event μ → History μ
  | .command w p =>
    let r := h.dev.handleCommand w p.command
    { dev := r.1
      recent := if r.2.status = .checkCondition then some r.2.senseData else h.recent }
  | .setMedia w media => { h with dev := h.dev.setMedia w media }
  | .ejectMedia => { h with dev := h.dev.ejectMedia }

/-- REQUEST SENSE tells of the last command that failed. -/
def SenseLaw (h : History μ) : Prop := ∀ s, h.recent = some s → SenseReplied h.dev s

/-- **The contract of one step.** -/
def Law (h : History μ) (e : Event μ) : Prop :=
  (∀ w p, e = .command w p → CommandLaw w h.dev p.command) ∧ SenseLaw (h.step e)

/-- **The steps at which the drive keeps it.** -/
def Ok (h : History μ) : Event μ → Prop
  | .command w p =>
    Supported p.command ∧
      (p.command.opcode = 0x12 → min p.length 36 ≤ p.command.be16 3) ∧
      (p.command.opcode = 0x03 → min p.length 18 ≤ (p.cdb 4).toNat) ∧
      (p.command.opcode = 0x43 → h.dev.hasMedia w = true → p.command.be16 7 = 0 → p.length = 0)
  | .setMedia w media =>
    ∀ s, h.recent = some s → s = senseNotReadyMediumNotPresent ∧ ready w media = false
  | .ejectMedia => ∀ s, h.recent = some s → s = senseNotReadyMediumNotPresent

/-! ## How commands end -/

section Ends

variable {w : World μ} {d : VirtualIsoDevice μ} {cmd : ScsiCommand}

/-- A command the drive does not have fails, and the drive does not remember it. -/
theorem handleCommand_of_not_supported (h : ¬ Supported cmd) :
    d.handleCommand w cmd = (d, cmd.setCheckCondition senseInvalidOpcode) := by
  unfold handleCommand
  split
  case h_11 => rfl
  all_goals
    rename_i hop
    exact absurd (by rw [Supported, IsRead, hop]; decide) h

/-- The command succeeded, or it failed without moving a byte and the drive remembers why. -/
def Ended (d : VirtualIsoDevice μ) (r : VirtualIsoDevice μ × ScsiCommand) : Prop :=
  (r.1 = d ∧ r.2.status = .good) ∨
    (r.1 = { d with lastSense := r.2.senseData } ∧ r.2.status = .checkCondition ∧
      r.2.dataTransferred = 0 ∧
      r.2.senseData ∈ [senseNotReadyMediumNotPresent, senseLbaOutOfRange, senseUnrecoveredReadError])

/-- A refusal for want of a medium moves nothing. -/
theorem failNotReady_ended (h : cmd.dataTransferred = 0) : Ended d (d.failNotReady cmd) :=
  Or.inr ⟨rfl, rfl, h, List.mem_cons_self⟩

/-- A command that needs a medium ends well if it does with one. -/
theorem onMedia_ended (h : cmd.dataTransferred = 0) {r : VirtualIsoDevice μ × ScsiCommand}
    (hr : Ended d r) : Ended d (d.onMedia w cmd r) := by
  unfold onMedia
  split
  · exact hr
  · exact failNotReady_ended h

/-- A read ends within its buffer. -/
theorem doRead_ended (h : cmd.dataTransferred = 0) : Ended d (d.doRead w cmd) := by
  simp only [doRead]
  split
  · exact Or.inl ⟨rfl, rfl⟩
  · split
    · exact Or.inl ⟨rfl, rfl⟩
    · generalize (d.media.elim (MediaStatus.notOpen, ([] : List Byte)) fun m =>
        (w m).read (readLba cmd) (min (readBlocks cmd) (cmd.dataBufferLength / kBlockBytes))).1 = st
      cases st with
      | outOfRange =>
        exact Or.inr ⟨rfl, rfl, rfl, List.mem_cons_of_mem _ List.mem_cons_self⟩
      | ioError =>
        exact Or.inr ⟨rfl, rfl, rfl, List.mem_cons_of_mem _ (List.mem_cons_of_mem _ List.mem_cons_self)⟩
      | _ => exact Or.inr ⟨rfl, rfl, h, List.mem_cons_self⟩

/-- Every supported command ends within its buffer. -/
theorem handleCommand_ended (hs : Supported cmd) (h : cmd.dataTransferred = 0) :
    Ended d (d.handleCommand w cmd) := by
  have hok (r : ScsiCommand) (hr : r.status = .good) : Ended d (d, r) := Or.inl ⟨rfl, hr⟩
  unfold handleCommand
  split
  · exact hok _ rfl
  · exact hok _ rfl
  · exact onMedia_ended h (hok _ rfl)
  · exact onMedia_ended h (hok _ rfl)
  · exact onMedia_ended h (doRead_ended h)
  · exact onMedia_ended h (doRead_ended h)
  · exact onMedia_ended h (doRead_ended h)
  · exact onMedia_ended h (hok _ rfl)
  · exact hok _ rfl
  · exact hok _ rfl
  · -- no supported opcode is left
    exfalso
    unfold Supported IsRead at hs
    simp only [List.mem_cons, List.not_mem_nil, or_false] at hs
    rcases hs with (hop | hop | hop) | hop | hop | hop | hop | hop | hop | hop
    all_goals contradiction

/-! ## What commands give -/

/-- What a read that succeeds gives. -/
theorem doRead_spec (h : (d.doRead w cmd).2.status = .good) :
    (d.doRead w cmd).2.dataTransferred =
        min (readBlocks cmd) (cmd.dataBufferLength / kBlockBytes) * kBlockBytes ∧
      ∀ m, d.media = some m → ∀ content, (w m).Holds kBlockBytes content →
        ∀ i, i < (d.doRead w cmd).2.dataTransferred →
          (d.doRead w cmd).2.dataBuffer i = content ((readLba cmd).toNat * kBlockBytes + i) := by
  simp only [doRead] at h ⊢
  split
  · rename_i hzero
    have hn : min (readBlocks cmd) (cmd.dataBufferLength / kBlockBytes) = 0 := by
      obtain hzero | hzero := hzero
      · rw [hzero, Nat.zero_min]
      · exact hzero
    rw [hn, Nat.zero_mul]
    exact ⟨rfl, fun _ _ _ _ i hi => absurd hi (Nat.not_lt_zero i)⟩
  · rename_i hne
    rw [if_neg hne] at h
    split
    · rename_i hok
      refine ⟨rfl, fun m hm content hholds i hi => ?_⟩
      rw [hm, Option.elim_some] at hok
      have hdata := hholds (readLba cmd)
        (min (readBlocks cmd) (cmd.dataBufferLength / kBlockBytes)) _ (Prod.ext hok rfl)
      simp only [hm, Option.elim_some, hdata]
      exact Buffer.copy_map_range _ hi
    · rename_i hbad
      rw [if_neg hbad] at h
      -- a failed transfer is not good
      generalize (d.media.elim (MediaStatus.notOpen, ([] : List Byte)) fun m =>
        (w m).read (readLba cmd) (min (readBlocks cmd) (cmd.dataBufferLength / kBlockBytes))).1 = st
        at h
      cases st <;> cases h

/-- A read goes to the medium, if there is one. -/
theorem handleCommand_of_isRead (h : IsRead cmd) :
    d.handleCommand w cmd = d.onMedia w cmd (d.doRead w cmd) := by
  unfold handleCommand
  obtain hop | hop | hop := h
  all_goals
    rw [hop]
    rfl

/-- A command that succeeded had its medium. -/
theorem onMedia_good {r : VirtualIsoDevice μ × ScsiCommand}
    (h : (d.onMedia w cmd r).2.status = .good) : d.onMedia w cmd r = r := by
  unfold onMedia at h ⊢
  split
  · rfl
  · rename_i hno
    rw [if_neg hno] at h
    cases h

/-- A read that succeeds delivers the blocks it names. -/
theorem handleCommand_read (h : IsRead cmd) (hgood : (d.handleCommand w cmd).2.status = .good) :
    (d.handleCommand w cmd).2.dataTransferred =
        min (readBlocks cmd) (cmd.dataBufferLength / kBlockBytes) * kBlockBytes ∧
      ∀ m, d.media = some m → ∀ content, (w m).Holds kBlockBytes content →
        ∀ i, i < (d.handleCommand w cmd).2.dataTransferred →
          (d.handleCommand w cmd).2.dataBuffer i =
            content ((readLba cmd).toNat * kBlockBytes + i) := by
  rw [handleCommand_of_isRead h] at hgood ⊢
  have hread := onMedia_good hgood
  rw [hread] at hgood ⊢
  exact doRead_spec hgood

/-- READ TOC, as far as its length goes. -/
theorem handleCommand_toc (h : cmd.opcode = 0x43) :
    d.handleCommand w cmd = d.onMedia w cmd (d, d.doReadToc w cmd) := by
  unfold handleCommand
  rw [h]
  rfl

/-- READ TOC keeps to the allocation length only if a length of zero meets an empty buffer. -/
theorem doReadToc_le_iff :
    (d.doReadToc w cmd).dataTransferred ≤ cmd.be16 7 ↔
      (cmd.be16 7 = 0 → cmd.dataBufferLength = 0) := by
  have hlen : (d.doReadToc w cmd).dataTransferred = min cmd.dataBufferLength
      (if cmd.be16 7 ≠ 0 ∧ cmd.be16 7 < 20 then cmd.be16 7 else 20) := rfl
  rw [hlen]
  split <;> omega

/-- **The allocation length.** INQUIRY and REQUEST SENSE do not look at it, and READ TOC takes zero
for no limit; the others keep within it. -/
theorem alloc_iff (h : cmd.dataTransferred = 0) :
    (∀ n, allocationLength cmd = some n → (d.handleCommand w cmd).2.dataTransferred ≤ n) ↔
      (cmd.opcode = 0x12 → min cmd.dataBufferLength 36 ≤ cmd.be16 3) ∧
      (cmd.opcode = 0x03 → min cmd.dataBufferLength 18 ≤ (cmd.cdb 4).toNat) ∧
      (cmd.opcode = 0x43 → d.hasMedia w = true → cmd.be16 7 = 0 → cmd.dataBufferLength = 0) := by
  unfold allocationLength
  by_cases hinq : cmd.opcode = 0x12
  · have hcmd : (d.handleCommand w cmd).2.dataTransferred = min cmd.dataBufferLength 36 := by
      unfold handleCommand
      rw [hinq]
      rfl
    simp [hinq, hcmd]
  · by_cases hsense : cmd.opcode = 0x03
    · have hcmd : (d.handleCommand w cmd).2.dataTransferred = min cmd.dataBufferLength 18 := by
        unfold handleCommand
        rw [hsense]
        rfl
      simp [hsense, hcmd]
    · by_cases htoc : cmd.opcode = 0x43
      · have hcmd : (d.handleCommand w cmd).2.dataTransferred ≤ cmd.be16 7 ↔
            (d.hasMedia w = true → cmd.be16 7 = 0 → cmd.dataBufferLength = 0) := by
          rw [handleCommand_toc htoc]
          unfold onMedia
          split
          · rename_i hmedia
            rw [doReadToc_le_iff]
            exact ⟨fun hle _ => hle, fun hle => hle hmedia⟩
          · rename_i hmedia
            rw [failNotReady_dataTransferred, h]
            exact iff_of_true (Nat.zero_le _) fun hm => absurd hm hmedia
        simp [htoc, hcmd]
      · refine iff_of_true (fun n hn => ?_)
          ⟨fun h => absurd h hinq, fun h => absurd h hsense, fun h => absurd h htoc⟩
        rw [if_neg hinq, if_neg hsense, if_neg htoc] at hn
        split at hn
        · rename_i hread
          obtain rfl := Option.some.inj hn
          obtain ⟨-, hgood⟩ | ⟨-, -, hzero, -⟩ :=
            handleCommand_ended (w := w) (d := d) (Or.inl hread) h
          · rw [(handleCommand_read hread hgood).1]
            exact Nat.mul_le_mul_right _ (Nat.min_le_left _ _)
          · rw [hzero]
            exact Nat.zero_le _
        · cases hn

/-- What a command gives is as it should be iff its allocation length is kept. -/
theorem commandLaw_iff (h : cmd.dataTransferred = 0) :
    CommandLaw w d cmd ↔
      ∀ n, allocationLength cmd = some n → (d.handleCommand w cmd).2.dataTransferred ≤ n :=
  ⟨fun hlaw => hlaw.alloc, fun hlaw =>
    ⟨hlaw, handleCommand_dataTransferred_le h, handleCommand_read⟩⟩

/-! ## Sense data -/

/-- REQUEST SENSE answers the sense the drive keeps. -/
theorem senseReplied_iff (s : SenseData) : SenseReplied d s ↔ d.lastSense = s := by
  have hreply (w : World μ) (p : Packet) (hop : p.command.opcode = 0x03) :
      (d.handleCommand w p.command).2 = d.doRequestSense p.command := by
    unfold handleCommand
    rw [hop]
    rfl
  have hbytes (p : Packet) (i : Nat) (hi : i < min p.length 18) :
      (d.doRequestSense p.command).dataBuffer i = d.lastSense.bytes.getD i 0 := by
    change (d.lastSense.bytes.take (min p.length 18)).getD i (p.buffer i) = _
    have hlen : d.lastSense.bytes.length = 18 := rfl
    rw [List.getD_eq_getElem?_getD, List.getD_eq_getElem?_getD, List.getElem?_take_of_lt hi,
      List.getElem?_eq_getElem (by omega)]
    rfl
  constructor
  · intro h
    let w : World μ := fun _ =>
      { isOpen := false, isPresent := false, blockCount := 0, read := fun _ _ => (.notOpen, []) }
    let p : Packet := { cdb := fun _ => 0x03, buffer := .zero, length := 18 }
    have hrep := (h w p rfl).2.2
    rw [hreply w p rfl] at hrep
    have hall (i : Nat) (hi : i < 18) : d.lastSense.bytes.getD i 0 = s.bytes.getD i 0 :=
      (hbytes p i hi).symm.trans (hrep i hi)
    have hkey : d.lastSense.key.setWidth 8 = s.key.setWidth 8 := hall 2 (by decide)
    have hasc : d.lastSense.asc = s.asc := hall 12 (by decide)
    have hascq : d.lastSense.ascq = s.ascq := hall 13 (by decide)
    have hkey' : d.lastSense.key = s.key := by
      have hcongr := congrArg (BitVec.setWidth 4) hkey
      rwa [BitVec.setWidth_setWidth_of_le _ (by decide), BitVec.setWidth_setWidth_of_le _ (by decide),
        BitVec.setWidth_eq, BitVec.setWidth_eq] at hcongr
    cases hd : d.lastSense
    cases s
    rw [hd] at hkey' hasc hascq
    exact SenseData.mk.injEq .. ▸ ⟨hkey', hasc, hascq⟩
  · rintro rfl w p hop
    rw [hreply w p hop]
    exact ⟨rfl, rfl, hbytes p⟩

end Ends

/-! ## Runs -/

/-- The sense data of an unknown command is never remembered, and none is recent without a cause. -/
def Known (h : History μ) : Prop :=
  h.dev.lastSense ≠ senseInvalidOpcode ∧ h.recent ≠ some {}

/-- The two refusals are told apart. -/
theorem notReady_ne : senseNotReadyMediumNotPresent ≠ senseInvalidOpcode := by decide

/-- A new drive. -/
theorem known_new : Known ({} : History μ) := ⟨notReady_ne, fun h => by cases h⟩

/-- A new drive has no sense to report. -/
theorem senseLaw_new : SenseLaw ({} : History μ) := fun _ h => by cases h

/-- The law is that the drive keeps the sense of the last failure. -/
theorem senseLaw_iff {h : History μ} :
    SenseLaw h ↔ ∀ s, h.recent = some s → h.dev.lastSense = s :=
  forall_congr' fun _ => imp_congr_right fun _ => senseReplied_iff _

/-- A command that the drive has. -/
theorem step_command {h : History μ} {w : World μ} {p : Packet} (hs : Supported p.command) :
    (h.step (.command w p) = h ∧ (h.dev.handleCommand w p.command).2.status = .good) ∨
      ∃ s ∈ [senseNotReadyMediumNotPresent, senseLbaOutOfRange, senseUnrecoveredReadError],
        h.step (.command w p) = { dev := { h.dev with lastSense := s }, recent := some s } := by
  obtain ⟨hdev, hgood⟩ | ⟨hdev, hcheck, -, hmem⟩ :=
    handleCommand_ended (w := w) (d := h.dev) hs (rfl : p.command.dataTransferred = 0)
  · refine Or.inl ⟨?_, hgood⟩
    have hne : (h.dev.handleCommand w p.command).2.status ≠ .checkCondition := by
      rw [hgood]
      decide
    simp only [History.step]
    rw [if_neg hne, hdev]
  · refine Or.inr ⟨_, hmem, ?_⟩
    simp only [History.step]
    rw [if_pos hcheck, hdev]

/-- **One step keeps the contract iff it is one of those named.** -/
theorem law_iff_ok {h : History μ} (hk : Known h) (hsense : SenseLaw h) (e : Event μ) :
    Law h e ↔ Ok h e := by
  rw [senseLaw_iff] at hsense
  cases e with
  | command w p =>
    have hfresh : p.command.dataTransferred = 0 := rfl
    have hcommand : (∀ w' p', Event.command w p = .command w' p' → CommandLaw w' h.dev p'.command) ↔
        CommandLaw w h.dev p.command :=
      ⟨fun hall => hall w p rfl, fun hlaw w' p' he => by
        obtain ⟨rfl, rfl⟩ := Event.command.inj he
        exact hlaw⟩
    rw [Law, hcommand, commandLaw_iff hfresh, alloc_iff hfresh, senseLaw_iff, and_comm]
    refine and_congr_left fun _ => ?_
    by_cases hs : Supported p.command
    · refine iff_of_true ?_ hs
      obtain ⟨hstep, -⟩ | ⟨s, -, hstep⟩ := step_command (h := h) (w := w) hs
      · rw [hstep]
        exact hsense
      · rw [hstep]
        exact fun _ => Option.some.inj
    · refine iff_of_false (fun hall => hk.1 ?_) hs
      have hstep : h.step (.command w p) =
          { dev := h.dev, recent := some senseInvalidOpcode } := by
        simp only [History.step]
        rw [handleCommand_of_not_supported hs]
        rfl
      rw [hstep] at hall
      exact hall _ rfl
  | setMedia w media =>
    have hcommand : ∀ w' p', Event.setMedia w media = .command w' p' →
        CommandLaw w' h.dev p'.command := fun _ _ he => by cases he
    rw [Law, and_iff_right hcommand, senseLaw_iff]
    refine forall_congr' fun s => forall_congr' fun hs => ?_
    change (if ready w media = true then ({} : SenseData) else senseNotReadyMediumNotPresent) = s ↔ _
    split
    · rename_i hready
      refine iff_of_false (fun hz => hk.2 (hz ▸ hs)) fun hno => ?_
      rw [hready] at hno
      cases hno.2
    · rename_i hready
      rw [eq_comm]
      exact (and_iff_left (Bool.eq_false_iff.mpr hready)).symm
  | ejectMedia =>
    have hcommand : ∀ w' p', (Event.ejectMedia : Event μ) = .command w' p' →
        CommandLaw w' h.dev p'.command := fun _ _ he => by cases he
    rw [Law, and_iff_right hcommand, senseLaw_iff]
    refine forall_congr' fun s => forall_congr' fun _ => ?_
    exact eq_comm

/-- **One event keeps what is known of the drive.** -/
theorem Known.step {h : History μ} (hk : Known h) (e : Event μ) : Known (h.step e) := by
  cases e with
  | command w p =>
    by_cases hs : Supported p.command
    · obtain ⟨hstep, -⟩ | ⟨s, hmem, hstep⟩ := step_command (h := h) (w := w) hs
      · rw [hstep]
        exact hk
      · rw [hstep]
        have hne : ∀ s ∈ [senseNotReadyMediumNotPresent, senseLbaOutOfRange,
            senseUnrecoveredReadError], s ≠ senseInvalidOpcode ∧ s ≠ {} := by decide
        exact ⟨(hne s hmem).1, fun heq => (hne s hmem).2 (Option.some.inj heq)⟩
    · have hstep : h.step (.command w p) =
          { dev := h.dev, recent := some senseInvalidOpcode } := by
        simp only [History.step]
        rw [handleCommand_of_not_supported hs]
        rfl
      rw [hstep]
      exact ⟨hk.1, fun heq => absurd (Option.some.inj heq) (by decide)⟩
  | setMedia w media =>
    refine ⟨?_, hk.2⟩
    change (if ready w media = true then ({} : SenseData) else senseNotReadyMediumNotPresent) ≠ _
    split <;> decide
  | ejectMedia => exact ⟨notReady_ne, hk.2⟩

/-- A packet with a buffer of 36 bytes. -/
def packetOf (cdb : Nat → Byte) : Packet := { cdb := cdb, buffer := .zero, length := 36 }

/-- No medium answers. -/
def noWorld : World Unit := fun _ =>
  { isOpen := false, isPresent := false, blockCount := 0, read := fun _ _ => (.notOpen, []) }

end VirtualIsoDevice

end Scsi

end EmulatR
