import EmulatR.Library.BitFields
import EmulatR.Library.Run
import EmulatR.System.Board

/-! # The command machine of the flash

Byte reads and writes of the TIG flash (chipsetLib/FlashRom.cpp). A write is a command only as the
last one of a sequence of unlock writes, and what the machine has seen of a sequence is its mode:
`Mode.prefixWrites` are the writes since the machine was last idle.

The commands are stated as the part defines them, apart from the code: their writes
(`Command.opening` and `Command.final`) and what they make of each byte of the array
(`Command.byteAfter`).

`flash_commands` says what a run does with the array: a write that completes a sequence carries its
command out, and nothing else changes a byte. -/

namespace EmulatR

open Library

namespace FlashRom

/-! ## The part -/

/-- A sector is 64 KiB. -/
def kSectorSize : Nat := 0x10000
/-- The maker's code, AMD. -/
def kManufacturerId : Word := 0x01
/-- The device code, Am29F016. -/
def kDeviceId : Word := 0xAD
/-- What an erased byte reads. -/
def kErased : BitVec 8 := 0xFF

/-- The address of the first unlock write. -/
def kUnlockAddr1 : BitVec 32 := 0x5555
/-- The address of the second unlock write. -/
def kUnlockAddr2 : BitVec 32 := 0x2AAA
/-- The data of the first unlock write. -/
def kCmdUnlock1 : BitVec 8 := 0xAA
/-- The data of the second unlock write. -/
def kCmdUnlock2 : BitVec 8 := 0x55
/-- Enter the identification mode. -/
def kCmdAutosel : BitVec 8 := 0x90
/-- Program one byte. -/
def kCmdProgram : BitVec 8 := 0xA0
/-- Open an erase. -/
def kCmdErase : BitVec 8 := 0x80
/-- Erase the whole chip. -/
def kCmdChipEra : BitVec 8 := 0x10
/-- Erase one sector. -/
def kCmdSectEra : BitVec 8 := 0x30
/-- The status a read returns right after an erase. -/
def kEraseStatus : Word := 0x80

/-- The mask of the offsets within the array, whose size is a power of two. -/
def kOffMask : BitVec 32 := 0x1FFFFF

/-- The offset within the array is its remainder by 2 MB. -/
theorem toNat_and_kOffMask (off : BitVec 32) : (off &&& kOffMask).toNat = off.toNat % 0x200000 :=
  toNat_and_lowMask 21 rfl

/-- An offset that is masked lies in the array. -/
theorem and_kOffMask_lt (off : BitVec 32) : (off &&& kOffMask).toNat < kSize := by
  rw [toNat_and_kOffMask]
  exact Nat.mod_lt _ (by decide)

/-- The byte that an offset names. -/
def index (off : BitVec 32) : Fin kSize := ⟨(off &&& kOffMask).toNat, and_kOffMask_lt off⟩

/-- The index of an offset is its remainder by the size of the array. -/
theorem val_index (off : BitVec 32) : (index off).val = off.toNat % 0x200000 :=
  toNat_and_kOffMask off

/-- `FlashRom::read`. -/
def readByte (f : FlashRom) (off : BitVec 32) : FlashRom × Word :=
  match f.mode with
  | .autosel =>
    if off = 0 then (f, kManufacturerId) else if off = 1 then (f, kDeviceId) else (f, 0)
  | .confirm1 => ({ f with mode := .confirm0 }, kEraseStatus)
  | .confirm0 => ({ f with mode := .read }, kEraseStatus)
  | _ => (f, (f.data (index off)).setWidth 64)

/-- The start of the sector of an offset. -/
def secBase (off : BitVec 32) : BitVec 32 :=
  (off &&& kOffMask) &&& ~~~(BitVec.ofNat 32 (kSectorSize - 1))

/-- The array with a sector filled with erased bytes, from its start on. -/
def eraseSector (data : Fin kSize → BitVec 8) (off : BitVec 32) : Fin kSize → BitVec 8 :=
  fun i =>
    if (secBase off).toNat ≤ i.val ∧ i.val < (secBase off).toNat + kSectorSize then kErased
    else data i

/-- `FlashRom::write`. The unlock addresses are compared with the whole offset. -/
def writeByte (f : FlashRom) (off : BitVec 32) (data : Word) : FlashRom :=
  let d : BitVec 8 := data.setWidth 8
  match f.mode with
  | .read | .autosel =>
    if off = kUnlockAddr1 ∧ d = kCmdUnlock1 then { f with mode := .step1 }
    else { f with mode := .read }
  | .step1 =>
    if off = kUnlockAddr2 ∧ d = kCmdUnlock2 then { f with mode := .step2 }
    else { f with mode := .read }
  | .step2 =>
    if off ≠ kUnlockAddr1 then { f with mode := .read }
    else if d = kCmdAutosel then { f with mode := .autosel }
    else if d = kCmdProgram then { f with mode := .program }
    else if d = kCmdErase then { f with mode := .erase3 }
    else { f with mode := .read }
  | .erase3 =>
    if off = kUnlockAddr1 ∧ d = kCmdUnlock1 then { f with mode := .erase4 }
    else { f with mode := .read }
  | .erase4 =>
    if off = kUnlockAddr2 ∧ d = kCmdUnlock2 then { f with mode := .erase5 }
    else { f with mode := .read }
  | .erase5 =>
    if off = kUnlockAddr1 ∧ d = kCmdChipEra then { data := fun _ => kErased, mode := .confirm1 }
    else if d = kCmdSectEra then { data := eraseSector f.data off, mode := .confirm1 }
    else { f with mode := .read }
  -- the byte is stored as it is, without clearing bits only
  | .program => { data := Function.update f.data (index off) d, mode := .read }
  | .confirm0 | .confirm1 => { f with mode := .read }

/-- An access to the flash. -/
inductive Access
  /-- A read of one byte. -/
  | read (off : BitVec 32)
  /-- A write, of which the chip takes the low byte. -/
  | write (off : BitVec 32) (data : Word)

/-- The flash after an access. -/
def step (f : FlashRom) : Access → FlashRom
  | .read off => (f.readByte off).1
  | .write off data => f.writeByte off data

/-! ## Commands -/

/-- A write as the part sees it. -/
abbrev Write := BitVec 32 × BitVec 8

/-- What changes the array. -/
inductive Command
  /-- Program one byte at an offset. -/
  | program (off : BitVec 32) (d : BitVec 8)
  /-- Erase the sector of an offset. -/
  | sectorErase (off : BitVec 32)
  /-- Erase the whole array. -/
  | chipErase
  deriving DecidableEq

/-- The two unlock writes of the part. -/
def unlock : List Write := [(0x5555, 0xAA), (0x2AAA, 0x55)]

/-- The writes of a command but the last. -/
def Command.opening : Command → List Write
  | .program _ _ => unlock ++ [(0x5555, 0xA0)]
  | .sectorErase _ | .chipErase => unlock ++ [(0x5555, 0x80)] ++ unlock

/-- The last write of a command. -/
def Command.final : Command → Write
  | .program off d => (off, d)
  | .sectorErase off => (off, 0x30)
  | .chipErase => (0x5555, 0x10)

/-- What a command makes of byte `i` of the array. A program stores its byte at the offset modulo
2 MB, a sector erase sets the 64 KiB sector that this place is in to 0xFF and a chip erase every
byte; the other bytes stay. -/
def Command.byteAfter (i : Nat) (old : BitVec 8) : Command → BitVec 8
  | .program off d => if i = off.toNat % 0x200000 then d else old
  | .sectorErase off =>
    let base := off.toNat % 0x200000 / 0x10000 * 0x10000
    if base ≤ i ∧ i < base + 0x10000 then 0xFF else old
  | .chipErase => 0xFF

/-- The array after a command. -/
def Command.apply (data : Fin kSize → BitVec 8) (c : Command) : Fin kSize → BitVec 8 :=
  fun i => c.byteAfter i.val (data i)

/-- The writes among some accesses. -/
def writes (as : List Access) : List Write :=
  as.filterMap fun
    | .read _ => none
    | .write off data => some (off, data.setWidth 8)

/-- No access, no write. -/
@[simp] theorem writes_nil : writes [] = [] := rfl

/-- The writes of two histories in a row. -/
@[simp] theorem writes_append (as bs : List Access) : writes (as ++ bs) = writes as ++ writes bs :=
  List.filterMap_append

/-- No sequence has been begun. -/
def Mode.Idle (m : Mode) : Prop := m = .read ∨ m = .autosel

/-- After these accesses, a write with this offset and this byte completes the command: since the
flash was last idle it has got the opening of the command, with any reads in between. -/
def Completes (f : FlashRom) (as : List Access) (w : Write) (c : Command) : Prop :=
  w = c.final ∧ ∃ before since, as = before ++ since ∧ (runFrom step f before).mode.Idle ∧
    writes since = c.opening

/-- What the writes since the flash was last idle were. -/
def Mode.prefixWrites : Mode → List Write
  | .read | .autosel | .confirm0 | .confirm1 => []
  | .step1 => [(kUnlockAddr1, kCmdUnlock1)]
  | .step2 => unlock
  | .program => unlock ++ [(kUnlockAddr1, kCmdProgram)]
  | .erase3 => unlock ++ [(kUnlockAddr1, kCmdErase)]
  | .erase4 => unlock ++ [(kUnlockAddr1, kCmdErase)] ++ [(kUnlockAddr1, kCmdUnlock1)]
  | .erase5 => unlock ++ [(kUnlockAddr1, kCmdErase)] ++ unlock

/-- The flash shows the erase status. -/
def Mode.Confirming (m : Mode) : Prop := m = .confirm0 ∨ m = .confirm1

/-- The mode after a command. -/
def Command.nextMode : Command → Mode
  | .program _ _ => .read
  | .sectorErase _ | .chipErase => .confirm1

/-! ## The array under a command -/

/-- A command acts on each byte by itself. -/
theorem Command.apply_apply (data : Fin kSize → BitVec 8) (c : Command) (i : Fin kSize) :
    c.apply data i = c.byteAfter i.val (data i) := rfl

/-- Storing a byte is what a program command does. -/
theorem update_index_eq_apply (data : Fin kSize → BitVec 8) (off : BitVec 32) (d : BitVec 8) :
    Function.update data (index off) d = (Command.program off d).apply data := by
  funext i
  have hplace : i = index off ↔ i.val = off.toNat % 0x200000 := by
    rw [Fin.ext_iff, val_index]
  rw [Function.update_apply, Command.apply_apply, Command.byteAfter]
  exact if_congr hplace rfl rfl

/-- The start of a sector is the offset within the array, rounded down to 64 KiB. -/
theorem toNat_secBase (off : BitVec 32) :
    (secBase off).toNat = off.toNat % 0x200000 / 0x10000 * 0x10000 := by
  rw [secBase, toNat_and_not_lowMask 16 rfl, toNat_and_kOffMask]
  omega

/-- Filling a sector is what a sector erase does. -/
theorem eraseSector_eq_apply (data : Fin kSize → BitVec 8) (off : BitVec 32) :
    eraseSector data off = (Command.sectorErase off).apply data := by
  funext i
  rw [eraseSector, toNat_secBase]
  rfl

/-! ## One access -/

/-- A read changes no byte, and only the erase status moves on with it. -/
theorem readByte_spec (f : FlashRom) (off : BitVec 32) :
    (f.readByte off).1.data = f.data ∧
      ((f.readByte off).1.mode = f.mode ∨
        f.mode.Confirming ∧ ((f.readByte off).1.mode = .confirm0 ∨
          (f.readByte off).1.mode = .read)) := by
  obtain ⟨data, mode⟩ := f
  cases mode with
  | autosel =>
    rw [readByte]
    split_ifs <;> exact ⟨rfl, Or.inl rfl⟩
  | confirm0 => exact ⟨rfl, Or.inr ⟨Or.inl rfl, Or.inr rfl⟩⟩
  | confirm1 => exact ⟨rfl, Or.inr ⟨Or.inr rfl, Or.inl rfl⟩⟩
  | _ => exact ⟨rfl, Or.inl rfl⟩

/-- **What a write does**: it breaks the sequence off, carries it on, or completes a command. -/
theorem writeByte_spec (f : FlashRom) (off : BitVec 32) (data : Word) :
    ((f.writeByte off data).data = f.data ∧ (f.writeByte off data).mode.Idle) ∨
      ((f.writeByte off data).data = f.data ∧ ¬ f.mode.Confirming ∧
        (f.writeByte off data).mode.prefixWrites =
          f.mode.prefixWrites ++ [(off, data.setWidth 8)]) ∨
      ∃ c : Command, (off, data.setWidth 8) = c.final ∧ f.mode.prefixWrites = c.opening ∧
        f.writeByte off data = { data := c.apply f.data, mode := c.nextMode } := by
  obtain ⟨bytes, mode⟩ := f
  generalize hd : (data.setWidth 8 : BitVec 8) = d
  have hnot : ∀ m : Mode, m ≠ .confirm0 → m ≠ .confirm1 → ¬ m.Confirming :=
    fun m h0 h1 h => h.elim h0 h1
  cases mode with
  | read | autosel =>
    simp only [writeByte, hd]
    split
    · next h => exact Or.inr (Or.inl ⟨rfl, hnot _ (by decide) (by decide), by rw [h.1, h.2]; rfl⟩)
    · exact Or.inl ⟨rfl, Or.inl rfl⟩
  | step1 | erase3 | erase4 =>
    simp only [writeByte, hd]
    split
    · next h => exact Or.inr (Or.inl ⟨rfl, hnot _ (by decide) (by decide), by rw [h.1, h.2]; rfl⟩)
    · exact Or.inl ⟨rfl, Or.inl rfl⟩
  | step2 =>
    simp only [writeByte, hd]
    by_cases hoff : off = kUnlockAddr1
    · rw [if_neg (not_not.2 hoff)]
      split_ifs with hautosel hprogram herase
      · exact Or.inl ⟨rfl, Or.inr rfl⟩
      · exact Or.inr (Or.inl ⟨rfl, hnot _ (by decide) (by decide), by rw [hoff, hprogram]; rfl⟩)
      · exact Or.inr (Or.inl ⟨rfl, hnot _ (by decide) (by decide), by rw [hoff, herase]; rfl⟩)
      · exact Or.inl ⟨rfl, Or.inl rfl⟩
    · rw [if_pos hoff]
      exact Or.inl ⟨rfl, Or.inl rfl⟩
  | erase5 =>
    simp only [writeByte, hd]
    split_ifs with hchip hsector
    · exact Or.inr (Or.inr ⟨.chipErase, by rw [hchip.1, hchip.2]; rfl, rfl, rfl⟩)
    · refine Or.inr (Or.inr ⟨.sectorErase off, by rw [hsector]; rfl, rfl, ?_⟩)
      rw [eraseSector_eq_apply]
      rfl
    · exact Or.inl ⟨rfl, Or.inl rfl⟩
  | program =>
    simp only [writeByte, hd]
    refine Or.inr (Or.inr ⟨.program off d, rfl, rfl, ?_⟩)
    rw [update_index_eq_apply]
    rfl
  | confirm0 | confirm1 => exact Or.inl ⟨rfl, Or.inl rfl⟩

/-- The mode in which the opening of a command has been seen. -/
def Command.openMode : Command → Mode
  | .program _ _ => .program
  | .sectorErase _ | .chipErase => .erase5

/-- The writes that open a command are those of one mode only. -/
theorem Mode.eq_of_prefixWrites_eq {m : Mode} {c : Command} (h : m.prefixWrites = c.opening) :
    m = c.openMode := by
  have hprogram : ∀ m : Mode, m.prefixWrites = unlock ++ [(kUnlockAddr1, kCmdProgram)] →
      m = .program := by
    intro m
    cases m <;> decide
  have herase : ∀ m : Mode, m.prefixWrites = unlock ++ [(kUnlockAddr1, kCmdErase)] ++ unlock →
      m = .erase5 := by
    intro m
    cases m <;> decide
  cases c with
  | program off d => exact hprogram m h
  | sectorErase off => exact herase m h
  | chipErase => exact herase m h

/-- Where the opening of a command has been seen, its last write carries it out. -/
theorem writeByte_final {f : FlashRom} {off : BitVec 32} {data : Word} {c : Command}
    (hopening : f.mode.prefixWrites = c.opening) (hfinal : (off, data.setWidth 8) = c.final) :
    f.writeByte off data = { data := c.apply f.data, mode := c.nextMode } := by
  have hmode := Mode.eq_of_prefixWrites_eq hopening
  obtain ⟨bytes, mode⟩ := f
  subst hmode
  cases c with
  | program off' d =>
    obtain ⟨rfl, rfl⟩ := Prod.mk.inj hfinal
    simp only [writeByte, Command.openMode, update_index_eq_apply]
    rfl
  | sectorErase off' =>
    obtain ⟨rfl, hd⟩ := Prod.mk.inj hfinal
    have hother : ¬ (off = kUnlockAddr1 ∧ (0x30 : BitVec 8) = kCmdChipEra) :=
      fun h => absurd h.2 (by decide)
    simp only [writeByte, Command.openMode, hd, if_neg hother, eraseSector_eq_apply]
    rfl
  | chipErase =>
    obtain ⟨rfl, hd⟩ := Prod.mk.inj hfinal
    simp only [writeByte, Command.openMode, hd]
    rfl

/-- On the way to a command the sequence is carried on by its next write. -/
theorem writeByte_prefix {f : FlashRom} {off : BitVec 32} {data : Word} {c : Command}
    (hidle : ¬ f.mode.Confirming)
    (hnext : f.mode.prefixWrites ++ [(off, data.setWidth 8)] <+: c.opening) :
    (f.writeByte off data).data = f.data ∧ ¬ (f.writeByte off data).mode.Confirming ∧
      (f.writeByte off data).mode.prefixWrites =
        f.mode.prefixWrites ++ [(off, data.setWidth 8)] := by
  obtain ⟨bytes, mode⟩ := f
  cases mode with
  | confirm0 => exact absurd (Or.inl rfl) hidle
  | confirm1 => exact absurd (Or.inr rfl) hidle
  | _ =>
    -- the opening leaves one write, or none, that goes on from here
    cases c <;>
      simp [Mode.prefixWrites, Command.opening, unlock, kUnlockAddr1, kCmdUnlock1, kCmdProgram,
        kCmdErase] at hnext <;>
      simp [writeByte, hnext, Mode.Confirming, Mode.prefixWrites, unlock, kUnlockAddr1,
        kUnlockAddr2, kCmdUnlock1, kCmdUnlock2, kCmdAutosel, kCmdProgram, kCmdErase]

/-! ## Runs -/

/-- The flash is confirming an erase, or since it was last idle it has got the writes that its mode
stands for. -/
def Tracks (f : FlashRom) (as : List Access) : Prop :=
  (runFrom step f as).mode.Confirming ∨
    ∃ before since, as = before ++ since ∧ (runFrom step f before).mode.Idle ∧
      writes since = (runFrom step f as).mode.prefixWrites

/-- An idle flash has got nothing. -/
theorem Tracks.of_idle {f : FlashRom} {as : List Access} (h : (runFrom step f as).mode.Idle) :
    Tracks f as := by
  refine Or.inr ⟨as, [], (List.append_nil as).symm, h, ?_⟩
  obtain h | h := h
  · rw [h]
    rfl
  · rw [h]
    rfl

/-- **The mode is a record of the writes**, in every run from read-array mode. -/
theorem tracks (data : Fin kSize → BitVec 8) (as : List Access) :
    Tracks { data := data, mode := .read } as := by
  induction as using List.reverseRecOn with
  | nil => exact Tracks.of_idle (Or.inl rfl)
  | append_singleton as a ih =>
    have hrun : runFrom step { data := data, mode := .read } (as ++ [a]) =
        step (runFrom step { data := data, mode := .read } as) a := runFrom_append ..
    cases a with
    | read off =>
      obtain ⟨-, hsame | ⟨-, hconfirm0 | hread⟩⟩ :=
        readByte_spec (runFrom step { data := data, mode := .read } as) off
      · obtain hconfirm | ⟨before, since, hsplit, hidle, hwrites⟩ := ih
        · rw [Tracks, hrun]
          exact Or.inl (hsame ▸ hconfirm)
        · refine Or.inr ⟨before, since ++ [.read off], ?_, hidle, ?_⟩
          · rw [hsplit, List.append_assoc]
          · rw [hrun, writes_append, hwrites]
            exact (List.append_nil _).trans (congrArg Mode.prefixWrites hsame.symm)
      · rw [Tracks, hrun]
        exact Or.inl (Or.inl hconfirm0)
      · refine Tracks.of_idle ?_
        rw [hrun]
        exact Or.inl hread
    | write off d =>
      obtain ⟨-, hidle⟩ | ⟨-, hbefore, hpre⟩ | ⟨c, -, -, hcommand⟩ :=
        writeByte_spec (runFrom step { data := data, mode := .read } as) off d
      · refine Tracks.of_idle ?_
        rw [hrun]
        exact hidle
      · obtain ⟨before, since, hsplit, hidle, hwrites⟩ := ih.resolve_left hbefore
        refine Or.inr ⟨before, since ++ [.write off d], ?_, hidle, ?_⟩
        · rw [hsplit, List.append_assoc]
        · rw [hrun, writes_append, hwrites]
          exact hpre.symm
      · have hmode : (runFrom step { data := data, mode := .read } (as ++ [.write off d])).mode =
            c.nextMode := by
          rw [hrun]
          exact congrArg FlashRom.mode hcommand
        cases c with
        | program => exact Tracks.of_idle (Or.inl hmode)
        | sectorErase => exact Or.inl (Or.inr hmode)
        | chipErase => exact Or.inl (Or.inr hmode)

/-- From an idle mode the opening of a command is followed, with any reads in between. -/
theorem run_opening {f : FlashRom} (hidle : f.mode.Idle) (c : Command) (since : List Access)
    (hwrites : writes since <+: c.opening) :
    (runFrom step f since).data = f.data ∧ ¬ (runFrom step f since).mode.Confirming ∧
      (runFrom step f since).mode.prefixWrites = writes since := by
  induction since using List.reverseRecOn with
  | nil =>
    obtain ⟨data, mode⟩ := f
    obtain rfl | rfl := hidle
    · exact ⟨rfl, (by rintro (h | h) <;> cases h), rfl⟩
    · exact ⟨rfl, (by rintro (h | h) <;> cases h), rfl⟩
  | append_singleton since a ih =>
    have hrun : runFrom step f (since ++ [a]) = step (runFrom step f since) a := runFrom_append ..
    rw [writes_append] at hwrites ⊢
    obtain ⟨hdata, hconfirm, hpre⟩ := ih ((List.prefix_append _ _).trans hwrites)
    rw [hrun]
    cases a with
    | read off =>
      obtain ⟨hkeeps, hmode⟩ := readByte_spec (runFrom step f since) off
      have hsame := hmode.resolve_right fun h => hconfirm h.1
      refine ⟨hkeeps.trans hdata, hsame ▸ hconfirm, ?_⟩
      exact (congrArg Mode.prefixWrites hsame).trans (hpre.trans (List.append_nil _).symm)
    | write off d =>
      have hnext : (runFrom step f since).mode.prefixWrites ++ [(off, d.setWidth 8)] <+:
          c.opening := hpre ▸ hwrites
      obtain ⟨hkeeps, hconfirm', hpre'⟩ := writeByte_prefix hconfirm hnext
      exact ⟨hkeeps.trans hdata, hconfirm', hpre'.trans (hpre ▸ rfl)⟩

/-! ## The array -/

/-- What the flash does after some accesses. -/
structure CommandsOnly (f : FlashRom) (as : List Access) : Prop where
  /-- The last write of a command carries it out. -/
  performs : ∀ off data c, Completes f as (off, data.setWidth 8) c →
    step (runFrom step f as) (.write off data) =
      { data := c.apply (runFrom step f as).data, mode := c.nextMode }
  /-- Any other write leaves the array alone. -/
  keeps : ∀ off data, (∀ c, ¬ Completes f as (off, data.setWidth 8) c) →
    (step (runFrom step f as) (.write off data)).data = (runFrom step f as).data
  /-- So does a read. -/
  read_keeps : ∀ off, (step (runFrom step f as) (.read off)).data = (runFrom step f as).data
  /-- In read-array mode a read returns the byte of the array, at the offset modulo 2 MB, and
  changes nothing. -/
  reads_array : (runFrom step f as).mode = .read →
    ∀ off (i : Fin kSize), i.val = off.toNat % 0x200000 →
      (runFrom step f as).readByte off =
        (runFrom step f as, ((runFrom step f as).data i).setWidth 64)

/-- **Only complete commands change the array**, and each does it as the part defines, in every run
of reads and writes from read-array mode, whatever the array. -/
theorem flash_commands (data : Fin kSize → BitVec 8) (as : List Access) :
    CommandsOnly { data := data, mode := .read } as := by
  refine ⟨?_, ?_, fun off => (readByte_spec _ off).1, ?_⟩
  · rintro off d c ⟨hfinal, before, since, hsplit, hidle, hwrites⟩
    have hrun := run_opening hidle c since (hwrites ▸ List.prefix_refl _)
    have hopening : (runFrom step { data := data, mode := .read } as).mode.prefixWrites =
        c.opening := by
      rw [hsplit, runFrom_append, hrun.2.2, hwrites]
    exact writeByte_final hopening hfinal
  · intro off d hno
    obtain ⟨hsame, -⟩ | ⟨hsame, -⟩ | ⟨c, hfinal, hopening, -⟩ :=
      writeByte_spec (runFrom step { data := data, mode := .read } as) off d
    · exact hsame
    · exact hsame
    · -- a command has been seen, so its opening stands in the run
      have hmode := Mode.eq_of_prefixWrites_eq hopening
      obtain hconfirm | ⟨before, since, hsplit, hidle, hwrites⟩ := tracks data as
      · rw [hmode] at hconfirm
        cases c <;> obtain h | h := hconfirm <;> cases h
      · exact absurd ⟨hfinal, before, since, hsplit, hidle, hwrites.trans hopening⟩ (hno c)
  · intro hmode off i hi
    have hindex : index off = i := Fin.ext ((val_index off).trans hi.symm)
    rw [readByte, hmode, hindex]

/-- The opening of an erase, as accesses. -/
def eraseOpening : List Access :=
  [.write 0x5555 0xAA, .write 0x2AAA 0x55, .write 0x5555 0x80, .write 0x5555 0xAA, .write 0x2AAA 0x55]

/-- A sector erase at offset 0x212345 of an array of zeros erases the second sector and no byte
beside it. -/
theorem flash_commands_sectorErase :
    let f := step (runFrom step { data := fun _ => 0, mode := .read } eraseOpening)
      (.write 0x212345 0x30)
    f.data ⟨0xFFFF, by decide⟩ = 0 ∧ f.data ⟨0x10000, by decide⟩ = 0xFF ∧
      f.data ⟨0x1FFFF, by decide⟩ = 0xFF ∧ f.data ⟨0x20000, by decide⟩ = 0 := by
  have hperforms := (flash_commands (fun _ => 0) eraseOpening).performs 0x212345 0x30
    (.sectorErase 0x212345) ⟨rfl, [], eraseOpening, rfl, Or.inl rfl, rfl⟩
  have hopening := (run_opening (f := { data := fun _ => 0, mode := .read }) (Or.inl rfl)
    (.sectorErase 0x212345) eraseOpening (List.prefix_refl _)).1
  generalize runFrom step { data := fun _ => 0, mode := .read } eraseOpening = f at *
  intro g
  have hbyte : ∀ i, g.data i = (Command.sectorErase 0x212345).byteAfter i.val 0 := by
    intro i
    have hg : g = _ := hperforms
    rw [hg]
    dsimp only
    rw [Command.apply_apply, hopening]
  exact ⟨(hbyte _).trans (by decide), (hbyte _).trans (by decide), (hbyte _).trans (by decide),
    (hbyte _).trans (by decide)⟩

end FlashRom

end EmulatR
