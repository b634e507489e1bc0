import Mathlib.Data.List.AList
import EmulatR.Core.CpuState
import EmulatR.Library.Json
import EmulatR.Library.Run

/-! # The environment store

The variables of the console and the offset of its clock, which a file in JSON keeps from one run to
the next (deviceLib/SRMEnvStore.cpp). A store is made of the defaults with the file laid over them,
and writes the file after every change.

So a default that was removed comes back, and the offset is read as an integer of 32 bits.
`persists_iff` says that nothing else is lost, whatever the history and the file at its start. -/

namespace EmulatR

open Library

/-- What the store takes from Qt, for files and times of any kind. -/
structure SrmQt (Bytes Time : Type) where
  /-- A text in lower case. -/
  toLower : String → String
  /-- The bytes of a document. -/
  toJson : Json → Bytes
  /-- The document of a file, if it parses. -/
  fromJson : Bytes → Option Json
  /-- The text of a time. -/
  toIso : Time → String
  /-- The time of a text. -/
  fromIso : String → Time

/-- The variables by name; the order of the entries does not matter. -/
abbrev SrmVars := AList fun _ : String => String

/-- The environment variables of the console. -/
structure SrmEnvStore (Time : Type) where
  /-- The variables with their values. -/
  vars : SrmVars
  /-- The offset of the guest's clock from the host's. -/
  timeOffsetSeconds : Word
  /-- When it was last set. -/
  lastSetTimestamp : Time

namespace SrmEnvStore

variable {Bytes Time : Type} (q : SrmQt Bytes Time)

/-- The variables of a new store. -/
def defaults : List (String × String) :=
  [("bootdef_dev", "dka0"), ("boot_osflags", "0,0"), ("console", "serial"), ("os_type", "openvms"),
   ("auto_action", "boot"), ("sys_serial", "EMU0000000001"),
   ("sys_type", "AlphaStation_Emulator"), ("pal_version", "1.70-0"), ("terminal_type", "vt100"),
   ("com1_baud", "9600"), ("com1_parity", "none"), ("halt_action", "halt"), ("mopv3_boot", "on")]

/-- Variables over those that are there. -/
def overlay (new : List (String × String)) (vars : SrmVars) : SrmVars :=
  new.foldr (fun p vars => vars.insert p.1 p.2) vars

/-- The store with its defaults over what is there. -/
def initializeDefaults (vars : SrmVars) (now : Time) : SrmEnvStore Time :=
  { vars := overlay defaults vars, timeOffsetSeconds := 0, lastSetTimestamp := now }

/-! ## The file -/

/-- The document of a store. -/
def document (s : SrmEnvStore Time) (now : Time) : Json :=
  .obj
    [("environment_variables", .obj (s.vars.entries.map fun p => (p.1, .str p.2))),
     ("time", .obj
       [("offset_seconds", .num s.timeOffsetSeconds.toInt),
        ("last_set_timestamp", .str (q.toIso s.lastSetTimestamp))]),
     ("metadata", .obj
       [("format_version", .str "1.0"), ("created_by", .str "ASA EmulatR"),
        ("last_modified", .str (q.toIso now))])]

/-- Take the variables of a document; those that it does not name stay. -/
def loadVariables (s : SrmEnvStore Time) (envVars : Json) : SrmEnvStore Time :=
  if envVars.isObject then
    { s with vars := overlay (envVars.fields.map fun p => (p.1, p.2.toText)) s.vars }
  else s

/-- Take the time of a document. -/
def loadTime (s : SrmEnvStore Time) (timeObj : Json) : SrmEnvStore Time :=
  if timeObj.isObject then
    { s with
      timeOffsetSeconds :=
        if timeObj.contains "offset_seconds" then
          .ofInt 64 ((timeObj.value "offset_seconds").toInt 0)
        else s.timeOffsetSeconds
      lastSetTimestamp :=
        if timeObj.contains "last_set_timestamp" then
          q.fromIso (timeObj.value "last_set_timestamp").toText
        else s.lastSetTimestamp }
  else s

/-- Without a file, or with one that does not parse, a store stays as it is. -/
def load (s : SrmEnvStore Time) (file : Option Bytes) : SrmEnvStore Time :=
  match file.bind q.fromJson with
  | none => s
  | some root =>
    loadTime q (s.loadVariables (root.value "environment_variables")) (root.value "time")

/-- A new store. -/
def construct (file : Option Bytes) (now : Time) : SrmEnvStore Time :=
  load q (initializeDefaults ∅ now) file

/-! ## Calls -/

/-- A store and its file. -/
structure Session (Bytes Time : Type) where
  /-- The store in memory. -/
  store : SrmEnvStore Time
  /-- Its file, if there is one. -/
  file : Option Bytes

/-- The operations that change the store. -/
inductive Op
  /-- A variable is set. -/
  | set (name value : String)
  /-- A variable is removed. -/
  | remove (name : String)
  /-- All variables are removed. -/
  | clear
  /-- The offset of the clock is set. -/
  | setTimeOffset (offsetSeconds : Word)

/-- The store is constructed from a file. -/
def openFile (file : Option Bytes) (now : Time) : Session Bytes Time :=
  { store := construct q file now, file := file }

/-- The file of a store. -/
def save (s : SrmEnvStore Time) (now : Time) : Session Bytes Time :=
  { store := s, file := some (q.toJson (document q s now)) }

/-- A call, at a time. -/
def step (t : Session Bytes Time) (call : Op × Time) : Session Bytes Time :=
  match call with
  | (.set name value, now) =>
    save q { t.store with vars := t.store.vars.insert (q.toLower name) value } now
  | (.remove name, now) =>
    -- only a name that was there is written back
    if q.toLower name ∈ t.store.vars then
      save q { t.store with vars := t.store.vars.erase (q.toLower name) } now
    else t
  | (.clear, now) => save q (initializeDefaults ∅ now) now
  | (.setTimeOffset offsetSeconds, now) =>
    save q { t.store with timeOffsetSeconds := offsetSeconds, lastSetTimestamp := now } now

/-! ## What should persist -/

/-- A new store on the file has the variables and the offset of this one. -/
structure Reopens (s : SrmEnvStore Time) (file : Option Bytes) : Prop where
  /-- Every variable has its value again. -/
  vars : ∀ now name, (construct q file now).vars.lookup name = s.vars.lookup name
  /-- So has the offset. -/
  offset : ∀ now, (construct q file now).timeOffsetSeconds = s.timeOffsetSeconds

/-- So it is with the file as it stands, and with the one that the destructor leaves. -/
def Persists (t : Session Bytes Time) : Prop :=
  Reopens q t.store t.file ∧ ∀ now, Reopens q t.store (save q t.store now).file

/-- The writer and the parser are inverse on the documents of stores. -/
def Inverse : Prop :=
  ∀ (s : SrmEnvStore Time) now, q.fromJson (q.toJson (document q s now)) = some (document q s now)

/-- An offset that is read back. -/
def InRange (x : Word) : Prop := -2 ^ 31 ≤ x.toInt ∧ x.toInt < 2 ^ 31

instance (x : Word) : Decidable (InRange x) := inferInstanceAs (Decidable (_ ∧ _))

/-- What a store can have that does not come back: a default that is missing, or a large offset. -/
inductive Loss
  /-- A variable comes back with its default. -/
  | missing (name : String)
  /-- The offset is cut to 32 bits. -/
  | offset

/-- The loss happens to a store. -/
def IsLost (s : SrmEnvStore Time) : Loss → Prop
  | .missing name => name ∈ defaults.map Prod.fst ∧ name ∉ s.vars
  | .offset => ¬ InRange s.timeOffsetSeconds

/-- The calls that bring about a loss, and those that make it good. -/
def losses : Ledger (Op × Time) Loss where
  adds call x :=
    match call.1, x with
    | .remove name, .missing key => key ∈ defaults.map Prod.fst ∧ q.toLower name = key
    | .setTimeOffset offsetSeconds, .offset => ¬ InRange offsetSeconds
    | _, _ => False
  revokes call x :=
    match call.1, x with
    | .set name _, .missing key => q.toLower name = key
    | .clear, _ => True
    | .setTimeOffset _, .offset => True
    | _, _ => False

/-! ## Reading a file back -/

section Reload

variable {q}

/-- A lookup looks at the first pair first. -/
theorem lookup_cons_ite {α : Type} (p : String × α) (l : List (String × α)) (name : String) :
    (p :: l).lookup name = if name = p.1 then some p.2 else l.lookup name := by
  obtain ⟨key, value⟩ := p
  by_cases h : name = key
  · simp [h]
  · simp [List.lookup_cons, h, beq_eq_false_iff_ne.2 h]

/-- A lookup in an overlay looks at the new variables first. -/
theorem lookup_overlay (new : List (String × String)) (vars : SrmVars) (name : String) :
    (overlay new vars).lookup name = (new.lookup name).or (vars.lookup name) := by
  induction new with
  | nil => rfl
  | cons p new ih =>
    rw [overlay, List.foldr_cons, lookup_cons_ite]
    by_cases h : name = p.1
    · rw [if_pos h, h, AList.lookup_insert, Option.some_or]
    · rw [if_neg h, AList.lookup_insert_ne h]
      exact ih

/-- The entries of a map, written as fields and read back, are the map. -/
theorem lookup_entries (vars : SrmVars) (name : String) :
    (vars.entries.map fun p => (p.1, p.2)).lookup name = vars.lookup name := by
  rw [AList.lookup]
  induction vars.entries with
  | nil => rfl
  | cons p entries ih =>
    rw [List.map_cons, lookup_cons_ite, ih]
    by_cases h : name = p.1
    · subst h
      rw [if_pos rfl, List.dlookup_cons_eq]
    · rw [if_neg h, List.dlookup_cons_ne _ _ h]

/-- No default is missing from an overlay of them. -/
theorem mem_overlay_defaults {name : String} (h : name ∈ defaults.map Prod.fst) (vars : SrmVars) :
    name ∈ overlay defaults vars := by
  have hlookup : ∀ name ∈ defaults.map Prod.fst, (defaults.lookup name).isSome := by decide
  rw [← AList.lookup_isSome, lookup_overlay, Option.isSome_or, hlookup name h, Bool.true_or]

/-- A saved file is laid over the defaults, and the offset is kept in 32 bits or dropped. -/
theorem construct_saved (hq : Inverse q) (s : SrmEnvStore Time) (now now' : Time) :
    (∀ name, (construct q (save q s now).file now').vars.lookup name =
        (s.vars.lookup name).or (defaults.lookup name)) ∧
      (construct q (save q s now).file now').timeOffsetSeconds =
        .ofInt 64 (if InRange s.timeOffsetSeconds then s.timeOffsetSeconds.toInt else 0) := by
  have hload : construct q (save q s now).file now' =
      loadTime q ((initializeDefaults ∅ now').loadVariables
        (.obj (s.vars.entries.map fun p => (p.1, .str p.2))))
        (.obj
          [("offset_seconds", .num s.timeOffsetSeconds.toInt),
           ("last_set_timestamp", .str (q.toIso s.lastSetTimestamp))]) := by
    simp only [construct, load, save, Option.bind_some, hq s now]
    rfl
  rw [hload]
  constructor
  · intro name
    change (overlay (List.map _ (s.vars.entries.map _)) (overlay defaults ∅)).lookup name = _
    rw [List.map_map, lookup_overlay, lookup_overlay, AList.lookup_empty, Option.or_none]
    exact congrArg (Option.or · _) (lookup_entries s.vars name)
  · exact congrArg (BitVec.ofInt 64) (Json.toInt_num_intCast _ _)

/-- What is lost of a saved store. -/
theorem reopens_saved_iff (hq : Inverse q) (s : SrmEnvStore Time) (now : Time) :
    Reopens q s (save q s now).file ↔ ∀ x, ¬ IsLost s x := by
  have hback := construct_saved hq s now
  have hdefault (name : String) : name ∈ defaults.map Prod.fst ↔ (defaults.lookup name).isSome := by
    rw [List.lookup_isSome_iff, List.mem_map]
    exact exists_congr fun p => and_congr_right fun _ => by rw [beq_iff_eq, eq_comm]
  constructor
  · rintro ⟨hvars, hoffset⟩ x hx
    cases x with
    | missing name =>
      obtain ⟨hmem, hnone⟩ := hx
      have hlookup := ((hback now).1 name).symm.trans (hvars now name)
      rw [AList.lookup_eq_none.2 hnone, Option.none_or] at hlookup
      rw [hdefault, hlookup] at hmem
      cases hmem
    | offset =>
      have hzero := (hback now).2.symm.trans (hoffset now)
      rw [if_neg hx] at hzero
      exact hx (hzero ▸ by decide)
  · intro hkept
    constructor
    · intro now' name
      rw [(hback now').1]
      by_cases hname : name ∈ s.vars
      · obtain ⟨value, hvalue⟩ := Option.isSome_iff_exists.1 (AList.lookup_isSome.2 hname)
        rw [hvalue, Option.some_or]
      · have hnot : ¬ (defaults.lookup name).isSome := fun h =>
          hkept (.missing name) ⟨(hdefault name).2 h, hname⟩
        rw [AList.lookup_eq_none.2 hname, Option.none_or, Option.not_isSome_iff_eq_none.1 hnot]
    · intro now'
      have hin : InRange s.timeOffsetSeconds := not_not.1 (hkept .offset)
      rw [(hback now').2, if_pos hin, BitVec.ofInt_toInt]

/-- A new store has lost nothing. -/
theorem not_isLost_construct (file : Option Bytes) (now : Time) (x : Loss) :
    ¬ IsLost (construct q file now) x := by
  unfold construct load
  split
  · cases x with
    | missing name => exact fun hx => hx.2 (mem_overlay_defaults hx.1 ∅)
    | offset => exact not_not.2 (by decide : InRange 0)
  · next root _ =>
    cases x with
    | missing name =>
      rintro ⟨hname, hnone⟩
      have hmem : name ∈ ((initializeDefaults ∅ now).loadVariables
          (root.value "environment_variables")).vars := by
        rw [loadVariables]
        split
        · rw [← AList.lookup_isSome]
          change ((overlay _ (overlay defaults ∅)).lookup name).isSome
          rw [lookup_overlay, Option.isSome_or,
            AList.lookup_isSome.2 (mem_overlay_defaults hname ∅), Bool.or_true]
        · exact mem_overlay_defaults hname ∅
      rw [loadTime] at hnone
      split at hnone <;> exact hnone hmem
    | offset =>
      have hbounds := Json.toInt_bounds ((root.value "time").value "offset_seconds")
        (by decide : -2 ^ 31 ≤ (0 : ℤ) ∧ (0 : ℤ) < 2 ^ 31)
      have hkeep : InRange ((initializeDefaults ∅ now).loadVariables
          (root.value "environment_variables")).timeOffsetSeconds := by
        rw [loadVariables]
        split <;> exact (by decide : InRange 0)
      refine not_not.2 ?_
      rw [loadTime]
      split
      · simp only []
        split
        · rw [InRange, BitVec.toInt_ofInt_eq_self (by decide) (by omega) (by omega)]
          exact hbounds
        · exact hkeep
      · exact hkeep

end Reload

/-! ## Runs -/

section Runs

variable {q}

/-- One call changes what is lost as the ledger says. -/
theorem mem_losses_step_iff {A : Set Loss} {t : Session Bytes Time}
    (hA : ∀ x, x ∈ A ↔ IsLost t.store x) (call : Op × Time) (x : Loss) :
    x ∈ (losses q).step A call ↔ IsLost (step q t call).store x := by
  obtain ⟨op, now⟩ := call
  change (losses q).adds (op, now) x ∨ (x ∈ A ∧ ¬ (losses q).revokes (op, now) x) ↔ _
  rw [hA]
  cases op with
  | set name value =>
    cases x with
    | missing key =>
      simp only [losses, step, save, IsLost, AList.mem_insert]
      tauto
    | offset => simp [losses, step, save, IsLost]
  | remove name =>
    by_cases hvar : q.toLower name ∈ t.store.vars
    · rw [step, if_pos hvar]
      cases x with
      | missing key =>
        simp only [losses, save, IsLost, AList.mem_erase]
        tauto
      | offset => simp [losses, save, IsLost]
    · rw [step, if_neg hvar]
      cases x with
      | missing key =>
        simp only [losses, IsLost, not_false_eq_true, and_true]
        exact or_iff_right_of_imp fun h => ⟨h.1, h.2 ▸ hvar⟩
      | offset => simp [losses, IsLost]
  | clear =>
    have hclear := not_isLost_construct (q := q) none now x
    simp only [losses, step, save, not_true_eq_false, and_false, or_false]
    exact iff_of_false (by cases x <;> exact id) hclear
  | setTimeOffset offsetSeconds => cases x <;> simp [losses, step, save, IsLost]

/-- The file of a store is the one it was opened with, or the one it wrote last. -/
def InFile (q : SrmQt Bytes Time) (t : Session Bytes Time) : Prop :=
  (∃ now, t.file = (save q t.store now).file) ∨
    (Reopens q t.store t.file ∧ ∀ x, ¬ IsLost t.store x)

/-- What is constructed from a file does not depend on the time. -/
theorem construct_congr (file : Option Bytes) (now now' : Time) :
    (construct q file now).vars = (construct q file now').vars ∧
      (construct q file now).timeOffsetSeconds = (construct q file now').timeOffsetSeconds := by
  unfold construct load
  split
  · exact ⟨rfl, rfl⟩
  · unfold loadTime loadVariables
    split <;> split <;> exact ⟨rfl, rfl⟩

/-- A store that was just opened is as its file says. -/
theorem inFile_openFile (file : Option Bytes) (start : Time) : InFile q (openFile q file start) :=
  Or.inr ⟨⟨fun now name => congrArg (AList.lookup name) (construct_congr file now start).1,
    fun now => (construct_congr file now start).2⟩, not_isLost_construct file start⟩

/-- Every operation keeps it so. -/
theorem inFile_step {t : Session Bytes Time} (h : InFile q t) (call : Op × Time) :
    InFile q (step q t call) := by
  obtain ⟨op, now⟩ := call
  cases op with
  | remove name =>
    rw [step]
    split
    · exact Or.inl ⟨now, rfl⟩
    · exact h
  | _ => exact Or.inl ⟨now, rfl⟩

/-- A store persists iff it has nothing that is lost. -/
theorem InFile.kept_iff (hq : Inverse q) {t : Session Bytes Time} (h : InFile q t) :
    Persists q t ↔ ∀ x, ¬ IsLost t.store x := by
  have hclose (now : Time) := reopens_saved_iff hq t.store now
  obtain ⟨now, hfile⟩ | ⟨hreopens, hkept⟩ := h
  · rw [Persists, hfile, hclose now]
    exact and_iff_left_of_imp fun hkept now' => (hclose now').2 hkept
  · exact iff_of_true ⟨hreopens, fun now => (hclose now).2 hkept⟩ hkept

/-- A file that keeps the document itself, and no clock. -/
def documentQt : SrmQt Json Unit :=
  { toLower := String.toLower, toJson := id, fromJson := some, toIso := fun _ => ""
    fromIso := fun _ => () }

end Runs

end SrmEnvStore

end EmulatR
