import EmulatR.Library.Run
import EmulatR.System.Step

/-! # Load-locked and store-conditional

Up to four CPUs share guest memory and the lock monitor. LDx_L reserves the 64-byte line of its
address, STx_C succeeds if its CPU still holds the line, and a store takes the line from the other
CPUs (memoryLib/GuestMemory.cpp, pipelineLib/MemDrainer.h). The specification is a ledger over the
history of accesses: which CPU reserved which line, which wrote which bytes, and which tried a
store-conditional. The code drops only the reservations of the line of a store's first byte, so a
store that runs into the next line leaves the reservations of that line standing; without such a
store the monitor and the ledger agree over every interleaving.

`storeCond_after_run` is the law over every interleaving; `crossing_store_keeps_reservation` is a
store over the end of a line that leaves the reservation of the next one. -/

namespace EmulatR

open Library

/-! ## The monitor -/

namespace LockMonitor

/-- A CPU holds a line. -/
def Holds (L : LockMonitor) (i : Fin 4) (l : Word) : Prop := (L i).valid = true ∧ (L i).pa = l

variable {L : LockMonitor} {c : BitVec 32} {j : Fin 4}

/-- An empty monitor holds no reservation. -/
theorem not_holds_empty (i : Fin 4) (l : Word) : ¬ Holds empty i l := fun h => Bool.false_ne_true h.1

/-- The check is of the line, in the slot of the CPU. -/
theorem check_iff (hc : slotOf c = some j) {pa : Word} :
    L.check c pa = true ↔ Holds L j (line pa) := by
  simp only [check, hc, Bool.and_eq_true, beq_iff_eq, Holds]

/-- A new reservation replaces that of its CPU. -/
theorem holds_set (hc : slotOf c = some j) {pa : Word} {i : Fin 4} {l : Word} :
    Holds (L.set c pa) i l ↔ if i = j then l = line pa else Holds L i l := by
  simp only [set, hc, Holds]
  by_cases h : i = j
  · subst h
    rw [Function.update_self, if_pos rfl]
    exact ⟨fun h => h.2.symm, fun h => ⟨rfl, h.symm⟩⟩
  · rw [Function.update_of_ne h, if_neg h]

/-- A CPU that is cleared holds none. -/
theorem holds_clear (hc : slotOf c = some j) {i : Fin 4} {l : Word} :
    Holds (L.clear c) i l ↔ i ≠ j ∧ Holds L i l := by
  simp only [clear, hc, Holds]
  by_cases h : i = j
  · subst h
    rw [Function.update_self]
    exact ⟨fun h => absurd h.1 Bool.false_ne_true, fun h => absurd rfl h.1⟩
  · rw [Function.update_of_ne h]
    exact ⟨fun hl => ⟨h, hl⟩, fun hl => hl.2⟩

/-- Clearing a line spares the CPU that clears it. -/
theorem holds_clearLine (hc : slotOf c = some j) {pa : Word} {i : Fin 4} {l : Word} :
    Holds (L.clearLine pa c) i l ↔ Holds L i l ∧ (i = j ∨ l ≠ line pa) := by
  simp only [Holds, clearLine, hc, Option.some.injEq]
  by_cases h : j = i
  · subst h
    simp only [if_true, true_or, and_true]
  · rw [if_neg h]
    split
    · rename_i hl
      simp only [Bool.and_eq_true, beq_iff_eq] at hl
      refine ⟨fun h => absurd h.1 Bool.false_ne_true, ?_⟩
      rintro ⟨hold, hij | hne⟩
      · exact absurd hij.symm h
      · exact absurd (hold.2.symm.trans hl.2) hne
    · rename_i hl
      simp only [Bool.and_eq_true, beq_iff_eq, not_and] at hl
      exact ⟨fun hold => ⟨hold, Or.inr fun he => hl hold.1 (hold.2.trans he)⟩, fun hold => hold.1⟩

end LockMonitor

/-! ## The accesses -/

/-- An access of one of four CPUs: its state, the grain and what the leaf asked for. -/
structure Access where
  /-- The CPU that makes it. -/
  cpu : CpuState
  /-- The instruction. -/
  grain : InstructionGrain
  /-- What its leaf asked for. -/
  result : BoxResult
  /-- The CPU has a slot in the monitor. -/
  slot_lt : cpu.cpuSlot.toNat < 4

/-- What the CPUs share. -/
structure Shared (δ : Type) where
  /-- The bus with guest memory. -/
  bus : Chipset δ
  /-- The lock monitor. -/
  locks : LockMonitor

namespace Access

variable (a : Access)

/-- The CPU's slot. -/
def slot : Fin 4 := ⟨a.cpu.cpuSlot.toNat, a.slot_lt⟩

/-- The slot of an agent is that of its CPU. -/
theorem slotOf_cpuSlot : LockMonitor.slotOf a.cpu.cpuSlot = some a.slot := dif_pos a.slot_lt

/-- Where the access goes, if it is one and translates. -/
def pa? : Option Word :=
  if a.result.faultCode = .noFault ∧ a.result.memSize ≠ 0 then
    (MemDrainer.translate a.cpu a.result).pa?
  else none

/-- LDx_L. -/
def isLoadLocked : Bool := !a.result.memIsStore && a.result.isLocked

/-- STx_C. -/
def isStoreCond : Bool := a.result.memIsStore && a.result.isLocked

end Access

section System

variable {δ : Type} (D : Devices δ) (silicon : Bool)

/-- Drain one access. -/
def accessStep (s : Shared δ) (a : Access) : Shared δ × BoxResult :=
  let x := MemDrainer.drain D silicon a.grain ⟨a.cpu, s.bus, s.locks⟩ a.result
  (⟨x.1.bus, x.1.locks⟩, x.2)

/-- The bus write a store makes. -/
def busWrite (s : Shared δ) (a : Access) (pa : Word) : Chipset δ × BusResult :=
  s.bus.write D pa a.result.memData a.result.memSize

/-- What an access leaves behind, by what happened. -/
inductive AccessOutcome (s : Shared δ) (a : Access) : Shared δ → BoxResult → Prop
  /-- It is no access, or it does not translate. -/
  | idle (out : BoxResult) (h : a.pa? = none) : AccessOutcome s a s out
  /-- The bus refuses a load. -/
  | loadRefused (pa : Word) (b : Chipset δ) (h : a.pa? = some pa) (hst : ¬ a.result.memIsStore) :
      AccessOutcome s a { s with bus := b } { a.result with faultCode := .busError }
  /-- A load; LDx_L reserves the line. -/
  | load (pa : Word) (b : Chipset δ) (v : Word) (h : a.pa? = some pa) (hst : ¬ a.result.memIsStore) :
      AccessOutcome s a
        ⟨b, if a.result.isLocked then s.locks.set a.cpu.cpuSlot pa else s.locks⟩
        { a.result with regWriteValue := v }
  /-- The bus refuses a store. -/
  | storeRefused (pa : Word) (h : a.pa? = some pa) (hst : a.result.memIsStore)
      (hlk : ¬ a.result.isLocked) (hbus : (busWrite D s a pa).2.status ≠ .ok) :
      AccessOutcome s a { s with bus := (busWrite D s a pa).1 }
        { a.result with faultCode := .busError }
  /-- A store. -/
  | store (pa : Word) (h : a.pa? = some pa) (hst : a.result.memIsStore)
      (hlk : ¬ a.result.isLocked) (hbus : (busWrite D s a pa).2.status = .ok) :
      AccessOutcome s a ⟨(busWrite D s a pa).1, s.locks.clearLine pa a.cpu.cpuSlot⟩ a.result
  /-- A store-conditional without a reservation. -/
  | condLost (pa : Word) (h : a.pa? = some pa) (hst : a.result.memIsStore)
      (hlk : a.result.isLocked) (hck : ¬ s.locks.check a.cpu.cpuSlot pa) :
      AccessOutcome s a { s with locks := s.locks.clear a.cpu.cpuSlot }
        { a.result with regWriteValue := 0 }
  /-- The bus refuses a store-conditional. -/
  | condRefused (pa : Word) (h : a.pa? = some pa) (hst : a.result.memIsStore)
      (hlk : a.result.isLocked) (hck : s.locks.check a.cpu.cpuSlot pa)
      (hbus : (busWrite D s a pa).2.status ≠ .ok) :
      AccessOutcome s a ⟨(busWrite D s a pa).1, s.locks.clear a.cpu.cpuSlot⟩
        { a.result with faultCode := .busError }
  /-- A store-conditional. -/
  | cond (pa : Word) (h : a.pa? = some pa) (hst : a.result.memIsStore)
      (hlk : a.result.isLocked) (hck : s.locks.check a.cpu.cpuSlot pa)
      (hbus : (busWrite D s a pa).2.status = .ok) :
      AccessOutcome s a
        ⟨(busWrite D s a pa).1, (s.locks.clear a.cpu.cpuSlot).clearLine pa a.cpu.cpuSlot⟩
        { a.result with regWriteValue := 1 }

/-- The register write is private to the CPU. -/
theorem commit_shared (x : Machine δ × BoxResult) :
    (MemDrainer.commit x.1 x.2).1.bus = x.1.bus ∧ (MemDrainer.commit x.1 x.2).1.locks = x.1.locks ∧
      (MemDrainer.commit x.1 x.2).2 = x.2 := by
  rw [MemDrainer.commit]
  split <;> exact ⟨rfl, rfl, rfl⟩

/-- An access does to what is shared what its memory effect does. -/
theorem accessStep_of_access {s : Shared δ} {a : Access} {x : Machine δ × BoxResult}
    (hr : a.result.faultCode = .noFault) (hs : a.result.memSize ≠ 0)
    (hx : MemDrainer.applyMemEffect D silicon a.grain ⟨a.cpu, s.bus, s.locks⟩ a.result = x) :
    accessStep D silicon s a = (⟨x.1.bus, x.1.locks⟩, x.2) := by
  obtain ⟨hbus, hlocks, hres⟩ := commit_shared x
  simp only [accessStep, MemDrainer.drain, if_neg (not_not.mpr hr), if_neg hs, hx, hbus, hlocks,
    hres]

/-- An access that does not get as far as the bus leaves what is shared alone. -/
theorem accessStep_of_idle {s : Shared δ} {a : Access} (h : a.pa? = none) :
    (accessStep D silicon s a).1 = s := by
  -- three ways not to reach the bus: a leaf that faulted, no access, no translation
  by_cases hr : a.result.faultCode = .noFault
  · by_cases hs : a.result.memSize = 0
    · simp only [accessStep, MemDrainer.drain, if_neg (not_not.mpr hr), if_pos hs,
        MemDrainer.commit_of_noFault hr]
    · rw [Access.pa?, if_pos ⟨hr, hs⟩] at h
      rw [accessStep_of_access D silicon hr hs
        (MemDrainer.applyMemEffect_of_none D silicon a.grain h)]
  · simp only [accessStep, MemDrainer.drain, if_pos hr]

/-- An access that translates goes to the bus. -/
theorem accessStep_of_pa {s : Shared δ} {a : Access} {pa : Word} {x : Machine δ × BoxResult}
    (h : a.pa? = some pa)
    (hx : (if a.result.memIsStore then
        MemDrainer.applyStoreEffect D ⟨a.cpu, s.bus, s.locks⟩ a.result pa
      else MemDrainer.applyLoadEffect D silicon ⟨a.cpu, s.bus, s.locks⟩ a.result pa) = x) :
    accessStep D silicon s a = (⟨x.1.bus, x.1.locks⟩, x.2) := by
  rw [Access.pa?] at h
  split at h
  · rename_i hr
    refine accessStep_of_access D silicon hr.1 hr.2 ?_
    rw [MemDrainer.applyMemEffect_of_pa D silicon a.grain h, hx]
  · cases h

/-- **What an access can do.** -/
theorem accessStep_cases (s : Shared δ) (a : Access) :
    AccessOutcome D s a (accessStep D silicon s a).1 (accessStep D silicon s a).2 := by
  cases hpa : a.pa? with
  | none =>
    rw [accessStep_of_idle D silicon hpa]
    exact .idle _ hpa
  | some pa =>
    rw [accessStep_of_pa D silicon hpa rfl]
    -- store or load, then conditional or plain, then what the bus says
    by_cases hst : a.result.memIsStore
    · simp only [if_pos hst, MemDrainer.applyStoreEffect]
      by_cases hlk : a.result.isLocked
      · simp only [if_pos hlk]
        by_cases hck : s.locks.check a.cpu.cpuSlot pa
        · simp only [if_pos hck, MemDrainer.performStore, if_pos hlk]
          split
          · exact .condRefused pa hpa hst hlk hck ‹_›
          · exact .cond pa hpa hst hlk hck (not_not.mp ‹_›)
        · simp only [if_neg hck]
          exact .condLost pa hpa hst hlk hck
      · simp only [if_neg hlk, MemDrainer.performStore]
        split
        · exact .storeRefused pa hpa hst hlk ‹_›
        · exact .store pa hpa hst hlk (not_not.mp ‹_›)
    · simp only [if_neg hst, MemDrainer.applyLoadEffect]
      split
      · exact .loadRefused pa _ hpa hst
      · exact .load pa _ _ hpa hst

/-! ## The history -/

/-- What an access did. -/
structure AccessRecord where
  /-- The CPU that made it. -/
  cpu : Fin 4
  /-- The line it reserved, if it was a LDx_L. -/
  reserved : Option Word
  /-- It was a STx_C. -/
  conditional : Bool
  /-- The bytes it wrote: the first address and their number. -/
  wrote : Option (Word × Nat)
  deriving DecidableEq

/-- A byte of the line was written. -/
def AccessRecord.Writes (r : AccessRecord) (l : Word) : Prop :=
  ∃ pa n, r.wrote = some (pa, n) ∧ ∃ k < n, LockMonitor.line (pa + BitVec.ofNat 64 k) = l

/-- What an access did, read off its outcome: a LDx_L that did not fault reserved its line, a store
that did not fault wrote its bytes, and a STx_C did so if it returned one. -/
def Access.record (a : Access) (out : BoxResult) : AccessRecord :=
  { cpu := a.slot
    reserved := a.pa?.bind fun pa =>
      if a.isLoadLocked ∧ out.faultCode = .noFault then some (LockMonitor.line pa) else none
    conditional := a.pa?.isSome && a.isStoreCond
    wrote := a.pa?.bind fun pa =>
      if a.result.memIsStore ∧ out.faultCode = .noFault ∧
          (a.result.isLocked → out.regWriteValue = 1) then
        some (pa, a.result.memSize)
      else none }

/-- **The specification.** LDx_L gives its CPU the line. The CPU loses it by its next LDx_L or
STx_C, and when another CPU writes a byte of the line. -/
def lockLedger : Ledger AccessRecord (Fin 4 × Word) where
  adds r x := r.cpu = x.1 ∧ r.reserved = some x.2
  revokes r x := (r.cpu = x.1 ∧ (r.conditional ∨ r.reserved.isSome)) ∨ (r.cpu ≠ x.1 ∧ r.Writes x.2)

/-- An access adds what it reserves. -/
@[simp] theorem lockLedger_adds {r : AccessRecord} {i : Fin 4} {l : Word} :
    lockLedger.adds r (i, l) ↔ r.cpu = i ∧ r.reserved = some l := Iff.rfl

/-- It revokes its own by a conditional or a new reservation, and others' by a write. -/
@[simp] theorem lockLedger_revokes {r : AccessRecord} {i : Fin 4} {l : Word} :
    lockLedger.revokes r (i, l) ↔
      (r.cpu = i ∧ (r.conditional ∨ r.reserved.isSome)) ∨ (r.cpu ≠ i ∧ r.Writes l) := Iff.rfl

/-- One access, with the history it belongs to. -/
def tracedStep (x : Shared δ × List AccessRecord) (a : Access) : Shared δ × List AccessRecord :=
  ((accessStep D silicon x.1 a).1, x.2 ++ [a.record (accessStep D silicon x.1 a).2])

/-- No store that is carried out runs into a line that another CPU holds. -/
def LineSafe (x : Shared δ × List AccessRecord) (a : Access) : Prop :=
  ∀ pa, a.pa? = some pa → a.result.memIsStore →
    (a.result.isLocked → x.1.locks.check a.cpu.cpuSlot pa) →
    (busWrite D x.1 a pa).2.status = .ok → ∀ k < a.result.memSize, ∀ i ≠ a.slot,
    LockMonitor.Holds x.1.locks i (LockMonitor.line (pa + BitVec.ofNat 64 k)) →
      LockMonitor.line (pa + BitVec.ofNat 64 k) = LockMonitor.line pa

/-- The monitor holds what the specification says. -/
def Agrees (x : Shared δ × List AccessRecord) : Prop :=
  ∀ i l, LockMonitor.Holds x.1.locks i l ↔ (i, l) ∈ lockLedger.live x.2

namespace Access

variable {a : Access} {pa : Word}

/-- An access with an address has not faulted. -/
theorem noFault_of_pa (h : a.pa? = some pa) :
    a.result.faultCode = .noFault ∧ a.result.memSize ≠ 0 := by
  rw [pa?] at h
  split at h
  · assumption
  · cases h

/-- An access without an address leaves no trace. -/
theorem record_of_none (h : a.pa? = none) (out : BoxResult) :
    a.record out = ⟨a.slot, none, false, none⟩ := by
  simp only [record, h, Option.bind_none, Option.isSome_none, Bool.false_and]

/-- The record of an access with an address. -/
theorem record_of_pa (h : a.pa? = some pa) (out : BoxResult) :
    a.record out =
      { cpu := a.slot
        reserved := if a.isLoadLocked ∧ out.faultCode = .noFault then some (LockMonitor.line pa)
          else none
        conditional := a.isStoreCond
        wrote := if a.result.memIsStore ∧ out.faultCode = .noFault ∧
            (a.result.isLocked → out.regWriteValue = 1) then some (pa, a.result.memSize)
          else none } := by
  simp only [record, h, Option.bind_some, Option.isSome_some, Bool.true_and]

end Access

section Step

variable {D} {s s' : Shared δ} {a : Access} {out : BoxResult} {i : Fin 4} {l : Word}

/-- The change of the monitor is the change of the ledger. -/
def LedgerStep (s s' : Shared δ) (r : AccessRecord) : Prop :=
  ∀ i l, LockMonitor.Holds s'.locks i l ↔
    lockLedger.adds r (i, l) ∨ (LockMonitor.Holds s.locks i l ∧ ¬ lockLedger.revokes r (i, l))

/-- An access that does nothing to the monitor and has nothing on record. -/
theorem ledgerStep_of_nothing (j : Fin 4) (hl : s'.locks = s.locks) :
    LedgerStep s s' ⟨j, none, false, none⟩ := by
  intro i l
  simp [AccessRecord.Writes, hl]

/-- LDx_L. -/
theorem ledgerStep_of_set {c : BitVec 32} {j : Fin 4} {pa : Word} {b : Chipset δ}
    (hc : LockMonitor.slotOf c = some j) :
    LedgerStep s ⟨b, s.locks.set c pa⟩ ⟨j, some (LockMonitor.line pa), false, none⟩ := by
  intro i l
  rw [LockMonitor.holds_set hc]
  by_cases h : i = j
  · subst h
    simp [@eq_comm _ l]
  · simp [AccessRecord.Writes, h, Ne.symm h]

/-- STx_C that does not write. -/
theorem ledgerStep_of_clear {c : BitVec 32} {j : Fin 4} {b : Chipset δ}
    (hc : LockMonitor.slotOf c = some j) :
    LedgerStep s ⟨b, s.locks.clear c⟩ ⟨j, none, true, none⟩ := by
  intro i l
  rw [LockMonitor.holds_clear hc]
  simp [AccessRecord.Writes, and_comm, @eq_comm _ i]

/-- What a store takes from the other CPUs, if it runs into no line they hold. -/
theorem holds_clearLine_iff {L : LockMonitor} {c : BitVec 32} {j : Fin 4} {pa : Word} {n : Nat}
    (hc : LockMonitor.slotOf c = some j) (hn : n ≠ 0)
    (hsafe : ∀ k < n, ∀ i ≠ j, L.Holds i (LockMonitor.line (pa + BitVec.ofNat 64 k)) →
      LockMonitor.line (pa + BitVec.ofNat 64 k) = LockMonitor.line pa) :
    LockMonitor.Holds (L.clearLine pa c) i l ↔ L.Holds i l ∧
      ¬ (j ≠ i ∧ ∃ k < n, LockMonitor.line (pa + BitVec.ofNat 64 k) = l) := by
  rw [LockMonitor.holds_clearLine hc]
  refine and_congr_right fun hold => ?_
  constructor
  -- a byte in another line would be held by nobody else, by the condition
  · rintro hor ⟨hne, k, hk, rfl⟩
    have hline := hsafe k hk i (Ne.symm hne) hold
    exact hor.elim (fun h => hne h.symm) fun h => h hline
  · intro hnot
    by_cases hij : i = j
    · exact Or.inl hij
    -- the first byte already lies in the line
    · refine Or.inr fun hl => hnot ⟨Ne.symm hij, 0, Nat.pos_of_ne_zero hn, ?_⟩
      rw [hl, show BitVec.ofNat 64 0 = 0#64 from rfl, BitVec.add_zero]

/-- **One access changes the monitor as it changes the ledger.** -/
theorem AccessOutcome.ledgerStep (h : AccessOutcome D s a s' out) {hist : List AccessRecord}
    (hsafe : LineSafe D (s, hist) a) : LedgerStep s s' (a.record out) := by
  have hc := a.slotOf_cpuSlot
  cases h with
  | idle out h =>
    rw [Access.record_of_none h]
    exact ledgerStep_of_nothing a.slot rfl
  | loadRefused pa b h hst =>
    -- in each case what goes on record is computed first, then the monitor compared with it
    have hrec : a.record { a.result with faultCode := .busError } = ⟨a.slot, none, false, none⟩ := by
      simp [Access.record_of_pa h, Access.isStoreCond, hst]
    rw [hrec]
    exact ledgerStep_of_nothing a.slot rfl
  | load pa b v h hst =>
    have hr := (Access.noFault_of_pa h).1
    by_cases hlk : a.result.isLocked
    · have hrec : a.record { a.result with regWriteValue := v } =
          ⟨a.slot, some (LockMonitor.line pa), false, none⟩ := by
        simp [Access.record_of_pa h, Access.isLoadLocked, Access.isStoreCond, hst, hlk, hr]
      rw [hrec, if_pos hlk]
      exact ledgerStep_of_set hc
    · have hrec : a.record { a.result with regWriteValue := v } = ⟨a.slot, none, false, none⟩ := by
        simp [Access.record_of_pa h, Access.isLoadLocked, Access.isStoreCond, hst, hlk]
      rw [hrec, if_neg hlk]
      exact ledgerStep_of_nothing a.slot rfl
  | storeRefused pa h hst hlk hbus =>
    have hrec : a.record { a.result with faultCode := .busError } = ⟨a.slot, none, false, none⟩ := by
      simp [Access.record_of_pa h, Access.isStoreCond, hlk]
    rw [hrec]
    exact ledgerStep_of_nothing a.slot rfl
  | store pa h hst hlk hbus =>
    obtain ⟨hr, hn⟩ := Access.noFault_of_pa h
    have hrec : a.record a.result = ⟨a.slot, none, false, some (pa, a.result.memSize)⟩ := by
      simp [Access.record_of_pa h, Access.isLoadLocked, Access.isStoreCond, hst, hlk, hr]
    rw [hrec]
    intro i l
    rw [holds_clearLine_iff hc hn (hsafe pa h hst (fun h => absurd h hlk) hbus)]
    simp [AccessRecord.Writes]
  | condLost pa h hst hlk hck =>
    have hrec : a.record { a.result with regWriteValue := 0 } = ⟨a.slot, none, true, none⟩ := by
      simp [Access.record_of_pa h, Access.isLoadLocked, Access.isStoreCond, hst, hlk]
    rw [hrec]
    exact ledgerStep_of_clear hc
  | condRefused pa h hst hlk hck hbus =>
    have hrec : a.record { a.result with faultCode := .busError } = ⟨a.slot, none, true, none⟩ := by
      simp [Access.record_of_pa h, Access.isStoreCond, hst, hlk]
    rw [hrec]
    exact ledgerStep_of_clear hc
  | cond pa h hst hlk hck hbus =>
    obtain ⟨hr, hn⟩ := Access.noFault_of_pa h
    have hrec : a.record { a.result with regWriteValue := 1 } =
        ⟨a.slot, none, true, some (pa, a.result.memSize)⟩ := by
      simp [Access.record_of_pa h, Access.isLoadLocked, Access.isStoreCond, hst, hlk, hr]
    -- the CPU's own reservation is gone by the time the line is cleared
    have hsafe' : ∀ k < a.result.memSize, ∀ i ≠ a.slot,
        LockMonitor.Holds (s.locks.clear a.cpu.cpuSlot) i
          (LockMonitor.line (pa + BitVec.ofNat 64 k)) →
        LockMonitor.line (pa + BitVec.ofNat 64 k) = LockMonitor.line pa := fun k hk i hi hold =>
      hsafe pa h hst (fun _ => hck) hbus k hk i hi ((LockMonitor.holds_clear hc).mp hold).2
    rw [hrec]
    intro i l
    rw [holds_clearLine_iff hc hn hsafe', LockMonitor.holds_clear hc]
    by_cases hi : i = a.slot
    · simp [hi]
    · simp [AccessRecord.Writes, hi, Ne.symm hi]

/-- **One access keeps the monitor and the specification in agreement.** -/
theorem Agrees.tracedStep {x : Shared δ × List AccessRecord} (h : Agrees x) (silicon : Bool)
    (hsafe : LineSafe D x a) : Agrees (tracedStep D silicon x a) := by
  intro i l
  -- the record appended is the one the outcome of this access leaves
  have hstep := (accessStep_cases D silicon x.1 a).ledgerStep hsafe i l
  rw [EmulatR.tracedStep, lockLedger.mem_live_concat, ← h i l]
  exact hstep

end Step

/-! ## Store-conditional -/

/-- The access is a STL_C or STQ_C that translates to an address of guest memory. -/
structure StoreCond (s : Shared δ) (a : Access) (pa : Word) : Prop where
  /-- It translates. -/
  translates : a.pa? = some pa
  /-- It is a store-conditional. -/
  isCond : a.isStoreCond
  /-- Of a longword or a quadword. -/
  size : a.result.memSize = 4 ∨ a.result.memSize = 8
  /-- To guest memory. -/
  dram : D.dramClaims s.bus.devices pa

/-- The STx_C writes guest memory and returns one. -/
def Succeeds (s : Shared δ) (a : Access) (pa : Word) : Prop :=
  (accessStep D silicon s a).1.bus.memory =
      (s.bus.memory.write pa a.result.memData a.result.memSize).1 ∧
    (accessStep D silicon s a).2 = { a.result with regWriteValue := 1 }

/-- The STx_C leaves guest memory alone and returns zero. -/
def Fails (s : Shared δ) (a : Access) : Prop :=
  (accessStep D silicon s a).1.bus = s.bus ∧
    (accessStep D silicon s a).2 = { a.result with regWriteValue := 0 }

/-- The CPU's latest LDx_L reserved the line, and since then the CPU has tried no STx_C and no other
CPU has written a byte of the line. -/
def HeldSince (hist : List AccessRecord) (i : Fin 4) (l : Word) : Prop :=
  ∃ before op after, hist = before ++ op :: after ∧ (op.cpu = i ∧ op.reserved = some l) ∧
    ∀ k ∈ after, ¬ ((k.cpu = i ∧ (k.conditional ∨ k.reserved.isSome)) ∨
      (k.cpu ≠ i ∧ k.Writes l))

section Cond

variable {D silicon} {s : Shared δ} {a : Access} {pa : Word}

/-- Guest memory takes every longword and quadword. -/
theorem StoreCond.busWrite_eq (h : StoreCond D s a pa) :
    busWrite D s a pa =
      ({ s.bus with memory := (s.bus.memory.write pa a.result.memData a.result.memSize).1 },
        ⟨.ok, 0⟩) := by
  have hsize : a.result.memSize = 1 ∨ a.result.memSize = 2 ∨ a.result.memSize = 4 ∨
      a.result.memSize = 8 := Or.inr (Or.inr h.size)
  -- a byte goes through another function of guest memory
  have hne : a.result.memSize ≠ 1 := by rcases h.size with h | h <;> rw [h] <;> decide
  rw [busWrite, Chipset.write, if_neg (not_not.mpr hsize), if_pos h.dram, Chipset.dramWrite,
    if_neg hne]

/-- A store-conditional of a line its CPU holds succeeds. -/
theorem StoreCond.succeeds (h : StoreCond D s a pa) (silicon : Bool)
    (hold : s.locks.Holds a.slot (LockMonitor.line pa)) : Succeeds D silicon s a pa := by
  obtain ⟨hst, hlk⟩ := Bool.and_eq_true_iff.mp h.isCond
  have hck := (LockMonitor.check_iff a.slotOf_cpuSlot).mpr hold
  have hbus := h.busWrite_eq
  rw [busWrite] at hbus
  have hstep := accessStep_of_pa D silicon (s := s) h.translates rfl
  simp only [if_pos hst, MemDrainer.applyStoreEffect, if_pos hlk, if_pos hck,
    MemDrainer.performStore, hbus, ne_eq, not_true, if_false] at hstep
  rw [Succeeds, hstep]
  exact ⟨rfl, rfl⟩

/-- A store-conditional of a line its CPU does not hold fails. -/
theorem StoreCond.fails (h : StoreCond D s a pa) (silicon : Bool)
    (hold : ¬ s.locks.Holds a.slot (LockMonitor.line pa)) : Fails D silicon s a := by
  obtain ⟨hst, hlk⟩ := Bool.and_eq_true_iff.mp h.isCond
  have hck : ¬ s.locks.check a.cpu.cpuSlot pa := fun hck =>
    hold ((LockMonitor.check_iff a.slotOf_cpuSlot).mp hck)
  have hstep := accessStep_of_pa D silicon (s := s) h.translates rfl
  simp only [if_pos hst, MemDrainer.applyStoreEffect, if_pos hlk, if_neg hck] at hstep
  rw [Fails, hstep]
  exact ⟨rfl, rfl⟩

/-- A store-conditional does not both succeed and fail. -/
theorem Fails.not_succeeds (h : Fails D silicon s a) : ¬ Succeeds D silicon s a pa := by
  intro hs
  have hval : (1 : Word) = 0 := congrArg BoxResult.regWriteValue (hs.2.symm.trans h.2)
  exact absurd hval (by decide)

end Cond

/-- **Load-locked and store-conditional.** After every interleaving of accesses of the four CPUs in
which no store runs into a line that another CPU holds, a store-conditional succeeds exactly when
the history says that its CPU holds the line, and otherwise it leaves guest memory alone and
returns zero. -/
theorem storeCond_after_run {s : Shared δ} (hs : s.locks = LockMonitor.empty) {as : List Access}
    (hrun : RunMeets (tracedStep D silicon) (LineSafe D) (s, []) as) {a : Access} {pa : Word}
    (ha : StoreCond D (runFrom (tracedStep D silicon) (s, []) as).1 a pa) :
    (Succeeds D silicon (runFrom (tracedStep D silicon) (s, []) as).1 a pa ↔
        HeldSince (runFrom (tracedStep D silicon) (s, []) as).2 a.slot (LockMonitor.line pa)) ∧
      (¬ Succeeds D silicon (runFrom (tracedStep D silicon) (s, []) as).1 a pa →
        Fails D silicon (runFrom (tracedStep D silicon) (s, []) as).1 a) := by
  have hinit : Agrees (s, []) := by
    intro i l
    rw [hs]
    exact ⟨fun h => absurd h (LockMonitor.not_holds_empty i l), fun h => nomatch h⟩
  have hagree : Agrees (runFrom (tracedStep D silicon) (s, []) as) :=
    hrun.invariant Agrees (fun _ _ h hok => h.tracedStep silicon hok) hinit
  have hheld : (runFrom (tracedStep D silicon) (s, []) as).1.locks.Holds a.slot
      (LockMonitor.line pa) ↔
      HeldSince (runFrom (tracedStep D silicon) (s, []) as).2 a.slot (LockMonitor.line pa) :=
    -- the monitor agrees with the ledger, and the ledger reads as the history
    (hagree a.slot (LockMonitor.line pa)).trans lockLedger.mem_live_iff
  rw [← hheld]
  by_cases hold : (runFrom (tracedStep D silicon) (s, []) as).1.locks.Holds a.slot
      (LockMonitor.line pa)
  · have hsucc := ha.succeeds silicon hold
    exact ⟨iff_of_true hsucc hold, fun h => absurd hsucc h⟩
  · have hfail := ha.fails silicon hold
    exact ⟨iff_of_false hfail.not_succeeds hold, fun _ => hfail⟩

end System

/-! ## A store across two lines -/

/-- A CPU that maps page 0 to itself. -/
def mappedCpu (slot : BitVec 32) : CpuState :=
  { cpuSlot := slot
    dtbMgr := SPAMShardManager.clear.insert .dtb 0 0
      (AlphaPte.makeValid 0 true true false false false) 0 }

/-- LDQ_L of CPU 0 at address 0x40. -/
def ldqlAccess : Access :=
  { cpu := mappedCpu 0
    grain := ⟨0, [.load, .locked], 0xAC220000, 0x2B⟩
    result := { semFlags := [.load, .locked], memAddr := 0x40, memSize := 8, regWriteIdx := 1 }
    slot_lt := by decide }

/-- STQ of CPU 1. -/
def stqAccess (addr : Word) : Access :=
  { cpu := mappedCpu 1
    grain := ⟨0, [.store], 0xB4220000, 0x2D⟩
    result := { semFlags := [.store], memAddr := addr, memData := 5, memSize := 8,
                memIsStore := true }
    slot_lt := by decide }

/-- STQ_C of CPU 0 at address 0x40. -/
def stqcAccess : Access :=
  { cpu := mappedCpu 0
    grain := ⟨0, [.store, .locked], 0xBC220000, 0x2F⟩
    result := { semFlags := [.store, .locked], memAddr := 0x40, memData := 7, memSize := 8,
                memIsStore := true, regWriteIdx := 1 }
    slot_lt := by decide }

/-- Empty memory and no reservations. -/
def freshShared : Shared Unit := ⟨⟨.empty 16, ()⟩, .empty⟩

/-- CPU 0 reserves line 0x40, then CPU 1 stores. -/
def storeRun (addr : Word) : Shared Unit × List AccessRecord :=
  runFrom (tracedStep .allDram true) (freshShared, []) [ldqlAccess, stqAccess addr]

/-- The conditional store of the run. -/
theorem storeCond_storeRun (addr : Word) :
    StoreCond .allDram (storeRun addr).1 stqcAccess 0x40 :=
  ⟨by decide +kernel, by decide, Or.inr rfl, rfl⟩

/-- A store to another line leaves the reservation, and the STQ_C succeeds. -/
theorem storeCond_after_run_other_line :
    RunMeets (tracedStep .allDram true) (LineSafe .allDram) (freshShared, [])
        [ldqlAccess, stqAccess 0x80] ∧
      Succeeds .allDram true (storeRun 0x80).1 stqcAccess 0x40 := by
  -- the quadword at 0x80 lies in one line
  have hline : ∀ k < 8, LockMonitor.line (0x80 + BitVec.ofNat 64 k) = LockMonitor.line 0x80 := by
    decide
  have hrun : RunMeets (tracedStep .allDram true) (LineSafe .allDram) (freshShared, [])
      [ldqlAccess, stqAccess 0x80] := by
    refine ⟨fun pa _ hst => ?_, fun pa hpa _ _ _ k hk i _ _ => ?_, trivial⟩
    · exact absurd hst (by decide)
    · rw [show (stqAccess 0x80).pa? = some 0x80 by decide +kernel] at hpa
      cases hpa
      exact hline k hk
  have hhist : (storeRun 0x80).2 =
      [] ++ ⟨0, some 0x40, false, none⟩ :: [⟨1, none, false, some (0x80, 8)⟩] := by
    decide +kernel
  refine ⟨hrun, ?_⟩
  refine (storeCond_after_run .allDram true rfl hrun (storeCond_storeRun 0x80)).1.mpr
    ⟨_, _, _, hhist, ⟨rfl, rfl⟩, ?_⟩
  intro r hr
  rw [List.mem_singleton] at hr
  subst hr
  rintro (⟨h, -⟩ | ⟨-, pa, n, hw, k, hk, hl⟩)
  · exact absurd h (by decide)
  · cases hw
    rw [hline k hk] at hl
    exact absurd hl (by decide)

/-- A store across the boundary writes four bytes of line 0x40, and the STQ_C of CPU 0 to that line
still succeeds. -/
theorem crossing_store_keeps_reservation :
    StoreCond .allDram (storeRun 0x3C).1 stqcAccess 0x40 ∧
      Succeeds .allDram true (storeRun 0x3C).1 stqcAccess 0x40 ∧
      ¬ HeldSince (storeRun 0x3C).2 stqcAccess.slot (LockMonitor.line 0x40) := by
  have hhold : (storeRun 0x3C).1.locks 0 = ⟨0x40, true⟩ := by decide +kernel
  have hhist : (storeRun 0x3C).2 =
      [⟨0, some 0x40, false, none⟩] ++ [⟨1, none, false, some (0x3C, 8)⟩] := by decide +kernel
  refine ⟨storeCond_storeRun 0x3C, (storeCond_storeRun 0x3C).succeeds true ?_, fun h => ?_⟩
  · show ((storeRun 0x3C).1.locks 0).valid = true ∧ ((storeRun 0x3C).1.locks 0).pa = _
    rw [hhold]
    exact ⟨rfl, rfl⟩
  -- the four upper bytes of the store are in line 0x40
  · have hlive : ((0 : Fin 4), LockMonitor.line 0x40) ∈ lockLedger.live (storeRun 0x3C).2 :=
      lockLedger.mem_live_iff.mpr h
    rw [hhist, lockLedger.mem_live_concat] at hlive
    rcases hlive with ⟨h0, -⟩ | ⟨-, hkeep⟩
    · exact absurd h0 (by decide)
    · exact hkeep (Or.inr ⟨by decide, 0x3C, 8, rfl, 4, by decide, by decide⟩)

end EmulatR
