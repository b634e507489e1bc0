import EmulatR.Sched.Harness

/-! # The lock arbiter and its history

Which reservations the arbiter holds is a ledger over the events it has seen: a load-locked
establishes the pair of its agent and its granule and revokes what the same agent held before; a
store, and a store-conditional that was answered `true`, revoke every pair of their granule. The
arbiter's table is that ledger after every sequence of events (`holds_iff_live`), so the answer of a
store-conditional is a statement about the transcript of events and answers.

`lockArbiter_storeCond` is the answer over every history, and what `syncPhase` makes of it. -/

namespace EmulatR.Smp

open Library

/-- The three operations agents submit to the arbiter. -/
inductive LockEvent
  /-- An agent reserves an address. -/
  | loadLocked (a : AgentId) (addr : Word)
  /-- An agent asks to store conditionally. -/
  | storeCond (a : AgentId) (addr : Word)
  /-- An agent stores. -/
  | store (a : AgentId) (addr : Word)
  deriving DecidableEq, Repr

namespace LockArbiter

/-- The arbiter's table and its answer after one event; only a store-conditional is answered. -/
def handle (r : LockArbiter) : LockEvent → LockArbiter × Bool
  | .loadLocked a addr => (r.loadLocked a addr, false)
  | .storeCond a addr => r.storeCond a addr
  | .store a addr => (r.store a addr, false)

/-- The table after a sequence of events. -/
def after (r : LockArbiter) (events : List LockEvent) : LockArbiter :=
  runFrom (fun r e => (r.handle e).1) r events

/-- The events with the answers the arbiter gave. -/
def transcript (r : LockArbiter) : List LockEvent → List (LockEvent × Bool)
  | [] => []
  | e :: es => (e, (r.handle e).2) :: transcript (r.handle e).1 es

/-- The answers to two histories in a row. -/
theorem transcript_append (r : LockArbiter) (es fs : List LockEvent) :
    r.transcript (es ++ fs) = r.transcript es ++ (r.after es).transcript fs := by
  induction es generalizing r with
  | nil => rfl
  | cons e es ih => exact congrArg _ (ih _)

end LockArbiter

/-- The event took the granule: a store, or a store-conditional that succeeded. -/
def Took (addr : Word) : LockEvent × Bool → Prop
  | (.store _ x, _) => x = addr
  | (.storeCond _ x, true) => x = addr
  | _ => False

/-- The event is a load-locked of the agent. -/
def LoadsLocked (a : AgentId) : LockEvent × Bool → Prop
  | (.loadLocked a' _, _) => a' = a
  | _ => False

/-- The ledger of reservations. -/
def lockLedger : Ledger (LockEvent × Bool) (AgentId × Word) where
  adds e x := e.1 = .loadLocked x.1 x.2
  revokes e x := LoadsLocked x.1 e ∨ Took x.2 e

/-- **The table is the ledger** after every sequence of events. -/
theorem holds_iff_live (events : List LockEvent) (a : AgentId) (addr : Word) :
    LockArbiter.reset.after events a = some addr ↔
      (a, addr) ∈ lockLedger.live (LockArbiter.reset.transcript events) := by
  -- on the events from the end: the table is compared with the ledger event by event
  induction events using List.reverseRecOn with
  | nil => simp [LockArbiter.after, LockArbiter.transcript, LockArbiter.reset]
  | append_singleton es e ih =>
    rw [LockArbiter.transcript_append, LockArbiter.transcript, LockArbiter.transcript,
      Ledger.mem_live_concat, ← ih, LockArbiter.after, runFrom_append]
    change ((LockArbiter.handle (LockArbiter.reset.after es) e).1 a = some addr) ↔ _
    -- one event against the table reached so far
    generalize LockArbiter.reset.after es = r
    cases e with
    | loadLocked a' x =>
      by_cases ha : a = a'
      · subst ha
        simp [LockArbiter.handle, LockArbiter.loadLocked, lockLedger, LoadsLocked]
      · have ha' : a' ≠ a := fun h => ha h.symm
        simp [LockArbiter.handle, LockArbiter.loadLocked, lockLedger, LoadsLocked, Took, ha, ha']
    | storeCond a' x =>
      -- only a store-conditional that is answered `true` takes its granule
      by_cases hok : r a' = some x
      · simp [LockArbiter.handle, LockArbiter.storeCond, lockLedger, LoadsLocked, Took, hok]
      · simp [LockArbiter.handle, LockArbiter.storeCond, lockLedger, LoadsLocked, Took, hok]
    | store a' x =>
      simp [LockArbiter.handle, LockArbiter.store, lockLedger, LoadsLocked, Took]

/-- The answer of a store-conditional is whether the agent's reservation names the granule. -/
theorem storeCond_snd_iff (r : LockArbiter) (a : AgentId) (addr : Word) :
    (r.storeCond a addr).2 = true ↔ r a = some addr := by
  unfold LockArbiter.storeCond
  split <;> simp [*]

/-- **The answer of a store-conditional, read off the history.** -/
theorem storeCond_iff (events : List LockEvent) (a : AgentId) (addr : Word) :
    ((LockArbiter.reset.after events).storeCond a addr).2 = true ↔
      ∃ before ok after, LockArbiter.reset.transcript events
          = before ++ (.loadLocked a addr, ok) :: after ∧
        ∀ e ∈ after, ¬ LoadsLocked a e ∧ ¬ Took addr e := by
  -- the ledger's live entries are the adds with no revoke after them
  rw [storeCond_snd_iff, holds_iff_live, Ledger.mem_live_iff]
  constructor
  · rintro ⟨before, ⟨e, ok⟩, after, heq, hadd, hkeep⟩
    obtain rfl : e = .loadLocked a addr := hadd
    exact ⟨before, ok, after, heq, fun e he => not_or.mp (hkeep e he)⟩
  · rintro ⟨before, ok, after, heq, hkeep⟩
    exact ⟨before, _, after, heq, rfl, fun e he => not_or.mpr (hkeep e he)⟩

/-- A transcript split at an entry: the entry's answer is the arbiter's answer after the events
before it. -/
theorem transcript_split {r : LockArbiter} {events : List LockEvent}
    {pre post : List (LockEvent × Bool)} {e : LockEvent} {ok : Bool}
    (h : r.transcript events = pre ++ (e, ok) :: post) :
    ∃ es, r.transcript es = pre ∧ ((r.after es).handle e).2 = ok := by
  -- on the events: the split is at the head or further on
  induction events generalizing r pre with
  | nil => simp [LockArbiter.transcript] at h
  | cons e' es ih =>
    rw [LockArbiter.transcript] at h
    cases pre with
    | nil =>
      simp only [List.nil_append, List.cons.injEq, Prod.mk.injEq] at h
      obtain ⟨⟨rfl, rfl⟩, -⟩ := h
      exact ⟨[], rfl, rfl⟩
    | cons x pre =>
      simp only [List.cons_append, List.cons.injEq] at h
      obtain ⟨rfl, h⟩ := h
      obtain ⟨fs, hfs, hok⟩ := ih h
      exact ⟨e' :: fs, by rw [LockArbiter.transcript, hfs], hok⟩

/-- **No lost update.** Between two successful store-conditionals on one granule the agent of the
later one has loaded it locked again. -/
theorem fresh_loadLocked {events : List LockEvent} {a b : AgentId} {addr : Word}
    {pre mid post : List (LockEvent × Bool)}
    (h : LockArbiter.reset.transcript events
      = pre ++ (.storeCond a addr, true) :: mid ++ (.storeCond b addr, true) :: post) :
    ∃ ok, (.loadLocked b addr, ok) ∈ mid := by
  obtain ⟨es, hes, hok⟩ := transcript_split h
  obtain ⟨before, ok, after, heq, hkeep⟩ := (storeCond_iff es b addr).mp hok
  rw [hes] at heq
  refine ⟨ok, ?_⟩
  -- the load-locked cannot stand before the first success, which took the granule
  rcases List.append_eq_append_iff.mp heq with ⟨l, hl, hr⟩ | ⟨l, hl, hr⟩
  · cases l with
    | nil => simp at hr
    | cons x l =>
      simp only [List.cons_append, List.cons.injEq] at hr
      rw [hr.2]
      exact List.mem_append_right _ List.mem_cons_self
  · exfalso
    cases l with
    | nil => simp at hr
    | cons x l =>
      simp only [List.cons_append, List.cons.injEq] at hr
      have hmem : (LockEvent.storeCond a addr, true) ∈ after := by
        rw [hr.2]
        exact List.mem_append_right _ List.mem_cons_self
      exact (hkeep _ hmem).2 rfl

/-! ## What a sync phase submits -/

variable {σ κ : Type}

/-- The arbiter event of a staged effect; an interprocessor interrupt is none. -/
def Effect.lockEvent (e : Effect κ) : Option LockEvent :=
  match e.kind with
  | .loadLocked => some (.loadLocked e.source e.addr)
  | .storeCond => some (.storeCond e.source e.addr)
  | .store => some (.store e.source e.addr)
  | .ipi => none

namespace Dispatcher

variable (d : Dispatcher σ κ)

/-- The outboxes after `onSyncBegin`, merged: agent index ascending, then submission order. -/
def merged : List (Effect κ) :=
  (d.agents.map fun a => (a.ops.onSyncBegin a.body).outbox).flatten

/-- Writing an answer leaves the outboxes alone. -/
@[simp] theorem writeAck_outbox (ptr : Nat × κ) (ok : Bool) (j : Nat) :
    (d.writeAck ptr ok).outbox j = d.outbox j := by
  simp only [outbox, writeAck, List.getElem?_modify]
  cases d.agents[j]? with
  | none => rfl
  | some a => split <;> rfl

/-- Applying an effect leaves the outboxes alone. -/
@[simp] theorem applyEffect_outbox (e : Effect κ) (j : Nat) :
    (d.applyEffect e).outbox j = d.outbox j := by
  unfold applyEffect
  split
  · rfl
  · cases e.ackSuccess with
    | none => rfl
    | some ptr => exact writeAck_outbox _ ptr _ j
  · rfl
  · rfl

/-- Applying many effects leaves the outboxes alone. -/
theorem applyEffects_outbox (es : List (Effect κ)) (j : Nat) :
    (es.foldl applyEffect d).outbox j = d.outbox j :=
  runFrom_frame (fun d => d.outbox j) (fun d e => d.applyEffect_outbox e j) d es

/-- Draining one outbox leaves the others. -/
theorem drain_outbox_of_ne {i j : Nat} (h : i ≠ j) : (d.drain i).outbox j = d.outbox j := by
  rw [← d.applyEffects_outbox (d.outbox i) j]
  simp [drain, outbox, List.getElem?_modify_ne _ _ h]

/-- An effect is its event to the arbiter. -/
theorem applyEffect_locks (e : Effect κ) :
    (d.applyEffect e).locks = d.locks.after e.lockEvent.toList := by
  unfold applyEffect Effect.lockEvent
  cases e.kind with
  | loadLocked => rfl
  | storeCond => cases e.ackSuccess <;> rfl
  | store => rfl
  | ipi => rfl

/-- Many effects are their events in order. -/
theorem applyEffects_locks (es : List (Effect κ)) :
    (es.foldl applyEffect d).locks = d.locks.after (es.filterMap Effect.lockEvent) := by
  induction es generalizing d with
  | nil => rfl
  | cons e es ih =>
    rw [List.foldl_cons, ih, applyEffect_locks]
    cases he : e.lockEvent with
    | none => simp [he, LockArbiter.after]
    | some ev => simp [he, LockArbiter.after]

/-- Draining agents one after the other submits their outboxes one after the other. -/
theorem drains_locks (is : List Nat) (hnd : is.Nodup) :
    (is.foldl drain d).locks
      = d.locks.after ((is.map d.outbox).flatten.filterMap Effect.lockEvent) := by
  induction is generalizing d with
  | nil => rfl
  | cons i is ih =>
    obtain ⟨hi, hnd⟩ := List.nodup_cons.mp hnd
    -- the outboxes still to be drained are those the phase began with
    have hrest : is.map (d.drain i).outbox = is.map d.outbox := by
      refine List.map_congr_left fun j hj => d.drain_outbox_of_ne ?_
      rintro rfl
      exact hi hj
    have hfirst : (d.drain i).locks
        = d.locks.after ((d.outbox i).filterMap Effect.lockEvent) := d.applyEffects_locks _
    rw [List.foldl_cons, ih _ hnd, hrest, hfirst]
    simp [LockArbiter.after]

/-- The outboxes at the beginning of the drain are those after `onSyncBegin`. -/
theorem outbox_begun :
    (List.range (d.agents.map fun a => a.lift a.ops.onSyncBegin).length).map
        (outbox { d with agents := d.agents.map fun a => a.lift a.ops.onSyncBegin })
      = d.agents.map fun a => (a.ops.onSyncBegin a.body).outbox := by
  -- agent by agent
  refine List.ext_getElem (by simp) fun i hi hi' => ?_
  simp [outbox, Agent.lift, List.getElem?_eq_getElem (show i < d.agents.length by simpa using hi')]

/-- **What a sync phase submits** to the arbiter is the merge of the outboxes. -/
theorem syncPhase_locks :
    d.syncPhase.locks = d.locks.after (d.merged.filterMap Effect.lockEvent) := by
  rw [syncPhase, drains_locks _ _ List.nodup_range]
  exact congrArg (fun l => d.locks.after (l.flatten.filterMap Effect.lockEvent)) d.outbox_begun

/-! ### The answers -/

/-- The store through one result pointer, on the list of agents. -/
def acknowledge (agents : List (Agent σ κ)) (x : (Nat × κ) × Bool) : List (Agent σ κ) :=
  agents.modify x.1.1 fun a => a.lift fun b => { b with state := a.ops.writeAck x.1.2 x.2 b.state }

/-- The result pointers of the store-conditionals among some effects, each with the answer of the
arbiter after the events before it. -/
def answers (r : LockArbiter) : List (Effect κ) → List ((Nat × κ) × Bool)
  | [] => []
  | e :: es =>
    (if e.kind = .storeCond then
        e.ackSuccess.toList.map fun ptr => (ptr, (r.storeCond e.source e.addr).2)
      else []) ++ answers (r.after e.lockEvent.toList) es

/-- Empty the outbox of agent `i`. -/
def clearOutbox (agents : List (Agent σ κ)) (i : Nat) : List (Agent σ κ) :=
  agents.modify i fun a => a.lift fun b => { b with outbox := [] }

/-- The answers to a merge are those to its parts, one after the other. -/
theorem answers_append (r : LockArbiter) (es fs : List (Effect κ)) :
    answers r (es ++ fs) =
      answers r es ++ answers (r.after (es.filterMap Effect.lockEvent)) fs := by
  induction es generalizing r with
  | nil => rfl
  | cons e es ih =>
    rw [List.cons_append, answers, answers, ih, List.append_assoc]
    cases he : e.lockEvent with
    | none => simp [he, LockArbiter.after]
    | some ev => simp [he, LockArbiter.after]

/-- One effect acknowledges its own answer. -/
theorem applyEffect_agents (e : Effect κ) :
    (d.applyEffect e).agents = (answers d.locks [e]).foldl acknowledge d.agents := by
  obtain ⟨kind, source, target, addr, value, ack⟩ := e
  cases kind <;> cases ack <;> rfl

/-- A list of effects acknowledges the answers in order. -/
theorem applyEffects_agents (es : List (Effect κ)) :
    (es.foldl applyEffect d).agents = (answers d.locks es).foldl acknowledge d.agents := by
  induction es generalizing d with
  | nil => rfl
  | cons e es ih =>
    rw [List.foldl_cons, ih, applyEffect_agents, applyEffect_locks, ← List.foldl_append]
    exact congrArg (List.foldl acknowledge d.agents) (by simp [answers])

/-- Acknowledging and emptying an outbox touch different parts of an agent. -/
theorem clearOutbox_acknowledge (agents : List (Agent σ κ)) (x : (Nat × κ) × Bool) (i : Nat) :
    clearOutbox (acknowledge agents x) i = acknowledge (clearOutbox agents i) x := by
  refine List.ext_getElem? fun j => ?_
  simp only [clearOutbox, acknowledge, List.getElem?_modify]
  cases agents[j]? with
  | none => rfl
  | some a => by_cases hi : i = j <;> by_cases hx : x.1.1 = j <;> simp [hi, hx, Agent.lift]

/-- Clearing several outboxes and writing several answers may change places. -/
theorem clearOutboxes_acknowledge (agents : List (Agent σ κ)) (xs : List ((Nat × κ) × Bool))
    (is : List Nat) :
    is.foldl clearOutbox (xs.foldl acknowledge agents) =
      xs.foldl acknowledge (is.foldl clearOutbox agents) := by
  have hone : ∀ (agents : List (Agent σ κ)) (i : Nat),
      clearOutbox (xs.foldl acknowledge agents) i = xs.foldl acknowledge (clearOutbox agents i) := by
    intro agents i
    induction xs generalizing agents with
    | nil => rfl
    | cons x xs ih => rw [List.foldl_cons, ih, clearOutbox_acknowledge, List.foldl_cons]
  induction is generalizing agents with
  | nil => rfl
  | cons i is ih => rw [List.foldl_cons, hone, ih, List.foldl_cons]

/-- Draining agents acknowledges the answers to their outboxes, one after the other. -/
theorem drains_agents (is : List Nat) (hnd : is.Nodup) :
    (is.foldl drain d).agents =
      (answers d.locks (is.map d.outbox).flatten).foldl acknowledge
        (is.foldl clearOutbox d.agents) := by
  induction is generalizing d with
  | nil => rfl
  | cons i is ih =>
    obtain ⟨hi, hnd⟩ := List.nodup_cons.mp hnd
    have hrest : is.map (d.drain i).outbox = is.map d.outbox := by
      refine List.map_congr_left fun j hj => d.drain_outbox_of_ne ?_
      rintro rfl
      exact hi hj
    have hlocks : (d.drain i).locks
        = d.locks.after ((d.outbox i).filterMap Effect.lockEvent) := d.applyEffects_locks _
    have hagents : (d.drain i).agents =
        (answers d.locks (d.outbox i)).foldl acknowledge (clearOutbox d.agents i) := by
      have hclear := clearOutboxes_acknowledge d.agents (answers d.locks (d.outbox i)) [i]
      rw [← applyEffects_agents] at hclear
      exact hclear
    rw [List.foldl_cons, ih _ hnd, hrest, hlocks, hagents, clearOutboxes_acknowledge,
      ← List.foldl_append, List.map_cons, List.flatten_cons, answers_append, List.foldl_cons]

/-- Emptying every outbox. -/
theorem clearOutbox_range (agents : List (Agent σ κ)) :
    (List.range agents.length).foldl clearOutbox agents =
      agents.map fun a => a.lift fun b => { b with outbox := [] } := by
  have hget : ∀ (n : Nat) (j : Nat), ((List.range n).foldl clearOutbox agents)[j]? =
      agents[j]?.map fun a => if j < n then a.lift fun b => { b with outbox := [] } else a := by
    intro n j
    induction n with
    | zero => simp
    | succ n ih =>
      rw [List.range_succ, List.foldl_append, List.foldl_cons, List.foldl_nil, clearOutbox,
        List.getElem?_modify, ih]
      cases agents[j]? with
      | none => rfl
      | some a =>
        obtain hj | rfl | hj := Nat.lt_trichotomy j n
        · simp [hj, Nat.lt_succ_of_lt hj, (Nat.ne_of_lt hj).symm]
        · simp
        · simp [Nat.not_lt_of_gt hj, Nat.ne_of_lt hj, Nat.not_lt_of_ge hj]
  refine List.ext_getElem? fun j => ?_
  rw [hget, List.getElem?_map]
  by_cases hj : j < agents.length
  · simp [hj]
  · simp [List.getElem?_eq_none (Nat.le_of_not_lt hj)]

/-- **What a sync phase writes** into the agents: the answers to the merge of the outboxes, each
through its result pointer, and empty outboxes. -/
theorem syncPhase_agents :
    d.syncPhase.agents = (answers d.locks d.merged).foldl acknowledge
      (d.agents.map fun a => a.lift fun b => { a.ops.onSyncBegin b with outbox := [] }) := by
  rw [syncPhase, drains_agents _ _ List.nodup_range, outbox_begun, clearOutbox_range, List.map_map]
  rfl

end Dispatcher

/-- **The arbiter implements load-locked and store-conditional.** After every sequence of events, a
store-conditional is answered `true` exactly when the agent's latest load-locked named the granule
and nothing took the granule since; between two successful store-conditionals on a granule the later
agent has loaded it locked again; and every sync phase of a dispatcher submits such a sequence, the
merged outboxes, and writes its answers through their result pointers. -/
theorem lockArbiter_storeCond (events : List LockEvent) :
    (∀ a addr, ((LockArbiter.reset.after events).storeCond a addr).2 = true ↔
      ∃ before ok after, LockArbiter.reset.transcript events
          = before ++ (.loadLocked a addr, ok) :: after ∧
        ∀ e ∈ after, ¬ LoadsLocked a e ∧ ¬ Took addr e) ∧
    (∀ a b addr pre mid post, LockArbiter.reset.transcript events
        = pre ++ (.storeCond a addr, true) :: mid ++ (.storeCond b addr, true) :: post →
      ∃ ok, (.loadLocked b addr, ok) ∈ mid) ∧
    ∀ d : Dispatcher σ κ, d.locks = LockArbiter.reset.after events →
      d.syncPhase.locks
        = LockArbiter.reset.after (events ++ d.merged.filterMap Effect.lockEvent) ∧
      d.syncPhase.agents
        = (Dispatcher.answers (LockArbiter.reset.after events) d.merged).foldl
            Dispatcher.acknowledge
            (d.agents.map fun a => a.lift fun b => { a.ops.onSyncBegin b with outbox := [] }) := by
  refine ⟨storeCond_iff events, fun a b addr pre mid post h => fresh_loadLocked h, ?_⟩
  intro d hd
  refine ⟨?_, by rw [d.syncPhase_agents, hd]⟩
  rw [d.syncPhase_locks, hd, LockArbiter.after, LockArbiter.after, LockArbiter.after,
    runFrom_append]

/-- An agent that keeps the last answer it got. -/
def ackKeeper : IAgent (Option Bool) Unit where
  runnable _ := true
  step _ _ := []
  onSyncBegin b := b
  writeAck _ ok _ := some ok

/-- An agent that has staged a store-conditional on the granule 64. -/
def contender (i : Nat) : Agent (Option Bool) Unit :=
  ⟨ackKeeper, none, [{ kind := .storeCond, source := i, addr := 64, ackSuccess := some (i, ()) }]⟩

/-- Two agents that have both loaded the granule locked, agent 1 last. -/
def contention : List LockEvent := [.loadLocked 0 64, .loadLocked 1 64]

/-- Agent 0 updates the granule, and then agent 1, with a store elsewhere in between. -/
def handover : List LockEvent :=
  [.loadLocked 0 64, .storeCond 0 64, .store 0 8, .loadLocked 1 64, .storeCond 1 64]

/-- Of the contenders agent 0 is told that it succeeded, and agent 1 that it failed; in the handover
agent 1 has loaded the granule after the update of agent 0. -/
theorem lockArbiter_contention :
    ((⟨[contender 0, contender 1], 0, LockArbiter.reset.after contention, 1⟩ :
        Dispatcher (Option Bool) Unit).syncPhase.agents.map fun a =>
          (a.body.state, a.body.outbox.length)) = [(some true, 0), (some false, 0)] ∧
      ∃ ok, (.loadLocked 1 64, ok) ∈ ((LockArbiter.reset.transcript handover).drop 2).take 2 := by
  constructor
  · rw [((lockArbiter_storeCond contention).2.2 _ rfl).2]
    rfl
  · have hsplit : LockArbiter.reset.transcript handover = [(.loadLocked 0 64, false)] ++
        (.storeCond 0 64, true) :: [(.store 0 8, false), (.loadLocked 1 64, false)] ++
        (.storeCond 1 64, true) :: [] := by decide
    exact (lockArbiter_storeCond (σ := Unit) (κ := Unit) handover).2.1 0 1 64 _ _ _ hsplit

end EmulatR.Smp
