import EmulatR.Sched.Drivers

/-! # The mock CPU agent

The stand-in CPU of the harness tests (schedLib/MockCpuAgent.h): a work counter and a private random
stream, and a load-locked / store-conditional transaction on one shared granule that advances by at
most one phase for each call of `step`. It serves as the agent of the two runs on which the drivers
part: a clock that has already reached `untilTick`, and a dispatcher whose only CPU is halted.

`drivers_part_without_work` is where the two drivers part. -/

namespace EmulatR.Smp

/-- The phases of the transaction. -/
inductive Tx
  | idle | awaitSc | awaitAck
  deriving DecidableEq, Repr

/-- The private state of a mock CPU. -/
structure MockCpu where
  /-- The index the dispatcher assigned. -/
  id : Nat
  /-- The shared granule. -/
  lockAddr : Word
  /-- A transaction starts at every multiple of this number of calls. -/
  lockEveryN : BitVec 32
  /-- Work done. -/
  counter : Word := 0
  /-- The random stream. -/
  rng : Word
  /-- Calls of `step`. -/
  callCount : Word := 0
  /-- Successful store-conditionals. -/
  grants : Word := 0
  /-- Every answer seen. -/
  grantLog : List Bool := []
  /-- Parked. -/
  halted : Bool := false
  /-- The phase of the transaction. -/
  tx : Tx := .idle
  /-- The cell the answer is written to. -/
  lastScOk : Bool := false

namespace MockCpu

/-- One step of the linear congruential generator. -/
def churn (rng : Word) : Word := rng * 6364136223846793005 + 1442695040888963407

/-- The private work of `step`: the counter and the random stream. -/
def work (q : Quantum) (b : Body MockCpu Unit) : Body MockCpu Unit :=
  { b with
    state := { b.state with
      counter := b.state.counter + q.setWidth 64
      rng := churn^[q.toNat] b.state.rng } }

/-- Count the call. -/
def countCall (b : Body MockCpu Unit) : Body MockCpu Unit :=
  { b with state := { b.state with callCount := b.state.callCount + 1 } }

/-- Advance the transaction by at most one phase. -/
def transact (b : Body MockCpu Unit) : Body MockCpu Unit :=
  let s := b.state
  match s.tx with
  | .idle =>
    if s.callCount % s.lockEveryN.setWidth 64 = 0 then
      { b with state := { s with tx := .awaitSc } }.stage
        { kind := .loadLocked, source := s.id, addr := s.lockAddr }
    else b
  | .awaitSc =>
    { b with state := { s with tx := .awaitAck } }.stage
      { kind := .storeCond, source := s.id, addr := s.lockAddr, value := s.rng,
        ackSuccess := some (s.id, ()) }
  | .awaitAck =>
    -- the answer was written to `lastScOk` in the sync phase in between
    { b with
      state := { s with
        grants := if s.lastScOk then s.grants + 1 else s.grants
        grantLog := s.grantLog ++ [s.lastScOk]
        tx := .idle } }

/-- The class. -/
def ops : IAgent MockCpu Unit where
  runnable b := !b.state.halted
  step q _ := [work q, countCall, transact]
  onSyncBegin b := b
  writeAck _ ok s := { s with lastScOk := ok }

/-- A mock CPU as the constructor leaves it; a period of zero counts as one. -/
def make (id : Nat) (lockAddr : Word) (lockEveryN : BitVec 32) (seed : Word) (halted : Bool) :
    Agent MockCpu Unit where
  ops := ops
  body :=
    { state :=
        { id := id, lockAddr := lockAddr, lockEveryN := if lockEveryN = 0 then 1 else lockEveryN,
          rng := seed, halted := halted }
      outbox := [] }

end MockCpu

/-- A dispatcher with one mock CPU and quantum 1, its clock at zero. -/
def mockDispatcher (halted : Bool) : Dispatcher MockCpu Unit where
  agents := [MockCpu.make 0 0xBFFC 3 0x1000 halted]
  clock := 0
  locks := LockArbiter.reset
  quantum := 1

/-- The drivers part when the clock has already reached `untilTick`, and when the only CPU is
halted: the threaded driver still runs a quantum and moves the clock. -/
theorem drivers_part_without_work :
    ¬ (mockDispatcher false).DriversAgree 0 ∧ ¬ (mockDispatcher true).DriversAgree 5000 := by
  constructor
  -- the clock is already there
  · intro h
    rcases hasWork_of_driversAgree ⟨by decide, by decide, by decide⟩ h with hnil | hwork
    · exact List.cons_ne_nil _ _ hnil
    · exact absurd hwork.1 (by decide)
  -- nobody can run
  · intro h
    rcases hasWork_of_driversAgree ⟨by decide, by decide, by decide⟩ h with hnil | hwork
    · exact List.cons_ne_nil _ _ hnil
    · exact absurd hwork.2 (by decide)

end EmulatR.Smp
