import Mathlib.Logic.Function.Basic
import EmulatR.Core.CpuState
import EmulatR.Library.Run

/-! # The floppy controller

The registers and the command machine of the floppy controller (deviceLib/Tsunami/Floppy82077.h). It
has no drive: a command takes its parameters and answers at once that nothing is there.

The host counts along.

* `Host` is what a driver knows from the bytes it has written and read, with its own table of the
  commands, `commandSet`; the controller's `cmdShape` agrees with it (`cmdShape_eq_hostShape`).
* `Synced` says that the controller is where the host takes it to be.
* `floppy_synced` says that it is so over every run of accesses, with the level of the interrupt
  line read off the host's history. -/

namespace EmulatR

open Library

/-! ## The controller -/

/-- A command is being taken in, or its result read out. -/
inductive FdcPhase
  | command | result
  deriving DecidableEq, Repr

/-- The state of the controller. -/
structure Floppy82077 where
  /-- The digital output register. -/
  dor : BitVec 8
  /-- The data rate select register. -/
  dsr : BitVec 8
  /-- The configuration control register. -/
  ccr : BitVec 8
  /-- What the FIFO is used for. -/
  phase : FdcPhase
  /-- The main status register. -/
  msr : BitVec 8
  /-- The interrupt line. -/
  intPending : Bool
  /-- The bytes of the command, its opcode first. -/
  cmd : Nat → BitVec 8
  /-- The number of those that have been written. -/
  cmdPos : Nat
  /-- The number of those that the opcode asks for. -/
  cmdLen : Nat
  /-- The bytes of the result. -/
  res : Nat → BitVec 8
  /-- The number of those that have been read. -/
  resPos : Nat
  /-- The number of those that there are. -/
  resLen : Nat

namespace Floppy82077

/-- The first port of the controller. -/
def kBase : BitVec 16 := 0x3F0

/-- The port at which the interrupt line is polled. -/
def kIntPoll : BitVec 16 := 0x536

/-- What the poll reads while the line is up. -/
def kIntPending : BitVec 8 := 0x80

/-- The FIFO is ready. -/
def kMSR_RQM : BitVec 8 := 0x80

/-- The FIFO is to be read. -/
def kMSR_DIO : BitVec 8 := 0x40

/-- A command is under way. -/
def kMSR_CB : BitVec 8 := 0x10

/-- The bytes of the command and of the result stay; the lengths say that they mean nothing. -/
def reset (f : Floppy82077) : Floppy82077 :=
  { f with
    dor := 0, dsr := 0, ccr := 0, phase := .command, cmdPos := 0, cmdLen := 0, resPos := 0
    resLen := 0, msr := kMSR_RQM, intPending := false }

/-- A new controller. -/
def init : Floppy82077 :=
  reset
    { dor := 0, dsr := 0, ccr := 0, phase := .command, msr := kMSR_RQM, intPending := false
      cmd := fun _ => 0, cmdPos := 0, cmdLen := 0, res := fun _ => 0, resPos := 0, resLen := 0 }

/-- The numbers of parameters and of results of an opcode. -/
def cmdShape (op : BitVec 8) : Nat × Nat :=
  match op &&& 0x1F with
  | 0x03 => (2, 0)
  | 0x04 => (1, 1)
  | 0x05 => (8, 7)
  | 0x06 => (8, 7)
  | 0x07 => (1, 0)
  | 0x08 => (0, 2)
  | 0x0A => (1, 7)
  | 0x0C => (8, 7)
  | 0x0D => (5, 7)
  | 0x0F => (2, 0)
  | 0x11 => (8, 7)
  | 0x12 => (1, 0)
  | 0x13 => (3, 0)
  | 0x0E => (0, 10)
  | 0x10 => (0, 1)
  | _ => (0, 1)

/-- What a command leaves in the result and on the interrupt line. -/
def respond (op : BitVec 8) (intPending : Bool) : BitVec 8 × Bool :=
  match op with
  -- SENSE INTERRUPT
  | 0x08 => (0x70, false)
  -- SENSE DRIVE STATUS and VERSION
  | 0x04 => (0x00, intPending)
  | 0x10 => (0x90, intPending)
  -- the data commands
  | 0x05 | 0x06 | 0x0A | 0x0C | 0x0D | 0x11 => (0x40, true)
  -- RECALIBRATE and SEEK
  | 0x07 | 0x0F => (0x00, true)
  -- SPECIFY, PERPENDICULAR, CONFIGURE and DUMPREG
  | 0x03 | 0x12 | 0x13 | 0x0E => (0x00, intPending)
  | _ => (0x80, intPending)

/-- Execute the command: the result is there at once, and its first byte says how it went. -/
def execute (f : Floppy82077) : Floppy82077 :=
  let nResult := (cmdShape (f.cmd 0)).2
  let r := respond (f.cmd 0 &&& 0x1F) f.intPending
  let f := { f with
    resPos := 0, res := Function.update (fun _ => 0) 0 r.1, intPending := r.2, resLen := nResult }
  if 0 < nResult then
    { f with phase := .result, msr := kMSR_RQM ||| kMSR_DIO ||| kMSR_CB }
  else { f with phase := .command, cmdPos := 0, msr := kMSR_RQM }

/-- The opcode of a command; taking it drops the interrupt line. -/
def takeOpcode (f : Floppy82077) (v : BitVec 8) : Floppy82077 :=
  { f with
    cmd := Function.update f.cmd 0 v, cmdPos := 1, cmdLen := 1 + (cmdShape v).1
    intPending := false }

/-- A parameter. -/
def takeParam (f : Floppy82077) (v : BitVec 8) : Floppy82077 :=
  if f.cmdPos < 16 then
    { f with cmd := Function.update f.cmd f.cmdPos v, cmdPos := f.cmdPos + 1 }
  else f

/-- A write of the FIFO; while a result is read out it is ignored. -/
def fifoWrite (f : Floppy82077) (v : BitVec 8) : Floppy82077 :=
  if f.phase ≠ .command then f
  else
    let f := if f.cmdPos = 0 then f.takeOpcode v else f.takeParam v
    if f.cmdLen ≤ f.cmdPos then execute f else f

/-- The last byte of a result is out; it drops the interrupt line too. -/
def drain (f : Floppy82077) : Floppy82077 :=
  { f with phase := .command, cmdPos := 0, msr := kMSR_RQM, intPending := false }

/-- A read of the FIFO. -/
def fifoRead (f : Floppy82077) : Floppy82077 × BitVec 8 :=
  if f.phase ≠ .result then (f, 0x00)
  else
    let r := if f.resPos < f.resLen then f.res f.resPos else 0x00
    let f := { f with resPos := f.resPos + 1 }
    (if f.resLen ≤ f.resPos then f.drain else f, r)

/-- A write of the digital output register; its bit 2, cleared, holds the controller in reset. -/
def writeDor (f : Floppy82077) (v : BitVec 8) : Floppy82077 :=
  let enterReset := f.dor.getLsbD 2 && !v.getLsbD 2
  let exitReset := !f.dor.getLsbD 2 && v.getLsbD 2
  let f := { (if enterReset then f.reset else f) with dor := v }
  if exitReset then { f with intPending := true } else f

/-- A read of a port. -/
def ioRead (f : Floppy82077) (port : BitVec 16) (_width : BitVec 8) : Floppy82077 × Word :=
  if port = kIntPoll then (f, if f.intPending then kIntPending.setWidth 64 else 0x00)
  else if port = kBase + 0 then (f, 0x00)
  else if port = kBase + 1 then (f, 0x00)
  else if port = kBase + 2 then (f, f.dor.setWidth 64)
  else if port = kBase + 3 then (f, 0x00)
  else if port = kBase + 4 then (f, f.msr.setWidth 64)
  else if port = kBase + 5 then (f.fifoRead.1, f.fifoRead.2.setWidth 64)
  else if port = kBase + 7 then (f, 0x00)
  else (f, 0xFF)

/-- A write of a port. -/
def ioWrite (f : Floppy82077) (port : BitVec 16) (value : Word) (_width : BitVec 8) :
    Floppy82077 :=
  let v := value.setWidth 8
  if port = kIntPoll then f
  else if port = kBase + 2 then f.writeDor v
  else if port = kBase + 4 then { f with dsr := v }
  else if port = kBase + 5 then f.fifoWrite v
  else if port = kBase + 7 then { f with ccr := v }
  else f

end Floppy82077

/-- An access to a port. -/
inductive PortAccess
  /-- A port read. -/
  | read (port : BitVec 16) (width : BitVec 8)
  /-- A port write. -/
  | write (port : BitVec 16) (value : Word) (width : BitVec 8)

/-- The controller after an access. -/
def Floppy82077.access (f : Floppy82077) : PortAccess → Floppy82077
  | .read port width => (f.ioRead port width).1
  | .write port value width => f.ioWrite port value width

open Floppy82077

/-! ## The host's account -/

/-- A command as the host knows it. -/
structure FdcCommand where
  /-- The low five bits of the opcode; the others are flags. -/
  code : Nat
  /-- The number of parameter bytes that follow the opcode. -/
  params : Nat
  /-- The number of result bytes. -/
  results : Nat

/-- The commands of the controller. -/
def commandSet : List FdcCommand :=
  -- WRITE DATA, READ DATA, READ DELETED DATA and SCAN EQUAL name a sector range
  [⟨5, 8, 7⟩, ⟨6, 8, 7⟩, ⟨12, 8, 7⟩, ⟨17, 8, 7⟩,
    -- FORMAT TRACK and READ ID
    ⟨13, 5, 7⟩, ⟨10, 1, 7⟩,
    -- RECALIBRATE and SEEK have no result
    ⟨7, 1, 0⟩, ⟨15, 2, 0⟩,
    -- SENSE INTERRUPT, SENSE DRIVE STATUS, VERSION and DUMPREG are asked for their result
    ⟨8, 0, 2⟩, ⟨4, 1, 1⟩, ⟨16, 0, 1⟩, ⟨14, 0, 10⟩,
    -- SPECIFY, PERPENDICULAR MODE and CONFIGURE set the controller up
    ⟨3, 2, 0⟩, ⟨18, 1, 0⟩, ⟨19, 3, 0⟩]

/-- The numbers of parameters and of results that the host counts with. What is no command is
answered by one byte. -/
def hostShape (op : BitVec 8) : Nat × Nat :=
  match commandSet.find? fun c => c.code = op.toNat % 32 with
  | some c => (c.params, c.results)
  | none => (0, 1)

/-- The controller counts with the same numbers. -/
theorem cmdShape_eq_hostShape : ∀ op : BitVec 8, cmdShape op = hostShape op := by
  decide +kernel

/-- What the host expects of the FIFO. -/
inductive HostPhase
  /-- An opcode is due. -/
  | idle
  /-- So many parameters of a command are still to be written. -/
  | params (op : BitVec 8) (left : Nat)
  /-- So many bytes of a result are still to be read. -/
  | results (left : Nat)

/-- What has happened to the controller. -/
inductive Happening
  /-- It took an opcode. -/
  | accepted (op : BitVec 8)
  /-- It had all parameters of a command. -/
  | completed (op : BitVec 8)
  /-- The last byte of a result was read. -/
  | drained
  /-- It was put into reset. -/
  | reset
  /-- It was let out of reset. -/
  | exitReset

/-- What the host knows. -/
structure Host where
  /-- What it last wrote to the digital output register. -/
  dor : BitVec 8 := 0
  /-- What it expects of the FIFO. -/
  phase : HostPhase := .idle
  /-- What has happened. -/
  log : List Happening := []

namespace Host

/-- All parameters of a command are written. -/
def complete (h : Host) (op : BitVec 8) : Host :=
  { h with
    phase := if 0 < (hostShape op).2 then .results (hostShape op).2 else .idle
    log := h.log ++ [.completed op] }

/-- The host has written a byte to the FIFO. -/
def wrote (h : Host) (v : BitVec 8) : Host :=
  match h.phase with
  | .idle =>
    let h := { h with log := h.log ++ [Happening.accepted v] }
    if (hostShape v).1 = 0 then h.complete v else { h with phase := .params v (hostShape v).1 }
  | .params op left => if left = 1 then h.complete op else { h with phase := .params op (left - 1) }
  | .results _ => h

/-- The host has read one result byte. -/
def fetched (h : Host) : Host :=
  match h.phase with
  | .results left =>
    if left = 1 then { h with phase := .idle, log := h.log ++ [.drained] }
    else { h with phase := .results (left - 1) }
  | .idle | .params _ _ => h

/-- The host has written the digital output register. -/
def wroteDor (h : Host) (v : BitVec 8) : Host :=
  let h' :=
    if h.dor.getLsbD 2 && !v.getLsbD 2 then
      { h with phase := .idle, log := h.log ++ [.reset] }
    else h
  { h' with
    dor := v
    log := if !h.dor.getLsbD 2 && v.getLsbD 2 then h'.log ++ [.exitReset] else h'.log }

/-- The host after an access. -/
def access (h : Host) : PortAccess → Host
  | .read port _ => if port = kBase + 5 then h.fetched else h
  | .write port value _ =>
    if port = kBase + 2 then h.wroteDor (value.setWidth 8)
    else if port = kBase + 5 then h.wrote (value.setWidth 8)
    else h

/-- The bytes of a result that are still to be read. -/
def unread (h : Host) : Nat :=
  match h.phase with
  | .results left => left
  | .idle | .params _ _ => 0

/-- The parameters that are still to be written. -/
def awaited (h : Host) : Nat :=
  match h.phase with
  | .params _ left => left
  | .idle | .results _ => 0

end Host

/-- The commands that raise the interrupt when they are completed. -/
def raisesIrq (op : BitVec 8) : Bool :=
  [0x05, 0x06, 0x0A, 0x0C, 0x0D, 0x11, 0x07, 0x0F].contains (op &&& 0x1F)

namespace Happening

/-- An interrupt-raising completion, or the exit from reset. -/
def Raises : Happening → Prop
  | completed op => raisesIrq op = true
  | exitReset => True
  | accepted _ | drained | reset => False

/-- The acceptance of an opcode, the end of a result, or a reset. -/
def Clears : Happening → Prop
  | accepted _ | drained | reset => True
  | completed _ | exitReset => False

end Happening

/-- The interrupt, as raised and cleared by what happens. -/
def irqLedger : Ledger Happening Unit where
  adds e _ := e.Raises
  revokes e _ := e.Clears

/-- The interrupt is due after a history. -/
def Due (log : List Happening) : Prop := () ∈ irqLedger.live log

/-- The interrupt is due after one more happening if that raises it, or it was due and stays. -/
theorem due_concat (log : List Happening) (e : Happening) :
    Due (log ++ [e]) ↔ e.Raises ∨ (Due log ∧ ¬ e.Clears) := irqLedger.mem_live_concat

/-- What clears the interrupt and does not raise it leaves none. -/
theorem not_due_concat (log : List Happening) {e : Happening} (hraises : ¬ e.Raises)
    (hclears : e.Clears) : ¬ Due (log ++ [e]) := by
  rw [due_concat]
  exact fun hdue => hdue.elim hraises fun hdue => hdue.2 hclears

/-! ## Keeping step -/

/-- The controller is where the host takes it to be. -/
def AtPhase (f : Floppy82077) : HostPhase → Prop
  | .idle => f.phase = .command ∧ f.cmdPos = 0 ∧ f.msr = kMSR_RQM
  | .params op left =>
    f.phase = .command ∧ 0 < f.cmdPos ∧ 0 < left ∧ f.cmdPos + left = f.cmdLen ∧
      f.cmdLen = 1 + (hostShape op).1 ∧ f.cmd 0 = op ∧ f.msr = kMSR_RQM
  | .results left =>
    f.phase = .result ∧ 0 < left ∧ f.resPos + left = f.resLen ∧
      f.msr = kMSR_RQM ||| kMSR_DIO ||| kMSR_CB

/-- Controller and host agree. -/
structure Synced (f : Floppy82077) (h : Host) : Prop where
  /-- The output register has what was written. -/
  dor : f.dor = h.dor
  /-- The FIFO is where the host expects it. -/
  phase : AtPhase f h.phase
  /-- The line is up exactly while the interrupt is due. -/
  irq : f.intPending = true ↔ Due h.log

/-- A command has eight parameters at most, so they fit the buffer. -/
theorem hostShape_le : ∀ op : BitVec 8, (hostShape op).1 ≤ 8 := by
  decide +kernel

/-- A completed command raises the line, and only SENSE INTERRUPT drops it. -/
theorem respond_irq (op : BitVec 8) (p : Bool) :
    (respond (op &&& 0x1F) p).2 = (raisesIrq op || (p && decide (op &&& 0x1F ≠ 0x08))) := by
  unfold respond raisesIrq
  split <;> simp_all

/-- SENSE INTERRUPT takes no parameters. -/
theorem hostShape_sense {op : BitVec 8} (h : op &&& 0x1F = 0x08) : (hostShape op).1 = 0 := by
  rw [← cmdShape_eq_hostShape, cmdShape, h]
  rfl

section Steps

variable {f : Floppy82077} {h : Host}

/-- Executing the command whose parameters are all there. -/
theorem Synced.execute {op : BitVec 8} (hop : f.cmd 0 = op) (hdor : f.dor = h.dor)
    (hirq : f.intPending = true ↔ Due h.log) (hsense : op &&& 0x1F = 0x08 → f.intPending = false) :
    Synced f.execute (h.complete op) := by
  have hline : (respond (op &&& 0x1F) f.intPending).2 = true ↔
      Due (h.log ++ [.completed op]) := by
    rw [due_concat, ← hirq, respond_irq, Bool.or_eq_true, Bool.and_eq_true, decide_eq_true_eq]
    refine or_congr Iff.rfl ⟨fun h => ⟨h.1, not_false⟩, fun h => ⟨h.1, fun hop => ?_⟩⟩
    exact absurd h.1 (by rw [hsense hop]; decide)
  unfold Floppy82077.execute Host.complete
  rw [hop, cmdShape_eq_hostShape]
  by_cases hres : 0 < (hostShape op).2
  · rw [if_pos hres, if_pos hres]
    exact ⟨hdor, ⟨rfl, hres, Nat.zero_add _, rfl⟩, hline⟩
  · rw [if_neg hres, if_neg hres]
    exact ⟨hdor, ⟨rfl, rfl, rfl⟩, hline⟩

/-- An idle controller takes the byte as an opcode. -/
theorem Synced.wrote_idle (hs : Synced f h) (hp : h.phase = .idle) (v : BitVec 8) :
    Synced (f.fifoWrite v) (h.wrote v) := by
  obtain ⟨hdor, hphase, hirq⟩ := hs
  rw [hp] at hphase
  obtain ⟨hcmd, hpos, hmsr⟩ := hphase
  have hoff : false = true ↔ Due (h.log ++ [.accepted v]) :=
    iff_of_false Bool.false_ne_true (not_due_concat h.log id trivial)
  have hcmd0 : (f.takeOpcode v).cmd 0 = v := by
    dsimp only [takeOpcode]
    exact Function.update_self 0 v f.cmd
  have hlen : (f.takeOpcode v).cmdLen = 1 + (hostShape v).1 :=
    congrArg (1 + ·.1) (cmdShape_eq_hostShape v)
  have hone : (f.takeOpcode v).cmdPos = 1 := rfl
  simp only [Floppy82077.fifoWrite, Host.wrote, hp, if_neg (not_not.2 hcmd), if_pos hpos]
  by_cases hn : (hostShape v).1 = 0
  · have hfull : (f.takeOpcode v).cmdLen ≤ (f.takeOpcode v).cmdPos := by
      rw [hlen, hone, hn]
    rw [if_pos hfull, if_pos hn]
    exact Synced.execute hcmd0 hdor hoff fun _ => rfl
  · have hmore : ¬ (f.takeOpcode v).cmdLen ≤ (f.takeOpcode v).cmdPos := by
      rw [hlen, hone]
      omega
    rw [if_neg hmore, if_neg hn]
    exact ⟨hdor, ⟨hcmd, Nat.one_pos, Nat.pos_of_ne_zero hn, hlen.symm, hlen, hcmd0, hmsr⟩, hoff⟩

/-- A controller that waits for parameters takes the byte as one of them. -/
theorem Synced.wrote_params {op : BitVec 8} {left : Nat} (hs : Synced f h)
    (hp : h.phase = .params op left) (v : BitVec 8) : Synced (f.fifoWrite v) (h.wrote v) := by
  obtain ⟨hdor, hphase, hirq⟩ := hs
  rw [hp] at hphase
  obtain ⟨hcmd, hpos, hleft, hlen, hshape, hop, hmsr⟩ := hphase
  have hle := hostShape_le op
  have htake : f.takeParam v =
      { f with cmd := Function.update f.cmd f.cmdPos v, cmdPos := f.cmdPos + 1 } :=
    if_pos (by omega)
  have hcmd0 : (f.takeParam v).cmd 0 = op := by
    rw [htake, ← hop]
    exact Function.update_of_ne hpos.ne ..
  simp only [Floppy82077.fifoWrite, Host.wrote, hp, if_neg (not_not.2 hcmd), if_neg hpos.ne']
  by_cases h1 : left = 1
  · have hfull : (f.takeParam v).cmdLen ≤ (f.takeParam v).cmdPos := by
      rw [htake]
      exact (h1 ▸ hlen).ge
    rw [if_pos hfull, if_pos h1]
    refine Synced.execute hcmd0 (htake ▸ hdor) (htake ▸ hirq) fun hsense => ?_
    have hnone := hostShape_sense hsense
    omega
  · have hmore : ¬ (f.takeParam v).cmdLen ≤ (f.takeParam v).cmdPos := by
      rw [htake]
      dsimp only
      omega
    rw [if_neg hmore, if_neg h1, htake]
    exact ⟨hdor, ⟨hcmd, Nat.succ_pos _, by omega, by dsimp only; omega, hshape, htake ▸ hcmd0,
      hmsr⟩, hirq⟩

/-- A write of the FIFO keeps step. -/
theorem Synced.fifoWrite (hs : Synced f h) (v : BitVec 8) :
    Synced (f.fifoWrite v) (h.wrote v) := by
  cases hp : h.phase with
  | idle => exact hs.wrote_idle hp v
  | params op left => exact hs.wrote_params hp v
  | results left =>
    -- a byte written while a result is read out is lost on both sides
    obtain ⟨hdor, hphase, hirq⟩ := hs
    unfold Floppy82077.fifoWrite Host.wrote
    rw [hp] at hphase ⊢
    rw [if_pos (by rw [hphase.1]; decide)]
    exact ⟨hdor, by rw [hp]; exact hphase, hirq⟩

/-- A read of the FIFO keeps step. -/
theorem Synced.fifoRead (hs : Synced f h) : Synced f.fifoRead.1 h.fetched := by
  obtain ⟨hdor, hphase, hirq⟩ := hs
  unfold Floppy82077.fifoRead Host.fetched
  cases hp : h.phase with
  | idle =>
    rw [hp] at hphase
    rw [if_pos (by rw [hphase.1]; decide)]
    exact ⟨hdor, by rw [hp]; exact hphase, hirq⟩
  | params op left =>
    rw [hp] at hphase
    rw [if_pos (by rw [hphase.1]; decide)]
    exact ⟨hdor, by rw [hp]; exact hphase, hirq⟩
  | results left =>
    rw [hp] at hphase
    obtain ⟨hres, hleft, hlen, hmsr⟩ := hphase
    have hdue : ¬ Due (h.log ++ [.drained]) := not_due_concat h.log id trivial
    simp only [if_neg (not_not.2 hres)]
    by_cases h1 : left = 1
    · rw [if_pos (by omega), if_pos h1]
      exact ⟨hdor, ⟨rfl, rfl, rfl⟩, iff_of_false Bool.false_ne_true hdue⟩
    · rw [if_neg (by omega), if_neg h1]
      exact ⟨hdor, ⟨hres, by omega, by dsimp only; omega, hmsr⟩, hirq⟩

/-- A write of the output register keeps step. -/
theorem Synced.writeDor (hs : Synced f h) (v : BitVec 8) :
    Synced (f.writeDor v) (h.wroteDor v) := by
  obtain ⟨hdor, hphase, hirq⟩ := hs
  have hdue : ¬ Due (h.log ++ [.reset]) := not_due_concat h.log id trivial
  have hexit : Due (h.log ++ [.exitReset]) := by
    rw [due_concat]
    exact Or.inl trivial
  unfold Floppy82077.writeDor Host.wroteDor
  rw [hdor]
  -- the two edges of the reset bit exclude each other
  cases hold : h.dor.getLsbD 2 <;> cases hnew : v.getLsbD 2
  · exact ⟨rfl, hphase, hirq⟩
  · exact ⟨rfl, hphase, iff_of_true rfl hexit⟩
  · exact ⟨rfl, ⟨rfl, rfl, rfl⟩, iff_of_false Bool.false_ne_true hdue⟩
  · exact ⟨rfl, hphase, hirq⟩

/-- Every access keeps step. -/
theorem Synced.access (hs : Synced f h) (a : PortAccess) : Synced (f.access a) (h.access a) := by
  cases a with
  | read port width =>
    by_cases hfifo : port = kBase + 5
    · subst hfifo
      exact hs.fifoRead
    · have hf : f.access (.read port width) = f := by
        unfold Floppy82077.access ioRead
        simp only [if_neg hfifo]
        split_ifs <;> rfl
      have hh : h.access (.read port width) = h := if_neg hfifo
      rw [hf, hh]
      exact hs
  | write port value width =>
    by_cases hdor : port = kBase + 2
    · subst hdor
      exact hs.writeDor _
    by_cases hfifo : port = kBase + 5
    · subst hfifo
      exact hs.fifoWrite _
    · have hh : h.access (.write port value width) = h := by
        rw [Host.access, if_neg hdor, if_neg hfifo]
      rw [hh, Floppy82077.access, ioWrite, if_neg hdor, if_neg hfifo]
      split_ifs
      · exact hs
      · exact ⟨hs.dor, hs.phase, hs.irq⟩
      · exact ⟨hs.dor, hs.phase, hs.irq⟩
      · exact hs

end Steps

/-- A new controller and a host that has done nothing are in step, and stay so. -/
theorem synced_run (es : List PortAccess) :
    Synced (runFrom Floppy82077.access init es) (runFrom Host.access {} es) := by
  have hstart : Synced init {} :=
    ⟨rfl, ⟨rfl, rfl, rfl⟩, iff_of_false Bool.false_ne_true (Set.notMem_empty ())⟩
  exact runFrom_rel Synced (fun _ _ a hs => hs.access a) hstart es

/-! ## What the host can rely on -/

namespace Floppy82077

/-- The next byte written to the FIFO is taken as an opcode. -/
def Accepts (f : Floppy82077) : Prop := f.phase = .command ∧ f.cmdPos = 0

/-- The parameters still awaited. -/
def awaited (f : Floppy82077) : Nat :=
  if f.phase = .command ∧ f.cmdPos ≠ 0 then f.cmdLen - f.cmdPos else 0

/-- The result bytes not yet read. -/
def unread (f : Floppy82077) : Nat := if f.phase = .result then f.resLen - f.resPos else 0

end Floppy82077

/-- The registers and the line show what the host knows. -/
structure FdcLaw (f : Floppy82077) (h : Host) : Prop where
  /-- RQM is always set. -/
  rqm : (f.ioRead (kBase + 4) 1).2.getLsbD 7 = true
  /-- DIO is set exactly while result bytes are to be read. -/
  dio : (f.ioRead (kBase + 4) 1).2.getLsbD 6 = true ↔ 0 < h.unread
  /-- An opcode is accepted exactly when the host is idle. -/
  accepts : f.Accepts ↔ h.phase = .idle
  /-- The counts of parameters agree. -/
  awaited : f.awaited = h.awaited
  /-- The counts of results agree. -/
  unread : f.unread = h.unread
  /-- The line is up exactly when it was raised and not cleared since. -/
  irq : f.intPending = true ↔ ∃ before e after, h.log = before ++ e :: after ∧ e.Raises ∧
    ∀ k ∈ after, ¬ k.Clears

/-- A controller in step with its host shows what the host knows. -/
theorem Synced.law {f : Floppy82077} {h : Host} (hs : Synced f h) : FdcLaw f h := by
  have hmsr : (f.ioRead (kBase + 4) 1).2 = f.msr.setWidth 64 := rfl
  have hirq := hs.irq.trans irqLedger.mem_live_iff
  have hphase := hs.phase
  cases hp : h.phase with
  | idle =>
    rw [hp] at hphase
    obtain ⟨hcmd, hpos, hr⟩ := hphase
    exact
      { rqm := by rw [hmsr, hr]; decide
        dio := by rw [hmsr, hr, Host.unread, hp]; decide
        accepts := by rw [hp]; exact iff_of_true ⟨hcmd, hpos⟩ rfl
        awaited := by rw [Host.awaited, hp, Floppy82077.awaited, if_neg fun h => h.2 hpos]
        unread := by rw [Host.unread, hp, Floppy82077.unread, hcmd]; rfl
        irq := hirq }
  | params op left =>
    rw [hp] at hphase
    obtain ⟨hcmd, hpos, hleft, hlen, -, -, hr⟩ := hphase
    exact
      { rqm := by rw [hmsr, hr]; decide
        dio := by
          rw [hmsr, hr, Host.unread, hp]
          exact iff_of_false (by decide) (Nat.lt_irrefl 0)
        accepts := by rw [hp]; exact iff_of_false (fun h => hpos.ne' h.2) HostPhase.noConfusion
        awaited := by
          rw [Host.awaited, hp, Floppy82077.awaited, if_pos ⟨hcmd, hpos.ne'⟩]
          exact Nat.sub_eq_of_eq_add' hlen.symm
        unread := by rw [Host.unread, hp, Floppy82077.unread, hcmd]; rfl
        irq := hirq }
  | results left =>
    rw [hp] at hphase
    obtain ⟨hres, hleft, hlen, hr⟩ := hphase
    exact
      { rqm := by rw [hmsr, hr]; decide
        dio := by rw [hmsr, hr, Host.unread, hp]; exact iff_of_true (by decide) hleft
        accepts := by
          rw [hp]
          exact iff_of_false (fun h => FdcPhase.noConfusion (hres.symm.trans h.1))
            HostPhase.noConfusion
        awaited := by
          rw [Host.awaited, hp, Floppy82077.awaited,
            if_neg fun h => FdcPhase.noConfusion (hres.symm.trans h.1)]
        unread := by
          rw [Host.unread, hp, Floppy82077.unread, if_pos hres]
          exact Nat.sub_eq_of_eq_add' hlen.symm
        irq := hirq }

/-- The bytes of a command, written to the FIFO. -/
def writes (bytes : List (BitVec 8)) : List PortAccess :=
  bytes.map fun v => .write (kBase + 5) (v.setWidth 64) 1

/-- Reads of the FIFO. -/
def reads (k : Nat) : List PortAccess := List.replicate k (.read (kBase + 5) 1)

/-- When an opcode is due, a command whose bytes are written one after the other takes as many
parameters as its opcode says, then gives as many results, and only then is the next opcode
taken. -/
def CommandLaw (f : Floppy82077) : Prop :=
  f.Accepts → ∀ (op : BitVec 8) (ps : List (BitVec 8)),
    let f' := runFrom Floppy82077.access f (writes (op :: ps))
    (ps.length < (hostShape op).1 → f'.awaited = (hostShape op).1 - ps.length) ∧
    (ps.length = (hostShape op).1 → ∀ k ≤ (hostShape op).2,
      let f'' := runFrom Floppy82077.access f' (reads k)
      f''.unread = (hostShape op).2 - k ∧ (f''.Accepts ↔ k = (hostShape op).2))

section Command

variable {h : Host}

/-- What the host expects after a completed command. -/
def HostPhase.completed (op : BitVec 8) : HostPhase :=
  if 0 < (hostShape op).2 then .results (hostShape op).2 else .idle

/-- A write of the FIFO port hands the host its byte. -/
theorem access_write (v : BitVec 8) :
    h.access (.write (kBase + 5) (v.setWidth 64) 1) = h.wrote v := by
  have hv : (v.setWidth 64).setWidth 8 = v := BitVec.setWidth_setWidth_of_le v (by decide)
  rw [Host.access, hv]
  rfl

/-- Parameters are counted down, and the last one completes the command. -/
theorem phase_params {op : BitVec 8} {left : Nat} (hp : h.phase = .params op left)
    (ps : List (BitVec 8)) (hle : ps.length ≤ left) (hleft : 0 < left) :
    (runFrom Host.access h (writes ps)).phase =
      if ps.length = left then .completed op else .params op (left - ps.length) := by
  induction ps generalizing h left with
  | nil =>
    rw [List.length_nil, if_neg hleft.ne]
    exact hp
  | cons v ps ih =>
    have hstep : (h.access (.write (kBase + 5) (v.setWidth 64) 1)).phase =
        if left = 1 then .completed op else .params op (left - 1) := by
      rw [access_write, Host.wrote, hp]
      dsimp only
      split_ifs <;> rfl
    rw [List.length_cons] at hle ⊢
    rw [writes, List.map_cons, runFrom_cons]
    by_cases h1 : left = 1
    · have hnil : ps = [] := List.length_eq_zero_iff.1 (by omega)
      rw [if_pos h1] at hstep
      rw [hnil, h1]
      exact hstep
    · rw [if_neg h1] at hstep
      refine (ih hstep (by omega) (by omega)).trans ?_
      rw [Nat.sub_sub, Nat.add_comm 1]
      exact if_congr (by omega) rfl rfl

/-- An opcode and its parameters. -/
theorem phase_command (hp : h.phase = .idle) (op : BitVec 8) (ps : List (BitVec 8))
    (hle : ps.length ≤ (hostShape op).1) :
    (runFrom Host.access h (writes (op :: ps))).phase =
      if ps.length = (hostShape op).1 then .completed op
      else .params op ((hostShape op).1 - ps.length) := by
  have hstep : (h.access (.write (kBase + 5) (op.setWidth 64) 1)).phase =
      if (hostShape op).1 = 0 then .completed op else .params op (hostShape op).1 := by
    rw [access_write, Host.wrote, hp]
    dsimp only
    split_ifs <;> rfl
  rw [writes, List.map_cons, runFrom_cons]
  by_cases h0 : (hostShape op).1 = 0
  · have hnil : ps = [] := List.length_eq_zero_iff.1 (by omega)
    rw [if_pos h0] at hstep
    rw [hnil, h0]
    exact hstep
  · rw [if_neg h0] at hstep
    exact phase_params hstep ps hle (by omega)

/-- Results are counted down to the next opcode. -/
theorem phase_results {left : Nat} (hp : h.phase = .results left) (hleft : 0 < left) {k : Nat}
    (hk : k ≤ left) :
    (runFrom Host.access h (reads k)).phase =
      if k = left then .idle else .results (left - k) := by
  induction k generalizing h left with
  | zero =>
    rw [if_neg hleft.ne]
    exact hp
  | succ k ih =>
    have hstep : (h.access (.read (kBase + 5) 1)).phase =
        if left = 1 then .idle else .results (left - 1) := by
      have hfetch : h.access (.read (kBase + 5) 1) = h.fetched := rfl
      rw [hfetch, Host.fetched, hp]
      dsimp only
      split_ifs <;> rfl
    rw [reads, List.replicate_succ, runFrom_cons]
    by_cases h1 : left = 1
    · have hzero : k = 0 := by omega
      rw [if_pos h1] at hstep
      rw [hzero, h1]
      exact hstep
    · rw [if_neg h1] at hstep
      refine (ih hstep (by omega) (by omega)).trans ?_
      rw [Nat.sub_sub, Nat.add_comm 1]
      exact if_congr (by omega) rfl rfl

end Command

/-- A controller in step with its host obeys the law of commands. -/
theorem Synced.command {f : Floppy82077} {h : Host} (hs : Synced f h) : CommandLaw f := by
  intro hacc op ps
  have hp := hs.law.accepts.1 hacc
  have hrun (f : Floppy82077) (h : Host) (hs : Synced f h) (es : List PortAccess) :
      Synced (runFrom Floppy82077.access f es) (runFrom Host.access h es) :=
    runFrom_rel Synced (fun _ _ a hs => hs.access a) hs es
  have hs' := hrun f h hs (writes (op :: ps))
  refine ⟨fun hlt => ?_, fun hlen k hk => ?_⟩
  · have hphase := phase_command hp op ps hlt.le
    rw [if_neg hlt.ne] at hphase
    rw [hs'.law.awaited, Host.awaited, hphase]
  · have hphase := phase_command hp op ps hlen.le
    rw [if_pos hlen] at hphase
    have hs'' := hrun _ _ hs' (reads k)
    have hend : (runFrom Host.access (runFrom Host.access h (writes (op :: ps))) (reads k)).phase =
        if k = (hostShape op).2 then .idle else .results ((hostShape op).2 - k) := by
      unfold HostPhase.completed at hphase
      by_cases hres : 0 < (hostShape op).2
      · rw [if_pos hres] at hphase
        exact phase_results hphase hres hk
      · rw [if_neg hres] at hphase
        have hzero : k = 0 := by omega
        rw [if_pos (by omega), hzero]
        exact hphase
    refine ⟨?_, ?_⟩
    · rw [hs''.law.unread, Host.unread, hend]
      split_ifs with hlast
      · exact (Nat.sub_eq_zero_of_le hlast.ge).symm
      · rfl
    · rw [hs''.law.accepts, hend]
      by_cases hlast : k = (hostShape op).2
      · rw [if_pos hlast]
        exact iff_of_true rfl hlast
      · rw [if_neg hlast]
        exact iff_of_false HostPhase.noConfusion hlast

/-- Over every run of accesses the controller and the host keep count alike, and the interrupt line
is what has happened since it was last cleared; commands are taken and answered whole. -/
theorem floppy_synced (es : List PortAccess) :
    FdcLaw (runFrom Floppy82077.access init es) (runFrom Host.access {} es) ∧
    CommandLaw (runFrom Floppy82077.access init es) :=
  ⟨(synced_run es).law, (synced_run es).command⟩

end EmulatR
