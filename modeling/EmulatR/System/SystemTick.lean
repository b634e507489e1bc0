import EmulatR.Chipset.DeviceIrqs
import EmulatR.System.Machine

/-! # The system tick and the interrupts it delivers

After every instruction the machine runs a system tick (systemLib/Machine.cpp, `systemTick`): it
evaluates the device interrupts, fires the interval timer on the clock edge, and then offers the CPU
one source after the other — timer, interprocessor, error, device, and last the one-shot synthetic
injection. A source that is pending and that the CPU accepts is staged as a divert to the interrupt
entry, with one ISUM bit as its cause; the first divert of a tick blocks the others.

Each block names its gate and its cause separately. For the timer, the interprocessor interrupt and
the devices they belong together. The error block is gated on IER<34> and stages ISUM<33>, and the
injection has no gate at all, so these two can stage a cause that is not enabled, or not pending.

`systemTick_sound_iff` is the exact condition; `systemTick_gate_and_cause_part` is a state that
breaks it. -/

namespace EmulatR

open Library

/-! ## The sources -/

namespace IrqLine

/-- The external-interrupt number of a line: its ISUM and IER bit is 33 plus this. -/
def ei : IrqLine → Nat
  | irq0 => 0
  | irq1 => 1
  | timer => 2
  | interprocessor => 3

/-- The line is pending at CPU 0. -/
def pending (c : TsunamiCchip) : IrqLine → Bool
  | timer => c.pendingIrq2 TsunamiCchip.cpu0
  | interprocessor => c.pendingIrq3 TsunamiCchip.cpu0
  | irq0 => c.pendingIrq0 TsunamiCchip.cpu0
  | irq1 => c.pendingIrq1 TsunamiCchip.cpu0

/-- What delivery does to the source: the timer and interprocessor latches are cleared, the error
and device classes are held by their sources. -/
def acknowledge (c : TsunamiCchip) : IrqLine → TsunamiCchip
  | timer => c.clearPendingIrq2 TsunamiCchip.cpu0
  | interprocessor => c.clearPendingIrq3 TsunamiCchip.cpu0
  | irq0 => c
  | irq1 => c

end IrqLine

/-! ## The tick -/

/-- What the tick reads and writes. -/
structure TickState where
  /-- CPU 0. -/
  cpu : CpuState
  /-- The chipset. -/
  chipset : TsunamiChipset
  /-- PALcode is at its final address. -/
  palImageRelocated : Bool
  /-- The system clock. -/
  systemClock : Word
  /-- The cycle the synthetic injection is armed for; zero when it is not. -/
  injectInterruptCycle : Word := 0
  /-- The injection has fired. -/
  injectInterruptFired : Bool := false
  /-- The idle fast-forward is on (`EMULATR_IDLEWARP`). -/
  idleTickWarp : Bool := false

/-- A tick in progress: the machine, the mutex flag and the causes staged so far. -/
structure Tick where
  /-- The machine. -/
  machine : TickState
  /-- A divert has been staged (`divertedThisCycle`). -/
  diverted : Bool := false
  /-- The ISUM values staged in this tick, in order. -/
  causes : List Word := []

namespace TickState

variable (s : TickState)

/-- Can the CPU take an interrupt at this level? -/
def accepts (level : Nat) : Bool := canAcceptInterrupt s.palImageRelocated s.cpu level

/-- The low bits of the clock that are zero on a timer edge. -/
def cchipTimerMask : Word := 0x3FFFF

/-- The interval timer fires on this cycle. -/
def intervalTimerShouldFire (cycleCount : Word) : Bool :=
  cycleCount != 0 && cycleCount &&& cchipTimerMask == 0

/-- Skip the console's idle loop to the next timer edge. -/
def warpIdle : TickState :=
  let idlePc := s.cpu.pc &&& ~~~1
  if s.idleTickWarp ∧ 0x7bad0 ≤ idlePc ∧ idlePc < 0x7bb10 ∧ s.accepts 22 = true ∧
      intervalTimerShouldFire s.systemClock = false then
    let clock := (s.systemClock ||| cchipTimerMask) + 1
    { s with systemClock := clock, cpu := { s.cpu with cycleCount := clock } }
  else s

/-- Fire the interval timer, whether or not the CPU can take it. -/
def fireTimer : TickState :=
  if intervalTimerShouldFire s.systemClock then
    { s with chipset := { s.chipset with cchip := s.chipset.cchip.fireIntervalTimer } }
  else s

/-- The part of the tick before delivery: device lines, idle warp, timer. -/
def arm (lv : DeviceLevels) : TickState :=
  ({ s with chipset := s.chipset.evalDeviceIrqs lv }.warpIdle).fireTimer

/-- The injection is due. -/
def injectionDue : Bool :=
  s.injectInterruptCycle != 0 && !s.injectInterruptFired &&
    decide (s.injectInterruptCycle ≤ s.systemClock)

end TickState

namespace Tick

variable (k : Tick)

/-- Stage a divert with the given cause. -/
def stage (isumMask : Word) : Tick :=
  { k with
    machine := { k.machine with cpu := stageInterruptDivert k.machine.cpu isumMask }
    causes := k.causes ++ [isumMask] }

/-- The delivery block of a line. -/
def deliver (line : IrqLine) : Tick :=
  if !k.diverted && line.pending k.machine.chipset.cchip && k.machine.accepts line.level then
    let k := k.stage line.isumMask
    { k with
      machine := { k.machine with
        chipset := { k.machine.chipset with
          cchip := line.acknowledge k.machine.chipset.cchip } }
      diverted := true }
  else k

/-- The injection block: no gate but PAL_BASE, and one shot. -/
def inject : Tick :=
  if !k.diverted && k.machine.injectionDue then
    let k := if k.machine.cpu.palBase ≠ 0 then k.stage (1 <<< 33) else k
    { k with machine := { k.machine with injectInterruptFired := true } }
  else k

end Tick

/-- The system tick. -/
def systemTick (s : TickState) (lv : DeviceLevels) : Tick :=
  (((({ machine := s.arm lv : Tick }.deliver .timer).deliver .interprocessor).deliver
    .irq0).deliver .irq1).inject

/-! ## Which block delivers -/

namespace TickState

variable (d : TickState)

/-- The line is pending and the CPU accepts its level. -/
def deliverable (line : IrqLine) : Bool :=
  line.pending d.chipset.cchip && d.accepts line.level

/-- The first deliverable line, in the order of the blocks. -/
def firstDeliverable : Option IrqLine :=
  [IrqLine.timer, .interprocessor, .irq0, .irq1].find? d.deliverable

/-- The tick that has delivered a line. -/
def delivered (line : IrqLine) : Tick where
  machine :=
    { d with
      cpu := stageInterruptDivert d.cpu line.isumMask
      chipset := { d.chipset with cchip := line.acknowledge d.chipset.cchip } }
  diverted := true
  causes := [line.isumMask]

end TickState

variable {s d : TickState} {lv : DeviceLevels} {line : IrqLine}

/-- The first deliverable line is delivered. -/
theorem deliver_of_deliverable (h : d.deliverable line = true) :
    ({ machine := d : Tick }.deliver line) = d.delivered line := by
  unfold Tick.deliver
  rw [if_pos]
  · rfl
  · exact h

/-- A line that is not deliverable leaves the tick as it is. -/
theorem deliver_of_not_deliverable (h : d.deliverable line = false) :
    ({ machine := d : Tick }.deliver line) = { machine := d } := by
  unfold Tick.deliver
  rw [if_neg]
  rw [Bool.not_eq_true]
  exact h

/-- Once a line is delivered the remaining blocks do nothing. -/
theorem foldl_deliver_delivered (lines : List IrqLine) :
    lines.foldl Tick.deliver (d.delivered line) = d.delivered line := by
  induction lines with
  | nil => rfl
  | cons line' lines ih => exact ih

/-- The blocks, one after the other, deliver the first deliverable line. -/
theorem foldl_deliver (lines : List IrqLine) :
    lines.foldl Tick.deliver { machine := d } =
      (lines.find? d.deliverable).elim { machine := d } d.delivered := by
  induction lines with
  | nil => rfl
  | cons line lines ih =>
    rw [List.foldl_cons]
    cases h : d.deliverable line with
    | true =>
      rw [deliver_of_deliverable h, foldl_deliver_delivered, List.find?_cons_of_pos h,
        Option.elim_some]
    | false =>
      rw [deliver_of_not_deliverable h, ih, List.find?_cons_of_neg (by simp [h])]

/-- **A tick delivers the first deliverable line**, or leaves the CPU to the injection. -/
theorem systemTick_eq (s : TickState) (lv : DeviceLevels) :
    systemTick s lv = (s.arm lv).firstDeliverable.elim ({ machine := s.arm lv : Tick }.inject)
      (s.arm lv).delivered := by
  have hblocks : systemTick s lv = ([IrqLine.timer, .interprocessor, .irq0, .irq1].foldl
      Tick.deliver { machine := s.arm lv }).inject := rfl
  rw [hblocks, foldl_deliver, ← TickState.firstDeliverable]
  -- the injection looks at the mutex flag too, and a delivery has set it
  cases (s.arm lv).firstDeliverable with
  | none => rfl
  | some line => rfl

/-! ## What a sound tick is -/

/-- What is asked of a tick, given the machine `d` it delivers from. -/
structure TickSound (d : TickState) (k : Tick) : Prop where
  /-- The causes are what was staged into the CPU. -/
  staged : k.machine.cpu = k.causes.foldl stageInterruptDivert d.cpu
  /-- At most one divert. -/
  atMostOne : k.causes.length ≤ 1
  /-- A cause bit is staged only if it is enabled and the CPU is native. -/
  enabled : ∀ isum ∈ k.causes, ∀ n < 6, isum.getLsbD (33 + n) = true →
    d.cpu.ier.getLsbD (33 + n) = true ∧ d.cpu.inPalMode = false
  /-- A cause names a class that was pending. -/
  named : ∀ isum ∈ k.causes, ∃ line : IrqLine,
    isum = line.isumMask ∧ line.pending d.chipset.cchip = true
  /-- A pending and enabled class is delivered, or still pending. -/
  kept : ∀ line : IrqLine, line.pending d.chipset.cchip = true →
    d.cpu.ier.getLsbD (33 + line.ei) = true →
    line.isumMask ∈ k.causes ∨ line.pending k.machine.chipset.cchip = true

/-- Gate and cause agree: an error divert finds IER<33> set, and an injection that is not pre-empted
finds the error class pending and enabled. -/
def GatesAgree (d : TickState) : Prop :=
  (d.firstDeliverable = some .irq0 → d.cpu.ier.getLsbD 33 = true) ∧
  (d.firstDeliverable = none → d.injectionDue = true → d.cpu.palBase ≠ 0 →
    d.cpu.ier.getLsbD 33 = true ∧ d.cpu.inPalMode = false ∧
      IrqLine.irq0.pending d.chipset.cchip = true)

/-- The bits of a cause. -/
theorem getLsbD_isumMask (line : IrqLine) (n : Nat) (hn : n < 6) :
    line.isumMask.getLsbD (33 + n) = decide (n = line.ei) := by
  have hall : ∀ (line : IrqLine) (n : Fin 6),
      line.isumMask.getLsbD (33 + n.val) = decide (n.val = line.ei) := by
    intro line
    cases line <;> decide
  exact hall line ⟨n, hn⟩

/-- What acceptance says about the CPU. -/
theorem accepts_spec (h : d.accepts line.level = true) :
    d.cpu.inPalMode = false ∧ d.cpu.ier.getLsbD (57 - line.level) = true := by
  unfold TickState.accepts canAcceptInterrupt at h
  -- every line's level is in the range the gate checks, so the IER bit decides
  have hlevel : 19 ≤ line.level ∧ line.level ≤ 30 := by cases line <;> decide
  simp only [hlevel, and_self, decide_true, Bool.not_true, Bool.false_or, Bool.and_eq_true,
    Bool.not_eq_true'] at h
  exact ⟨h.1.2, h.2⟩

/-- Acknowledging one line leaves the others pending. -/
theorem pending_acknowledge {c : TsunamiCchip} {line line' : IrqLine} (hne : line' ≠ line)
    (h : line'.pending c = true) : line'.pending (line.acknowledge c) = true := by
  cases line <;> cases line' <;> first | exact absurd rfl hne | exact h

/-- For every line but the error class the gate is the IER bit of the cause. -/
theorem gate_eq_cause (h : line ≠ .irq0) : 57 - line.level = 33 + line.ei := by
  cases line with
  | irq0 => exact absurd rfl h
  | timer => rfl
  | interprocessor => rfl
  | irq1 => rfl

/-- **A tick that delivers a line is sound** unless the line is the error class with IER<33>
clear. -/
theorem tickSound_delivered (h : d.deliverable line = true) :
    TickSound d (d.delivered line) ↔ (line = .irq0 → d.cpu.ier.getLsbD 33 = true) := by
  obtain ⟨hpend, hacc⟩ := Bool.and_eq_true_iff.mp h
  obtain ⟨hnative, hier⟩ := accepts_spec hacc
  constructor
  · rintro hsound rfl
    exact (hsound.enabled _ (List.mem_singleton_self _) 0 (by decide) (by decide)).1
  · intro herr
    -- the IER bit of the cause is set: by the gate, or by the condition for the error class
    have hcause : d.cpu.ier.getLsbD (33 + line.ei) = true := by
      by_cases hline : line = .irq0
      · subst hline
        exact herr rfl
      · rw [← gate_eq_cause hline]
        exact hier
    refine ⟨rfl, le_rfl, ?_, ?_, ?_⟩
    · intro isum hisum n hn hbit
      rw [List.mem_singleton.mp hisum, getLsbD_isumMask line n hn, decide_eq_true_iff] at hbit
      rw [hbit]
      exact ⟨hcause, hnative⟩
    · intro isum hisum
      exact ⟨line, List.mem_singleton.mp hisum, hpend⟩
    · intro line' hpend' _
      by_cases hne : line' = line
      · subst hne
        exact Or.inl (List.mem_singleton_self _)
      · exact Or.inr (pending_acknowledge hne hpend')

/-- A tick that stages nothing and leaves the latches alone is sound. -/
theorem tickSound_of_nothing {k : Tick} (hcauses : k.causes = []) (hcpu : k.machine.cpu = d.cpu)
    (hchip : k.machine.chipset = d.chipset) : TickSound d k := by
  refine ⟨?_, ?_, ?_, ?_, ?_⟩
  · rw [hcauses]
    exact hcpu
  · rw [hcauses]
    exact Nat.zero_le _
  · rw [hcauses]
    exact fun isum h => absurd h List.not_mem_nil
  · rw [hcauses]
    exact fun isum h => absurd h List.not_mem_nil
  · intro line hpend _
    rw [hchip]
    exact Or.inr hpend

/-- **A tick that is left to the injection is sound** iff the injection is not due, or finds the
error class pending and enabled in native mode. -/
theorem tickSound_inject :
    TickSound d ({ machine := d : Tick }.inject) ↔
      (d.injectionDue = true → d.cpu.palBase ≠ 0 →
        d.cpu.ier.getLsbD 33 = true ∧ d.cpu.inPalMode = false ∧
          IrqLine.irq0.pending d.chipset.cchip = true) := by
  cases hdue : d.injectionDue with
  | false =>
    have hk : ({ machine := d : Tick }.inject) = { machine := d } := by
      unfold Tick.inject
      rw [if_neg]
      simp [hdue]
    rw [hk]
    exact ⟨fun _ h => absurd h Bool.false_ne_true, fun _ => tickSound_of_nothing rfl rfl rfl⟩
  | true =>
    have hk : ({ machine := d : Tick }.inject)
        = { (if d.cpu.palBase ≠ 0 then { machine := d : Tick }.stage (1 <<< 33)
            else { machine := d }) with
          machine := { (if d.cpu.palBase ≠ 0 then { machine := d : Tick }.stage (1 <<< 33)
            else { machine := d }).machine with injectInterruptFired := true } } := by
      unfold Tick.inject
      rw [if_pos]
      simp [hdue]
    rw [hk]
    by_cases hpal : d.cpu.palBase = 0
    · rw [if_neg (not_not.mpr hpal)]
      exact ⟨fun _ _ h => absurd hpal h, fun _ => tickSound_of_nothing rfl rfl rfl⟩
    · rw [if_pos hpal]
      constructor
      · intro hsound _ _
        obtain ⟨hier, hnative⟩ :=
          hsound.enabled (1 <<< 33) (List.mem_singleton_self _) 0 (by decide) (by decide)
        obtain ⟨line, hmask, hpend⟩ := hsound.named (1 <<< 33) (List.mem_singleton_self _)
        -- the only class with this cause is the error class
        obtain rfl : line = .irq0 := by
          cases line <;> first | rfl | exact absurd hmask (by decide)
        exact ⟨hier, hnative, hpend⟩
      · intro hcond
        obtain ⟨hier, hnative, hpend⟩ := hcond rfl hpal
        refine ⟨rfl, le_rfl, ?_, ?_, ?_⟩
        · intro isum hisum n hn hbit
          rw [List.mem_singleton.mp hisum] at hbit
          have hzero := (getLsbD_isumMask .irq0 n hn).symm.trans hbit
          rw [decide_eq_true_iff] at hzero
          subst hzero
          exact ⟨hier, hnative⟩
        · intro isum hisum
          exact ⟨.irq0, List.mem_singleton.mp hisum, hpend⟩
        · intro line hpend _
          exact Or.inr hpend

/-- **When a tick is sound**: exactly when gate and cause agree. -/
theorem tickSound_iff (s : TickState) (lv : DeviceLevels) :
    TickSound (s.arm lv) (systemTick s lv) ↔ GatesAgree (s.arm lv) := by
  rw [systemTick_eq]
  generalize s.arm lv = d
  unfold GatesAgree
  cases hfirst : d.firstDeliverable with
  | none =>
    rw [Option.elim_none, tickSound_inject]
    simp
  | some line =>
    -- the first line found is a deliverable one
    have hdel : d.deliverable line = true := List.find?_some hfirst
    rw [Option.elim_some, tickSound_delivered hdel]
    simp

/-! ## A latched request over a run -/

/-- What happens between and in the ticks. -/
inductive TickEvent
  /-- A system tick with these device levels. -/
  | tick (lv : DeviceLevels)
  /-- The CPU executes and is left in this state. -/
  | instruction (cpu : CpuState)
  /-- A Cchip register is written. -/
  | cchipWrite (offset value : Word)
  /-- A device line other than the mirrored one changes. -/
  | deviceLine (bit : Nat) (level : Bool)
  /-- A nonexistent-memory access is latched. -/
  | latchNxm (srcCode : BitVec 3)
  /-- The 8259 pair is left in this state by port accesses. -/
  | pic (pic : Pic8259Pair)
  /-- The Cchip is reset. -/
  | cchipReset

namespace TickState

/-- Let a function change the Cchip. -/
def modifyCchip (s : TickState) (f : TsunamiCchip → TsunamiCchip) : TickState :=
  { s with chipset := { s.chipset with cchip := f s.chipset.cchip } }

/-- One event. -/
def step (s : TickState) : TickEvent → TickState
  | .tick lv => (systemTick s lv).machine
  | .instruction cpu => { s with cpu := cpu }
  | .cchipWrite offset value => s.modifyCchip fun c => c.write offset value
  | .deviceLine bit level => s.modifyCchip fun c => c.driveInterrupt bit level
  | .latchNxm srcCode => s.modifyCchip fun c => c.latchNxm srcCode
  | .pic pic => { s with chipset := { s.chipset with pic := pic } }
  | .cchipReset => s.modifyCchip TsunamiCchip.reset

/-- The event takes the line's request: the tick delivers it, the guest acknowledges it in MISC, or
the Cchip is reset. -/
def Takes (s : TickState) (line : IrqLine) : TickEvent → Prop
  | .tick lv => (s.arm lv).firstDeliverable = some line
  | .cchipWrite offset value => TsunamiCchip.Csr.decode offset = .misc ∧
      value.getLsbD (if line = .timer then 4 else 8) = true
  | .cchipReset => True
  | _ => False

end TickState

/-- A line with a latch. -/
def IrqLine.Latched (line : IrqLine) : Prop := line = .timer ∨ line = .interprocessor

/-- Driving a device line leaves the latches alone. -/
theorem pending_driveInterrupt {c : TsunamiCchip} (hl : line.Latched) (bit : Nat) (level : Bool) :
    line.pending (c.driveInterrupt bit level) = line.pending c := by
  unfold TsunamiCchip.driveInterrupt
  rcases hl with rfl | rfl <;> split <;> rfl

/-- The evaluation of the device lines leaves the latches alone. -/
theorem pending_evalDeviceIrqs {t : TsunamiChipset} (hl : line.Latched) (lv : DeviceLevels) :
    line.pending (t.evalDeviceIrqs lv).cchip = line.pending t.cchip := by
  have hpic : line.pending (t.driveLines lv).mirrorPic.cchip = line.pending t.cchip := by
    simp only [TsunamiChipset.mirrorPic]
    split
    · rfl
    · exact pending_driveInterrupt hl _ _
  rw [← hpic, TsunamiChipset.evalDeviceIrqs, TsunamiChipset.mirrorIic]
  cases (t.driveLines lv).mirrorPic.iicDrirBit with
  | none => rfl
  | some bit =>
    simp only
    split
    · rfl
    · exact pending_driveInterrupt hl _ _

/-- Firing the timer sets latches and clears none. -/
theorem pending_fireIntervalTimer {c : TsunamiCchip} (hl : line.Latched)
    (h : line.pending c = true) : line.pending c.fireIntervalTimer = true := by
  rcases hl with rfl | rfl
  · exact Bool.or_eq_true_iff.mpr (Or.inr h)
  · exact h

/-- The part of the tick before delivery keeps a latched request. -/
theorem pending_arm (hl : line.Latched) (h : line.pending s.chipset.cchip = true)
    (lv : DeviceLevels) : line.pending (s.arm lv).chipset.cchip = true := by
  -- the warp moves the clock and nothing of the chipset
  have hwarp : ∀ d : TickState, d.warpIdle.chipset = d.chipset := by
    intro d
    simp only [TickState.warpIdle]
    split <;> rfl
  have heval : line.pending ({ s with chipset := s.chipset.evalDeviceIrqs lv }.warpIdle).chipset.cchip
      = true := by
    rw [hwarp]
    exact (pending_evalDeviceIrqs hl lv).trans h
  unfold TickState.arm TickState.fireTimer
  split
  · exact pending_fireIntervalTimer hl heval
  · exact heval

/-- A tick keeps a latched request, unless it delivers it. -/
theorem pending_systemTick (hl : line.Latched) (h : line.pending s.chipset.cchip = true)
    (lv : DeviceLevels) (hne : (s.arm lv).firstDeliverable ≠ some line) :
    line.pending (systemTick s lv).machine.chipset.cchip = true := by
  have harm := pending_arm hl h lv
  rw [systemTick_eq]
  generalize s.arm lv = d at *
  cases hfirst : d.firstDeliverable with
  | none =>
    rw [Option.elim_none]
    -- an injection stages a divert into the CPU and leaves the Cchip alone
    have hchip : ({ machine := d : Tick }.inject).machine.chipset = d.chipset := by
      unfold Tick.inject
      split
      · simp only
        split <;> rfl
      · rfl
    rw [hchip]
    exact harm
  | some line' =>
    rw [Option.elim_some]
    refine pending_acknowledge (fun heq => hne ?_) harm
    rw [hfirst, heq]

/-- **One event keeps a latched request**, unless it takes it. -/
theorem pending_step {e : TickEvent} (hl : line.Latched)
    (h : line.pending s.chipset.cchip = true) (htake : ¬ s.Takes line e) :
    line.pending (s.step e).chipset.cchip = true := by
  cases e with
  | tick lv => exact pending_systemTick hl h lv htake
  | instruction cpu => exact h
  | cchipWrite offset value =>
    change line.pending (s.chipset.cchip.write offset value) = true
    unfold TsunamiCchip.write
    cases hcsr : TsunamiCchip.Csr.decode offset with
    | misc =>
      -- a MISC write clears a latch only through its own write-one-to-clear bit
      have hbit : value.getLsbD (if line = .timer then 4 else 8) = false := by
        rw [← Bool.not_eq_true]
        exact fun hb => htake ⟨hcsr, hb⟩
      rcases hl with rfl | rfl
      · rw [if_pos rfl] at hbit
        exact Bool.and_eq_true_iff.mpr ⟨(Bool.not_eq_true' _).mpr hbit, h⟩
      · rw [if_neg (by decide)] at hbit
        exact Bool.and_eq_true_iff.mpr
          ⟨(Bool.not_eq_true' _).mpr hbit, Bool.or_eq_true_iff.mpr (Or.inr h)⟩
    | dim cpu => rcases hl with rfl | rfl <;> exact h
    | iic cpu => rcases hl with rfl | rfl <;> exact h
    | other => exact h
  | deviceLine bit level => exact (pending_driveInterrupt hl bit level).trans h
  | latchNxm srcCode => rcases hl with rfl | rfl <;> exact h
  | pic pic => exact h
  | cchipReset => exact absurd trivial htake

/-- **What a tick delivers.** From every state, a tick stages at most one divert, with an enabled
cause, in native mode, naming a class that is pending, and loses no enabled class that it does not
deliver — exactly when gate and cause agree. And a latched timer or interprocessor request stays
over every run until a tick delivers it, the guest acknowledges it, or the Cchip is reset. -/
theorem systemTick_sound_iff (s : TickState) :
    (∀ lv, TickSound (s.arm lv) (systemTick s lv) ↔ GatesAgree (s.arm lv)) ∧
    ∀ (es : List TickEvent) (line : IrqLine), line.Latched →
      line.pending s.chipset.cchip = true →
      RunMeets TickState.step (fun s e => ¬ s.Takes line e) s es →
      line.pending (runFrom TickState.step s es).chipset.cchip = true := by
  refine ⟨tickSound_iff s, fun es line hl h hrun => ?_⟩
  exact hrun.invariant (fun s => line.pending s.chipset.cchip = true)
    (fun _ _ h hok => pending_step hl h hok) h

/-- A native CPU with PALcode loaded and only the device interrupt enabled, and a
nonexistent-memory error unmasked in DIM0. -/
def errorState (pc ier injectCycle : Word) (nxm : Bool) : TickState where
  cpu := { pc := pc, palBase := 0x8000, ier := ier }
  chipset :=
    { cchip :=
        { cpuCount := 1, crev := 1, misc := 0, drir := if nxm then BitVec.twoPow 64 63 else 0,
          dim := fun _ => BitVec.twoPow 64 63 } }
  palImageRelocated := true
  systemClock := 1
  injectInterruptCycle := injectCycle

/-- Two unsound ticks: an error divert with IER<33> clear and IER<34> set, and an injection into
PALcode with nothing pending and nothing enabled. -/
theorem systemTick_gate_and_cause_part :
    let lv : DeviceLevels := ⟨false, false, false, false⟩
    let err := errorState 0x1000 (BitVec.twoPow 64 34) 0 true
    let inj := errorState 0x1001 0 1 false
    ¬ TickSound (err.arm lv) (systemTick err lv) ∧ ¬ TickSound (inj.arm lv) (systemTick inj lv) := by
  refine ⟨fun h => ?_, fun h => ?_⟩
  · exact absurd (((tickSound_iff _ _).mp h).1 (by decide)) (by decide)
  · exact absurd (((tickSound_iff _ _).mp h).2 (by decide) (by decide) (by decide)).1 (by decide)

end EmulatR
