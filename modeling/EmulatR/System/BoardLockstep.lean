import EmulatR.System.Board
import EmulatR.System.Lockstep

/-! # Boards in lockstep

Which parts of a board no later cycle looks at: the line of a reservation that is not valid, the
timer and interprocessor latches of the CPUs other than CPU 0, which the tick never polls, and the
PAL_BASE values that only a load or a reset reads. `Board.Alike` relates boards that agree on
everything else. Such boards put out the same under every input, and show the same CPU, the same
memory and the same answer to every bus read, all along (`observations_eq`). -/

namespace EmulatR

open Library

/-! ## The interrupt chain -/

namespace TsunamiCchip

/-- The same registers, and the same latches of CPU 0. -/
def Alike (c c' : TsunamiCchip) : Prop :=
  ∃ irq2 irq3, c' = { c with pendingIrq2 := irq2, pendingIrq3 := irq3 } ∧
    irq2 cpu0 = c.pendingIrq2 cpu0 ∧ irq3 cpu0 = c.pendingIrq3 cpu0

variable {c c' : TsunamiCchip}

/-- Driving a device line keeps Cchips alike. -/
theorem Alike.driveInterrupt (h : c.Alike c') (bit : Nat) (level : Bool) :
    (c.driveInterrupt bit level).Alike (c'.driveInterrupt bit level) := by
  obtain ⟨irq2, irq3, rfl, h2, h3⟩ := h
  cases level with
  | false => exact ⟨irq2, irq3, rfl, h2, h3⟩
  | true => exact ⟨irq2, irq3, rfl, h2, h3⟩

/-- The report of an access to nothing keeps Cchips alike. -/
theorem Alike.latchNxm (h : c.Alike c') (srcCode : BitVec 3) :
    (c.latchNxm srcCode).Alike (c'.latchNxm srcCode) := by
  obtain ⟨irq2, irq3, rfl, h2, h3⟩ := h
  exact ⟨irq2, irq3, rfl, h2, h3⟩

/-- A write moves the latches of each CPU by themselves. -/
theorem Alike.write (h : c.Alike c') (offset value : Word) :
    (c.write offset value).Alike (c'.write offset value) := by
  obtain ⟨irq2, irq3, rfl, h2, h3⟩ := h
  unfold TsunamiCchip.write
  cases Csr.decode offset with
  | misc =>
    refine ⟨_, _, rfl, ?_, ?_⟩
    · exact congrArg (fun b => !value.getLsbD (4 + cpu0.val) && b) h2
    · exact congrArg (fun b => !value.getLsbD (8 + cpu0.val) &&
        ((value.getLsbD (12 + cpu0.val) && decide (cpu0.val < c.cpuCount)) || b)) h3
  | dim cpu => exact ⟨irq2, irq3, rfl, h2, h3⟩
  | iic cpu => exact ⟨irq2, irq3, rfl, h2, h3⟩
  | other => exact ⟨irq2, irq3, rfl, h2, h3⟩

/-- The interval timer keeps Cchips alike. -/
theorem Alike.fireIntervalTimer (h : c.Alike c') :
    c.fireIntervalTimer.Alike c'.fireIntervalTimer := by
  obtain ⟨irq2, irq3, rfl, h2, h3⟩ := h
  exact ⟨_, irq3, rfl, congrArg (decide (cpu0.val < c.cpuCount) || ·) h2, h3⟩

/-- Cchips that are alike have the same interrupts pending. -/
theorem Alike.pending (h : c.Alike c') (line : IrqLine) : line.pending c' = line.pending c := by
  obtain ⟨irq2, irq3, rfl, h2, h3⟩ := h
  cases line with
  | timer => exact h2
  | interprocessor => exact h3
  | irq0 => rfl
  | irq1 => rfl

/-- The acknowledge keeps them alike. -/
theorem Alike.acknowledge (h : c.Alike c') (line : IrqLine) :
    (line.acknowledge c).Alike (line.acknowledge c') := by
  obtain ⟨irq2, irq3, rfl, h2, h3⟩ := h
  cases line with
  | timer =>
    refine ⟨Function.update irq2 cpu0 false, irq3, rfl, ?_, h3⟩
    rw [Function.update_self]
    exact (Function.update_self cpu0 false c.pendingIrq2).symm
  | interprocessor =>
    refine ⟨irq2, Function.update irq3 cpu0 false, rfl, h2, ?_⟩
    rw [Function.update_self]
    exact (Function.update_self cpu0 false c.pendingIrq3).symm
  | irq0 => exact ⟨irq2, irq3, rfl, h2, h3⟩
  | irq1 => exact ⟨irq2, irq3, rfl, h2, h3⟩

/-- Cchips that are alike are saved alike. -/
theorem Alike.serialize (h : c.Alike c') : c'.serialize = c.serialize := by
  obtain ⟨irq2, irq3, rfl, -, -⟩ := h
  rfl

end TsunamiCchip

namespace TsunamiChipset

/-- The same chain behind Cchips that are alike. -/
def Alike (t t' : TsunamiChipset) : Prop := ∃ c, t' = { t with cchip := c } ∧ t.cchip.Alike c

variable {t t' : TsunamiChipset}

/-- Mirroring the interrupt controllers keeps device lines alike. -/
theorem Alike.mirrorPic (h : t.Alike t') : t.mirrorPic.Alike t'.mirrorPic := by
  obtain ⟨c, rfl, hc⟩ := h
  unfold TsunamiChipset.mirrorPic
  dsimp only
  split
  · exact ⟨c, rfl, hc⟩
  · exact ⟨_, rfl, hc.driveInterrupt _ _⟩

/-- Mirroring the IIC line keeps chains alike. -/
theorem Alike.mirrorIic (h : t.Alike t') (level : Bool) :
    (t.mirrorIic level).Alike (t'.mirrorIic level) := by
  obtain ⟨c, rfl, hc⟩ := h
  obtain ⟨cchip, pic, lastPicLevel, iicDrirBit, lastIicLevel⟩ := t
  cases iicDrirBit with
  | none => exact ⟨c, rfl, hc⟩
  | some bit =>
    simp only [TsunamiChipset.mirrorIic]
    split
    · exact ⟨c, rfl, hc⟩
    · exact ⟨_, rfl, hc.driveInterrupt _ _⟩

/-- The evaluation of all lines keeps chains alike. -/
theorem Alike.evalDeviceIrqs (h : t.Alike t') (lv : DeviceLevels) :
    (t.evalDeviceIrqs lv).Alike (t'.evalDeviceIrqs lv) := by
  have hlines : (t.driveLines lv).Alike (t'.driveLines lv) := by
    obtain ⟨c, rfl, hc⟩ := h
    exact ⟨c, rfl, hc⟩
  exact hlines.mirrorPic.mirrorIic lv.iic

/-- An acknowledge gets the same vector. -/
theorem Alike.acknowledgeDeviceInterrupt (h : t.Alike t') (lv : DeviceLevels) :
    Answers Alike (t.acknowledgeDeviceInterrupt lv) (t'.acknowledgeDeviceInterrupt lv) := by
  obtain ⟨c, rfl, hc⟩ := h
  have hack : Alike { t with pic := t.pic.acknowledge.1 }
      { { t with cchip := c } with pic := t.pic.acknowledge.1 } := ⟨c, rfl, hc⟩
  exact ⟨hack.evalDeviceIrqs lv, rfl⟩

end TsunamiChipset

/-! ## The tick -/

namespace TickState

/-- The same tick over chains that are alike. -/
def Alike (s s' : TickState) : Prop := ∃ t, s' = { s with chipset := t } ∧ s.chipset.Alike t

variable {s s' : TickState}

/-- An idle warp keeps ticks alike. -/
theorem Alike.warpIdle (h : s.Alike s') : s.warpIdle.Alike s'.warpIdle := by
  obtain ⟨t, rfl, ht⟩ := h
  unfold TickState.warpIdle TickState.accepts
  dsimp only
  split
  · exact ⟨t, rfl, ht⟩
  · exact ⟨t, rfl, ht⟩

/-- The timer keeps ticks alike. -/
theorem Alike.fireTimer (h : s.Alike s') : s.fireTimer.Alike s'.fireTimer := by
  obtain ⟨t, rfl, c, rfl, hc⟩ := h
  unfold TickState.fireTimer
  dsimp only
  split
  · exact ⟨_, rfl, _, rfl, hc.fireIntervalTimer⟩
  · exact ⟨_, rfl, _, rfl, hc⟩

/-- The arming of interrupts keeps ticks alike. -/
theorem Alike.arm (h : s.Alike s') (lv : DeviceLevels) : (s.arm lv).Alike (s'.arm lv) := by
  have heval : Alike { s with chipset := s.chipset.evalDeviceIrqs lv }
      { s' with chipset := s'.chipset.evalDeviceIrqs lv } := by
    obtain ⟨t, rfl, ht⟩ := h
    exact ⟨_, rfl, ht.evalDeviceIrqs lv⟩
  exact heval.warpIdle.fireTimer

/-- Ticks that are alike deliver the same interrupt first. -/
theorem Alike.firstDeliverable (h : s.Alike s') : s'.firstDeliverable = s.firstDeliverable := by
  obtain ⟨t, rfl, c, rfl, hc⟩ := h
  have hline : ∀ line, TickState.deliverable { s with chipset := { s.chipset with cchip := c } }
      line = s.deliverable line := by
    intro line
    rw [deliverable, deliverable, hc.pending line]
    rfl
  unfold TickState.firstDeliverable
  rw [funext hline]

/-- The delivery of an interrupt keeps machines alike. -/
theorem Alike.delivered (h : s.Alike s') (line : IrqLine) :
    (s.delivered line).machine.Alike (s'.delivered line).machine := by
  obtain ⟨t, rfl, c, rfl, hc⟩ := h
  exact ⟨_, rfl, _, rfl, hc.acknowledge line⟩

/-- The injected interrupt keeps machines alike. -/
theorem Alike.inject (h : s.Alike s') :
    ({ machine := s : Tick }.inject).machine.Alike ({ machine := s' : Tick }.inject).machine := by
  obtain ⟨t, rfl, ht⟩ := h
  unfold Tick.inject Tick.stage TickState.injectionDue
  dsimp only
  split
  · split
    · exact ⟨t, rfl, ht⟩
    · exact ⟨t, rfl, ht⟩
  · exact ⟨t, rfl, ht⟩

/-- The tick keeps chains alike. -/
theorem Alike.systemTick (h : s.Alike s') (lv : DeviceLevels) :
    (systemTick s lv).machine.Alike (systemTick s' lv).machine := by
  have harm := h.arm lv
  rw [systemTick_eq, systemTick_eq, harm.firstDeliverable]
  cases (s.arm lv).firstDeliverable with
  | none => exact harm.inject
  | some line => exact harm.delivered line

end TickState

/-! ## The devices -/

namespace BoardDevices

variable {ε ι ο : Type}

/-- The same devices behind chains that are alike. -/
def Alike (d d' : BoardDevices ε) : Prop := ∃ t, d' = { d with irq := t } ∧ d.irq.Alike t

variable {P : BoardParts ε ι ο} {d d' : BoardDevices ε}

/-- A PCI access gets the same answer. -/
theorem Alike.pciAccess (h : d.Alike d') (a : PciAccess) :
    Answers Alike (P.pciAccess d a) (P.pciAccess d' a) := by
  obtain ⟨t, rfl, c, rfl, hc⟩ := h
  exact ⟨⟨_, rfl, _, rfl, hc⟩, rfl⟩

/-- An interrupt acknowledge keeps devices alike. -/
theorem Alike.iack (h : d.Alike d') : Answers Alike (P.iack d) (P.iack d') := by
  obtain ⟨t, rfl, ht⟩ := h
  obtain ⟨hirq, hans⟩ := ht.acknowledgeDeviceInterrupt (P.levels (P.poll d.pci))
  simp only [BoardParts.iack, ← hans]
  exact ⟨⟨_, rfl, hirq⟩, rfl⟩

/-- A read of the registers keeps devices alike, with the same answer. -/
theorem Alike.mmioRead (h : d.Alike d') (off : Word) (width : Nat) :
    Answers Alike (TsunamiBus.mmioRead P.busDevices d off width)
      (TsunamiBus.mmioRead P.busDevices d' off width) := by
  unfold TsunamiBus.mmioRead
  cases TsunamiBus.routeRead off with
  | iack => exact h.iack
  | pchip1 => exact ⟨h, rfl⟩
  | sparseMem o => exact h.pciAccess _
  | sparseIo o => exact h.pciAccess _
  | cchip o =>
    refine ⟨h, ?_⟩
    obtain ⟨t, rfl, c, rfl, hc⟩ := h
    exact congrArg (P.cchipRead d.cchipConfig · o) hc.serialize.symm
  | dchip o =>
    refine ⟨h, ?_⟩
    obtain ⟨t, rfl, ht⟩ := h
    rfl
  | pchip o => exact h.pciAccess _

/-- A write of them keeps boards alike. -/
theorem Alike.mmioWrite (h : d.Alike d') (off value : Word) (width : Nat) :
    (TsunamiBus.mmioWrite P.busDevices d off value width).Alike
      (TsunamiBus.mmioWrite P.busDevices d' off value width) := by
  unfold TsunamiBus.mmioWrite
  cases TsunamiBus.routeWrite off with
  | iack => exact h
  | pchip1 => exact h
  | sparseMem o => exact h
  | sparseIo o => exact (h.pciAccess _).1
  | cchip o =>
    obtain ⟨t, rfl, c, rfl, hc⟩ := h
    exact ⟨_, rfl, _, rfl, hc.write o value⟩
  | dchip o =>
    obtain ⟨t, rfl, ht⟩ := h
    exact ⟨t, rfl, ht⟩
  | pchip o => exact (h.pciAccess _).1

/-- The report of an access to nothing keeps devices alike. -/
theorem Alike.reportNxm (h : d.Alike d') (pa : Word) :
    (P.busDevices.reportNxm d pa).Alike (P.busDevices.reportNxm d' pa) := by
  obtain ⟨t, rfl, c, rfl, hc⟩ := h
  exact ⟨_, rfl, _, rfl, hc.latchNxm 0⟩

/-- Addresses are decoded alike. -/
theorem Alike.decodeRead (h : d.Alike d') (pa : Word) :
    TsunamiBus.decodeRead P.busDevices d' pa = TsunamiBus.decodeRead P.busDevices d pa := by
  obtain ⟨t, rfl, -⟩ := h
  rfl

end BoardDevices

section

variable {ε ι ο : Type}

/-- The same scratch RAM beside devices that are alike. -/
def BusSideAlike (s s' : TsunamiBus.BusSide (BoardDevices ε)) : Prop :=
  ∃ d, s' = { s with devices := d } ∧ s.devices.Alike d

variable {P : BoardParts ε ι ο} {s s' : TsunamiBus.BusSide (BoardDevices ε)}

/-- A read of the bus gets the same answer. -/
theorem BusSideAlike.read (h : BusSideAlike s s') (pa : Word) (width : Nat) :
    Answers BusSideAlike ((TsunamiBus.toDevices P.busDevices).read s pa width)
      ((TsunamiBus.toDevices P.busDevices).read s' pa width) := by
  obtain ⟨d, rfl, hd⟩ := h
  simp only [TsunamiBus.toDevices, TsunamiBus.read, hd.decodeRead]
  cases TsunamiBus.decodeRead P.busDevices s.devices pa with
  | palScratch off => exact ⟨⟨d, rfl, hd⟩, rfl⟩
  | dram pa => exact ⟨⟨d, rfl, hd⟩, rfl⟩
  | flash off =>
    obtain ⟨t, rfl, ht⟩ := hd
    exact ⟨⟨_, rfl, t, rfl, ht⟩, rfl⟩
  | traceArm => exact ⟨⟨d, rfl, hd⟩, rfl⟩
  | tig pa =>
    obtain ⟨t, rfl, ht⟩ := hd
    exact ⟨⟨_, rfl, t, rfl, ht⟩, rfl⟩
  | mmio off =>
    obtain ⟨hdev, hans⟩ := hd.mmioRead (P := P) off width
    exact ⟨⟨_, rfl, hdev⟩, congrArg (BusResult.mk .ok) hans⟩
  | nxm => exact ⟨⟨_, rfl, hd.reportNxm pa⟩, rfl⟩

/-- A write keeps the bus sides alike, with the same answer. -/
theorem BusSideAlike.write (h : BusSideAlike s s') (pa value : Word) (width : Nat) :
    Answers BusSideAlike ((TsunamiBus.toDevices P.busDevices).write s pa value width)
      ((TsunamiBus.toDevices P.busDevices).write s' pa value width) := by
  obtain ⟨d, rfl, hd⟩ := h
  simp only [TsunamiBus.toDevices, TsunamiBus.write, TsunamiBus.decodeWrite_eq, hd.decodeRead]
  split
  · exact ⟨⟨d, rfl, hd⟩, rfl⟩
  · cases TsunamiBus.decodeRead P.busDevices s.devices pa with
    | palScratch off =>
      dsimp only
      split
      · exact ⟨⟨d, rfl, hd⟩, rfl⟩
      · exact ⟨⟨d, rfl, hd⟩, rfl⟩
    | dram pa => exact ⟨⟨d, rfl, hd⟩, rfl⟩
    | flash off =>
      obtain ⟨t, rfl, ht⟩ := hd
      exact ⟨⟨_, rfl, t, rfl, ht⟩, rfl⟩
    | traceArm => exact ⟨⟨d, rfl, hd⟩, rfl⟩
    | tig pa =>
      obtain ⟨t, rfl, ht⟩ := hd
      exact ⟨⟨_, rfl, t, rfl, ht⟩, rfl⟩
    | mmio off => exact ⟨⟨_, rfl, hd.mmioWrite off value width⟩, rfl⟩
    | nxm => exact ⟨⟨_, rfl, hd.reportNxm pa⟩, rfl⟩

/-- **The board's devices respect the relation.** -/
theorem BoardParts.config_respects (P : BoardParts ε ι ο) : P.config.Respects BusSideAlike where
  devices :=
    { dramClaims := by
        rintro s _ ⟨d, rfl, hd⟩ pa
        exact congrArg (· == TsunamiBus.Claimant.dram pa) (hd.decodeRead pa)
      read := BusSideAlike.read
      write := BusSideAlike.write }
  tryFetch := by
    rintro s _ ⟨d, rfl, t, rfl, -⟩ pa
    rfl

end

/-! ## The board -/

namespace Board

variable {ε ι ο : Type}

/-- The boards agree on everything a later cycle looks at. -/
structure Alike (m m' : Board ε) : Prop where
  /-- The machines with their warps are alike. -/
  warp : WarpMachine.Alike BusSideAlike m.warp m'.warp
  /-- The clocks agree. -/
  systemClock : m'.systemClock = m.systemClock
  /-- So do the cycles of the injected interrupt. -/
  injectInterruptCycle : m'.injectInterruptCycle = m.injectInterruptCycle
  /-- And whether it has been taken. -/
  injectInterruptFired : m'.injectInterruptFired = m.injectInterruptFired

variable {P : BoardParts ε ι ο} {sw : WarpSwitches} {m m' : Board ε}

/-- Boards that are alike have one CPU state. -/
theorem Alike.cpu (h : m.Alike m') : m'.cpu = m.cpu := h.warp.machine.cpu

/-- Boards that are alike have devices that are alike. -/
theorem Alike.devices (h : m.Alike m') : m.devices.Alike m'.devices := by
  obtain ⟨d, hd, hdev⟩ := h.warp.machine.bus.devices
  rw [Board.devices, Board.devices, hd]
  exact hdev

/-- Devices that are alike may be exchanged. -/
theorem Alike.setDevices (h : m.Alike m') {d d' : BoardDevices ε} (hd : d.Alike d') :
    (m.setDevices d).Alike (m'.setDevices d') := by
  refine ⟨⟨⟨h.cpu, ⟨h.warp.machine.bus.memory, ?_⟩, h.warp.machine.locks⟩, h.warp.warpCycles,
    h.warp.spin⟩, h.systemClock, h.injectInterruptCycle, h.injectInterruptFired⟩
  obtain ⟨e, he, -⟩ := h.warp.machine.bus.devices
  refine ⟨d', ?_, hd⟩
  change { m'.warp.machine.bus.devices with devices := d' } = _
  rw [he]
  rfl

/-- What comes before a fetch keeps them alike. -/
theorem Alike.beforeFetch (h : m.Alike m') : m.beforeFetch.Alike m'.beforeFetch := by
  simp only [Board.beforeFetch, h.cpu]
  cases (Ev6Translator.translateInstruction m.cpu m.cpu.pc).pa? with
  | none => exact h
  | some pa =>
    refine rel_ite Iff.rfl h (h.setDevices ?_)
    obtain ⟨t, hd, ht⟩ := h.devices
    rw [hd]
    exact ⟨t, rfl, ht⟩

variable (P sw)

/-- An instruction keeps boards alike. -/
theorem Alike.instruct (h : m.Alike m') : (m.instruct P sw).Alike (m'.instruct P sw) := by
  have hw := h.beforeFetch.warp.warpedStep P.config_respects sw.rscc
  refine ⟨hw, ?_, h.injectInterruptCycle, h.injectInterruptFired⟩
  simp only [Board.instruct, h.systemClock, h.cpu, hw.machine.cpu]

/-- The ticks of boards that are alike begin alike. -/
theorem Alike.tickState (h : m.Alike m') : (m.tickState sw).Alike (m'.tickState sw) := by
  obtain ⟨t, hd, ht⟩ := h.devices
  refine ⟨t, ?_, ht⟩
  simp only [Board.tickState, h.cpu, hd, h.systemClock, h.injectInterruptCycle,
    h.injectInterruptFired]

/-- The same input moves the PCI devices of boards that are alike to the same state. -/
theorem Alike.pciAfter (h : m.Alike m') (i : ι) : m'.pciAfter P i = m.pciAfter P i := by
  obtain ⟨t, hd, -⟩ := h.devices
  rw [Board.pciAfter, Board.pciAfter, hd]

/-- A tick keeps them alike. -/
theorem Alike.tick (h : m.Alike m') (i : ι) : (m.tick P sw i).Alike (m'.tick P sw i) := by
  obtain ⟨t, ht, hirq⟩ := (h.tickState sw).systemTick (P.levels (m.pciAfter P i))
  obtain ⟨u, hd, -⟩ := h.devices
  have hboard : Alike (m.setCpu (systemTick (m.tickState sw)
        (P.levels (m.pciAfter P i))).machine.cpu)
      (m'.setCpu (systemTick (m.tickState sw) (P.levels (m.pciAfter P i))).machine.cpu) :=
    ⟨⟨⟨rfl, h.warp.machine.bus, h.warp.machine.locks⟩, h.warp.warpCycles, h.warp.spin⟩,
      h.systemClock, h.injectInterruptCycle, h.injectInterruptFired⟩
  have hdev : BoardDevices.Alike
      { m.devices with
        irq := (systemTick (m.tickState sw) (P.levels (m.pciAfter P i))).machine.chipset
        pci := m.pciAfter P i }
      { m'.devices with irq := t, pci := m.pciAfter P i } := ⟨t, by rw [hd], hirq⟩
  have hset := hboard.setDevices hdev
  simp only [Board.tick, h.pciAfter P, ht, h.systemClock, h.warp.warpCycles]
  exact ⟨⟨hset.warp.machine, rfl, hset.warp.spin⟩, rfl, h.injectInterruptCycle, rfl⟩

/-- The end of a cycle keeps boards alike. -/
theorem Alike.finish (h : m.Alike m') (i : Input ι) :
    (m.finish P sw i).Alike (m'.finish P sw i) := by
  unfold Board.finish
  rw [h.cpu]
  exact rel_ite Iff.rfl h (h.tick P sw i.arrives)

/-- Boards that are alike send the same to the outside. -/
theorem Alike.emit (h : m.Alike m') : Answers Alike (m.emit P) (m'.emit P) := by
  obtain ⟨t, hd, ht⟩ := h.devices
  unfold Board.emit
  rw [hd]
  exact ⟨h.setDevices ⟨t, rfl, ht⟩, rfl⟩

/-- **Boards that are alike stay alike, and put out the same.** -/
theorem Alike.cycle (h : m.Alike m') (i : Input ι) :
    Answers Alike (m.cycle P sw i) (m'.cycle P sw i) := by
  obtain ⟨hexecute, hout⟩ := (h.instruct P sw).emit P
  obtain ⟨hfinish, hout'⟩ := (hexecute.finish P sw i).emit P
  exact ⟨hfinish, Prod.ext hout hout'⟩

/-! ## What a board shows -/

/-- What can be seen of a board: the CPU with its skipped cycles, guest memory, and what a read of
any address and width answers, the CSRs and the PAL scratch RAM included. -/
structure Observed where
  /-- The CPU. -/
  cpu : CpuState
  /-- The cycles that were warped over. -/
  warpCycles : Word
  /-- Memory. -/
  memory : GuestMemory
  /-- What any read of the bus would answer. -/
  read : Word → Nat → BusResult

/-- What can be seen of a board. -/
def observe (m : Board ε) : Observed where
  cpu := m.cpu
  warpCycles := m.warp.warpCycles
  memory := m.memory
  read pa width := (m.warp.machine.bus.read P.config.devices pa width).2

/-- Boards that are alike look the same. -/
theorem Alike.observe (h : m.Alike m') : m'.observe P = m.observe P := by
  have hread : ∀ pa width, (m'.warp.machine.bus.read P.config.devices pa width).2 =
      (m.warp.machine.bus.read P.config.devices pa width).2 := fun pa width =>
    (h.warp.machine.bus.read P.config_respects.devices pa width).2.symm
  simp only [Board.observe, h.cpu, h.warp.warpCycles, Board.memory, h.warp.machine.bus.memory,
    hread]

/-- One cycle, with what can be seen after it and what it has put out. -/
def observedCycle (m : Board ε) (i : Input ι) : Board ε × (Observed × ο × ο) :=
  let x := m.cycle P sw i
  (x.1, x.1.observe P, x.2)

/-- What can be seen of a board, now and after every cycle of a run. -/
def observations (m : Board ε) (inputs : List (Input ι)) : Observed × List (Observed × ο × ο) :=
  (m.observe P, outputs (observedCycle P sw) m inputs)

variable {P sw} in
/-- Boards that show the same over one cycle have the same CPU after it. -/
theorem cpu_cycle_of_observations {i : Input ι}
    (h : m'.observations P sw [i] = m.observations P sw [i]) :
    (m'.cycle P sw i).1.cpu = (m.cycle P sw i).1.cpu := by
  have hshown := congrArg (fun o => o.2.map fun x => x.1.cpu) h
  exact List.singleton_inj.mp hshown

/-- **Boards that are alike cannot be told apart.** -/
theorem Alike.observations (h : m.Alike m') (inputs : List (Input ι)) :
    m'.observations P sw inputs = m.observations P sw inputs := by
  have hstep : ∀ (a b : Board ε) (i : Input ι), a.Alike b → True →
      Answers Alike (a.observedCycle P sw i) (b.observedCycle P sw i) := by
    intro a b i hab _
    obtain ⟨hcycle, hout⟩ := hab.cycle P sw i
    exact ⟨hcycle, Prod.ext (hcycle.observe P).symm hout⟩
  rw [Board.observations, Board.observations, h.observe P,
    outputs_eq_of_simulation Alike hstep h fun _ _ => trivial]

end Board

end EmulatR
