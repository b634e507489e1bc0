import EmulatR.System.BoardLockstep
import EmulatR.System.SnapshotRoundTrip

/-! # Going on from a snapshot

A board is saved, the file is loaded into a fresh board of the same build, and both go on. This is
meant to make no difference: the contract of systemLib/Snapshot.h is that the two runs are
bit-identical. It makes none as long as what the file leaves out (`Unsaved`) is on the saved board
what it is on the fresh one: the board that comes back is then alike to the one that was saved, and
`Board.Alike.observations` does the rest.

A snapshot is taken between two cycles, or by the machine itself in the middle of one: the periodic,
the console and the PC-triggered captures stand in the system tick, in front of the device lines and
the timer. There the board that was saved still finishes its tick, and the restored one does not.

`faithful_of_portable` is the condition that is enough; `reservation_is_lost` is a snapshot in the
middle of a locked sequence. -/

namespace EmulatR

open Library Library.Codec

/-! ## Runs -/

namespace Board

variable {ε ι ο : Type} (P : BoardParts ε ι ο) (sw : WarpSwitches)

/-- The board after a run. -/
def run (m : Board ε) (inputs : List (Input ι)) : Board ε :=
  runFrom (fun b i => (b.cycle P sw i).1) m inputs

/-- The clock is the CPU's counter, as a board is built, reset and restored. -/
def ClocksAgree (m : Board ε) : Prop := m.systemClock = m.cpu.cycleCount

variable {P sw} {m : Board ε}

/-- An instruction keeps the clocks together. -/
theorem ClocksAgree.instruct (h : m.ClocksAgree) : (m.instruct P sw).ClocksAgree := by
  change m.systemClock + ((m.instruct P sw).cpu.cycleCount - m.cpu.cycleCount) = _
  rw [show m.systemClock = m.cpu.cycleCount from h, add_sub_cancel]

/-- A tick keeps the clocks in agreement. -/
theorem ClocksAgree.tick (h : m.ClocksAgree) (i : ι) : (m.tick P sw i).ClocksAgree := by
  obtain ⟨hclock, hcycle⟩ := systemTick_counters (m.tickState sw) (P.levels (m.pciAfter P i))
  obtain ⟨hclock', hcycle'⟩ := arm_counters (m.tickState sw) (P.levels (m.pciAfter P i))
  change (systemTick (m.tickState sw) (P.levels (m.pciAfter P i))).machine.systemClock =
    (systemTick (m.tickState sw) (P.levels (m.pciAfter P i))).machine.cpu.cycleCount
  rw [hclock, hcycle, hclock', hcycle', TickState.clockAfter]
  split
  · rfl
  · exact h

/-- The end of a cycle keeps the clocks in agreement. -/
theorem ClocksAgree.finish (h : m.ClocksAgree) (i : Input ι) : (m.finish P sw i).ClocksAgree := by
  unfold Board.finish
  split
  · exact h
  · exact h.tick i.arrives

/-- The beginning of a cycle keeps the clocks in agreement. -/
theorem ClocksAgree.execute (h : m.ClocksAgree) : (m.execute P sw).1.ClocksAgree := h.instruct

/-- A cycle keeps the clocks in agreement. -/
theorem ClocksAgree.cycle (h : m.ClocksAgree) (i : Input ι) : (m.cycle P sw i).1.ClocksAgree :=
  h.execute.finish i

/-- A run keeps the clocks in agreement. -/
theorem ClocksAgree.run (h : m.ClocksAgree) (inputs : List (Input ι)) :
    (m.run P sw inputs).ClocksAgree :=
  runFrom_invariant ClocksAgree (fun _ i hb => hb.cycle i) inputs h

end Board

namespace Snapshot

variable {ε ι ο : Type}

/-! ## What the file leaves out -/

/-- The state of a board that is in no section of the file. -/
structure Unsaved (ε : Type) where
  /-- The line each CPU has reserved. -/
  reservations : Fin 4 → Option Word
  /-- The timer and interprocessor latches of CPU 0. -/
  pendingIrq2 : Bool
  /-- The latch of the inter-processor interrupt. -/
  pendingIrq3 : Bool
  /-- The level of the IIC line that was seen last. -/
  lastIicLevel : Bool
  /-- The PAL scratch page. -/
  palScratch : Nat → BitVec 8
  /-- The TIG registers. -/
  tig : TsunamiTig
  /-- The transmit filters of the serial ports. -/
  filter1 : BadgeState × List (BitVec 8) × List (BitVec 8)
  /-- The transmit filter of the second serial port. -/
  filter2 : BadgeState × List (BitVec 8) × List (BitVec 8)
  /-- The IIC transaction, and the address pointer of every IIC device. -/
  iicController : IicPcf8584.Controller
  /-- The address pointers of the IIC devices. -/
  iicOffsets : List (BitVec 8)
  /-- The devices that have no snapshot support at all. -/
  others : ε
  /-- The spin detector. -/
  spin : SpinDetector
  /-- Whether the injected interrupt has been taken. -/
  injectInterruptFired : Bool
  /-- The bytes of the last page past the end of the memory. -/
  beyond : BitVec 48 → Option (BitVec 8)

/-- The transmit filter of a serial port. -/
def filterOf (u : Uart16550) : BadgeState × List (BitVec 8) × List (BitVec 8) :=
  (u.badgeState, u.badgePend, u.badgeSuf)

/-- What a snapshot of the board leaves out. -/
def unsaved (m : Board ε) : Unsaved ε where
  reservations i :=
    if (m.warp.machine.locks i).valid then some (m.warp.machine.locks i).pa else none
  pendingIrq2 := m.devices.irq.cchip.pendingIrq2 TsunamiCchip.cpu0
  pendingIrq3 := m.devices.irq.cchip.pendingIrq3 TsunamiCchip.cpu0
  lastIicLevel := m.devices.irq.lastIicLevel
  palScratch := m.palScratch
  tig := m.devices.tig
  filter1 := filterOf m.devices.pci.com1
  filter2 := filterOf m.devices.pci.com2
  iicController := m.devices.pci.iic.controller
  iicOffsets := m.devices.pci.iic.devices.map (·.offset)
  others := m.devices.pci.others
  spin := m.warp.spin
  injectInterruptFired := m.injectInterruptFired
  beyond c := if m.memSize.toNat ≤ c.toNat then some (m.memory.bytes c) else none

/-- The boards are built alike: besides the sizes, the same chips, the same devices on the IIC bus,
and the same command line. -/
structure SameBuild (m fresh : Board ε) : Prop extends SameConfig m fresh where
  /-- One model. -/
  model : fresh.devices.model = m.devices.model
  /-- One number of CPUs. -/
  cpuCount : fresh.devices.irq.cchip.cpuCount = m.devices.irq.cchip.cpuCount
  /-- One revision of the Cchip. -/
  crev : fresh.devices.irq.cchip.crev = m.devices.irq.cchip.crev
  /-- One interrupt bit of the IIC controller. -/
  iicDrirBit : fresh.devices.irq.iicDrirBit = m.devices.irq.iicDrirBit
  /-- The same devices on the IIC bus. -/
  iicBus : fresh.devices.pci.iic.devices.map (fun d => (d.address, d.kind)) =
    m.devices.pci.iic.devices.map fun d => (d.address, d.kind)
  /-- One injected interrupt. -/
  injectInterruptCycle : fresh.injectInterruptCycle = m.injectInterruptCycle

/-- **What a snapshot can carry over**: the file holds the memory and the payload, the flash is not
in a command, and what the file leaves out is on the fresh board already. -/
structure Portable (m fresh : Board ε) : Prop where
  /-- What is saved survives the round trip. -/
  transferable : Transferable m
  /-- The flash ROM is not in the middle of a command. -/
  flashRead : m.devices.flash.mode = .read
  /-- The other board already has what is left out. -/
  unsaved : unsaved fresh = unsaved m

/-! ## The board that comes back -/

/-- Monitors with the same valid reservations are alike. -/
theorem alike_of_reservations {l l' : LockMonitor}
    (h : ∀ i, (if (l' i).valid then some (l' i).pa else none) =
      if (l i).valid then some (l i).pa else none) : l.Alike l' := by
  intro i
  have hi := h i
  cases hv : (l i).valid with
  | false =>
    rw [hv, if_neg Bool.false_ne_true] at hi
    cases hv' : (l' i).valid with
    | false => exact ⟨rfl, fun hvalid => absurd hvalid Bool.false_ne_true⟩
    | true => rw [hv', if_pos rfl] at hi; exact absurd hi (Option.some_ne_none _)
  | true =>
    rw [hv, if_pos rfl] at hi
    cases hv' : (l' i).valid with
    | false => rw [hv', if_neg Bool.false_ne_true] at hi; exact absurd hi.symm (Option.some_ne_none _)
    | true =>
      rw [hv', if_pos rfl] at hi
      exact ⟨rfl, fun _ => Option.some.inj hi⟩

/-- A filter that is there already need not be saved. -/
theorem withFilter_eq {u old : Uart16550} (h : filterOf old = filterOf u) :
    withFilter u old = u := by
  obtain ⟨hstate, hpend, hsuf⟩ := Prod.mk.inj h |>.imp_right Prod.mk.inj
  simp only [withFilter, hstate, hpend, hsuf]

/-- Restoring device contents over equal addresses, offsets and controller gives the saved bus. -/
theorem withContent_eq {iic old : IicPcf8584}
    (hbus : old.devices.map (fun d => (d.address, d.kind)) =
      iic.devices.map fun d => (d.address, d.kind))
    (hoffsets : old.devices.map (·.offset) = iic.devices.map (·.offset))
    (hcontroller : old.controller = iic.controller) : withContent iic old = iic := by
  have hlen : old.devices.length = iic.devices.length := by simpa using congrArg List.length hbus
  have himages := image_withContent hlen
  have hsize : (contentImage iic).length = old.devices.length * IicPcf8584.kImageSize := by
    rw [length_contentImage, hlen]
  have hdevices : (withContent iic old).devices = iic.devices := by
    rw [withContent, restoreContentImage, if_pos hsize] at himages ⊢
    apply List.ext_getElem
    · simpa using hlen
    · intro i hi hi'
      -- a device is its content, its place on the bus and its pointer
      have himage := List.getElem_of_eq himages (i := i) (by simpa using hi)
      have hplace := List.getElem_of_eq hbus (i := i) (by simpa using hi)
      have hoffset := List.getElem_of_eq hoffsets (i := i) (by simpa using hi)
      simp only [List.getElem_map, List.getElem_mapIdx, Prod.mk.injEq] at himage hplace hoffset ⊢
      rw [himage, hplace.1, hplace.2, hoffset]
  have hkept : (withContent iic old).controller = old.controller := by
    rw [withContent, restoreContentImage, if_pos hsize]
  generalize withContent iic old = back at hdevices hkept
  obtain ⟨controller, devices, nodup⟩ := back
  obtain rfl : devices = iic.devices := hdevices
  obtain rfl : controller = iic.controller := hkept.trans hcontroller
  rfl

/-- Restoring memory over equal memory beyond the saved size gives the saved memory. -/
theorem withMemory_eq {mem old : GuestMemory} {size : Nat} (hcount : old.pageCount = mem.pageCount)
    (hbeyond : ∀ c : BitVec 48, size ≤ c.toNat → old.bytes c = mem.bytes c) :
    withMemory mem size old = mem := by
  have hbytes : (fun c => if c.toNat < size then mem.bytes c else old.bytes c) = mem.bytes := by
    funext c
    by_cases hc : c.toNat < size
    · exact if_pos hc
    · rw [if_neg hc]
      exact hbeyond c (Nat.le_of_not_lt hc)
  rw [withMemory, hcount, hbytes]

variable {m fresh : Board ε}

/-- The devices that are restored behave like those that were saved. -/
theorem adoptDevices_alike (hbuild : SameBuild m fresh) (h : Portable m fresh) :
    m.devices.Alike (adoptDevices m.devices fresh.devices) := by
  have hu := h.unsaved
  have hflash : ({ m.devices.flash with mode := .read } : FlashRom) = m.devices.flash := by
    rw [← h.flashRead]
  have hcom1 : withFilter m.devices.pci.com1 fresh.devices.pci.com1 = m.devices.pci.com1 :=
    withFilter_eq (congrArg Unsaved.filter1 hu)
  have hcom2 : withFilter m.devices.pci.com2 fresh.devices.pci.com2 = m.devices.pci.com2 :=
    withFilter_eq (congrArg Unsaved.filter2 hu)
  have hiic : withContent m.devices.pci.iic fresh.devices.pci.iic = m.devices.pci.iic :=
    withContent_eq hbuild.iicBus (congrArg Unsaved.iicOffsets hu)
      (congrArg Unsaved.iicController hu)
  have hsrm : clipPayload m.devices.srm = m.devices.srm :=
    (clipPayload_eq_self_iff _).mpr ((clip_eq_self_iff _).mpr h.transferable.2)
  have htig : fresh.devices.tig = m.devices.tig := congrArg Unsaved.tig hu
  have hothers : fresh.devices.pci.others = m.devices.pci.others := congrArg Unsaved.others hu
  refine ⟨(adoptDevices m.devices fresh.devices).irq, ?_, ?_⟩
  · calc
      adoptDevices m.devices fresh.devices
        = { m.devices with
            variant := fresh.devices.variant
            model := fresh.devices.model
            irq := (adoptDevices m.devices fresh.devices).irq
            flash := { m.devices.flash with mode := .read }
            tig := fresh.devices.tig
            pci := { m.devices.pci with
              com1 := withFilter m.devices.pci.com1 fresh.devices.pci.com1
              com2 := withFilter m.devices.pci.com2 fresh.devices.pci.com2
              iic := withContent m.devices.pci.iic fresh.devices.pci.iic
              others := fresh.devices.pci.others }
            srm := clipPayload m.devices.srm } := rfl
      _ = { m.devices with irq := (adoptDevices m.devices fresh.devices).irq } := by
        rw [hbuild.variant, hbuild.model, hflash, htig, hcom1, hcom2, hiic, hothers, hsrm]
  · have hlevel : fresh.devices.irq.lastIicLevel = m.devices.irq.lastIicLevel :=
      congrArg Unsaved.lastIicLevel hu
    refine ⟨fresh.devices.irq.cchip.deserialize m.devices.irq.cchip.serialize, ?_, ?_⟩
    · calc
        (adoptDevices m.devices fresh.devices).irq
          = { m.devices.irq with
              cchip := fresh.devices.irq.cchip.deserialize m.devices.irq.cchip.serialize
              iicDrirBit := fresh.devices.irq.iicDrirBit
              lastIicLevel := fresh.devices.irq.lastIicLevel } := rfl
        _ = { m.devices.irq with
              cchip := fresh.devices.irq.cchip.deserialize m.devices.irq.cchip.serialize } := by
          rw [hbuild.iicDrirBit, hlevel]
    · refine ⟨fresh.devices.irq.cchip.pendingIrq2, fresh.devices.irq.cchip.pendingIrq3, ?_,
        congrArg Unsaved.pendingIrq2 hu, congrArg Unsaved.pendingIrq3 hu⟩
      rw [TsunamiCchip.deserialize, hbuild.cpuCount, hbuild.crev]
      rfl

/-- **The board that comes back is alike to the one that was saved.** -/
theorem adopt_alike (hclocks : m.ClocksAgree) (hbuild : SameBuild m fresh)
    (h : Portable m fresh) : m.Alike (adopt m fresh) := by
  have hu := h.unsaved
  have hmemory : withMemory m.memory m.memSize.toNat fresh.memory = m.memory := by
    apply withMemory_eq hbuild.pageCount
    intro c hc
    have hbeyond := congrFun (congrArg Unsaved.beyond hu) c
    simp only [Snapshot.unsaved, hbuild.memSize, if_pos hc] at hbeyond
    exact Option.some.inj hbeyond
  have hscratch : fresh.palScratch = m.palScratch := congrArg Unsaved.palScratch hu
  refine ⟨⟨⟨rfl, ⟨hmemory, adoptDevices m.devices fresh.devices, ?_,
    adoptDevices_alike hbuild h⟩, ?_⟩, rfl, congrArg Unsaved.spin hu⟩, hclocks.symm,
    hbuild.injectInterruptCycle, congrArg Unsaved.injectInterruptFired hu⟩
  · exact congrArg (TsunamiBus.BusSide.mk · (adoptDevices m.devices fresh.devices)) hscratch
  · exact alike_of_reservations (congrFun (congrArg Unsaved.reservations hu))

/-! ## Going on -/

section

variable (P : BoardParts ε ι ο) (sw : WarpSwitches)

/-- Where a snapshot is taken. -/
inductive Capture (ι : Type)
  /-- Between two cycles, or after the last one. -/
  | between
  /-- In the tick that ends a cycle. What still arrives in this tick reaches the board that was
  saved only. -/
  | inTick (arrives : ι)

/-- The board that is saved, in the cycle that follows on `m`. -/
def Capture.saved (m : Board ε) : Capture ι → Board ε
  | between => m
  | inTick _ => (m.execute P sw).1

/-- The board that was saved, at its next cycle. -/
def Capture.continued (m : Board ε) : Capture ι → Board ε
  | between => m
  | inTick i => (((m.execute P sw).1.finish P sw ⟨i, false⟩).emit P).1

/-- The rest of a tick has nothing to do: nothing arrives or waits to be polled, no line has
changed, no interrupt or skip is due, and the devices have nothing to put out. -/
structure Quiet (m : Board ε) (i : ι) : Prop where
  /-- No PCI device moves. -/
  pci : m.pciAfter P i = m.devices.pci
  /-- No interrupt line moves. -/
  lines : m.devices.irq.evalDeviceIrqs (P.levels m.devices.pci) = m.devices.irq
  /-- The clock is not warped. -/
  noWarp : ¬ (m.tickState sw).IdleWarps
  /-- The interval timer does not fire. -/
  noEdge : TickState.intervalTimerShouldFire m.systemClock = false
  /-- No interrupt is delivered. -/
  noDelivery : (m.tickState sw).firstDeliverable = none
  /-- None is injected. -/
  noInjection : (m.tickState sw).injectionDue = false
  /-- Nothing is sent to the outside. -/
  silent : (P.emit m.devices.pci.others).1 = m.devices.pci.others

/-- A snapshot in a tick is taken in one that has nothing left to do. -/
def Capture.IsQuiet (m : Board ε) : Capture ι → Prop
  | between => True
  | inTick i => Quiet P sw (m.execute P sw).1 i

variable {P sw}

/-- The tick of a quiet cycle does nothing to the machine. -/
theorem Quiet.systemTick {i : ι} (h : Quiet P sw m i) :
    systemTick (m.tickState sw) (P.levels m.devices.pci) = { machine := m.tickState sw } := by
  have hlines : { m.tickState sw with
      chipset := (m.tickState sw).chipset.evalDeviceIrqs (P.levels m.devices.pci) } =
        m.tickState sw := congrArg (fun t => { m.tickState sw with chipset := t }) h.lines
  have hwarp : (m.tickState sw).warpIdle = m.tickState sw := if_neg h.noWarp
  have hedge : ¬ TickState.intervalTimerShouldFire (m.tickState sw).systemClock = true := by
    rw [show (m.tickState sw).systemClock = m.systemClock from rfl, h.noEdge]
    exact Bool.false_ne_true
  have harm : (m.tickState sw).arm (P.levels m.devices.pci) = m.tickState sw := by
    rw [TickState.arm, hlines, hwarp, TickState.fireTimer, if_neg hedge]
  rw [systemTick_eq, harm, h.noDelivery, Option.elim_none, Tick.inject, if_neg]
  rw [h.noInjection]
  exact Bool.false_ne_true

/-- The tick of a quiet cycle does nothing to the board. -/
theorem Quiet.tick {i : ι} (h : Quiet P sw m i) : m.tick P sw i = m := by
  simp only [Board.tick, h.pci, h.systemTick]
  have hcount : m.warp.warpCycles + (m.systemClock - m.systemClock) = m.warp.warpCycles := by simp
  change ({ m with warp := { m.warp with
    warpCycles := m.warp.warpCycles + (m.systemClock - m.systemClock) } } : Board ε) = m
  rw [hcount]

/-- The rest of a quiet cycle does nothing. -/
theorem Quiet.continued {i : ι} (h : Quiet P sw m i) :
    ((m.finish P sw ⟨i, false⟩).emit P).1 = m := by
  have hfinish : m.finish P sw ⟨i, false⟩ = m := by
    unfold Board.finish
    split
    · rfl
    · exact h.tick
  rw [hfinish, Board.emit, h.silent]
  rfl

/-- A quiet capture goes on from what was saved. -/
theorem Capture.IsQuiet.continued {c : Capture ι} (h : c.IsQuiet P sw m) :
    c.continued P sw m = c.saved P sw m := by
  cases c with
  | between => rfl
  | inTick i => exact Quiet.continued h

variable (P sw)

/-- The file of the board `saved`, loaded into the board `fresh`, gives a board that shows under
every input what the board `continued` shows. -/
def Faithful (pod : Pod (CpuState × Word)) (saved continued fresh : Board ε) : Prop :=
  ∀ (ts : Word) (comment : Stream), ∃ file restored,
    save pod ts comment saved = some file ∧ load pod file fresh = .ok restored ∧
      ∀ inputs : List (Board.Input ι),
        restored.observations P sw inputs = continued.observations P sw inputs

/-- **A snapshot is faithful where it can carry the board over.** -/
theorem faithful_of_portable (pod : Pod (CpuState × Word)) {boot : Board ε}
    (hboot : boot.ClocksAgree) (inputs : List (Board.Input ι)) (c : Capture ι)
    (hbuild : SameBuild (c.saved P sw (boot.run P sw inputs)) fresh)
    (hportable : Portable (c.saved P sw (boot.run P sw inputs)) fresh)
    (hquiet : c.IsQuiet P sw (boot.run P sw inputs)) :
    Faithful P sw pod (c.saved P sw (boot.run P sw inputs))
      (c.continued P sw (boot.run P sw inputs)) fresh := by
  have hclocks : (c.saved P sw (boot.run P sw inputs)).ClocksAgree := by
    cases c with
    | between => exact hboot.run inputs
    | inTick i => exact (hboot.run inputs).execute
  rw [hquiet.continued]
  generalize c.saved P sw (boot.run P sw inputs) = m at hbuild hportable hclocks
  intro ts comment
  have hcovers := hportable.transferable.1
  refine ⟨_, adopt m fresh, (save_eq pod ts comment m).trans (if_pos hcovers),
    load_body pod ts comment hcovers hbuild.toSameConfig, fun later => ?_⟩
  exact (adopt_alike hclocks hbuild hportable).observations P sw later

end

/-! ## A reservation that is lost -/

/-- Devices that do nothing of their own. -/
def silentParts : BoardParts Unit Unit Unit where
  cchipRead _ _ _ := 0
  cchipConfigWrite k _ _ := k
  dchipRead _ _ := 0
  dchipWrite d _ _ := d
  flashRead f _ := (f, 0xFF)
  flashWrite f _ _ := f
  tigRead _ _ := 0
  tigWrite t _ _ := t
  pci x _ := (x, 0)
  arrive e _ := e
  poll p := p
  levels _ := ⟨false, false, false, false⟩
  emit e := (e, ())
  fp := { bin := fun _ _ _ _ _ => ⟨0, {}⟩, un := fun _ _ _ _ => ⟨0, {}⟩ }
  silicon := true

/-- A board with 16 MiB of DRAM as it is built. -/
def blankBoard : Board Unit := builtBoard 0x100 0x1000000 { base := 0x1000, enabled := true }

/-- The row of LDL_L. -/
def ldllRow : GrainRow :=
  ⟨"LDL_L", 0x2A, some 0, .direct,
    [.memFormat, .readsRb, .writesRa, .readsInt, .writesInt, .load, .locked, .cacheable],
    .ordinary (.load 4)⟩

/-- The row of STL_C. -/
def stlcRow : GrainRow :=
  ⟨"STL_C", 0x2E, some 0, .direct,
    [.memFormat, .readsRa, .readsRb, .readsInt, .writesRa, .writesInt, .store, .locked, .cacheable],
    .ordinary (.storeC 4)⟩

/-- The board in PALmode at the start of a firmware that is LDL_L R1, 0(R2) and STL_C R1, 0(R2). R2
points at the memory through the superpage. -/
def lockBoard : Board Unit :=
  staged (blankBoard.setCpu
    { pc := 0x900001, palBase := 0x900000, vaCtl := 2, mSpe := 4
      intReg := Function.update (fun _ => 0) 2 0xFFFF800000002000 })
    [0x00, 0x00, 0x22, 0xA8, 0x00, 0x00, 0x22, 0xB8] (by decide)

/-- The rows of LDL_L and STL_C are rows of the table. -/
theorem mem_memoryRows_lockRows :
    ldllRow ∈ GrainMaster.memoryRows ∧ stlcRow ∈ GrainMaster.memoryRows := by
  decide +kernel

/-- LDL_L decodes to its row. -/
theorem decodeEntry_ldll (cpu : CpuState) :
    decodeEntry silentParts.config cpu 0xA8220000 = ldllRow.entry := by
  have hrow : ldllRow ∈ GrainMaster.rows :=
    GrainMaster.mem_rows_of_family GrainMaster.memoryRows (by simp [GrainMaster.families])
      mem_memoryRows_lockRows.1
  exact Platform.decodeEntry_eq _ _ cpu hrow
    (GrainRow.selected_of_isDirect (by decide) (by decide) (by decide)) (by decide)

/-- STL_C decodes to its row. -/
theorem decodeEntry_stlc (cpu : CpuState) :
    decodeEntry silentParts.config cpu 0xB8220000 = stlcRow.entry := by
  have hrow : stlcRow ∈ GrainMaster.rows :=
    GrainMaster.mem_rows_of_family GrainMaster.memoryRows (by simp [GrainMaster.families])
      mem_memoryRows_lockRows.2
  exact Platform.decodeEntry_eq _ _ cpu hrow
    (GrainRow.selected_of_isDirect (by decide) (by decide) (by decide)) (by decide)

/-- A cycle whose instruction has the given table entry. -/
def cycleBy (entry : GrainEntry) (m : Board Unit) : Board Unit :=
  let cfg : Config _ := { silentParts.config with decode := fun _ _ => entry }
  let w := { m.beforeFetch.warp with machine := stepCpu cfg m.beforeFetch.warp.machine }
  let x : Board Unit :=
    { m with
      warp := w
      systemClock := m.systemClock + (w.machine.cpu.cycleCount - m.cpu.cycleCount) }
  (((x.emit silentParts).1.finish silentParts {} ⟨(), false⟩).emit silentParts).1

/-- A cycle is the execution of the row that the fetched word decodes to. -/
theorem cycle_eq_cycleBy {m : Board Unit} {e : Encoded} {entry : GrainEntry}
    (he : fetched silentParts.config m.beforeFetch.warp.machine = some e)
    (h : decodeEntry silentParts.config m.beforeFetch.warp.machine.cpu e = entry) :
    (m.cycle silentParts {} ⟨(), false⟩).1 = cycleBy entry m := by
  have hstep := stepCpu_of_entry _ he h
  rw [Board.cycle, Board.execute, Board.instruct,
    show ({} : WarpSwitches).rscc = false from rfl, warpedStep_unarmed, hstep]
  rfl

/-- The board after its LDL_L. -/
def reservedBoard : Board Unit := cycleBy ldllRow.entry lockBoard

/-- The board after its STL_C. -/
def releasedBoard : Board Unit := cycleBy stlcRow.entry reservedBoard

/-- The words fetched: the LDL_L, and then the STL_C, on the board itself or after a restore. -/
theorem fetched_sequence :
    fetched silentParts.config lockBoard.beforeFetch.warp.machine = some (0xA8220000 : Encoded) ∧
      fetched silentParts.config reservedBoard.beforeFetch.warp.machine =
        some (0xB8220000 : Encoded) ∧
      fetched silentParts.config (adopt reservedBoard blankBoard).beforeFetch.warp.machine =
        some (0xB8220000 : Encoded) := by
  decide +kernel

/-- The first cycle executes the LDL_L. -/
theorem cycle_lockBoard : (lockBoard.cycle silentParts {} ⟨(), false⟩).1 = reservedBoard :=
  cycle_eq_cycleBy fetched_sequence.1 (decodeEntry_ldll _)

/-- The second executes the STL_C. -/
theorem cycle_reservedBoard :
    (reservedBoard.cycle silentParts {} ⟨(), false⟩).1 = releasedBoard :=
  cycle_eq_cycleBy fetched_sequence.2.1 (decodeEntry_stlc _)

/-- After a restore in between it executes the STL_C too. -/
theorem cycle_adopt_reservedBoard :
    ((adopt reservedBoard blankBoard).cycle silentParts {} ⟨(), false⟩).1 =
      cycleBy stlcRow.entry (adopt reservedBoard blankBoard) :=
  cycle_eq_cycleBy fetched_sequence.2.2 (decodeEntry_stlc _)

/-- The two boards are built as the blank one is. -/
theorem sameBuild_blankBoard {m : Board Unit} (hm : m = reservedBoard ∨ m = releasedBoard) :
    SameBuild m blankBoard := by
  rcases hm with rfl | rfl
  · exact ⟨⟨rfl, rfl, rfl, rfl⟩, rfl, rfl, rfl, rfl, rfl, rfl⟩
  · exact ⟨⟨rfl, rfl, rfl, rfl⟩, rfl, rfl, rfl, rfl, rfl, rfl⟩

/-- The boards of the sequence survive the round trip. -/
theorem transferable_blankBoard {m : Board Unit} (hm : m = reservedBoard ∨ m = releasedBoard) :
    Transferable m := by
  rcases hm with rfl | rfl
  · exact transferable_of_lt (by decide +kernel) (by decide +kernel)
  · exact transferable_of_lt (by decide +kernel) (by decide +kernel)

/-- The STL_C has dropped the reservation; its line is still there. -/
theorem unsaved_releasedBoard : unsaved blankBoard = unsaved releasedBoard := by
  have hlocks : (unsaved blankBoard).reservations = (unsaved releasedBoard).reservations := by
    funext i
    revert i
    decide +kernel
  have hmemory : releasedBoard.memory = (GuestMemory.empty 0x100).pokes 0x2000 0 4 := rfl
  have hbeyond : (unsaved blankBoard).beyond = (unsaved releasedBoard).beyond := by
    funext c
    have hzero : releasedBoard.memory.bytes c = 0 := by
      rw [hmemory]
      simp [GuestMemory.pokes, GuestMemory.poke, GuestMemory.empty, GuestMemory.byteOf]
    simp only [unsaved, hzero]
    rfl
  calc
    unsaved blankBoard
      = { unsaved releasedBoard with
          reservations := (unsaved blankBoard).reservations
          beyond := (unsaved blankBoard).beyond } := rfl
    _ = unsaved releasedBoard := by rw [hlocks, hbeyond]

/-- Between the two instructions of a locked sequence the board is not portable, after them it
is. -/
theorem faithful_after_locked_sequence :
    ∃ pod, Faithful silentParts {} pod
      (lockBoard.run silentParts {} [⟨(), false⟩, ⟨(), false⟩])
      (lockBoard.run silentParts {} [⟨(), false⟩, ⟨(), false⟩]) blankBoard := by
  obtain ⟨pod⟩ := cpuPod_nonempty
  have hrun : lockBoard.run silentParts {} [⟨(), false⟩, ⟨(), false⟩] = releasedBoard := by
    rw [Board.run, runFrom_cons, runFrom_cons, runFrom_nil, cycle_lockBoard, cycle_reservedBoard]
  have hboot : lockBoard.ClocksAgree := rfl
  refine ⟨pod, faithful_of_portable silentParts {} pod hboot [⟨(), false⟩, ⟨(), false⟩] .between
    ?_ ⟨?_, ?_, ?_⟩ trivial⟩
  · rw [Capture.saved, hrun]
    exact sameBuild_blankBoard (Or.inr rfl)
  · rw [Capture.saved, hrun]
    exact transferable_blankBoard (Or.inr rfl)
  · rw [Capture.saved, hrun]
    rfl
  · rw [Capture.saved, hrun]
    exact unsaved_releasedBoard

/-- **The reservation of an LDL_L is not in the file.** The STL_C that follows succeeds on the board
that was saved, and fails on the one that was restored. -/
theorem reservation_is_lost :
    lockBoard.ClocksAgree ∧
      SameBuild (lockBoard.run silentParts {} [⟨(), false⟩]) blankBoard ∧
      Transferable (lockBoard.run silentParts {} [⟨(), false⟩]) ∧
      ∃ pod, ¬ Faithful silentParts {} pod (lockBoard.run silentParts {} [⟨(), false⟩])
        (lockBoard.run silentParts {} [⟨(), false⟩]) blankBoard := by
  obtain ⟨pod⟩ := cpuPod_nonempty
  have hrun : lockBoard.run silentParts {} [⟨(), false⟩] = reservedBoard := by
    rw [Board.run, runFrom_cons, runFrom_nil, cycle_lockBoard]
  have hbuild := sameBuild_blankBoard (m := reservedBoard) (Or.inl rfl)
  have htransfer := transferable_blankBoard (m := reservedBoard) (Or.inl rfl)
  rw [hrun]
  refine ⟨rfl, hbuild, htransfer, pod, fun h => ?_⟩
  obtain ⟨file, restored, hsave, hload, hobserved⟩ := h 0 []
  rw [save_eq, if_pos htransfer.1] at hsave
  obtain rfl := Option.some.inj hsave
  rw [load_body pod 0 [] htransfer.1 hbuild.toSameConfig] at hload
  obtain rfl := Except.ok.inj hload
  have hcpu : (cycleBy stlcRow.entry (adopt reservedBoard blankBoard)).cpu = releasedBoard.cpu := by
    rw [← cycle_adopt_reservedBoard, ← cycle_reservedBoard]
    exact Board.cpu_cycle_of_observations (hobserved [⟨(), false⟩])
  -- STL_C leaves its outcome in R1
  have hrestored : (cycleBy stlcRow.entry (adopt reservedBoard blankBoard)).cpu.intReg 1 = 0 := by
    decide +kernel
  have hcontinued : releasedBoard.cpu.intReg 1 = 1 := by decide +kernel
  rw [hcpu, hcontinued] at hrestored
  exact absurd hrestored (by decide)

end Snapshot

end EmulatR
