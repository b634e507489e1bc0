import EmulatR.System.Warp

/-! # Machines in lockstep

Two machines with the same CPU and the same memory, and with devices and reservations that differ
only where no step looks, take the same steps. Which differences of the devices do not matter is a
relation `R`, of which it is asked that the devices respect it (`Config.Respects`). Of a reservation
that is not valid the line does not matter (`LockMonitor.Alike`).

The stages of the pipeline follow in the order of the driver, and `warpedStep_alike` puts them
together. -/

namespace EmulatR

open Library

/-! ## The lock monitor -/

namespace LockMonitor

/-- The two monitors hold the same reservations. -/
def Alike (l l' : LockMonitor) : Prop :=
  ∀ i, (l' i).valid = (l i).valid ∧ ((l i).valid = true → (l' i).pa = (l i).pa)

variable {l l' : LockMonitor}

/-- Monitors that are alike answer a check alike. -/
theorem Alike.check (h : l.Alike l') (cpuId : BitVec 32) (pa : Word) :
    l'.check cpuId pa = l.check cpuId pa := by
  unfold LockMonitor.check
  cases slotOf cpuId with
  | none => rfl
  | some i =>
    obtain ⟨hvalid, hpa⟩ := h i
    cases hv : (l i).valid with
    | false => simp [hvalid, hv]
    | true => simp [hvalid, hv, hpa hv]

/-- They stay alike when the reservations of one CPU are replaced by like ones. -/
theorem Alike.update (h : l.Alike l') {i : Fin 4} {r r' : Reservation} (hvalid : r'.valid = r.valid)
    (hpa : r.valid = true → r'.pa = r.pa) :
    Alike (Function.update l i r) (Function.update l' i r') := by
  intro j
  by_cases hj : j = i
  · subst hj
    rw [Function.update_self, Function.update_self]
    exact ⟨hvalid, hpa⟩
  · rw [Function.update_of_ne hj, Function.update_of_ne hj]
    exact h j

/-- A load-locked keeps them alike. -/
theorem Alike.set (h : l.Alike l') (cpuId : BitVec 32) (pa : Word) :
    (l.set cpuId pa).Alike (l'.set cpuId pa) := by
  unfold LockMonitor.set
  cases slotOf cpuId with
  | none => exact h
  | some i => exact h.update rfl fun _ => rfl

/-- The clearing of a reservation keeps reservations alike. -/
theorem Alike.clear (h : l.Alike l') (cpuId : BitVec 32) :
    (l.clear cpuId).Alike (l'.clear cpuId) := by
  unfold LockMonitor.clear
  cases slotOf cpuId with
  | none => exact h
  | some i => exact h.update rfl fun hv => absurd hv Bool.false_ne_true

/-- The clearing of a line keeps reservations alike. -/
theorem Alike.clearLine (h : l.Alike l') (pa : Word) (exceptCpu : BitVec 32) :
    (l.clearLine pa exceptCpu).Alike (l'.clearLine pa exceptCpu) := by
  intro i
  obtain ⟨hvalid, hpa⟩ := h i
  unfold LockMonitor.clearLine
  by_cases hown : slotOf exceptCpu = some i
  · rw [if_pos hown, if_pos hown]
    exact ⟨hvalid, hpa⟩
  · rw [if_neg hown, if_neg hown]
    cases hv : (l i).valid with
    | false =>
      -- neither is dropped, and neither stands
      simp [hvalid, hv]
    | true =>
      rw [hvalid, hv, hpa hv]
      by_cases hline : (l i).pa == line pa
      · simp [hline]
      · simp [hline, hvalid, hv, hpa hv]

end LockMonitor

/-! ## The bus -/

section

variable {δ : Type}

/-- The devices answer alike in related states, and the states stay related. -/
structure Devices.Respects (D : Devices δ) (R : δ → δ → Prop) : Prop where
  /-- Related devices leave the same addresses to memory. -/
  dramClaims : ∀ {s s' : δ}, R s s' → ∀ pa, D.dramClaims s' pa = D.dramClaims s pa
  /-- They answer reads alike and stay related. -/
  read : ∀ {s s' : δ}, R s s' → ∀ pa width, Answers R (D.read s pa width) (D.read s' pa width)
  /-- They answer writes alike and stay related. -/
  write : ∀ {s s' : δ}, R s s' → ∀ pa value width,
    Answers R (D.write s pa value width) (D.write s' pa value width)

/-- So do the devices of a machine, and the payload answers the same fetches. -/
structure Config.Respects (cfg : Config δ) (R : δ → δ → Prop) : Prop where
  /-- The bus respects the relation. -/
  devices : cfg.devices.Respects R
  /-- Related devices override a fetch alike. -/
  tryFetch : ∀ {s s' : δ}, R s s' → ∀ pa, cfg.tryFetch s' pa = cfg.tryFetch s pa

variable (R : δ → δ → Prop)

/-- The same memory behind related devices. -/
structure Chipset.Alike (b b' : Chipset δ) : Prop where
  /-- The memories are equal. -/
  memory : b'.memory = b.memory
  /-- The devices are related. -/
  devices : R b.devices b'.devices

/-- The same CPU, on buses that are alike, with the same reservations. -/
structure Machine.Alike (m m' : Machine δ) : Prop where
  /-- The CPUs are equal. -/
  cpu : m'.cpu = m.cpu
  /-- The chipsets are alike. -/
  bus : Chipset.Alike R m.bus m'.bus
  /-- So are the lock monitors. -/
  locks : m.locks.Alike m'.locks

variable {R}

namespace Chipset

variable {D : Devices δ} {b b' : Chipset δ}

/-- Chipsets that are alike answer a read alike. -/
theorem Alike.read (hD : D.Respects R) (h : Alike R b b') (pa : Word) (width : Nat) :
    Answers (Alike R) (b.read D pa width) (b'.read D pa width) := by
  obtain ⟨hr, hans⟩ := hD.read h.devices pa width
  simp only [Chipset.read, hD.dramClaims h.devices, h.memory]
  split
  · exact ⟨h, rfl⟩
  · exact ⟨⟨rfl, hr⟩, hans⟩

/-- Chipsets that are alike answer a write alike. -/
theorem Alike.write (hD : D.Respects R) (h : Alike R b b') (pa value : Word) (width : Nat) :
    Answers (Alike R) (b.write D pa value width) (b'.write D pa value width) := by
  obtain ⟨hr, hans⟩ := hD.write h.devices pa value width
  simp only [Chipset.write, hD.dramClaims h.devices, h.memory]
  split
  · exact ⟨h, rfl⟩
  · split
    · exact ⟨⟨rfl, h.devices⟩, rfl⟩
    · exact ⟨⟨rfl, hr⟩, hans⟩

end Chipset

/-! ## The drain -/

namespace MemDrainer

variable {D : Devices δ} {silicon : Bool} {m m' : Machine δ}

/-- Machines that are alike load alike. -/
theorem applyLoadEffect_alike (hD : D.Respects R) (h : Machine.Alike R m m') (r : BoxResult)
    (pa : Word) :
    Answers (Machine.Alike R) (applyLoadEffect D silicon m r pa)
      (applyLoadEffect D silicon m' r pa) := by
  obtain ⟨hbus, hans⟩ := h.bus.read hD pa r.memSize
  simp only [applyLoadEffect, ← hans, h.cpu]
  split
  · exact ⟨⟨rfl, hbus, h.locks⟩, rfl⟩
  · refine ⟨⟨rfl, hbus, ?_⟩, rfl⟩
    cases r.isLocked with
    | false => exact h.locks
    | true => exact h.locks.set m.cpu.cpuSlot pa

/-- Machines that are alike store alike. -/
theorem performStore_alike (hD : D.Respects R) (h : Machine.Alike R m m') (r : BoxResult)
    (pa : Word) :
    Answers (Machine.Alike R) (performStore D m r pa) (performStore D m' r pa) := by
  obtain ⟨hbus, hans⟩ := h.bus.write hD pa r.memData r.memSize
  simp only [performStore, ← hans, h.cpu]
  split
  · exact ⟨⟨rfl, hbus, h.locks⟩, rfl⟩
  · exact ⟨⟨rfl, hbus, h.locks.clearLine pa m.cpu.cpuSlot⟩, rfl⟩

/-- Machines that are alike store conditionally alike. -/
theorem applyStoreEffect_alike (hD : D.Respects R) (h : Machine.Alike R m m') (r : BoxResult)
    (pa : Word) :
    Answers (Machine.Alike R) (applyStoreEffect D m r pa) (applyStoreEffect D m' r pa) := by
  simp only [applyStoreEffect, h.cpu, h.locks.check]
  have hdropped : Machine.Alike R { m with locks := m.locks.clear m.cpu.cpuSlot }
      { m' with cpu := m.cpu, locks := m'.locks.clear m.cpu.cpuSlot } :=
    ⟨rfl, h.bus, h.locks.clear _⟩
  split
  · split
    · exact performStore_alike hD hdropped r pa
    · exact ⟨hdropped, rfl⟩
  · exact performStore_alike hD h r pa

/-- Machines that are alike drain a memory access alike. -/
theorem applyMemEffect_alike (hD : D.Respects R) (h : Machine.Alike R m m')
    (g : InstructionGrain) (r : BoxResult) :
    Answers (Machine.Alike R) (applyMemEffect D silicon g m r)
      (applyMemEffect D silicon g m' r) := by
  simp only [applyMemEffect, h.cpu]
  cases (translate m.cpu r).pa? with
  | none => exact ⟨⟨rfl, h.bus, h.locks⟩, rfl⟩
  | some pa =>
    dsimp only
    split
    · exact applyStoreEffect_alike hD h r pa
    · exact applyLoadEffect_alike hD h r pa

/-- Machines that are alike commit a result alike. -/
theorem commit_alike {x x' : Machine δ × BoxResult} (h : Answers (Machine.Alike R) x x') :
    Answers (Machine.Alike R) (commit x.1 x.2) (commit x'.1 x'.2) := by
  obtain ⟨hm, hr⟩ := h
  unfold commit
  rw [← hr, hm.cpu]
  split
  · exact ⟨hm, rfl⟩
  · exact ⟨⟨rfl, hm.bus, hm.locks⟩, rfl⟩

/-- The back end keeps machines alike. -/
theorem drain_alike (hD : D.Respects R) (h : Machine.Alike R m m') (g : InstructionGrain)
    (r : BoxResult) :
    Answers (Machine.Alike R) (drain D silicon g m r) (drain D silicon g m' r) := by
  unfold drain
  split
  · exact ⟨h, rfl⟩
  · split
    · have hx : Answers (Machine.Alike R) (m, r) (m', r) := ⟨h, rfl⟩
      exact commit_alike hx
    · exact commit_alike (applyMemEffect_alike hD h g r)

end MemDrainer

/-! ## The step -/

section Step

variable {cfg : Config δ} {m m' : Machine δ}

/-- Machines that are alike fetch the same word. -/
theorem fetchWord_alike (hcfg : cfg.Respects R) (h : Machine.Alike R m m') :
    Answers (Chipset.Alike R) (fetchWord cfg m) (fetchWord cfg m') := by
  unfold fetchWord
  rw [h.cpu]
  cases (Ev6Translator.translateInstruction m.cpu m.cpu.pc).pa? with
  | none => exact ⟨h.bus, rfl⟩
  | some pa =>
    simp only [hcfg.tryFetch h.bus.devices]
    cases cfg.tryFetch m.bus.devices pa with
    | some e => exact ⟨h.bus, rfl⟩
    | none =>
      obtain ⟨hbus, hans⟩ := h.bus.read hcfg.devices pa 4
      simp only [Chipset.fetch, ← hans]
      exact ⟨hbus, rfl⟩

/-- A fetch keeps them alike. -/
theorem afterFetch_alike (hcfg : cfg.Respects R) (h : Machine.Alike R m m') :
    Machine.Alike R (afterFetch cfg m) (afterFetch cfg m') :=
  ⟨h.cpu, (fetchWord_alike hcfg h).1, h.locks⟩

/-- Machines that are alike issue the same word. -/
theorem fetched_alike (hcfg : cfg.Respects R) (h : Machine.Alike R m m') :
    fetched cfg m' = fetched cfg m := by
  rw [fetched, fetched, (fetchWord_alike hcfg h).2]

/-- A leaf sees the CPU and the memory only. -/
theorem executeWord_alike (hcfg : cfg.Respects R) (h : Machine.Alike R m m') (e : Encoded) :
    Answers (Machine.Alike R) (executeWord cfg m e) (executeWord cfg m' e) := by
  have hout : execWord cfg m' e = execWord cfg m e := by
    rw [execWord, execWord, h.cpu, h.bus.memory]
  have hleaf : Machine.Alike R (m.afterLeaf (execWord cfg m e)) (m'.afterLeaf (execWord cfg m e)) :=
    ⟨rfl, ⟨rfl, h.bus.devices⟩, h.locks⟩
  simp only [executeWord, hout, h.cpu]
  exact MemDrainer.drain_alike hcfg.devices hleaf _ _

/-- An instruction keeps them alike. -/
theorem retireWord_alike (hcfg : cfg.Respects R) (h : Machine.Alike R m m') (e : Encoded) :
    Machine.Alike R (retireWord cfg m e) (retireWord cfg m' e) := by
  obtain ⟨hx, hr⟩ := executeWord_alike hcfg h e
  refine ⟨?_, hx.bus, hx.locks⟩
  rw [retireWord, retireWord, ← hr, hx.cpu, h.cpu]

/-- The issue of a word keeps machines alike. -/
theorem issue_alike (hcfg : cfg.Respects R) (h : Machine.Alike R m m') :
    Answers (Machine.Alike R) (issue cfg m) (issue cfg m') := by
  obtain ⟨hbus, hans⟩ := fetchWord_alike hcfg h
  simp only [issue, ← hans, h.cpu]
  cases (fetchWord cfg m).2 with
  | error f => exact ⟨⟨rfl, hbus, h.locks⟩, rfl⟩
  | ok e =>
    have hfetch : Machine.Alike R (afterFetch cfg m) { afterFetch cfg m' with cpu := m.cpu } :=
      ⟨rfl, hbus, h.locks⟩
    exact executeWord_alike hcfg hfetch e

/-- A step of the CPU keeps machines alike. -/
theorem stepCpu_alike (hcfg : cfg.Respects R) (h : Machine.Alike R m m') :
    Machine.Alike R (stepCpu cfg m) (stepCpu cfg m') := by
  obtain ⟨hx, hr⟩ := issue_alike hcfg h
  simp only [stepCpu, ← hr, hx.cpu, h.cpu]
  split
  · exact h
  · exact ⟨rfl, hx.bus, hx.locks⟩

end Step

/-! ## The warps -/

variable (R) in
/-- Machines that are alike, with the same warp state. -/
structure WarpMachine.Alike (w w' : WarpMachine δ) : Prop where
  /-- The machines are alike. -/
  machine : Machine.Alike R w.machine w'.machine
  /-- They were warped over the same cycles. -/
  warpCycles : w'.warpCycles = w.warpCycles
  /-- Their spin detectors agree. -/
  spin : w'.spin = w.spin

namespace WarpMachine

variable {D : Devices δ} {w w' : WarpMachine δ}

/-- Skipping cycles keeps them alike. -/
theorem Alike.addCycles (h : Alike R w w') (d : Word) :
    Alike R (w.addCycles d) (w'.addCycles d) := by
  refine ⟨⟨?_, h.machine.bus, h.machine.locks⟩, h.warpCycles, h.spin⟩
  rw [WarpMachine.addCycles, WarpMachine.addCycles, h.machine.cpu]

/-- Counting skipped cycles keeps machines alike. -/
theorem Alike.countCycles (h : Alike R w w') (d : Word) :
    Alike R { w with warpCycles := w.warpCycles + d } { w' with warpCycles := w'.warpCycles + d } :=
  ⟨h.machine, congrArg (· + d) h.warpCycles, h.spin⟩

/-- A store of the warp keeps machines alike. -/
theorem Alike.poke4 (hD : D.Respects R) (h : Alike R w w') (pa value : Word) :
    Alike R (w.poke4 D pa value) (w'.poke4 D pa value) :=
  ⟨⟨h.machine.cpu, (h.machine.bus.write hD pa value 4).1, h.machine.locks⟩, h.warpCycles, h.spin⟩

/-- Counting skipped ticks keeps machines alike. -/
theorem Alike.bumpTicks (hD : D.Respects R) (h : Alike R w w') (n : Word) :
    Alike R (w.bumpTicks D n) (w'.bumpTicks D n) := by
  obtain ⟨hbus, hans⟩ := h.machine.bus.read hD 0x3c970 4
  have hread : Alike R
      { w with machine := { w.machine with bus := (w.machine.bus.read D 0x3c970 4).1 } }
      { w' with machine := { w'.machine with bus := (w'.machine.bus.read D 0x3c970 4).1 } } :=
    ⟨⟨h.machine.cpu, hbus, h.machine.locks⟩, h.warpCycles, h.spin⟩
  simp only [WarpMachine.bumpTicks, ← hans]
  exact hread.poke4 hD 0x3c970 _

/-- A warp over ticks keeps machines alike. -/
theorem Alike.tickWarp (hD : D.Respects R) (h : Alike R w w') :
    Alike R (w.tickWarp D) (w'.tickWarp D) := by
  simp only [WarpMachine.tickWarp, pcAddr, h.machine.cpu]
  refine rel_ite Iff.rfl ?_ h
  exact ((h.poke4 hD _ _).addCycles _).countCycles _

/-- A warp over reads of the cycle counter keeps machines alike. -/
theorem Alike.rsccWarp (hD : D.Respects R) (h : Alike R w w') :
    Alike R (w.rsccWarp D) (w'.rsccWarp D) := by
  simp only [WarpMachine.rsccWarp, pcAddr, h.machine.cpu]
  refine rel_ite Iff.rfl ?_ h
  exact ((h.addCycles _).countCycles _).bumpTicks hD _

/-- A warp over a spin keeps machines alike. -/
theorem Alike.spinWarp (hD : D.Respects R) (h : Alike R w w') :
    Alike R (w.spinWarp D) (w'.spinWarp D) := by
  have hspin : w'.spinAfter = w.spinAfter := by
    rw [spinAfter, spinAfter, callerPage, callerPage, h.machine.cpu, h.spin]
  simp only [WarpMachine.spinWarp, pcAddr, h.machine.cpu, hspin]
  have hnoted : Alike R { w with spin := w.spinAfter } { w' with spin := w.spinAfter } :=
    ⟨h.machine, h.warpCycles, rfl⟩
  refine rel_ite Iff.rfl ?_ h
  exact rel_ite Iff.rfl ((hnoted.addCycles _).bumpTicks hD 1) hnoted

/-- Any warp keeps machines alike. -/
theorem Alike.warp (hD : D.Respects R) (h : Alike R w w') (armed : Bool) :
    Alike R (w.warp D armed) (w'.warp D armed) := by
  cases armed with
  | false => exact h
  | true => exact ((h.tickWarp hD).rsccWarp hD).spinWarp hD

/-- **Machines that are alike stay alike.** -/
theorem Alike.warpedStep {cfg : Config δ} (hcfg : cfg.Respects R) (h : Alike R w w')
    (armed : Bool) : Alike R (warpedStep cfg armed w) (warpedStep cfg armed w') := by
  unfold EmulatR.warpedStep
  rw [h.machine.cpu, fetched_alike hcfg h.machine]
  split
  · exact h
  · cases fetched cfg w.machine with
    | none => exact ⟨stepCpu_alike hcfg h.machine, h.warpCycles, h.spin⟩
    | some e =>
      have hwarp := Alike.warp hcfg.devices
        (⟨afterFetch_alike hcfg h.machine, h.warpCycles, h.spin⟩ :
          Alike R { w with machine := afterFetch cfg w.machine }
            { w' with machine := afterFetch cfg w'.machine }) armed
      exact ⟨retireWord_alike hcfg hwarp.machine e, hwarp.warpCycles, hwarp.spin⟩

/-- **What every access to the devices keeps, every step keeps**: a machine in lockstep with
itself. -/
theorem warpedStep_keeps {cfg : Config δ} (Keeps : δ → Prop)
    (hread : ∀ {s : δ}, Keeps s → ∀ pa width, Keeps (cfg.devices.read s pa width).1)
    (hwrite : ∀ {s : δ}, Keeps s → ∀ pa value width, Keeps (cfg.devices.write s pa value width).1)
    (armed : Bool) (h : Keeps w.machine.bus.devices) :
    Keeps (warpedStep cfg armed w).machine.bus.devices := by
  have hcfg : cfg.Respects fun s s' => s' = s ∧ Keeps s :=
    { devices :=
        { dramClaims := by
            rintro s _ ⟨rfl, -⟩ pa
            rfl
          read := by
            rintro s _ ⟨rfl, hs⟩ pa width
            exact ⟨⟨rfl, hread hs pa width⟩, rfl⟩
          write := by
            rintro s _ ⟨rfl, hs⟩ pa value width
            exact ⟨⟨rfl, hwrite hs pa value width⟩, rfl⟩ }
      tryFetch := by
        rintro s _ ⟨rfl, -⟩ pa
        rfl }
  have hself : Alike (fun s s' => s' = s ∧ Keeps s) w w :=
    ⟨⟨rfl, ⟨rfl, rfl, h⟩, fun _ => ⟨rfl, fun _ => rfl⟩⟩, rfl, rfl⟩
  exact (hself.warpedStep hcfg armed).machine.bus.devices.2

end WarpMachine

end

end EmulatR
