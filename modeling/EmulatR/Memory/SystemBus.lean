import EmulatR.Memory.GuestMemory

/-! # The system bus

The chipset answers physical accesses (chipsetLib/TsunamiChipset.cpp behind memoryLib/ISystemBus.h).
DRAM is the guest memory. Everything else it decodes (the PAL scratch carve-out, flash, the TIG and
MMIO windows, non-existent memory) is one parameter, `Devices`: the device state is arbitrary, its
accesses may have side effects on it and may report a bus error as the bus interface allows, and
they cannot touch guest memory, which no device of the source can. -/

namespace EmulatR

/-- The status of a bus access. -/
inductive BusStatus
  | ok | busError
  deriving DecidableEq, Repr

/-- The outcome of a bus access. -/
structure BusResult where
  /-- The status. -/
  status : BusStatus := .ok
  /-- The data of a read. -/
  data : Word := 0
  deriving DecidableEq, Repr

/-- The half of the chipset that is not DRAM, over an arbitrary device state. -/
structure Devices (δ : Type) where
  /-- DRAM claims the address: it is not in the PAL scratch window and the AARs decode it. -/
  dramClaims : δ → Word → Bool
  /-- A read of a device, or of nothing. -/
  read : δ → Word → Nat → δ × BusResult
  /-- A write to a device, or to nothing. -/
  write : δ → Word → Word → Nat → δ × BusResult

/-- A bus without devices: every address is DRAM. -/
def Devices.allDram : Devices Unit :=
  { dramClaims := fun _ _ => true, read := fun _ _ _ => ((), {}),
    write := fun _ _ _ _ => ((), {}) }

/-- The chipset: guest memory and the devices. -/
structure Chipset (δ : Type) where
  /-- DRAM. -/
  memory : GuestMemory
  /-- Everything else. -/
  devices : δ

namespace Chipset

variable {δ : Type} (D : Devices δ)

/-- A guest memory read of a bus width. -/
def dramRead (m : GuestMemory) (pa : Word) (width : Nat) : BusResult :=
  if width = 1 then ⟨.ok, (m.read1 pa).setWidth 64⟩
  else if width = 2 ∨ width = 4 ∨ width = 8 then ⟨.ok, m.read pa width⟩
  else ⟨.busError, 0⟩

/-- A guest memory write of a bus width; the memory status is dropped. -/
def dramWrite (m : GuestMemory) (pa value : Word) (width : Nat) : GuestMemory :=
  if width = 1 then (m.write1 pa (GuestMemory.byteOf value 0)).1 else (m.write pa value width).1

/-- Read through the bus. -/
def read (b : Chipset δ) (pa : Word) (width : Nat) : Chipset δ × BusResult :=
  if D.dramClaims b.devices pa then (b, dramRead b.memory pa width)
  else
    let r := D.read b.devices pa width
    ({ b with devices := r.1 }, r.2)

/-- Write through the bus. A width the bus does not have is a bus error. -/
def write (b : Chipset δ) (pa value : Word) (width : Nat) : Chipset δ × BusResult :=
  if ¬ (width = 1 ∨ width = 2 ∨ width = 4 ∨ width = 8) then (b, ⟨.busError, 0⟩)
  else if D.dramClaims b.devices pa then
    ({ b with memory := dramWrite b.memory pa value width }, ⟨.ok, 0⟩)
  else
    let r := D.write b.devices pa value width
    ({ b with devices := r.1 }, r.2)

/-- An instruction fetch is a read. -/
def fetch (b : Chipset δ) (pa : Word) (width : Nat) : Chipset δ × BusResult := b.read D pa width

/-- A read leaves memory alone. -/
@[simp] theorem memory_read (b : Chipset δ) (pa : Word) (width : Nat) :
    (b.read D pa width).1.memory = b.memory := by
  rw [read]; split <;> rfl

/-- A fetch leaves memory alone. -/
@[simp] theorem memory_fetch (b : Chipset δ) (pa : Word) (width : Nat) :
    (b.fetch D pa width).1.memory = b.memory := memory_read D b pa width

/-- A write that reports a bus error has not touched guest memory. -/
theorem memory_write_of_busError {b : Chipset δ} {pa value : Word} {width : Nat}
    (h : (b.write D pa value width).2.status ≠ .ok) :
    (b.write D pa value width).1.memory = b.memory := by
  rw [write] at h ⊢
  split
  · rfl
  · split
    · rw [if_neg ‹_›, if_pos ‹_›] at h; exact absurd rfl h
    · rfl

end Chipset

end EmulatR
