import EmulatR.Memory.FlatMemory
import EmulatR.Memory.SystemBus

/-! # How the chipset decodes a bus access

`TsunamiChipset::read` and `TsunamiChipset::write` (chipsetLib/TsunamiChipset.cpp) are two cascades
of range tests. Each finds the claimant of an address, the PAL scratch window, DRAM by the array
address registers, flash, the trace-arm register, the TIG registers, the CSR and PCI space or
nothing, and an offset in it. The CSR and PCI space is decoded further by `mmioRead` and `mmioWrite`
(TsunamiChipset.h) and the region table (Tsunami21272_RegisterMap.h).

The storage of the two RAM-like claimants is modelled. What the other claimants do with an access is
the parameter `BusDevices`, over an arbitrary device state. `toDevices` puts the chipset under the
bus of the machine model. -/

namespace EmulatR

open GuestMemory

namespace TsunamiBus

/-! ## Address windows -/

/-- An array address register. -/
structure Aar where
  /-- The encoded register word. -/
  base : Word := 0
  /-- The size mask. Firmware writes do not update it and the decode does not use it. -/
  mask : Word := 0
  /-- The array is enabled. -/
  enabled : Bool := false
  deriving DecidableEq

/-- The base of an encoded array: its address bits 34 to 24. -/
def Aar.windowBase (a : Aar) : Word := ((a.base >>> 24) &&& 0x7FF) <<< 24

/-- The size of an encoded array: 16 MiB doubled with each step of the code, and none for code 0. -/
def Aar.windowSize (a : Aar) : Word :=
  let asiz := ((a.base >>> 12) &&& 0xF).toNat
  if asiz = 0 then 0 else (16 * 1024 * 1024) <<< (asiz - 1)

/-- The address is in the window of the array. -/
def Aar.claims (a : Aar) (pa : Word) : Bool :=
  a.enabled && a.windowSize != 0 && decide (a.windowBase ≤ pa) &&
    decide (pa < a.windowBase + a.windowSize)

/-- Where the PAL scratch page begins. -/
def kPalScratchBase : Word := 0xFFFFFF00000
/-- The size of the scratch window. -/
def kPalScratchSize : Word := 0x100000

/-- The address is in the PAL scratch page. -/
def isPalScratchAddr (pa : Word) : Bool :=
  decide (kPalScratchBase ≤ pa) && decide (pa < kPalScratchBase + kPalScratchSize)

/-- Where the flash ROM begins. -/
def kTigFlashBase : Word := 0x80100000000
/-- The size of its window. -/
def kTigFlashSize : Word := 0x8000000

/-- The address is in the window of the flash ROM. -/
def isTigFlashAddr (pa : Word) : Bool :=
  decide (kTigFlashBase ≤ pa) && decide (pa < kTigFlashBase + kTigFlashSize)

/-- Flash drives one byte for each 64 bytes of its window. -/
def tigFlashOffset (pa : Word) : BitVec 32 := ((pa - kTigFlashBase) >>> 6).setWidth 32

/-- The register that arms the instruction trace. It lies in the TIG window. -/
def kTigTraceArmReg : Word := 0x80130000FF8

/-- The address is one of the TIG registers. -/
def tigDecodes (pa : Word) : Bool := decide (0x80130000000 ≤ pa) && decide (pa < 0x80140000000)

/-- Where the registers and the PCI window begin. -/
def kMMIO_Start : Word := 0x80000000000
/-- How far they reach. -/
def kMMIO_Size : Word := 0x4000000000

/-! ## The region table -/

/-- The regions of the CSR and PCI space. -/
inductive RegionId
  /-- No region. -/
  | none
  /-- PCI memory space. -/
  | pchip0PciMem
  /-- Sparse memory space. -/
  | pchip0SparseMem
  /-- Sparse I/O space. -/
  | pchip0SparseIo
  /-- The registers of the Pchip. -/
  | pchip0CSR
  /-- The registers of the Cchip. -/
  | cchipCSR
  /-- The registers of the Dchip. -/
  | dchipCSR
  /-- The interrupt acknowledge. -/
  | pchip0IACK
  /-- Dense I/O space. -/
  | pchip0IODense
  /-- PCI configuration space. -/
  | pchip0CfgType0
  deriving DecidableEq

/-- Where sparse memory space begins. -/
def kPchip0_SparseMem : Word := 0x100000000
/-- Where sparse I/O space begins. -/
def kPchip0_SparseIo : Word := 0x140000000
/-- Where the registers of the Cchip begin. -/
def kCchip_CSR : Word := 0x1A0000000
/-- Where those of the Dchip begin. -/
def kDchip_CSR : Word := 0x1B0000000
/-- Where the second Pchip, which is not there, would begin. -/
def kPchip1_PciMem : Word := 0x200000000

/-- The rows: first offset, end offset, region. -/
def kRegionTable : List (Word × Word × RegionId) :=
  [(0x000000000, 0x100000000, .pchip0PciMem),
   (kPchip0_SparseMem, 0x140000000, .pchip0SparseMem),
   (kPchip0_SparseIo, 0x180000000, .pchip0SparseIo),
   (0x180000000, 0x190000000, .pchip0CSR),
   (kCchip_CSR, 0x1B0000000, .cchipCSR),
   (kDchip_CSR, 0x1C0000000, .dchipCSR),
   (0x1F8000000, 0x1FC000000, .pchip0IACK),
   (0x1FC000000, 0x1FE000000, .pchip0IODense),
   (0x1FE000000, kPchip1_PciMem, .pchip0CfgType0)]

/-- The region of an offset: the first row that holds it. -/
def routeMmioOffset (off : Word) : RegionId :=
  ((kRegionTable.find? fun r => decide (r.1 ≤ off) && decide (off < r.2.1)).map fun r =>
    r.2.2).getD .none

/-! ## The state -/

/-- What of the chipset is not guest memory. -/
structure BusSide (δ : Type) where
  /-- The PAL scratch RAM, by offset. -/
  palScratch : Nat → BitVec 8
  /-- The devices. -/
  devices : δ

/-- What the claimants that are not RAM do with an access. -/
structure BusDevices (δ : Type) where
  /-- The array address registers, which are Cchip registers. -/
  aar : δ → Fin 4 → Aar
  /-- A read of the flash ROM, which may move its command machine. -/
  flashRead : δ → BitVec 32 → δ × Word
  /-- A write of it. -/
  flashWrite : δ → BitVec 32 → Word → δ
  /-- Arm the trace window with a countdown. -/
  setTraceWindowCountdown : δ → Word → δ
  /-- A read of a TIG register. -/
  tigRead : δ → Word → δ × Word
  /-- A write of one. -/
  tigWrite : δ → Word → Word → δ
  /-- The interrupt acknowledge cycle: the vector, or the spurious one. -/
  iack : δ → δ × Word
  /-- A read of a Cchip register. -/
  cchipRead : δ → Word → δ × Word
  /-- A write of one. -/
  cchipWrite : δ → Word → Word → δ
  /-- A read of a Dchip register. -/
  dchipRead : δ → Word → δ × Word
  /-- A write of one. -/
  dchipWrite : δ → Word → Word → δ
  /-- A read of sparse memory space. -/
  pchipReadSparseMem : δ → Word → δ × Word
  /-- A read of sparse I/O space. -/
  pchipReadSparseIo : δ → Word → δ × Word
  /-- A write of sparse I/O space. -/
  pchipWriteSparseIo : δ → Word → Word → δ
  /-- A read of the rest of the Pchip's window. -/
  pchipRead : δ → Word → Nat → δ × Word
  /-- A write of it. -/
  pchipWrite : δ → Word → Word → Nat → δ
  /-- Latch an access to non-existent memory. -/
  reportNxm : δ → Word → δ

variable {δ : Type} (D : BusDevices δ)

/-- DRAM by the array registers. -/
def isDramAddress (d : δ) (pa : Word) : Bool := (List.finRange 4).any fun i => (D.aar d i).claims pa

/-! ## The cascades -/

/-- Who answers an access, and the offset or address it is given. -/
inductive Claimant
  /-- The PAL scratch page, at an offset. -/
  | palScratch (off : Word)
  /-- Memory. -/
  | dram (pa : Word)
  /-- The flash ROM, at an offset. -/
  | flash (off : BitVec 32)
  /-- The port that arms a trace. -/
  | traceArm
  /-- A TIG register. -/
  | tig (pa : Word)
  /-- The registers and the PCI window, at an offset. -/
  | mmio (off : Word)
  /-- Nothing. -/
  | nxm
  deriving DecidableEq

/-- The cascade of `read`. -/
def decodeRead (d : δ) (pa : Word) : Claimant :=
  if isPalScratchAddr pa then .palScratch (pa - kPalScratchBase)
  else if isDramAddress D d pa then .dram pa
  else if isTigFlashAddr pa then .flash (tigFlashOffset pa)
  else if pa = kTigTraceArmReg then .traceArm
  else if tigDecodes pa then .tig pa
  else if kMMIO_Start ≤ pa then .mmio (pa - kMMIO_Start)
  else .nxm

/-- The cascade of `write`, behind its width check. -/
def decodeWrite (d : δ) (pa : Word) : Claimant :=
  if isPalScratchAddr pa then .palScratch (pa - kPalScratchBase)
  else if isDramAddress D d pa then .dram pa
  else if isTigFlashAddr pa then .flash (tigFlashOffset pa)
  else if pa = kTigTraceArmReg then .traceArm
  else if tigDecodes pa then .tig pa
  else if kMMIO_Start ≤ pa then .mmio (pa - kMMIO_Start)
  else .nxm

/-- Which chip answers an access to the CSR and PCI space, and its offset there. -/
inductive Chip
  /-- The interrupt acknowledge. -/
  | iack
  /-- The second Pchip, which is not there. -/
  | pchip1
  /-- Sparse memory space, at an offset. -/
  | sparseMem (off : Word)
  /-- Sparse I/O space, at an offset. -/
  | sparseIo (off : Word)
  /-- The Cchip, at an offset. -/
  | cchip (off : Word)
  /-- The Dchip, at an offset. -/
  | dchip (off : Word)
  /-- The Pchip, at an offset. -/
  | pchip (off : Word)
  deriving DecidableEq

/-- The dispatch of `mmioRead`. -/
def routeRead (off : Word) : Chip :=
  if off = 0x1F8000000 then .iack
  else if kPchip1_PciMem ≤ off ∧ off < kMMIO_Size then .pchip1
  else
    match routeMmioOffset off with
    | .pchip0SparseMem => .sparseMem (off - kPchip0_SparseMem)
    | .pchip0SparseIo => .sparseIo (off - kPchip0_SparseIo)
    | .cchipCSR => .cchip (off - kCchip_CSR)
    | .dchipCSR => .dchip (off - kDchip_CSR)
    | _ => .pchip off

/-- The dispatch of `mmioWrite`. -/
def routeWrite (off : Word) : Chip :=
  if kPchip1_PciMem ≤ off ∧ off < kMMIO_Size then .pchip1
  else
    match routeMmioOffset off with
    | .cchipCSR => .cchip (off - kCchip_CSR)
    | .dchipCSR => .dchip (off - kDchip_CSR)
    | .pchip0SparseIo => .sparseIo (off - kPchip0_SparseIo)
    | _ => .pchip off

/-! ## The accesses -/

/-- `mmioRead`. The unpopulated half of the space reads as all ones. -/
def mmioRead (d : δ) (off : Word) (width : Nat) : δ × Word :=
  match routeRead off with
  | .iack => D.iack d
  | .pchip1 => (d, 0xFFFFFFFF)
  | .sparseMem o => D.pchipReadSparseMem d o
  | .sparseIo o => D.pchipReadSparseIo d o
  | .cchip o => D.cchipRead d o
  | .dchip o => D.dchipRead d o
  | .pchip o => D.pchipRead d o width

/-- `mmioWrite`. -/
def mmioWrite (d : δ) (off value : Word) (width : Nat) : δ :=
  match routeWrite off with
  | .sparseIo o => D.pchipWriteSparseIo d o value
  | .cchip o => D.cchipWrite d o value
  | .dchip o => D.dchipWrite d o value
  | .pchip o => D.pchipWrite d o value width
  | .pchip1 | .iack | .sparseMem _ => d

/-- Store the low bytes of a value in the scratch RAM. -/
def storeScratch (ram : Nat → BitVec 8) (off : Nat) (value : Word) (width : Nat) :
    Nat → BitVec 8 := fun i =>
  if off ≤ i ∧ i < off + width then byteOf value (i - off) else ram i

/-- The access ends inside the scratch RAM. -/
def inScratch (off : Word) (width : Nat) : Bool :=
  decide (off + BitVec.ofNat 64 width ≤ kPalScratchSize)

/-- The widths of the bus. -/
def LegalWidth (width : Nat) : Prop := width = 1 ∨ width = 2 ∨ width = 4 ∨ width = 8

instance (width : Nat) : Decidable (LegalWidth width) := inferInstanceAs (Decidable (_ ∨ _))

/-- The chipset with another device state. -/
def setDevices (c : Chipset (BusSide δ)) (d : δ) : Chipset (BusSide δ) :=
  { c with devices := { c.devices with devices := d } }

/-- **`TsunamiChipset::read`.** Only DRAM checks the width. -/
def read (c : Chipset (BusSide δ)) (pa : Word) (width : Nat) : Chipset (BusSide δ) × BusResult :=
  let d := c.devices.devices
  let answer (r : δ × Word) : Chipset (BusSide δ) × BusResult := (setDevices c r.1, ⟨.ok, r.2⟩)
  match decodeRead D d pa with
  | .palScratch off =>
    -- an access over the end of the window is answered with zero
    (c, ⟨.ok, if inScratch off width then
      leWord (fun i => c.devices.palScratch (off.toNat + i)) width else 0⟩)
  | .dram pa => (c, Chipset.dramRead c.memory pa width)
  | .flash off => answer (D.flashRead d off)
  | .traceArm => answer (D.setTraceWindowCountdown d 0x7FFFFFFFFFFFFFFF, 0x7FFFFFFFFFFFFFFF)
  | .tig pa => answer (D.tigRead d pa)
  | .mmio off => answer (mmioRead D d off width)
  | .nxm => answer (D.reportNxm d pa, ~~~0)

/-- **`TsunamiChipset::write`.** A width the bus does not have is refused before the decode. -/
def write (c : Chipset (BusSide δ)) (pa value : Word) (width : Nat) :
    Chipset (BusSide δ) × BusResult :=
  if ¬ LegalWidth width then (c, ⟨.busError, 0⟩)
  else
    let d := c.devices.devices
    let done (d : δ) : Chipset (BusSide δ) × BusResult := (setDevices c d, ⟨.ok, 0⟩)
    match decodeWrite D d pa with
    | .palScratch off =>
      -- an access over the end of the window is dropped
      if inScratch off width then
        ({ c with devices := { c.devices with
            palScratch := storeScratch c.devices.palScratch off.toNat value width } }, ⟨.ok, 0⟩)
      else (c, ⟨.ok, 0⟩)
    | .dram pa => ({ c with memory := Chipset.dramWrite c.memory pa value width }, ⟨.ok, 0⟩)
    | .flash off => done (D.flashWrite d off value)
    | .traceArm => done (D.setTraceWindowCountdown d value)
    | .tig pa => done (D.tigWrite d pa value)
    | .mmio off => done (mmioWrite D d off value width)
    | .nxm => done (D.reportNxm d pa)

/-! ## The chipset as the bus of the machine -/

/-- The claimants other than DRAM, as the machine model takes them. -/
def toDevices : Devices (BusSide δ) where
  dramClaims s pa := decodeRead D s.devices pa == .dram pa
  read s pa width := ((read D ⟨.empty 0, s⟩ pa width).1.devices, (read D ⟨.empty 0, s⟩ pa width).2)
  write s pa value width :=
    ((write D ⟨.empty 0, s⟩ pa value width).1.devices, (write D ⟨.empty 0, s⟩ pa value width).2)

/-- **Both cascades find the same claimant.** -/
theorem decodeWrite_eq (d : δ) (pa : Word) : decodeWrite D d pa = decodeRead D d pa := rfl

/-- DRAM is claimed at the address itself. -/
theorem decodeRead_dram {d : δ} {pa pa' : Word} (h : decodeRead D d pa = .dram pa') : pa' = pa := by
  unfold decodeRead at h
  split_ifs at h
  exact (Claimant.dram.inj h).symm

/-- The machine's bus over these devices is the chipset. -/
theorem chipset_read_eq (c : Chipset (BusSide δ)) (pa : Word) (width : Nat) :
    c.read (toDevices D) pa width = read D c pa width := by
  unfold Chipset.read toDevices read
  cases h : decodeRead D c.devices.devices pa with
  | dram pa' =>
    obtain rfl := decodeRead_dram D h
    simp [h]
  | _ => simp [h, setDevices]

/-- A write of the chipset is a write of the bus. -/
theorem chipset_write_eq (c : Chipset (BusSide δ)) (pa value : Word) (width : Nat) :
    c.write (toDevices D) pa value width = write D c pa value width := by
  unfold Chipset.write toDevices write
  simp only [decodeWrite_eq]
  by_cases hw : LegalWidth width
  · have hlegal : width = 1 ∨ width = 2 ∨ width = 4 ∨ width = 8 := hw
    cases h : decodeRead D c.devices.devices pa with
    | dram pa' =>
      obtain rfl := decodeRead_dram D h
      simp [hw, hlegal]
    | palScratch off =>
      cases hin : inScratch off width <;> simp [hw, hlegal, hin]
    | _ => simp [hw, hlegal, setDevices]
  · have hlegal : ¬ (width = 1 ∨ width = 2 ∨ width = 4 ∨ width = 8) := hw
    rw [if_pos hlegal, if_pos hw]

/-! ## Reading back -/

/-- The low bytes of a value. -/
def cut (value : Word) (width : Nat) : Word := (value.setWidth (8 * width)).setWidth 64

/-- The bytes of a value compose to its low bytes. -/
theorem leWord_byteOf (value : Word) (n : Nat) : leWord (byteOf value) n = cut value n := by
  apply BitVec.eq_of_getLsbD_eq
  intro i hi
  rw [getLsbD_leWord, cut, BitVec.getLsbD_setWidth, BitVec.getLsbD_setWidth, byteOf,
    BitVec.getLsbD_extractLsb', Nat.div_add_mod]
  simp [hi, Nat.mod_lt i (show 0 < 8 by decide)]

/-- A legal width is between one byte and eight. -/
theorem LegalWidth.pos {width : Nat} (h : LegalWidth width) : 0 < width ∧ width ≤ 8 := by
  rcases h with rfl | rfl | rfl | rfl <;> decide

/-- What is stored in the scratch RAM is read back from it. -/
theorem leWord_storeScratch (ram : Nat → BitVec 8) (off : Nat) (value : Word) (width : Nat) :
    leWord (fun i => storeScratch ram off value width (off + i)) width = cut value width := by
  rw [← leWord_byteOf]
  apply leWord_congr
  intro i hi
  rw [storeScratch, if_pos ⟨by omega, by omega⟩, Nat.add_sub_cancel_left]

/-- A read of memory is a read of its bytes. -/
theorem dramRead_eq (m : GuestMemory) (pa : Word) {width : Nat} (h : LegalWidth width) :
    Chipset.dramRead m pa width = ⟨.ok, m.read pa width⟩ := by
  rw [Chipset.dramRead]
  by_cases h1 : width = 1
  · rw [if_pos h1, h1, read_one]
  · rw [if_neg h1, if_pos (h.resolve_left h1)]

/-- A write of memory is a write of its bytes. -/
theorem dramWrite_eq (m : GuestMemory) (pa value : Word) (width : Nat) :
    Chipset.dramWrite m pa value width = (m.write pa value width).1 := by
  rw [Chipset.dramWrite]
  split
  · rename_i h1
    rw [h1, write_one]
  · rfl

/-- What is stored in guest memory is read back from it. -/
theorem read_write_dram (m : GuestMemory) (pa value : Word) {width : Nat} (h : LegalWidth width)
    (hin : FlatMemory.Inside m.capacity pa.toNat width) :
    (m.write pa value width).1.read pa width = cut value width := by
  obtain ⟨hpos, hle⟩ := h.pos
  have hcap := m.capacity_le
  have hend : pa.toNat + width ≤ 2 ^ 48 := by
    have := hin (width - 1) (by omega)
    omega
  -- the array of the memory's own bytes
  have hflat : Refines m (fun i : Fin m.capacity => m.bytes (BitVec.ofNat 48 i.val)) :=
    ⟨rfl, fun _ => rfl⟩
  have hwrite := hflat.write (v := value) hpos (by omega) hend fun _ => hin
  rw [if_pos hin] at hwrite
  rw [hwrite.1.read_eq (by omega) hend, ← leWord_byteOf]
  apply leWord_congr
  intro i hi
  simp [FlatMemory.get, FlatMemory.store, hin i hi, hi]

/-! ## What an access leaves alone -/

variable (c : Chipset (BusSide δ)) (pa value : Word) (width : Nat)

/-- Storage backs every byte of the access: it ends inside the scratch window, or inside guest
memory. -/
def Backed : Prop :=
  match decodeRead D c.devices.devices pa with
  | .palScratch off => inScratch off width = true
  | .dram pa => FlatMemory.Inside c.memory.capacity pa.toNat width
  | _ => False

/-- The access is one the two dispatches treat differently on purpose: the interrupt acknowledge
cycle is a read only, and a sparse memory write goes to the generic writer. -/
def ReadsElsewhere (off : Word) : Prop :=
  off = 0x1F8000000 ∨ routeMmioOffset off = .pchip0SparseMem

variable {D c pa value width}

/-- Writes are routed as reads, but where reads go elsewhere. -/
theorem routeWrite_eq {off : Word} (h : ¬ ReadsElsewhere off) : routeWrite off = routeRead off := by
  rw [ReadsElsewhere, not_or] at h
  rw [routeWrite, routeRead, if_neg h.1]
  split
  · rfl
  · cases hr : routeMmioOffset off with
    | pchip0SparseMem => exact absurd hr h.2
    | _ => rfl

/-- A write of anything else leaves memory as it is. -/
theorem write_memory (hd : ∀ a, decodeRead D c.devices.devices pa ≠ .dram a) :
    (write D c pa value width).1.memory = c.memory := by
  simp only [write, decodeWrite_eq]
  split
  · rfl
  · cases h : decodeRead D c.devices.devices pa with
    | dram a => exact absurd h (hd a)
    | palScratch off =>
      simp only
      split <;> rfl
    | _ => rfl

/-- A write of anything else leaves the PAL scratch page as it is. -/
theorem write_palScratch (hs : ∀ off, decodeRead D c.devices.devices pa ≠ .palScratch off) :
    (write D c pa value width).1.devices.palScratch = c.devices.palScratch := by
  simp only [write, decodeWrite_eq]
  split
  · rfl
  · cases h : decodeRead D c.devices.devices pa with
    | palScratch off => exact absurd h (hs off)
    | _ => rfl

/-- A read changes neither. -/
theorem read_storage : (read D c pa width).1.memory = c.memory ∧
    (read D c pa width).1.devices.palScratch = c.devices.palScratch := by
  simp only [read]
  cases decodeRead D c.devices.devices pa with
  | _ => exact ⟨rfl, rfl⟩

/-- A backed access is read back. -/
theorem read_write_backed (hw : LegalWidth width) (hb : Backed D c pa width) :
    (write D c pa value width).2 = ⟨.ok, 0⟩ ∧
      (read D (write D c pa value width).1 pa width).2 = ⟨.ok, cut value width⟩ := by
  rw [Backed] at hb
  rw [write, if_neg (not_not.mpr hw)]
  simp only [decodeWrite_eq]
  cases h : decodeRead D c.devices.devices pa with
  | palScratch off =>
    rw [h] at hb
    have hin : inScratch off width = true := hb
    simp only [read, hin, if_true, h, leWord_storeScratch, and_self]
  | dram a =>
    obtain rfl := decodeRead_dram D h
    rw [h] at hb
    refine ⟨rfl, ?_⟩
    simp only [read, h]
    rw [dramRead_eq _ _ hw, dramWrite_eq, read_write_dram _ _ _ hw hb]
  | _ =>
    rw [h] at hb
    exact hb.elim

end TsunamiBus

end EmulatR
