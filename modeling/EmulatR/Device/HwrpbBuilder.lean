import EmulatR.Library.Regions
import EmulatR.Memory.Bytes

/-! # The HWRPB builder

The restart parameter block that the firmware hands to the operating system: a header, a slot for
each CPU, the console terminal block, the console routine block with its I/O entries, and the memory
descriptor (deviceLib/Hwrpb.h). The builder lays them one after another in a buffer it is given
(deviceLib/HwrpbBuilder.cpp). Sizes and offsets are 64-bit words that wrap around.

`HwrpbBuildSpec` is what is asked for, `writeRecord` writes one record, `populateHwrpb` the
block. -/

namespace EmulatR

namespace Hwrpb

open Library
open GuestMemory (leWord byteOf)

/-! ## The buffer -/

/-- The buffer, and whether all writes have been inside it. -/
abbrev Buffer := Arena (BitVec 8)

/-- A record, as the quadwords to store at offsets from its base. -/
abbrev Fields := List (Nat × Word)

/-- The quadword at an offset. -/
def quad (m : Buffer) (off : Nat) : Word := leWord (fun i => m.cells (off + i)) 8

/-- Store a number of quadwords one after another. -/
def storeQuads (total off n : Nat) (f : Nat → Word) : Buffer → Buffer :=
  Arena.fill total ⟨off, 8 * n⟩ fun a => byteOf (f (a / 8)) (a % 8)

/-- Store a quadword. -/
def poke (total off : Nat) (v : Word) : Buffer → Buffer := storeQuads total off 1 fun _ => v

/-- Store the fields of a record. -/
def pokes (total base : Nat) (fields : Fields) (m : Buffer) : Buffer :=
  fields.foldl (fun m kv => poke total (base + kv.1) kv.2 m) m

/-- Clear a record of `n` quadwords and store its fields. -/
def writeRecord (total base n : Nat) (fields : Fields) (m : Buffer) : Buffer :=
  pokes total base fields (storeQuads total base n (fun _ => 0) m)

/-- The sum of `n` quadwords, modulo `2 ^ 64`. -/
def sumQuads (m : Buffer) (off : Nat) : Nat → Word
  | 0 => 0
  | n + 1 => sumQuads m off n + quad m (off + 8 * n)

section Quads

variable {m m' : Buffer} {total base off n : Nat} {v : Word} {fields : Fields}

/-- Buffers that agree on a quadword have the same one. -/
theorem quad_congr (h : m.AgreeOn ⟨off, 8⟩ m') : quad m off = quad m' off :=
  GuestMemory.leWord_congr fun i hi =>
    h (off + i) ⟨Nat.le_add_right off i, Nat.add_lt_add_left hi off⟩

/-- Buffers that agree on some quadwords have the same sum of them. -/
theorem sumQuads_congr (h : m.AgreeOn ⟨off, 8 * n⟩ m') : sumQuads m off n = sumQuads m' off n := by
  induction n with
  | zero => rfl
  | succ n ih =>
    rw [sumQuads, sumQuads, ih (h.mono (le_refl off) ?_), quad_congr (h.mono ?_ ?_)]
    · exact Nat.le_add_right off (8 * n)
    · show off + 8 * n + 8 ≤ off + 8 * (n + 1)
      omega
    · show off + 8 * n ≤ off + 8 * (n + 1)
      omega

/-- A loop over quadwords stores each of them. -/
theorem quad_storeQuads (f : Nat → Word) {j : Nat} (hj : j < n) :
    quad (storeQuads total off n f m) (off + 8 * j) = f j := by
  apply GuestMemory.eq_of_bytes
  intro i hi
  have hmem : off + 8 * j + i ∈ (⟨off, 8 * n⟩ : Region) :=
    ⟨show off ≤ off + 8 * j + i by omega, show off + 8 * j + i < off + 8 * n by omega⟩
  rw [quad, GuestMemory.byteOf_leWord _ hi, if_pos hi, storeQuads, Arena.cells_fill_of_mem hmem,
    show off + 8 * j + i - off = 8 * j + i by omega, show (8 * j + i) / 8 = j by omega,
    show (8 * j + i) % 8 = i by omega]

/-- A quadword that was stored is read back. -/
theorem quad_poke (total off : Nat) (v : Word) (m : Buffer) : quad (poke total off v m) off = v := by
  have h : quad (poke total off v m) (off + 8 * 0) = v :=
    quad_storeQuads (fun _ => v) Nat.zero_lt_one
  rwa [Nat.mul_zero, Nat.add_zero] at h

/-- The loop changes nothing but its quadwords. -/
theorem confined_storeQuads (total off n : Nat) (f : Nat → Word) :
    Confined total (storeQuads total off n f) ⟨off, 8 * n⟩ :=
  Confined.fill total ⟨off, 8 * n⟩ _

/-- A store changes nothing but its quadword. -/
theorem confined_poke (total off : Nat) (v : Word) : Confined total (poke total off v) ⟨off, 8⟩ :=
  confined_storeQuads total off 1 _

/-- The fields of a record do not overlap, and they are inside `len` bytes. -/
structure Fits (fields : Fields) (len : Nat) : Prop where
  /-- The fields are in ascending order and do not overlap. -/
  ordered : (fields.map Prod.fst).Pairwise fun j k => j + 8 ≤ k
  /-- They end inside the record. -/
  within : ∀ k ∈ fields.map Prod.fst, k + 8 ≤ len

/-- The fields of a record read back. -/
def Holds (m : Buffer) (base : Nat) (fields : Fields) : Prop :=
  ∀ kv ∈ fields, quad m (base + kv.1) = kv.2

/-- Whether fields fit is a matter of their offsets. -/
theorem fits_of_keys {len : Nat} (keys : List Nat) (hkeys : fields.map Prod.fst = keys)
    (hordered : keys.Pairwise fun j k => j + 8 ≤ k) (hwithin : ∀ k ∈ keys, k + 8 ≤ len) :
    Fits fields len := by
  subst hkeys
  exact ⟨hordered, hwithin⟩

/-- A field ends inside the record. -/
theorem Fits.le {len : Nat} (h : Fits fields len) {kv : Nat × Word} (hkv : kv ∈ fields) :
    kv.1 + 8 ≤ len := h.within kv.1 (List.mem_map_of_mem hkv)

/-- A field by its offset. -/
theorem Holds.field (h : Holds m base fields) (k : Nat) {v : Word} (hk : fields.lookup k = some v) :
    quad m (base + k) = v := by
  obtain ⟨before, behind, heq, -⟩ := List.lookup_eq_some_iff.1 hk
  exact h (k, v) (heq ▸ List.mem_append_right before List.mem_cons_self)

/-- Fields that a record holds it also holds in a buffer that agrees with this one there. -/
theorem Holds.congr {len : Nat} (h : Holds m base fields) (hfits : Fits fields len)
    (hagree : m'.AgreeOn ⟨base, len⟩ m) : Holds m' base fields := by
  intro kv hkv
  have hle := hfits.le hkv
  rw [← h kv hkv]
  refine quad_congr (hagree.mono (Nat.le_add_right base kv.1) ?_)
  show base + kv.1 + 8 ≤ base + len
  omega

/-- Fields are stored where a region holds them all. -/
theorem confined_pokes {r : Region} (h : ∀ kv ∈ fields, r.base ≤ base + kv.1 ∧
    base + kv.1 + 8 ≤ r.finish) : Confined total (pokes total base fields) r := by
  induction fields with
  | nil => exact Confined.id total r
  | cons kv fields ih =>
    have hhead := h kv List.mem_cons_self
    exact (ih fun kv' hkv' => h kv' (List.mem_cons_of_mem kv hkv')).comp
      ((confined_poke total (base + kv.1) kv.2).mono hhead.1 hhead.2)

/-- Stores of fields that fit change nothing but their record. -/
theorem Fits.confined_pokes {len : Nat} (h : Fits fields len) (total base : Nat) :
    Confined total (pokes total base fields) ⟨base, len⟩ :=
  Hwrpb.confined_pokes fun kv hkv => by
    have hle := h.le hkv
    exact ⟨Nat.le_add_right base kv.1, show base + kv.1 + 8 ≤ base + len by omega⟩

/-- Stores of fields keep the regions that none of them meets. -/
theorem agreeOn_pokes {r : Region} (h : ∀ kv ∈ fields, (⟨base + kv.1, 8⟩ : Region).Apart r)
    (total : Nat) (m : Buffer) : (pokes total base fields m).AgreeOn r m := by
  induction fields generalizing m with
  | nil => exact fun _ _ => rfl
  | cons kv fields ih =>
    exact (ih (fun kv' hkv' => h kv' (List.mem_cons_of_mem kv hkv')) _).trans
      ((confined_poke total (base + kv.1) kv.2).agreeOn (h kv List.mem_cons_self) m)

/-- Fields that do not overlap are all there once they are stored. -/
theorem holds_pokes (h : (fields.map Prod.fst).Pairwise fun j k => j + 8 ≤ k) (total base : Nat)
    (m : Buffer) : Holds (pokes total base fields m) base fields := by
  -- on the fields; the later ones are stored behind the first
  induction fields generalizing m with
  | nil => exact fun kv hkv => absurd hkv List.not_mem_nil
  | cons kv fields ih =>
    rw [List.map_cons, List.pairwise_cons] at h
    intro kv' hkv'
    rcases List.mem_cons.1 hkv' with rfl | hrest
    · have happ : ∀ later ∈ fields,
          (⟨base + later.1, 8⟩ : Region).Apart ⟨base + kv'.1, 8⟩ := fun later hmem => by
        have hle := h.1 later.1 (List.mem_map_of_mem hmem)
        exact Region.apart_of_le (.inr (show base + kv'.1 + 8 ≤ base + later.1 by omega))
      exact (quad_congr (agreeOn_pokes happ total _)).trans
        (quad_poke total (base + kv'.1) kv'.2 m)
    · exact ih h.2 _ kv' hrest

/-- A record has its fields once it is written. -/
theorem holds_writeRecord (h : (fields.map Prod.fst).Pairwise fun j k => j + 8 ≤ k)
    (total base n : Nat) (m : Buffer) : Holds (writeRecord total base n fields m) base fields :=
  holds_pokes h total base _

/-- Writing a record changes nothing outside it. -/
theorem Fits.confined_writeRecord (h : Fits fields (8 * n)) (total base : Nat) :
    Confined total (writeRecord total base n fields) ⟨base, 8 * n⟩ :=
  (h.confined_pokes total base).comp (confined_storeQuads total base n _)

end Quads

/-! ## The spec -/

/-- The types of CPU. -/
inductive CpuType
  | ev3 | ev4 | lca4 | ev5 | ev45 | ev56 | ev6 | pca56 | pca57 | ev67 | ev68
  deriving DecidableEq, Repr, Inhabited

/-- The code of a CPU type in its slot. -/
def CpuType.code : CpuType → Word
  | .ev3 => 1
  | .ev4 => 2
  | .lca4 => 4
  | .ev5 => 5
  | .ev45 => 6
  | .ev56 => 7
  | .ev6 => 8
  | .pca56 => 9
  | .pca57 => 10
  | .ev67 => 11
  | .ev68 => 12

/-- The types of system. -/
inductive SystemType
  | decTsunami | apiNautilus
  deriving DecidableEq, Repr

/-- The code of a system type in the header. -/
def SystemType.code : SystemType → Word
  | .decTsunami => 34
  | .apiNautilus => 201

/-- The types of console. -/
inductive ConsoleType
  | none | detachedService | serialLine | graphics | network
  deriving DecidableEq, Repr

/-- The code of a console type in the terminal block. -/
def ConsoleType.code : ConsoleType → Word
  | .none => 0
  | .detachedService => 1
  | .serialLine => 2
  | .graphics => 3
  | .network => 192

/-- What the builder is told about a CPU. -/
structure PerCpuConfig where
  /-- The chip. -/
  cpuType : CpuType
  /-- Its variation. -/
  cpuVar : Word
  /-- Its revision. -/
  cpuRev : Word
  /-- Where the PALcode lies. -/
  palMemPa : Word
  /-- How long it is. -/
  palMemLen : Word
  /-- Where its scratch area lies. -/
  palScrPa : Word
  /-- How long that is. -/
  palScrLen : Word
  /-- The revision of the PALcode. -/
  palRev : BitVec 32
  /-- Its variant. -/
  palVar : BitVec 32
  /-- Where the logout area lies. -/
  logoutMemPa : Word
  /-- How long it is. -/
  logoutLength : Word
  /-- The CPU is there. -/
  present : Bool
  /-- It can be used. -/
  available : Bool
  /-- It is the one that boots. -/
  primary : Bool
  deriving Inhabited

/-- The CPU of a system with one. -/
def defaultEv6PrimaryCpu : PerCpuConfig where
  cpuType := .ev6
  cpuVar := 0
  cpuRev := 0
  palMemPa := 0
  palMemLen := 0
  palScrPa := 0
  palScrLen := 0
  palRev := 0
  palVar := 0
  logoutMemPa := 0
  logoutLength := 0
  present := true
  available := true
  primary := true

/-- A cluster of memory pages. -/
structure MemoryClusterSpec where
  /-- Its first page. -/
  startPfn : Word
  /-- The number of its pages. -/
  pfnCount : Word
  /-- What it is used for. -/
  usage : Word
  deriving Inhabited

/-- A mapping of I/O pages in the callback block. -/
structure CrbIoEntry where
  /-- The virtual address. -/
  virAddr : Word
  /-- The physical address. -/
  phyAddr : Word
  /-- The number of pages. -/
  pageCount : Word
  deriving Inhabited

/-- What the builder is given. An array is a pointer, null as `none`, and a count. -/
structure HwrpbBuildSpec where
  /-- Where the block will lie. -/
  hwrpbPa : Word
  /-- The type of the system. -/
  systemType : SystemType
  /-- Its variation. -/
  systemVariation : Word
  /-- Its revision. -/
  systemRevision : Word
  /-- Its serial number, in two quadwords. -/
  serialNumber : Word × Word
  /-- The frequency of the interval clock, scaled by 4096. -/
  intrclockFreqX4096 : Word
  /-- The frequency of the cycle counter. -/
  cycleCountFreqHz : Word
  /-- The CPU that boots. -/
  primaryCpuId : Word
  /-- The CPUs; a null pointer is `none`. -/
  cpus : Option (Nat → PerCpuConfig)
  /-- Their number. -/
  cpuCount : Word
  /-- The memory clusters; a null pointer is `none`. -/
  clusters : Option (Nat → MemoryClusterSpec)
  /-- Their number. -/
  clusterCount : Word
  /-- The type of the console. -/
  consoleType : ConsoleType
  /-- Its unit. -/
  consoleUnit : Word
  /-- Its interrupt priority. -/
  consoleDevIpl : Word
  /-- The callback that prints a character. -/
  consolePutcharCallbackPa : Word
  /-- The virtual address of the dispatch procedure. -/
  crbDispatchVa : Word
  /-- Its physical address. -/
  crbDispatchPa : Word
  /-- The virtual address of the fixup procedure. -/
  crbFixupVa : Word
  /-- Its physical address. -/
  crbFixupPa : Word
  /-- The number of I/O pages to map. -/
  crbIoPagesToMap : Word
  /-- The mappings; a null pointer is `none`. -/
  crbIoEntries : Option (Nat → CrbIoEntry)
  /-- Their number. -/
  crbIoEntryCount : Word
  /-- The width of a physical address. -/
  paSizeBits : Word
  /-- The largest address space number. -/
  maxValidAsn : Word
  /-- The virtual address of the page table. -/
  vptbVa : Word
  /-- The revision of the block, or zero for the usual one. -/
  hwrpbRevision : Word

namespace HwrpbBuildSpec

/-- The CPU at a place. -/
def cpu (spec : HwrpbBuildSpec) (i : Nat) : PerCpuConfig := (spec.cpus.getD default) i

/-- The cluster at a place. -/
def cluster (spec : HwrpbBuildSpec) (i : Nat) : MemoryClusterSpec := (spec.clusters.getD default) i

/-- The mapping at a place. -/
def ioEntry (spec : HwrpbBuildSpec) (i : Nat) : CrbIoEntry := (spec.crbIoEntries.getD default) i

end HwrpbBuildSpec

/-! ## The sections -/

/-- The state flags of a slot: `bootstrap`, `restart_cap`, `available`, `present`, `pal_valid`,
`pal_loaded`, and a cold boot as `halt_request`. -/
def slotState (cfg : PerCpuConfig) : Word :=
  (if cfg.primary then 0b11 else 0) ||| (if cfg.available then 1 <<< 2 else 0) |||
    (if cfg.present then 1 <<< 3 else 0) ||| 1 <<< 6 ||| 1 <<< 8 ||| 2 <<< 16

/-- The fields of a CPU slot. -/
def slotFields (cfg : PerCpuConfig) : Fields :=
  [(0x080, slotState cfg), (0x088, cfg.palMemLen), (0x090, cfg.palScrLen), (0x098, cfg.palMemPa),
    (0x0A0, cfg.palScrPa),
    -- two longwords: `pal_rev`, and `pal_var` above it
    (0x0A8, cfg.palVar ++ cfg.palRev),
    (0x0B0, cfg.cpuType.code), (0x0B8, cfg.cpuVar), (0x0C0, cfg.cpuRev), (0x0D8, cfg.logoutMemPa),
    (0x0E0, cfg.logoutLength), (0x118, 0), (0x1D8, cfg.palRev.setWidth 64),
    (0x1E0, cfg.palRev.setWidth 64)]

/-- Write a CPU slot. -/
def writeSlot (total base : Nat) (cfg : PerCpuConfig) : Buffer → Buffer :=
  writeRecord total base 80 (slotFields cfg)

/-- Write the slots of all CPUs. -/
def writeSlots (total : Nat) (spec : HwrpbBuildSpec) (base : Nat) : Buffer → Buffer :=
  Arena.forEach spec.cpuCount.toNat fun i => writeSlot total (base + 640 * i) (spec.cpu i)

/-- The fields of the terminal block. -/
def ctbFields (spec : HwrpbBuildSpec) : Fields :=
  [(0, spec.consoleType.code), (8, spec.consoleUnit), (24, 232), (32, spec.consoleDevIpl),
    (208, spec.consolePutcharCallbackPa)]

/-- The fields of the callback block. -/
def crbFields (spec : HwrpbBuildSpec) : Fields :=
  [(0, spec.crbDispatchVa), (8, spec.crbDispatchPa), (16, spec.crbFixupVa), (24, spec.crbFixupPa),
    (32, spec.crbIoEntryCount), (40, spec.crbIoPagesToMap)]

/-- Quadword `j` of the array of I/O entries. -/
def entryQuad (spec : HwrpbBuildSpec) (j : Nat) : Word :=
  match j % 3 with
  | 0 => (spec.ioEntry (j / 3)).virAddr
  | 1 => (spec.ioEntry (j / 3)).phyAddr
  | _ => (spec.ioEntry (j / 3)).pageCount

/-- Copy the array of I/O entries, as many bytes of it as the word product gives. -/
def copyEntries (total base : Nat) (spec : HwrpbBuildSpec) (m : Buffer) : Buffer :=
  if 0 < spec.crbIoEntryCount then
    storeQuads total base ((spec.crbIoEntryCount * 24).toNat / 8) (entryQuad spec) m
  else m

/-- The fields of a cluster. -/
def clusterFields (c : MemoryClusterSpec) : Fields :=
  [(0, c.startPfn), (8, c.pfnCount), (16, c.pfnCount), (48, c.usage)]

/-- The checksum of the memory descriptors: the sum of what follows it, seven quadwords for each
cluster that is counted there. -/
def computeMemDscChecksum (m : Buffer) (base : Nat) : Word :=
  quad m (base + 8) + quad m (base + 16) + sumQuads m (base + 24) (quad m (base + 16) * 7).toNat

/-- Write the memory descriptors; the checksum comes last. -/
def writeMemDsc (total : Nat) (spec : HwrpbBuildSpec) (base : Nat) (m : Buffer) : Buffer :=
  let m := pokes total base [(8, 0), (16, spec.clusterCount)] m
  let m := Arena.forEach spec.clusterCount.toNat (fun i =>
    writeRecord total (base + 24 + 56 * i) 7 (clusterFields (spec.cluster i))) m
  poke total base (computeMemDscChecksum m base) m

/-- The header but for its checksum, at +288. -/
def headerFields (spec : HwrpbBuildSpec) (ctb crb mddt size : Word) : Fields :=
  [(0, spec.hwrpbPa), (8, 0x4250525748),
    (16, if spec.hwrpbRevision ≠ 0 then spec.hwrpbRevision else 13), (24, size),
    (32, spec.primaryCpuId), (40, 8192),
    -- two longwords: the low half of the address width, and a virtual address extension of 0
    (48, (spec.paSizeBits.setWidth 32).setWidth 64),
    (56, spec.maxValidAsn), (64, spec.serialNumber.1), (72, spec.serialNumber.2),
    (80, spec.systemType.code), (88, spec.systemVariation), (96, spec.systemRevision),
    (104, spec.intrclockFreqX4096), (112, spec.cycleCountFreqHz), (120, spec.vptbVa), (128, 0),
    (136, 0), (144, spec.cpuCount), (152, 640), (160, 320), (168, 1), (176, 232), (184, ctb),
    (192, crb), (200, mddt), (208, 0), (216, 0), (224, 0), (232, 0), (240, 0), (248, 0), (256, 0),
    (264, 0), (272, 0), (280, 0), (296, 0), (304, 0), (312, 0)]

/-- The checksum of the header: the sum of the quadwords in front of it. -/
def computeHwrpbChecksum (m : Buffer) : Word := sumQuads m 0 36

/-- Write the header; the checksum comes last. -/
def writeHeader (total : Nat) (spec : HwrpbBuildSpec) (ctb crb mddt size : Word) (m : Buffer) :
    Buffer :=
  let m := pokes total 0 (headerFields spec ctb crb mddt size) m
  poke total 288 (computeHwrpbChecksum m) m

/-! ## The builder -/

/-- Round up to a multiple of a power of two. -/
def alignUp (n a : Word) : Word := (n + (a - 1)) &&& ~~~(a - 1)

/-- Move the cursor; 0 if the section does not fit. -/
def bump (cursor bytes total : Word) : Word :=
  let next := cursor + alignUp bytes 8
  if next ≤ total then next else 0

/-- The test that follows every move of the cursor. -/
def checked (cursor : Word) : Option Word := if cursor = 0 then none else some cursor

/-- The cursor behind the I/O entries; where there are none it stays. -/
def bumpEntries (cursor total : Word) (spec : HwrpbBuildSpec) : Option Word :=
  if 0 < spec.crbIoEntryCount then checked (bump cursor (spec.crbIoEntryCount * 24) total)
  else some cursor

/-- The checks of the buffer size and the spec. -/
def valid (bufferSize : Word) (spec : HwrpbBuildSpec) : Bool :=
  !decide (bufferSize < 320) &&
  !(spec.cpuCount == 0 || spec.cpus.isNone) &&
  !(spec.clusterCount == 0 || decide (3 < spec.clusterCount) || spec.clusters.isNone) &&
  !(decide (0 < spec.crbIoEntryCount) && spec.crbIoEntries.isNone)

/-- Lay out the block in a buffer: its size and the buffer, or `none` where the builder returns
0. -/
def populateHwrpb (buffer : Option (Nat → BitVec 8)) (bufferSize : Word) (spec : HwrpbBuildSpec) :
    Option (Word × Buffer) := do
  let bytes ← buffer
  guard (valid bufferSize spec)
  let total := bufferSize.toNat
  let m := Arena.fill total ⟨0, total⟩ (fun _ => 0) ⟨bytes, true⟩
  let ctb ← checked (bump (alignUp 320 8) (spec.cpuCount * 640) bufferSize)
  let m := writeSlots total spec 320 m
  let crb ← checked (bump ctb 232 bufferSize)
  let m := pokes total ctb.toNat (ctbFields spec) m
  let io ← checked (bump crb 48 bufferSize)
  let m := pokes total crb.toNat (crbFields spec) m
  let mddt ← bumpEntries io bufferSize spec
  let m := copyEntries total (crb.toNat + 48) spec m
  let size ← checked (bump mddt (24 + spec.clusterCount * 56) bufferSize)
  let m := writeMemDsc total spec mddt.toNat m
  return (size, writeHeader total spec ctb crb mddt size m)

end Hwrpb

end EmulatR
