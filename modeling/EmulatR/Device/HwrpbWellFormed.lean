import Mathlib.Data.Option.Basic
import EmulatR.Device.HwrpbBuilder

/-! # What the HWRPB builder returns is well formed

Well formed means: nothing is written outside the buffer, the sections are apart at the offsets that
the header records, the checksums are right, and every section reads back as the spec has it. The
builder tests each section against the buffer with sizes that wrap around, and it cuts the address
width to a longword; `hwrpbLaw_iff` says that these are the only two ways to miss. -/

namespace EmulatR

namespace Hwrpb

open Library

/-! ## Reading back -/

/-- Where the header says that the CPU slots are. -/
def slotOffset (m : Buffer) : Nat := (quad m 160).toNat

/-- Where it says that the terminal block is. -/
def ctbOffset (m : Buffer) : Nat := (quad m 184).toNat

/-- Where it says that the callback block is. -/
def crbOffset (m : Buffer) : Nat := (quad m 192).toNat

/-- Where it says that the memory descriptors are. -/
def mddtOffset (m : Buffer) : Nat := (quad m 200).toNat

/-- The lengths of the sections, in the order in which they are laid out. -/
def sectionLens (spec : HwrpbBuildSpec) : List Nat :=
  [320, 640 * spec.cpuCount.toNat, 232, 48 + 24 * spec.crbIoEntryCount.toNat,
    24 + 56 * spec.clusterCount.toNat]

/-- The size of the whole block, without wrap-around. -/
def totalBytes (spec : HwrpbBuildSpec) : Nat := (sectionLens spec).sum

/-- The sections of a block, at the offsets its header records. -/
def sections (spec : HwrpbBuildSpec) (m : Buffer) : List Region :=
  [⟨0, 320⟩, ⟨slotOffset m, 640 * spec.cpuCount.toNat⟩, ⟨ctbOffset m, 232⟩,
    ⟨crbOffset m, 48 + 24 * spec.crbIoEntryCount.toNat⟩,
    ⟨mddtOffset m, 24 + 56 * spec.clusterCount.toNat⟩]

/-- The header has what the specification says, and the fixed values. -/
structure HeaderReads (m : Buffer) (spec : HwrpbBuildSpec) (size : Word) : Prop where
  /-- The address of the block itself. -/
  hwrpbPa : quad m 0 = spec.hwrpbPa
  /-- The letters HWRPB. -/
  identifier : quad m 8 = 0x4250525748
  /-- The revision, 13 if none is asked for. -/
  revision : quad m 16 = if spec.hwrpbRevision ≠ 0 then spec.hwrpbRevision else 13
  /-- The size that was returned. -/
  hwrpbSize : quad m 24 = size
  /-- The CPU that boots. -/
  primaryCpuId : quad m 32 = spec.primaryCpuId
  /-- Pages of 8 KiB. -/
  pageSize : quad m 40 = 8192
  /-- The width of a physical address, in a longword. -/
  paSizeBits : ((quad m 48).setWidth 32).toNat = spec.paSizeBits.toNat
  /-- The largest address space number. -/
  maxValidAsn : quad m 56 = spec.maxValidAsn
  /-- The serial number. -/
  serialNumber : (quad m 64, quad m 72) = spec.serialNumber
  /-- The type of the system. -/
  systemType : quad m 80 = spec.systemType.code
  /-- Its variation. -/
  systemVariation : quad m 88 = spec.systemVariation
  /-- Its revision. -/
  systemRevision : quad m 96 = spec.systemRevision
  /-- The frequency of the interval clock. -/
  intrclockFreq : quad m 104 = spec.intrclockFreqX4096
  /-- The frequency of the cycle counter. -/
  cycleCountFreq : quad m 112 = spec.cycleCountFreqHz
  /-- The virtual address of the page table. -/
  vptbVa : quad m 120 = spec.vptbVa
  /-- The number of CPU slots. -/
  cpuSlotCount : quad m 144 = spec.cpuCount
  /-- The size of each. -/
  cpuSlotSize : quad m 152 = 640
  /-- One terminal block. -/
  ctbCount : quad m 168 = 1
  /-- Its size. -/
  ctbSize : quad m 176 = 232

/-- A slot has what the specification says about its CPU. -/
structure SlotReads (m : Buffer) (base : Nat) (cfg : PerCpuConfig) : Prop where
  /-- The primary CPU is booting. -/
  bootstrap : (quad m (base + 0x080)).getLsbD 0 = cfg.primary
  /-- It can be restarted. -/
  restartCap : (quad m (base + 0x080)).getLsbD 1 = cfg.primary
  /-- The CPU can be used. -/
  available : (quad m (base + 0x080)).getLsbD 2 = cfg.available
  /-- The CPU is there. -/
  present : (quad m (base + 0x080)).getLsbD 3 = cfg.present
  /-- The length of the PALcode. -/
  palMemLen : quad m (base + 0x088) = cfg.palMemLen
  /-- The length of its scratch area. -/
  palScrLen : quad m (base + 0x090) = cfg.palScrLen
  /-- The address of the PALcode. -/
  palMemPa : quad m (base + 0x098) = cfg.palMemPa
  /-- The address of its scratch area. -/
  palScrPa : quad m (base + 0x0A0) = cfg.palScrPa
  /-- The revision of the PALcode, in the low longword. -/
  palRev : (quad m (base + 0x0A8)).setWidth 32 = cfg.palRev
  /-- Its variant, in the high one. -/
  palVar : (quad m (base + 0x0A8)).extractLsb' 32 32 = cfg.palVar
  /-- The chip. -/
  cpuType : quad m (base + 0x0B0) = cfg.cpuType.code
  /-- Its variation. -/
  cpuVar : quad m (base + 0x0B8) = cfg.cpuVar
  /-- Its revision. -/
  cpuRev : quad m (base + 0x0C0) = cfg.cpuRev
  /-- The address of the logout area. -/
  logoutMemPa : quad m (base + 0x0D8) = cfg.logoutMemPa
  /-- Its length. -/
  logoutLength : quad m (base + 0x0E0) = cfg.logoutLength
  /-- The revision again, for VMS. -/
  palcodeRevVms : quad m (base + 0x1D8) = cfg.palRev.setWidth 64
  /-- And for OSF/1. -/
  palcodeRevOsf : quad m (base + 0x1E0) = cfg.palRev.setWidth 64

/-- The terminal block has what the specification says about the console. -/
structure CtbReads (m : Buffer) (base : Nat) (spec : HwrpbBuildSpec) : Prop where
  /-- Its type. -/
  consType : quad m base = spec.consoleType.code
  /-- Its unit. -/
  consUnit : quad m (base + 8) = spec.consoleUnit
  /-- The length of the block. -/
  length : quad m (base + 24) = 232
  /-- Its interrupt priority. -/
  devIpl : quad m (base + 32) = spec.consoleDevIpl
  /-- The callback that prints a character. -/
  tcPutchar : quad m (base + 208) = spec.consolePutcharCallbackPa

/-- The callback block has what the specification says about the callbacks. -/
structure CrbReads (m : Buffer) (base : Nat) (spec : HwrpbBuildSpec) : Prop where
  /-- The virtual address of the dispatch procedure. -/
  dispatchVa : quad m base = spec.crbDispatchVa
  /-- Its physical address. -/
  dispatchPa : quad m (base + 8) = spec.crbDispatchPa
  /-- The virtual address of the fixup procedure. -/
  fixupVa : quad m (base + 16) = spec.crbFixupVa
  /-- Its physical address. -/
  fixupPa : quad m (base + 24) = spec.crbFixupPa
  /-- The number of mappings. -/
  nbrOfEntries : quad m (base + 32) = spec.crbIoEntryCount
  /-- The number of I/O pages. -/
  pagesToMap : quad m (base + 40) = spec.crbIoPagesToMap

/-- An entry has what the specification says about its mapping. -/
structure EntryReads (m : Buffer) (base : Nat) (e : CrbIoEntry) : Prop where
  /-- The virtual address. -/
  virAddr : quad m base = e.virAddr
  /-- The physical address. -/
  phyAddr : quad m (base + 8) = e.phyAddr
  /-- The number of pages. -/
  pageCount : quad m (base + 16) = e.pageCount

/-- A descriptor has what the specification says about its cluster; all pages are tested. -/
structure ClusterReads (m : Buffer) (base : Nat) (c : MemoryClusterSpec) : Prop where
  /-- The first page. -/
  startPfn : quad m base = c.startPfn
  /-- The number of pages. -/
  pfnCount : quad m (base + 8) = c.pfnCount
  /-- The number of tested pages. -/
  testCount : quad m (base + 16) = c.pfnCount
  /-- What the cluster is used for. -/
  usage : quad m (base + 48) = c.usage

/-- A block of the given size, in a buffer. -/
structure WellFormed (bufferSize : Word) (spec : HwrpbBuildSpec) (size : Word) (m : Buffer) :
    Prop where
  /-- The size fits the buffer. -/
  size_le : size ≤ bufferSize
  /-- No store fell outside the buffer. -/
  inside : m.inside = true
  /-- No two sections overlap. -/
  apart : (sections spec m).Pairwise Region.Apart
  /-- Each begins at a quadword and ends inside the size. -/
  placed : ∀ r ∈ sections spec m, 8 ∣ r.base ∧ r.finish ≤ size.toNat
  /-- The checksum of the header is right. -/
  headerSum : quad m 288 = computeHwrpbChecksum m
  /-- So is that of the memory descriptors. -/
  memDscSum : quad m (mddtOffset m) = computeMemDscChecksum m (mddtOffset m)
  /-- The header reads back. -/
  header : HeaderReads m spec size
  /-- So does the slot of each CPU. -/
  slots : ∀ i < spec.cpuCount.toNat, SlotReads m (slotOffset m + 640 * i) (spec.cpu i)
  /-- So does the terminal block. -/
  ctb : CtbReads m (ctbOffset m) spec
  /-- So does the callback block. -/
  crb : CrbReads m (crbOffset m) spec
  /-- So does each of its entries. -/
  entries : ∀ i < spec.crbIoEntryCount.toNat,
    EntryReads m (crbOffset m + 48 + 24 * i) (spec.ioEntry i)
  /-- So does the number of clusters. -/
  clusterCount : quad m (mddtOffset m + 16) = spec.clusterCount
  /-- So does each cluster. -/
  clusters : ∀ i < spec.clusterCount.toNat,
    ClusterReads m (mddtOffset m + 24 + 56 * i) (spec.cluster i)

/-- Whatever block the builder returns is well formed. -/
def HwrpbLaw (buffer : Option (Nat → BitVec 8)) (bufferSize : Word) (spec : HwrpbBuildSpec) : Prop :=
  ∀ size m, populateHwrpb buffer bufferSize spec = some (size, m) →
    WellFormed bufferSize spec size m

/-! ## What the builder accepts -/

/-- Where the builder's cursor is behind the slots. -/
def slotEnd (spec : HwrpbBuildSpec) : Word := 320 + spec.cpuCount * 640

/-- Behind the terminal block. -/
def ctbEnd (spec : HwrpbBuildSpec) : Word := slotEnd spec + 232

/-- Behind the callback block. -/
def crbEnd (spec : HwrpbBuildSpec) : Word := ctbEnd spec + 48

/-- Behind its entries. -/
def ioEnd (spec : HwrpbBuildSpec) : Word := crbEnd spec + spec.crbIoEntryCount * 24

/-- Behind the memory descriptors. -/
def mddtEnd (spec : HwrpbBuildSpec) : Word := ioEnd spec + (24 + spec.clusterCount * 56)

/-- The end of a section, a word, is in the buffer. -/
def Reaches (bufferSize e : Word) : Prop := e ≠ 0 ∧ e ≤ bufferSize

/-- The spec is valid, and the sections end in the buffer as far as the words tell. -/
structure Accepted (bufferSize : Word) (spec : HwrpbBuildSpec) : Prop where
  /-- The specification passes the checks. -/
  valid : valid bufferSize spec = true
  /-- The slots fit. -/
  slots : Reaches bufferSize (slotEnd spec)
  /-- The terminal block fits. -/
  ctb : Reaches bufferSize (ctbEnd spec)
  /-- The callback block fits. -/
  crb : Reaches bufferSize (crbEnd spec)
  /-- Its entries fit. -/
  io : Reaches bufferSize (ioEnd spec)
  /-- The memory descriptors fit. -/
  mddt : Reaches bufferSize (mddtEnd spec)

section Accept

variable {bufferSize : Word} {spec : HwrpbBuildSpec}

/-- A multiple of 8 needs no rounding. -/
theorem alignUp_of_dvd {n : Word} (h : 8 ∣ n.toNat) : alignUp n 8 = n := by
  have hmask : (8 - 1 : Word).toNat = 2 ^ 3 - 1 := rfl
  apply BitVec.eq_of_toNat_eq
  rw [alignUp, toNat_and_not_lowMask 3 hmask, BitVec.toNat_add, hmask]
  have hlt := n.isLt
  omega

/-- A section of whole quadwords moves the cursor by its size. -/
theorem checked_bump_of_reaches {cursor bytes : Word} (hdvd : 8 ∣ bytes.toNat)
    (h : Reaches bufferSize (cursor + bytes)) :
    checked (bump cursor bytes bufferSize) = some (cursor + bytes) := by
  rw [bump, alignUp_of_dvd hdvd, checked]
  simp only [h.2, if_true, if_neg h.1]

/-- A cursor that is moved is moved by the section, and ends in the buffer. -/
theorem checked_bump_eq_some {cursor bytes e : Word} (hdvd : 8 ∣ bytes.toNat)
    (h : checked (bump cursor bytes bufferSize) = some e) :
    e = cursor + bytes ∧ Reaches bufferSize (cursor + bytes) := by
  rw [bump, alignUp_of_dvd hdvd, checked] at h
  by_cases hle : cursor + bytes ≤ bufferSize
  · by_cases hzero : cursor + bytes = 0
    · simp [hzero] at h
    · simp only [hle, if_true, if_neg hzero, Option.some.injEq] at h
      exact ⟨h.symm, hzero, hle⟩
  · simp [hle] at h

/-- A multiple of 8 times a number, modulo 2⁶⁴, is one. -/
theorem eight_dvd_mul (x : Word) {y : Word} (h : 8 ∣ y.toNat) : 8 ∣ (x * y).toNat := by
  rw [BitVec.toNat_mul]
  exact (Nat.dvd_mod_iff (by decide)).2 (h.mul_left x.toNat)

/-- The sum of two multiples of 8, modulo 2⁶⁴, is a multiple of 8. -/
theorem eight_dvd_add {x y : Word} (hx : 8 ∣ x.toNat) (hy : 8 ∣ y.toNat) :
    8 ∣ (x + y).toNat := by
  rw [BitVec.toNat_add]
  exact (Nat.dvd_mod_iff (by decide)).2 (Nat.dvd_add hx hy)

/-- Without entries the cursor stays behind the block. -/
theorem ioEnd_of_no_entries (h : ¬ 0 < spec.crbIoEntryCount) : ioEnd spec = crbEnd spec := by
  have hcount : spec.crbIoEntryCount = 0#64 := BitVec.le_zero_iff.1 (BitVec.not_lt.1 h)
  rw [ioEnd, hcount]
  exact (congrArg (crbEnd spec + ·) BitVec.zero_mul).trans (BitVec.add_zero (crbEnd spec))

/-- Entries that fit move the cursor behind them. -/
theorem bumpEntries_of_reaches (h : Reaches bufferSize (ioEnd spec)) :
    bumpEntries (crbEnd spec) bufferSize spec = some (ioEnd spec) := by
  rw [bumpEntries]
  split
  · exact checked_bump_of_reaches (eight_dvd_mul _ (by decide)) h
  · next hnone => rw [ioEnd_of_no_entries hnone]

/-- If the cursor comes past the entries, it stands at their end, which the buffer reaches. -/
theorem bumpEntries_eq_some {e : Word} (hcrb : Reaches bufferSize (crbEnd spec))
    (h : bumpEntries (crbEnd spec) bufferSize spec = some e) :
    e = ioEnd spec ∧ Reaches bufferSize (ioEnd spec) := by
  rw [bumpEntries] at h
  split at h
  · exact checked_bump_eq_some (eight_dvd_mul _ (by decide)) h
  · next hnone =>
    rw [ioEnd_of_no_entries hnone]
    exact ⟨(Option.some.inj h).symm, hcrb⟩

end Accept

/-! ## The block -/

section Block

variable (total : Nat) (spec : HwrpbBuildSpec) (m : Buffer)

/-- The buffer once the slots are written. -/
def afterSlots : Buffer := writeSlots total spec 320 m

/-- The buffer after the terminal block. -/
def afterCtb : Buffer := pokes total (slotEnd spec).toNat (ctbFields spec) (afterSlots total spec m)

/-- The buffer after the callback block. -/
def afterCrb : Buffer := pokes total (ctbEnd spec).toNat (crbFields spec) (afterCtb total spec m)

/-- The buffer after the entries of the callback block, if there are any. -/
def afterEntries : Buffer :=
  copyEntries total ((ctbEnd spec).toNat + 48) spec (afterCrb total spec m)

/-- The buffer after the memory descriptors. -/
def afterMemDsc : Buffer := writeMemDsc total spec (ioEnd spec).toNat (afterEntries total spec m)

/-- The buffer after the header, the last of all. -/
def afterHeader : Buffer :=
  writeHeader total spec (slotEnd spec) (ctbEnd spec) (ioEnd spec) (mddtEnd spec)
    (afterMemDsc total spec m)

end Block

/-- An accepted specification is written section by section. -/
theorem populateHwrpb_of_accepted {bufferSize : Word} {spec : HwrpbBuildSpec}
    (bytes : Nat → BitVec 8) (h : Accepted bufferSize spec) :
    populateHwrpb (some bytes) bufferSize spec =
      some (mddtEnd spec, afterHeader bufferSize.toNat spec
        (Arena.fill bufferSize.toNat ⟨0, bufferSize.toNat⟩ (fun _ => 0) ⟨bytes, true⟩)) := by
  have hslots : checked (bump (alignUp 320 8) (spec.cpuCount * 640) bufferSize) =
      some (slotEnd spec) :=
    checked_bump_of_reaches (eight_dvd_mul _ (by decide)) h.slots
  have hctb : checked (bump (slotEnd spec) 232 bufferSize) = some (ctbEnd spec) :=
    checked_bump_of_reaches (by decide) h.ctb
  have hcrb : checked (bump (ctbEnd spec) 48 bufferSize) = some (crbEnd spec) :=
    checked_bump_of_reaches (by decide) h.crb
  have hmddt : checked (bump (ioEnd spec) (24 + spec.clusterCount * 56) bufferSize) =
      some (mddtEnd spec) :=
    checked_bump_of_reaches (eight_dvd_add (by decide) (eight_dvd_mul _ (by decide))) h.mddt
  simp only [populateHwrpb, Option.bind_eq_bind, Option.bind_some, h.valid, guard_true, hslots, hctb,
    hcrb, bumpEntries_of_reaches h.io, hmddt]
  rfl

/-- The builder returns 0 for every spec that is not accepted. -/
theorem accepted_of_populateHwrpb {bufferSize size : Word} {spec : HwrpbBuildSpec}
    {buffer : Option (Nat → BitVec 8)} {m : Buffer}
    (h : populateHwrpb buffer bufferSize spec = some (size, m)) : Accepted bufferSize spec := by
  simp only [populateHwrpb, Option.bind_eq_bind, Option.bind_eq_some_iff] at h
  obtain ⟨bytes, -, ⟨⟩, hvalid, ctb, hctb, crb, hcrb, io, hio, mddt, hmddt, fin, hfin, -⟩ := h
  obtain ⟨rfl, hslots⟩ := checked_bump_eq_some (eight_dvd_mul _ (by decide)) hctb
  obtain ⟨rfl, hctbEnd⟩ := checked_bump_eq_some (by decide) hcrb
  obtain ⟨rfl, hcrbEnd⟩ := checked_bump_eq_some (by decide) hio
  obtain ⟨rfl, hioEnd⟩ :=
    bumpEntries_eq_some (show Reaches bufferSize (crbEnd spec) from hcrbEnd) hmddt
  obtain ⟨rfl, hfinEnd⟩ :=
    checked_bump_eq_some (eight_dvd_add (by decide) (eight_dvd_mul _ (by decide))) hfin
  exact ⟨(Option.guard_eq_some' ()).1 hvalid, hslots, hctbEnd, hcrbEnd, hioEnd, hfinEnd⟩

/-! ## Without wrap-around -/

section Exact

variable {spec : HwrpbBuildSpec}

/-- The words are the ends of the sections. -/
structure Exact (spec : HwrpbBuildSpec) : Prop where
  /-- The end of the slots. -/
  slots : (slotEnd spec).toNat = 320 + 640 * spec.cpuCount.toNat
  /-- Of the terminal block. -/
  ctb : (ctbEnd spec).toNat = (slotEnd spec).toNat + 232
  /-- Of the callback block. -/
  crb : (crbEnd spec).toNat = (ctbEnd spec).toNat + 48
  /-- The size of the entries. -/
  entries : (spec.crbIoEntryCount * 24).toNat = 24 * spec.crbIoEntryCount.toNat
  /-- Their end. -/
  io : (ioEnd spec).toNat = (crbEnd spec).toNat + 24 * spec.crbIoEntryCount.toNat
  /-- The end of the memory descriptors. -/
  mddt : (mddtEnd spec).toNat = (ioEnd spec).toNat + (24 + 56 * spec.clusterCount.toNat)

/-- A product below 2⁶⁴ does not wrap. -/
theorem toNat_mul_of_lt {x y : Word} (h : y.toNat * x.toNat < 2 ^ 64) :
    (x * y).toNat = y.toNat * x.toNat := by
  rw [BitVec.toNat_mul, Nat.mul_comm, Nat.mod_eq_of_lt h]

/-- The size of all sections together. -/
theorem totalBytes_eq (spec : HwrpbBuildSpec) :
    totalBytes spec = 320 + 640 * spec.cpuCount.toNat + 232 + 48 +
      24 * spec.crbIoEntryCount.toNat + (24 + 56 * spec.clusterCount.toNat) := by
  simp only [totalBytes, sectionLens, List.sum_cons, List.sum_nil]
  omega

/-- Sizes that sum up below 2⁶⁴ are computed exactly. -/
theorem exact_of_lt (h : totalBytes spec < 2 ^ 64) : Exact spec := by
  rw [totalBytes_eq] at h
  have hcpus : (spec.cpuCount * 640).toNat = 640 * spec.cpuCount.toNat :=
    toNat_mul_of_lt (show 640 * spec.cpuCount.toNat < 2 ^ 64 by omega)
  have hentries : (spec.crbIoEntryCount * 24).toNat = 24 * spec.crbIoEntryCount.toNat :=
    toNat_mul_of_lt (show 24 * spec.crbIoEntryCount.toNat < 2 ^ 64 by omega)
  have hclusters : (spec.clusterCount * 56).toNat = 56 * spec.clusterCount.toNat :=
    toNat_mul_of_lt (show 56 * spec.clusterCount.toNat < 2 ^ 64 by omega)
  have hslots : (slotEnd spec).toNat = 320 + 640 * spec.cpuCount.toNat := by
    rw [slotEnd, BitVec.toNat_add_of_lt, hcpus]
    · rfl
    · rw [hcpus]
      exact show 320 + 640 * spec.cpuCount.toNat < 2 ^ 64 by omega
  have hctb : (ctbEnd spec).toNat = (slotEnd spec).toNat + 232 :=
    BitVec.toNat_add_of_lt (show (slotEnd spec).toNat + 232 < 2 ^ 64 by omega)
  have hcrb : (crbEnd spec).toNat = (ctbEnd spec).toNat + 48 :=
    BitVec.toNat_add_of_lt (show (ctbEnd spec).toNat + 48 < 2 ^ 64 by omega)
  have hio : (ioEnd spec).toNat = (crbEnd spec).toNat + 24 * spec.crbIoEntryCount.toNat := by
    rw [ioEnd, BitVec.toNat_add_of_lt, hentries]
    rw [hentries]
    omega
  have hlen : (24 + spec.clusterCount * 56).toNat = 24 + 56 * spec.clusterCount.toNat := by
    rw [BitVec.toNat_add_of_lt, hclusters]
    · rfl
    · rw [hclusters]
      exact show 24 + 56 * spec.clusterCount.toNat < 2 ^ 64 by omega
  refine ⟨hslots, hctb, hcrb, hentries, hio, ?_⟩
  rw [mddtEnd, BitVec.toNat_add_of_lt, hlen]
  rw [hlen]
  omega

/-- The block ends at its total size. -/
theorem Exact.size (h : Exact spec) : (mddtEnd spec).toNat = totalBytes spec := by
  rw [totalBytes_eq, h.mddt, h.io, h.crb, h.ctb, h.slots]

/-! The header ends before the sections do. -/

/-- The header ends before the slots do. -/
theorem Exact.header_le_slots (h : Exact spec) : 320 ≤ (slotEnd spec).toNat := by
  rw [h.slots]
  exact Nat.le_add_right 320 _

/-- The header ends before the terminal block begins. -/
theorem Exact.header_le_ctb (h : Exact spec) : 320 ≤ (ctbEnd spec).toNat := by
  rw [h.ctb]
  exact le_trans h.header_le_slots (Nat.le_add_right _ 232)

/-- The callback block ends before its entries do. -/
theorem Exact.ctb_le_io (h : Exact spec) : (ctbEnd spec).toNat + 48 ≤ (ioEnd spec).toNat := by
  rw [h.io, h.crb]
  exact Nat.le_add_right _ _

/-- The header ends before the entries end. -/
theorem Exact.header_le_io (h : Exact spec) : 320 ≤ (ioEnd spec).toNat :=
  le_trans h.header_le_ctb (le_trans (Nat.le_add_right _ 48) h.ctb_le_io)

end Exact

/-! ## What the sections write -/

section Sections

variable {total base i : Nat} {spec : HwrpbBuildSpec} {m m' : Buffer}

/-- The fields of a slot fit its 80 quadwords. -/
theorem slotFields_fits (cfg : PerCpuConfig) : Fits (slotFields cfg) (8 * 80) :=
  fits_of_keys [0x080, 0x088, 0x090, 0x098, 0x0A0, 0x0A8, 0x0B0, 0x0B8, 0x0C0, 0x0D8, 0x0E0, 0x118,
    0x1D8, 0x1E0] rfl (by decide) (by decide)

/-- The fields of the terminal block fit it. -/
theorem ctbFields_fits (spec : HwrpbBuildSpec) : Fits (ctbFields spec) 232 :=
  fits_of_keys [0, 8, 24, 32, 208] rfl (by decide) (by decide)

/-- The fields of the callback block fit it. -/
theorem crbFields_fits (spec : HwrpbBuildSpec) : Fits (crbFields spec) 48 :=
  fits_of_keys [0, 8, 16, 24, 32, 40] rfl (by decide) (by decide)

/-- The fields of a cluster fit its seven quadwords. -/
theorem clusterFields_fits (c : MemoryClusterSpec) : Fits (clusterFields c) (8 * 7) :=
  fits_of_keys [0, 8, 16, 48] rfl (by decide) (by decide)

/-! ### An array of records -/

/-- Records one after another: where they are written, and what each of them holds. -/
theorem confined_records {n len count : Nat} {fields : Nat → Fields}
    (hfits : ∀ i, Fits (fields i) (8 * n)) (hlen : 8 * n = len) :
    Confined total (Arena.forEach count fun i => writeRecord total (base + len * i) n (fields i))
      ⟨base, len * count⟩ := by
  refine Confined.forEach fun i hi => ?_
  refine ((hfits i).confined_writeRecord total (base + len * i)).mono (Nat.le_add_right _ _) ?_
  have hnext : len * i + len ≤ len * count := by
    rw [← Nat.mul_succ]
    exact Nat.mul_le_mul_left len hi
  show base + len * i + 8 * n ≤ base + len * count
  omega

/-- Records that are written one after the other are all there in the end. -/
theorem holds_records {n len count : Nat} {fields : Nat → Fields}
    (hfits : ∀ i, Fits (fields i) (8 * n)) (hlen : 8 * n = len) (hi : i < count) (m : Buffer) :
    Holds (Arena.forEach count (fun i => writeRecord total (base + len * i) n (fields i)) m)
      (base + len * i) (fields i) := by
  have hagree := Confined.agreeOn_forEach
    (fun j => (hfits j).confined_writeRecord total (base + len * j)) (i := i) (fun j hj => ?_) hi m
  · exact (holds_writeRecord (hfits i).ordered total _ n _).congr (hfits i) hagree
  · have hnext : len * i + len ≤ len * j := by
      rw [← Nat.mul_succ]
      exact Nat.mul_le_mul_left len hj
    exact Region.apart_of_le (.inr (show base + len * i + 8 * n ≤ base + len * j by omega))

/-- Writing the slots changes nothing outside them. -/
theorem confined_writeSlots : Confined total (writeSlots total spec base)
    ⟨base, 640 * spec.cpuCount.toNat⟩ :=
  confined_records (fun i => slotFields_fits (spec.cpu i)) rfl

/-- Every slot has its fields. -/
theorem holds_writeSlots (hi : i < spec.cpuCount.toNat) (m : Buffer) :
    Holds (writeSlots total spec base m) (base + 640 * i) (slotFields (spec.cpu i)) :=
  holds_records (fun i => slotFields_fits (spec.cpu i)) rfl hi m

/-! ### The I/O entries -/

/-- Copying the entries changes nothing outside them. -/
theorem confined_copyEntries (h : Exact spec) : Confined total (copyEntries total base spec)
    ⟨base, 24 * spec.crbIoEntryCount.toNat⟩ := by
  have hlen : 8 * ((spec.crbIoEntryCount * 24).toNat / 8) = 24 * spec.crbIoEntryCount.toNat := by
    rw [h.entries]
    omega
  by_cases hpos : 0 < spec.crbIoEntryCount
  · rw [show copyEntries total base spec = storeQuads total base
      ((spec.crbIoEntryCount * 24).toNat / 8) (entryQuad spec) from funext fun m => if_pos hpos,
      ← hlen]
    exact confined_storeQuads total base _ _
  · rw [show copyEntries total base spec = fun m => m from funext fun m => if_neg hpos]
    exact Confined.id total _

/-- Every quadword of the entries is copied. -/
theorem quad_copyEntries (h : Exact spec) {j : Nat} (hj : j < 3 * spec.crbIoEntryCount.toNat)
    (m : Buffer) : quad (copyEntries total base spec m) (base + 8 * j) = entryQuad spec j := by
  have hpos : 0 < spec.crbIoEntryCount := by
    rw [BitVec.lt_def]
    exact show 0 < spec.crbIoEntryCount.toNat by omega
  rw [copyEntries, if_pos hpos, quad_storeQuads]
  rw [h.entries]
  omega

/-! ### The memory descriptor -/

/-- The checksum depends only on what follows it. -/
theorem computeMemDscChecksum_congr (h : ∀ r : Region, base + 8 ≤ r.base → m.AgreeOn r m') :
    computeMemDscChecksum m base = computeMemDscChecksum m' base := by
  have hcount : quad m (base + 16) = quad m' (base + 16) :=
    quad_congr (h _ (show base + 8 ≤ base + 16 by omega))
  rw [computeMemDscChecksum, computeMemDscChecksum, ← hcount, quad_congr (h _ (le_refl (base + 8))),
    sumQuads_congr (h _ (show base + 8 ≤ base + 24 by omega))]

/-- The descriptor but for its checksum. -/
def clustersOf (total : Nat) (spec : HwrpbBuildSpec) (base : Nat) (m : Buffer) : Buffer :=
  Arena.forEach spec.clusterCount.toNat
    (fun i => writeRecord total (base + 24 + 56 * i) 7 (clusterFields (spec.cluster i)))
    (pokes total base [(8, 0), (16, spec.clusterCount)] m)

/-- Storing the checksum keeps what follows it. -/
theorem agreeOn_clustersOf {r : Region} (h : base + 8 ≤ r.base) (m : Buffer) :
    (writeMemDsc total spec base m).AgreeOn r (clustersOf total spec base m) :=
  (confined_poke total base _).agreeOn (Region.apart_of_le (.inl h)) _

/-- The fields in front of the clusters fit. -/
theorem countFields_fits (spec : HwrpbBuildSpec) :
    Fits [(8, 0), (16, spec.clusterCount)] 24 :=
  fits_of_keys [8, 16] rfl (by decide) (by decide)

/-- Writing the clusters changes nothing outside them. -/
theorem confined_clusters : Confined total (Arena.forEach spec.clusterCount.toNat fun i =>
    writeRecord total (base + 24 + 56 * i) 7 (clusterFields (spec.cluster i)))
    ⟨base + 24, 56 * spec.clusterCount.toNat⟩ :=
  confined_records (fun i => clusterFields_fits (spec.cluster i)) rfl

/-- Writing the memory descriptors changes nothing outside them. -/
theorem confined_writeMemDsc : Confined total (writeMemDsc total spec base)
    ⟨base, 24 + 56 * spec.clusterCount.toNat⟩ := by
  have hcount : Confined total (pokes total base [(8, 0), (16, spec.clusterCount)])
      ⟨base, 24 + 56 * spec.clusterCount.toNat⟩ :=
    ((countFields_fits spec).confined_pokes total base).mono (le_refl base)
      (show base + 24 ≤ base + (24 + 56 * spec.clusterCount.toNat) by omega)
  have hclusters : Confined total (Arena.forEach spec.clusterCount.toNat fun i =>
      writeRecord total (base + 24 + 56 * i) 7 (clusterFields (spec.cluster i)))
      ⟨base, 24 + 56 * spec.clusterCount.toNat⟩ :=
    confined_clusters.mono (Nat.le_add_right base 24)
      (show base + 24 + 56 * spec.clusterCount.toNat ≤
        base + (24 + 56 * spec.clusterCount.toNat) by omega)
  have hsum : Confined total (fun m => poke total base (computeMemDscChecksum m base) m)
      ⟨base, 24 + 56 * spec.clusterCount.toNat⟩ :=
    (Confined.self fun m => confined_poke total base (computeMemDscChecksum m base)).mono
      (le_refl base) (show base + 8 ≤ base + (24 + 56 * spec.clusterCount.toNat) by omega)
  exact hsum.comp (hclusters.comp hcount)

/-- The memory descriptor has the count of its clusters. -/
theorem clusterCount_writeMemDsc (m : Buffer) :
    quad (writeMemDsc total spec base m) (base + 16) = spec.clusterCount := by
  have hcount : quad (pokes total base [(8, 0), (16, spec.clusterCount)] m) (base + 16) =
      spec.clusterCount :=
    holds_pokes (countFields_fits spec).ordered total base m (16, spec.clusterCount)
      (List.mem_cons_of_mem _ List.mem_cons_self)
  have happ : (⟨base + 24, 56 * spec.clusterCount.toNat⟩ : Region).Apart ⟨base + 16, 8⟩ :=
    Region.apart_of_le (.inr (le_refl (base + 24)))
  rw [← hcount]
  exact (quad_congr (agreeOn_clustersOf (show base + 8 ≤ base + 16 by omega) m)).trans
    (quad_congr (confined_clusters.agreeOn happ _))

/-- Every cluster is there. -/
theorem holds_writeMemDsc (hi : i < spec.clusterCount.toNat) (m : Buffer) :
    Holds (writeMemDsc total spec base m) (base + 24 + 56 * i) (clusterFields (spec.cluster i)) := by
  have hrecord : Holds (clustersOf total spec base m) (base + 24 + 56 * i)
      (clusterFields (spec.cluster i)) :=
    holds_records (fun i => clusterFields_fits (spec.cluster i)) rfl hi _
  refine hrecord.congr (clusterFields_fits (spec.cluster i)) (agreeOn_clustersOf ?_ m)
  show base + 8 ≤ base + 24 + 56 * i
  omega

/-- The checksum of the memory descriptor is right. -/
theorem checksum_writeMemDsc (m : Buffer) :
    quad (writeMemDsc total spec base m) base =
      computeMemDscChecksum (writeMemDsc total spec base m) base := by
  rw [computeMemDscChecksum_congr fun r hr => agreeOn_clustersOf hr m]
  exact quad_poke total base _ _

end Sections

/-! ### The header -/

section Header

variable (total : Nat) (spec : HwrpbBuildSpec) (ctb crb mddt size : Word) (m : Buffer)

/-- The fields of the header fit. -/
theorem headerFields_fits : Fits (headerFields spec ctb crb mddt size) 320 :=
  fits_of_keys [0, 8, 16, 24, 32, 40, 48, 56, 64, 72, 80, 88, 96, 104, 112, 120, 128, 136, 144, 152,
    160, 168, 176, 184, 192, 200, 208, 216, 224, 232, 240, 248, 256, 264, 272, 280, 296, 304, 312]
    rfl (by decide) (by decide)

/-- No field is where the checksum is. -/
theorem headerFields_apart : ∀ k ∈ (headerFields spec ctb crb mddt size).map Prod.fst,
    k + 8 ≤ 288 ∨ 288 + 8 ≤ k := by
  show ∀ k ∈ [0, 8, 16, 24, 32, 40, 48, 56, 64, 72, 80, 88, 96, 104, 112, 120, 128, 136, 144, 152,
    160, 168, 176, 184, 192, 200, 208, 216, 224, 232, 240, 248, 256, 264, 272, 280, 296, 304, 312],
    k + 8 ≤ 288 ∨ 288 + 8 ≤ k
  decide

/-- Writing the header changes nothing outside it. -/
theorem confined_writeHeader :
    Confined total (writeHeader total spec ctb crb mddt size) ⟨0, 320⟩ := by
  have hsum : Confined total (fun m => poke total 288 (computeHwrpbChecksum m) m) ⟨0, 320⟩ :=
    (Confined.self fun m => confined_poke total 288 (computeHwrpbChecksum m)).mono (Nat.zero_le 288)
      (show 288 + 8 ≤ 0 + 320 by decide)
  exact hsum.comp ((headerFields_fits spec ctb crb mddt size).confined_pokes total 0)

/-- Storing the checksum of the header keeps its other fields. -/
theorem agreeOn_headerFields {r : Region} (h : r.finish ≤ 288 ∨ 288 + 8 ≤ r.base) :
    (writeHeader total spec ctb crb mddt size m).AgreeOn r
      (pokes total 0 (headerFields spec ctb crb mddt size) m) :=
  (confined_poke total 288 _).agreeOn (Region.apart_of_le h.symm) _

/-- The header has its fields. -/
theorem holds_writeHeader :
    Holds (writeHeader total spec ctb crb mddt size m) 0
      (headerFields spec ctb crb mddt size) := by
  intro kv hkv
  rw [← holds_pokes (headerFields_fits spec ctb crb mddt size).ordered total 0 m kv hkv]
  refine quad_congr (agreeOn_headerFields total spec ctb crb mddt size m ?_)
  rw [Nat.zero_add]
  exact headerFields_apart spec ctb crb mddt size kv.1 (List.mem_map_of_mem hkv)

/-- The checksum of the header is right. -/
theorem checksum_writeHeader :
    quad (writeHeader total spec ctb crb mddt size m) 288 =
      computeHwrpbChecksum (writeHeader total spec ctb crb mddt size m) := by
  have hagree := agreeOn_headerFields total spec ctb crb mddt size m (r := ⟨0, 8 * 36⟩)
    (.inl (show 0 + 8 * 36 ≤ 288 by decide))
  rw [computeHwrpbChecksum, sumQuads_congr hagree]
  exact quad_poke total 288 _ _

end Header

/-! ## What later sections leave -/

section Later

variable {total : Nat} {spec : HwrpbBuildSpec} {m : Buffer} {r : Region}

/-- The header is written last and keeps the sections behind it. -/
theorem agreeOn_afterMemDsc (hbase : 320 ≤ r.base) :
    (afterHeader total spec m).AgreeOn r (afterMemDsc total spec m) :=
  (confined_writeHeader total spec _ _ _ _).agreeOn (Region.apart_of_le (.inl hbase)) _

/-- What ends before the memory descriptors is kept from the entries on. -/
theorem agreeOn_afterEntries (hbase : 320 ≤ r.base) (h : r.finish ≤ (ioEnd spec).toNat) :
    (afterHeader total spec m).AgreeOn r (afterEntries total spec m) :=
  (agreeOn_afterMemDsc hbase).trans
    (confined_writeMemDsc.agreeOn (Region.apart_of_le (.inr h)) (afterEntries total spec m))

/-- What ends with the callback block is kept from there on. -/
theorem agreeOn_afterCrb (hexact : Exact spec) (hbase : 320 ≤ r.base)
    (h : r.finish ≤ (ctbEnd spec).toNat + 48) :
    (afterHeader total spec m).AgreeOn r (afterCrb total spec m) :=
  (agreeOn_afterEntries hbase (le_trans h hexact.ctb_le_io)).trans
    ((confined_copyEntries hexact).agreeOn (Region.apart_of_le (.inr h)) (afterCrb total spec m))

/-- What ends before it is kept from the terminal block on. -/
theorem agreeOn_afterCtb (hexact : Exact spec) (hbase : 320 ≤ r.base)
    (h : r.finish ≤ (ctbEnd spec).toNat) :
    (afterHeader total spec m).AgreeOn r (afterCtb total spec m) :=
  (agreeOn_afterCrb hexact hbase (le_trans h (Nat.le_add_right _ 48))).trans
    (((crbFields_fits spec).confined_pokes total _).agreeOn (Region.apart_of_le (.inr h))
      (afterCtb total spec m))

/-- What ends with the slots is kept from there on. -/
theorem agreeOn_afterSlots (hexact : Exact spec) (hbase : 320 ≤ r.base)
    (h : r.finish ≤ (slotEnd spec).toNat) :
    (afterHeader total spec m).AgreeOn r (afterSlots total spec m) := by
  have hle : r.finish ≤ (ctbEnd spec).toNat := by
    rw [hexact.ctb]
    omega
  exact (agreeOn_afterCtb hexact hbase hle).trans
    (((ctbFields_fits spec).confined_pokes total _).agreeOn (Region.apart_of_le (.inr h))
      (afterSlots total spec m))

/-- A block that fits its buffer is written inside it. -/
theorem inside_afterHeader (hexact : Exact spec) (h : (mddtEnd spec).toNat ≤ total) :
    (afterHeader total spec m).inside = m.inside := by
  have hslots := hexact.slots
  have hctb := hexact.ctb
  have hcrb := hexact.crb
  have hio := hexact.io
  have hmddt := hexact.mddt
  calc (afterHeader total spec m).inside
      = (afterMemDsc total spec m).inside :=
        (confined_writeHeader total spec _ _ _ _).inside (show 0 + 320 ≤ total by omega) _
    _ = (afterEntries total spec m).inside :=
        confined_writeMemDsc.inside
          (show (ioEnd spec).toNat + (24 + 56 * spec.clusterCount.toNat) ≤ total by omega) _
    _ = (afterCrb total spec m).inside :=
        (confined_copyEntries hexact).inside
          (show (ctbEnd spec).toNat + 48 + 24 * spec.crbIoEntryCount.toNat ≤ total by omega) _
    _ = (afterCtb total spec m).inside :=
        ((crbFields_fits spec).confined_pokes total _).inside
          (show (ctbEnd spec).toNat + 48 ≤ total by omega) _
    _ = (afterSlots total spec m).inside :=
        ((ctbFields_fits spec).confined_pokes total _).inside
          (show (slotEnd spec).toNat + 232 ≤ total by omega) _
    _ = m.inside :=
        confined_writeSlots.inside (show 320 + 640 * spec.cpuCount.toNat ≤ total by omega) _

end Later

/-! ## The block is well formed -/

section Reads

variable {m : Buffer} {base : Nat} {spec : HwrpbBuildSpec}

/-- A header that has its fields reads back. -/
theorem headerReads_of_holds {ctb crb mddt size : Word}
    (h : Holds m 0 (headerFields spec ctb crb mddt size)) (hpa : spec.paSizeBits.toNat < 2 ^ 32) :
    HeaderReads m spec size where
  hwrpbPa := h.field 0 rfl
  identifier := h.field 8 rfl
  revision := h.field 16 rfl
  hwrpbSize := h.field 24 rfl
  primaryCpuId := h.field 32 rfl
  pageSize := h.field 40 rfl
  paSizeBits := by
    have hquad : quad m 48 = (spec.paSizeBits.setWidth 32).setWidth 64 := h.field 48 rfl
    rw [hquad]
    simp only [BitVec.toNat_setWidth]
    omega
  maxValidAsn := h.field 56 rfl
  serialNumber := Prod.ext (h.field 64 rfl) (h.field 72 rfl)
  systemType := h.field 80 rfl
  systemVariation := h.field 88 rfl
  systemRevision := h.field 96 rfl
  intrclockFreq := h.field 104 rfl
  cycleCountFreq := h.field 112 rfl
  vptbVa := h.field 120 rfl
  cpuSlotCount := h.field 144 rfl
  cpuSlotSize := h.field 152 rfl
  ctbCount := h.field 168 rfl
  ctbSize := h.field 176 rfl

/-- The bits of a slot's state are those of the CPU. -/
theorem slotState_bits (cfg : PerCpuConfig) :
    (slotState cfg).getLsbD 0 = cfg.primary ∧ (slotState cfg).getLsbD 1 = cfg.primary ∧
      (slotState cfg).getLsbD 2 = cfg.available ∧ (slotState cfg).getLsbD 3 = cfg.present := by
  rw [slotState]
  cases cfg.primary <;> cases cfg.available <;> cases cfg.present <;> decide

/-- A slot that has its fields reads back. -/
theorem slotReads_of_holds {cfg : PerCpuConfig} (h : Holds m base (slotFields cfg)) :
    SlotReads m base cfg := by
  have hstate : quad m (base + 0x080) = slotState cfg := h.field 0x080 rfl
  have hpal : quad m (base + 0x0A8) = cfg.palVar ++ cfg.palRev := h.field 0x0A8 rfl
  obtain ⟨hboot, hrestart, havailable, hpresent⟩ := slotState_bits cfg
  exact {
    bootstrap := by rw [hstate, hboot]
    restartCap := by rw [hstate, hrestart]
    available := by rw [hstate, havailable]
    present := by rw [hstate, hpresent]
    palMemLen := h.field 0x088 rfl
    palScrLen := h.field 0x090 rfl
    palMemPa := h.field 0x098 rfl
    palScrPa := h.field 0x0A0 rfl
    palRev := by rw [hpal, BitVec.setWidth_append_eq_right]
    palVar := by rw [hpal, BitVec.extractLsb'_append_eq_left]
    cpuType := h.field 0x0B0 rfl
    cpuVar := h.field 0x0B8 rfl
    cpuRev := h.field 0x0C0 rfl
    logoutMemPa := h.field 0x0D8 rfl
    logoutLength := h.field 0x0E0 rfl
    palcodeRevVms := h.field 0x1D8 rfl
    palcodeRevOsf := h.field 0x1E0 rfl }

/-- A terminal block that holds its fields reads as it should. -/
theorem ctbReads_of_holds (h : Holds m base (ctbFields spec)) : CtbReads m base spec where
  consType := h.field 0 rfl
  consUnit := h.field 8 rfl
  length := h.field 24 rfl
  devIpl := h.field 32 rfl
  tcPutchar := h.field 208 rfl

/-- A callback block that holds its fields reads as it should. -/
theorem crbReads_of_holds (h : Holds m base (crbFields spec)) : CrbReads m base spec where
  dispatchVa := h.field 0 rfl
  dispatchPa := h.field 8 rfl
  fixupVa := h.field 16 rfl
  fixupPa := h.field 24 rfl
  nbrOfEntries := h.field 32 rfl
  pagesToMap := h.field 40 rfl

/-- A cluster that holds its fields reads as it should. -/
theorem clusterReads_of_holds {c : MemoryClusterSpec} (h : Holds m base (clusterFields c)) :
    ClusterReads m base c where
  startPfn := h.field 0 rfl
  pfnCount := h.field 8 rfl
  testCount := h.field 16 rfl
  usage := h.field 48 rfl

end Reads

section Assembled

variable {bufferSize : Word} {spec : HwrpbBuildSpec} {total : Nat} {m : Buffer}

/-- In the end the header has its fields. -/
theorem holds_afterHeader (total : Nat) (spec : HwrpbBuildSpec) (m : Buffer) :
    Holds (afterHeader total spec m) 0
      (headerFields spec (slotEnd spec) (ctbEnd spec) (ioEnd spec) (mddtEnd spec)) :=
  holds_writeHeader total spec _ _ _ _ _

/-- The offsets in the header are where the sections were laid. -/
theorem offsets_afterHeader (total : Nat) (spec : HwrpbBuildSpec) (m : Buffer) :
    slotOffset (afterHeader total spec m) = 320 ∧
      ctbOffset (afterHeader total spec m) = (slotEnd spec).toNat ∧
      crbOffset (afterHeader total spec m) = (ctbEnd spec).toNat ∧
      mddtOffset (afterHeader total spec m) = (ioEnd spec).toNat := by
  have h := holds_afterHeader total spec m
  exact ⟨congrArg BitVec.toNat (h.field 160 rfl), congrArg BitVec.toNat (h.field 184 rfl),
    congrArg BitVec.toNat (h.field 192 rfl), congrArg BitVec.toNat (h.field 200 rfl)⟩

/-- The sections that the header names are laid out one after the other. -/
theorem sections_afterHeader (h : Exact spec) :
    sections spec (afterHeader total spec m) = Region.layout 0 (sectionLens spec) := by
  obtain ⟨hslot, hctb, hcrb, hmddt⟩ := offsets_afterHeader total spec m
  rw [sections, hslot, hctb, hcrb, hmddt, h.io, h.crb, h.ctb, h.slots]
  simp only [sectionLens, Region.layout, Nat.zero_add, Nat.add_assoc]

/-- Every section begins at a quadword. -/
theorem eight_dvd_base {r : Region} (h : r ∈ Region.layout 0 (sectionLens spec)) : 8 ∣ r.base := by
  simp only [sectionLens, Region.layout, List.mem_cons, List.not_mem_nil, or_false] at h
  rcases h with rfl | rfl | rfl | rfl | rfl
  all_goals
    simp only
    omega

/-- In the end every slot reads back. -/
theorem slots_afterHeader (h : Exact spec) {i : Nat} (hi : i < spec.cpuCount.toNat) :
    SlotReads (afterHeader total spec m) (320 + 640 * i) (spec.cpu i) := by
  refine slotReads_of_holds ((holds_writeSlots hi m).congr (slotFields_fits (spec.cpu i))
    (agreeOn_afterSlots h (Nat.le_add_right 320 _) ?_))
  rw [h.slots]
  exact show 320 + 640 * i + 640 ≤ 320 + 640 * spec.cpuCount.toNat by omega

/-- The terminal block holds its fields in the end. -/
theorem ctb_afterHeader (h : Exact spec) :
    CtbReads (afterHeader total spec m) (slotEnd spec).toNat spec :=
  ctbReads_of_holds ((holds_pokes (ctbFields_fits spec).ordered total _ _).congr
    (ctbFields_fits spec) (agreeOn_afterCtb h h.header_le_slots h.ctb.ge))

/-- The callback block holds its fields in the end. -/
theorem crb_afterHeader (h : Exact spec) :
    CrbReads (afterHeader total spec m) (ctbEnd spec).toNat spec :=
  crbReads_of_holds ((holds_pokes (crbFields_fits spec).ordered total _ _).congr
    (crbFields_fits spec) (agreeOn_afterCrb h h.header_le_ctb (le_refl _)))

/-- The copied entries, quadword by quadword. -/
theorem entryQuad_afterHeader (h : Exact spec) {j : Nat}
    (hj : j < 3 * spec.crbIoEntryCount.toNat) :
    quad (afterHeader total spec m) ((ctbEnd spec).toNat + 48 + 8 * j) = entryQuad spec j := by
  have hcopy : quad (afterEntries total spec m) ((ctbEnd spec).toNat + 48 + 8 * j) =
      entryQuad spec j := quad_copyEntries h hj (afterCrb total spec m)
  rw [← hcopy]
  refine quad_congr (agreeOn_afterEntries ?_ ?_)
  · exact le_trans h.header_le_ctb (Nat.le_add_right_of_le (Nat.le_add_right _ 48))
  · have hcrb := h.crb
    have hio := h.io
    exact show (ctbEnd spec).toNat + 48 + 8 * j + 8 ≤ (ioEnd spec).toNat by omega

/-- The first quadword of an entry is its virtual address. -/
theorem entryQuad_virAddr (spec : HwrpbBuildSpec) (i : Nat) :
    entryQuad spec (3 * i) = (spec.ioEntry i).virAddr := by
  simp only [entryQuad, show 3 * i % 3 = 0 by omega, show 3 * i / 3 = i by omega]

/-- The second is its physical address. -/
theorem entryQuad_phyAddr (spec : HwrpbBuildSpec) (i : Nat) :
    entryQuad spec (3 * i + 1) = (spec.ioEntry i).phyAddr := by
  simp only [entryQuad, show (3 * i + 1) % 3 = 1 by omega, show (3 * i + 1) / 3 = i by omega]

/-- The third is its number of pages. -/
theorem entryQuad_pageCount (spec : HwrpbBuildSpec) (i : Nat) :
    entryQuad spec (3 * i + 2) = (spec.ioEntry i).pageCount := by
  simp only [entryQuad, show (3 * i + 2) % 3 = 2 by omega, show (3 * i + 2) / 3 = i by omega]

/-- In the end every entry reads back. -/
theorem entries_afterHeader (h : Exact spec) {i : Nat} (hi : i < spec.crbIoEntryCount.toNat) :
    EntryReads (afterHeader total spec m) ((ctbEnd spec).toNat + 48 + 24 * i) (spec.ioEntry i) := by
  have hquad : ∀ k < 3, quad (afterHeader total spec m) ((ctbEnd spec).toNat + 48 + 24 * i + 8 * k) =
      entryQuad spec (3 * i + k) := fun k hk => by
    rw [← entryQuad_afterHeader h (show 3 * i + k < 3 * spec.crbIoEntryCount.toNat by omega)]
    congr 1
    omega
  exact ⟨(hquad 0 (by decide)).trans (entryQuad_virAddr spec i),
    (hquad 1 (by decide)).trans (entryQuad_phyAddr spec i),
    (hquad 2 (by decide)).trans (entryQuad_pageCount spec i)⟩

/-- Every cluster holds its fields in the end. -/
theorem clusters_afterHeader (h : Exact spec) {i : Nat} (hi : i < spec.clusterCount.toNat) :
    ClusterReads (afterHeader total spec m) ((ioEnd spec).toNat + 24 + 56 * i)
      (spec.cluster i) :=
  clusterReads_of_holds ((holds_writeMemDsc hi (afterEntries total spec m)).congr
    (clusterFields_fits (spec.cluster i)) (agreeOn_afterMemDsc
      (le_trans h.header_le_io (Nat.le_add_right_of_le (Nat.le_add_right _ 24)))))

/-- The checksum of the memory descriptors is right. -/
theorem memDscSum_afterHeader (h : Exact spec) :
    quad (afterHeader total spec m) (ioEnd spec).toNat =
      computeMemDscChecksum (afterHeader total spec m) (ioEnd spec).toNat := by
  have hsum : quad (afterMemDsc total spec m) (ioEnd spec).toNat =
      computeMemDscChecksum (afterMemDsc total spec m) (ioEnd spec).toNat :=
    checksum_writeMemDsc (afterEntries total spec m)
  rw [computeMemDscChecksum_congr fun r hr =>
    agreeOn_afterMemDsc (le_trans h.header_le_io (le_trans (Nat.le_add_right _ 8) hr))]
  exact (quad_congr (agreeOn_afterMemDsc h.header_le_io)).trans hsum

/-- The count of clusters is there in the end. -/
theorem clusterCount_afterHeader (h : Exact spec) :
    quad (afterHeader total spec m) ((ioEnd spec).toNat + 16) = spec.clusterCount :=
  (quad_congr (agreeOn_afterMemDsc (le_trans h.header_le_io (Nat.le_add_right _ 16)))).trans
    (clusterCount_writeMemDsc (afterEntries total spec m))

/-- A block that does not wrap around, in a buffer that holds it. -/
theorem wellFormed_afterHeader (h : Exact spec) (hpa : spec.paSizeBits.toNat < 2 ^ 32)
    (hle : mddtEnd spec ≤ bufferSize) (hinside : m.inside = true) :
    WellFormed bufferSize spec (mddtEnd spec) (afterHeader bufferSize.toNat spec m) := by
  obtain ⟨hslot, hctb, hcrb, hmddt⟩ := offsets_afterHeader bufferSize.toNat spec m
  exact {
    size_le := hle
    inside := (inside_afterHeader h (BitVec.le_def.1 hle)).trans hinside
    apart := by
      rw [sections_afterHeader h]
      exact Region.pairwise_apart_layout 0 _
    placed := fun r hr => by
      rw [sections_afterHeader h] at hr
      refine ⟨eight_dvd_base hr, ?_⟩
      rw [h.size, totalBytes, ← Nat.zero_add (sectionLens spec).sum]
      exact Region.finish_le_of_mem_layout hr
    headerSum := checksum_writeHeader _ _ _ _ _ _ _
    memDscSum := by
      rw [hmddt]
      exact memDscSum_afterHeader h
    header := headerReads_of_holds (holds_afterHeader _ spec m) hpa
    slots := fun i hi => by
      rw [hslot]
      exact slots_afterHeader h hi
    ctb := by
      rw [hctb]
      exact ctb_afterHeader h
    crb := by
      rw [hcrb]
      exact crb_afterHeader h
    entries := fun i hi => by
      rw [hcrb]
      exact entries_afterHeader h hi
    clusterCount := by
      rw [hmddt]
      exact clusterCount_afterHeader h
    clusters := fun i hi => by
      rw [hmddt]
      exact clusters_afterHeader h hi }

end Assembled

/-- A block whose sections are apart inside it is as long as they are together. -/
theorem WellFormed.totalBytes_le {bufferSize size : Word} {spec : HwrpbBuildSpec} {m : Buffer}
    (h : WellFormed bufferSize spec size m) : totalBytes spec ≤ size.toNat :=
  Region.sum_len_le h.apart fun r hr => (h.placed r hr).2

/-- One CPU, one cluster, and as many I/O entries as have a byte size of 0 modulo `2 ^ 64`. -/
def manyEntries : HwrpbBuildSpec where
  hwrpbPa := 0
  systemType := .decTsunami
  systemVariation := 0
  systemRevision := 0
  serialNumber := (0, 0)
  intrclockFreqX4096 := 0x400000
  cycleCountFreqHz := 500000000
  primaryCpuId := 0
  cpus := some fun _ => defaultEv6PrimaryCpu
  cpuCount := 1
  clusters := some fun _ => ⟨0, 0x20000, 0⟩
  clusterCount := 1
  consoleType := .serialLine
  consoleUnit := 0
  consoleDevIpl := 0
  consolePutcharCallbackPa := 0
  crbDispatchVa := 0
  crbDispatchPa := 0
  crbFixupVa := 0
  crbFixupPa := 0
  crbIoPagesToMap := 0
  crbIoEntries := some fun _ => ⟨0, 0, 0⟩
  crbIoEntryCount := 0x2000000000000000
  paSizeBits := 44
  maxValidAsn := 255
  vptbVa := 0
  hwrpbRevision := 0

end Hwrpb

end EmulatR
