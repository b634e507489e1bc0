import EmulatR.System.SnapshotRoundTrip

/-! # Rejected snapshots

A load should either restore the file or leave the machine alone, and it should reject every file
that was made for another machine. `load` keeps the CPU and the firmware staging back to the end for
that, but not guest memory: its pages are stored before the chipset block is compared. And of the
chipset block the CPU count is read and dropped, and the variant is compared as a byte.

`load_eq` says what a load does with a file, from what the file records; `rejectsAtomically_iff`
says for which files it is atomic. -/

namespace EmulatR

open Library.Codec

namespace Snapshot

/-! ## Pages from a short stream -/

/-- The bytes of a stream that the pages from `pidx` on can take. -/
def storedBytes (mem : GuestMemory) (pidx : BitVec 32) (remaining : Nat) (s : Stream) : Stream :=
  s.take (min remaining (kPageSize * (mem.pageCount.toNat - pidx.toNat)))

/-- A page, and then the bytes for the pages after it. -/
theorem fillAt_storedBytes (mem : GuestMemory) (pidx : BitVec 32) {remaining n : Nat} (s : Stream)
    (hpage : pidx.toNat < mem.pageCount.toNat) (hnext : (pidx + 1).toNat = pidx.toNat + 1)
    (hn : n = min remaining kPageSize) :
    fillAt (fillPage mem pidx (s.take n)) (kPageSize * (pidx + 1).toNat)
        (storedBytes mem (pidx + 1) (remaining - n) (s.drop n)) =
      fillAt mem (kPageSize * pidx.toNat) (storedBytes mem pidx remaining s) := by
  rw [← fillAt_fillPage mem pidx rfl, hnext]
  congr 1
  · congr 1
    rw [storedBytes, List.take_take, List.take_eq_take_iff, List.length_take]
    simp only [kPageSize] at *
    omega
  · simp only [storedBytes, List.length_take, List.drop_take, hnext]
    by_cases hshort : s.length < n
    · rw [List.drop_eq_nil_of_le (by omega), List.drop_eq_nil_of_le, List.take_nil, List.take_nil]
      simp only [kPageSize] at *
      omega
    · simp only [kPageSize] at *
      congr 1
      · omega
      · congr 1
        omega

/-- **What the load loop stores**, from any stream: the bytes in order, as far as the stream and the
page table go. -/
theorem loadPages_eq (mem : GuestMemory) (pidx : BitVec 32) (remaining : Nat) (s : Stream)
    (hpidx : pidx.toNat ≤ mem.pageCount.toNat) :
    loadPages mem pidx remaining s =
      if pidx.toNat + pagesOf remaining ≤ mem.pageCount.toNat then
        .ok (fillAt mem (kPageSize * pidx.toNat) (storedBytes mem pidx remaining s),
          s.drop remaining)
      else .error (fillAt mem (kPageSize * pidx.toNat) (storedBytes mem pidx remaining s)) := by
  have hpc := mem.pageCount.isLt
  induction remaining using Nat.strong_induction_on generalizing mem pidx s with
  | _ remaining ih =>
    rw [loadPages]
    split
    · next hzero =>
      have hfits : pidx.toNat + pagesOf remaining ≤ mem.pageCount.toNat := by
        rw [hzero, pagesOf]
        simpa [kPageSize] using hpidx
      have hnone : storedBytes mem pidx remaining s = [] := by
        rw [storedBytes, hzero, Nat.zero_min, List.take_zero]
      rw [if_pos hfits, hnone, hzero, List.drop_zero, fillAt]
      simp
    · next hpos =>
      simp only [BitVec.le_def]
      by_cases hend : mem.pageCount.toNat ≤ pidx.toNat
      · -- the table ends here, and nothing of the rest is stored
        have hout : ¬ pidx.toNat + pagesOf remaining ≤ mem.pageCount.toNat := by
          simp only [pagesOf, kPageSize]
          omega
        have hnone : storedBytes mem pidx remaining s = [] := by
          rw [storedBytes, Nat.sub_eq_zero_of_le hend, Nat.mul_zero, Nat.min_zero, List.take_zero]
        rw [if_pos hend, if_neg hout, hnone, fillAt]
        simp
      · have hnext : (pidx + 1).toNat = pidx.toNat + 1 := by
          rw [BitVec.toNat_add]
          simp
          omega
        have hsmaller : remaining - min remaining kPageSize < remaining := by
          simp only [kPageSize]
          omega
        have hfits : (pidx + 1).toNat + pagesOf (remaining - min remaining kPageSize) ≤
            mem.pageCount.toNat ↔ pidx.toNat + pagesOf remaining ≤ mem.pageCount.toNat := by
          rw [hnext]
          simp only [pagesOf, kPageSize]
          omega
        have hrest := ih _ hsmaller (fillPage mem pidx (s.take (min remaining kPageSize)))
          (pidx + 1) (s.drop (min remaining kPageSize)) (by rw [hnext]; exact Nat.lt_of_not_le hend)
          hpc
        have hstored : storedBytes (fillPage mem pidx (s.take (min remaining kPageSize))) =
            storedBytes mem := rfl
        have hcount : (fillPage mem pidx (s.take (min remaining kPageSize))).pageCount =
            mem.pageCount := rfl
        rw [if_neg hend]
        simp only [hrest, hstored, hcount, hfits, List.drop_drop]
        rw [fillAt_storedBytes mem pidx s (Nat.lt_of_not_le hend) hnext rfl,
          Nat.add_sub_of_le (Nat.min_le_left ..)]

/-- The load of the pages, from the first page on. -/
theorem loadPages_zero (mem : GuestMemory) (remaining : Nat) (s : Stream) :
    loadPages mem 0 remaining s =
      if Covers mem remaining then
        .ok (fillAt mem 0 ((s.take remaining).take (kPageSize * mem.pageCount.toNat)),
          s.drop remaining)
      else .error (fillAt mem 0 ((s.take remaining).take (kPageSize * mem.pageCount.toNat))) := by
  have hpages := loadPages_eq mem 0 remaining s (Nat.zero_le _)
  rw [storedBytes, Nat.min_comm, ← List.take_take] at hpages
  have hzero : (0 : BitVec 32).toNat = 0 := rfl
  simp only [hzero, Nat.mul_zero, Nat.zero_add, Nat.sub_zero] at hpages
  exact hpages

/-! ## What a file records -/

section

variable {ε : Type} (pod : Pod (CpuState × Word))

/-- The chipset block as it stands in the file: variant, model, CPU count and memory size. -/
def getChipsetBlock : Reader (BitVec 32 × BitVec 32 × Word) := do
  let variant ← getU32
  let _model ← getQString
  let cpuCount ← getU32
  let memSize ← getU64
  pure (variant, cpuCount, memSize)

/-- `load` looks at two of its fields. -/
theorem getChipset_eq : getChipset = (fun r => (r.1, r.2.2)) <$> getChipsetBlock := rfl

/-- What a file has recorded about the machine it is of. -/
structure Recorded where
  /-- The eight bytes of the magic. -/
  magic : Stream
  /-- The versions of the format, of the CPU state and of the chipset. -/
  versions : BitVec 32 × BitVec 32 × BitVec 32
  /-- The memory size of the header. -/
  memSize : Word
  /-- The bytes of guest memory, as many as the file has. -/
  memory : Stream
  /-- The variant of the chipset block. -/
  variant : BitVec 32
  /-- Its CPU count, which no check looks at. -/
  cpuCount : BitVec 32
  /-- The memory size the chipset block repeats. -/
  chipMemSize : Word

/-- The record of a file, each block taken from behind the one before it. -/
def recorded (file : Stream) : Recorded :=
  let header := getHeader.run file
  let cpu := (pod.get ({}, 0)).run header.2
  let size := getU64.run cpu.2
  let chipset := getChipsetBlock.run (size.2.drop size.1.toNat)
  { magic := header.1.1
    versions := header.1.2
    memSize := size.1
    memory := size.2.take size.1.toNat
    variant := chipset.1.1
    cpuCount := chipset.1.2.1
    chipMemSize := chipset.1.2.2 }

/-- The checksum of the file is that of its body. -/
def ChecksumOk (file : Stream) : Prop :=
  8 ≤ file.length ∧
    fnv1a64 (file.take (file.length - 8)) = (getU64.run (file.drop (file.length - 8))).1

/-- All that the file has recorded is as it is in the body and in the machine. -/
structure Agrees (file : Stream) (m : Board ε) : Prop where
  /-- The checksum is that of the file. -/
  checksum : ChecksumOk file
  /-- It is a snapshot. -/
  magic : (recorded pod file).magic = kSnapshotMagic
  /-- Of the versions this program writes. -/
  versions : (recorded pod file).versions = (kFormatVersion, kCpuStateVersion, kChipsetVersion)
  /-- The machine has as much memory. -/
  memSize : (recorded pod file).memSize = m.memSize
  /-- The machine has the same chipset. -/
  variant : (recorded pod file).variant = m.devices.variant.code.setWidth 32
  /-- With as many CPUs. -/
  cpuCount : (recorded pod file).cpuCount = BitVec.ofNat 32 m.devices.irq.cchip.cpuCount
  /-- The chipset knows the same memory size. -/
  chipMemSize : (recorded pod file).chipMemSize = m.memSize

/-- A file that disagrees is rejected, and a rejected load leaves the machine as it was. -/
structure RejectsAtomically (file : Stream) (m : Board ε) : Prop where
  /-- A file that disagrees is rejected. -/
  rejects : ¬ Agrees pod file m → ∃ e, load pod file m = .error e
  /-- A rejected load changes nothing. -/
  restores : ∀ e m', load pod file m = .error (e, m') → m' = m

/-! ## What a load does -/

/-- The machine after the pages: its memory holds what the file has for it. -/
def afterPages (file : Stream) (m : Board ε) : Board ε :=
  setMemory m (fillAt m.memory 0
    ((recorded pod file).memory.take (kPageSize * m.memory.pageCount.toNat)))

/-- The checks in their order, each with its error and with what the machine is then. -/
def rejection (file : Stream) (m : Board ε) : Option (LoadError × Board ε) :=
  let r := recorded pod file
  if file.length < 8 then some (.tooSmall, m)
  else if fnv1a64 (file.take (file.length - 8)) ≠
      (getU64.run (file.drop (file.length - 8))).1 then some (.checksumMismatch, m)
  else if r.magic ≠ kSnapshotMagic then some (.badMagic, m)
  else if r.versions ≠ (kFormatVersion, kCpuStateVersion, kChipsetVersion) then
    some (.versionMismatch r.versions.1 r.versions.2.1 r.versions.2.2, m)
  else if r.memSize ≠ m.memSize then some (.memSizeMismatch r.memSize m.memSize, m)
  else if ¬ Covers m.memory m.memSize.toNat then some (.ensurePageFailed, afterPages pod file m)
  else if r.variant.setWidth 8 ≠ m.devices.variant.code then
    some (.variantMismatch, afterPages pod file m)
  else if r.chipMemSize ≠ m.memSize then some (.chipMemSizeMismatch, afterPages pod file m)
  else none

/-- From the Cchip on no section is rejected. -/
theorem loadSections_rest (x : Loading ε × Stream) :
    ∃ y, ([.cchip, .dchip, .pchip, .com1, .com2, .pic, .picLevel, .flash, .iic, .srm] :
      List Section).foldlM (fun x s => s.load pod x) x = .ok y :=
  ⟨_, rfl⟩

/-- The header is checked in front of everything. -/
theorem load_header (l : Loading ε) (s : Stream) :
    Section.header.load pod (l, s) =
      if (getHeader.run s).1.1 ≠ kSnapshotMagic then .error (.badMagic, l)
      else if (getHeader.run s).1.2 ≠ (kFormatVersion, kCpuStateVersion, kChipsetVersion) then
        .error (.versionMismatch (getHeader.run s).1.2.1 (getHeader.run s).1.2.2.1
          (getHeader.run s).1.2.2.2, l)
      else .ok (l, (getHeader.run s).2) := by
  rw [Section.load]

/-- The pages, from where the CPU block has ended. -/
theorem load_memory (l : Loading ε) (s : Stream) :
    Section.memory.load pod (l, s) =
      let size := getU64.run s
      let machine := setMemory l.machine (fillAt l.machine.memory 0
        ((size.2.take size.1.toNat).take (kPageSize * l.machine.memory.pageCount.toNat)))
      if size.1 ≠ l.machine.memSize then
        .error (.memSizeMismatch size.1 l.machine.memSize, l)
      else if ¬ Covers l.machine.memory size.1.toNat then
        .error (.ensurePageFailed, { l with machine := machine })
      else .ok ({ l with machine := machine }, size.2.drop size.1.toNat) := by
  rw [Section.load]
  dsimp only
  rw [loadPages_zero]
  by_cases hcovers : Covers l.machine.memory (getU64.run s).1.toNat
  · rw [if_pos hcovers, if_neg (not_not.2 hcovers)]
  · rw [if_neg hcovers, if_pos hcovers]

/-- The chipset block is compared after the pages. -/
theorem load_chipset (l : Loading ε) (s : Stream) :
    Section.chipset.load pod (l, s) =
      if (getChipsetBlock.run s).1.1.setWidth 8 ≠ l.machine.devices.variant.code then
        .error (.variantMismatch, l)
      else if (getChipsetBlock.run s).1.2.2 ≠ l.machine.memSize then
        .error (.chipMemSizeMismatch, l)
      else .ok (l, (getChipsetBlock.run s).2) := by
  rw [Section.load, getChipset_eq, run_map]

/-- What the sections up to the chipset block make of a file whose footer fits. -/
theorem loadSections_eq (file : Stream) (m : Board ε) :
    loadSections pod m file Section.all =
      (Section.header.load pod ({ machine := m }, file) >>= fun x =>
        Section.cpu.load pod x >>= fun x =>
        Section.memory.load pod x >>= fun x =>
        Section.chipset.load pod x >>= fun x =>
        ([.cchip, .dchip, .pchip, .com1, .com2, .pic, .picLevel, .flash, .iic, .srm] :
          List Section).foldlM (fun x s => s.load pod x) x) := by
  rw [loadSections, Section.all]
  simp only [List.foldlM_cons]

/-- The CPU section fills a temporary copy, never the machine. -/
theorem load_cpu (l : Loading ε) (s : Stream) :
    Section.cpu.load pod (l, s) = .ok ({ l with cpuTmp := ((pod.get ({}, 0)).run s).1 },
      ((pod.get ({}, 0)).run s).2) := by
  rw [Section.load]

/-- Where the blocks of a file are. -/
theorem recorded_eq (file : Stream) :
    ∃ (header : (Stream × BitVec 32 × BitVec 32 × BitVec 32) × Stream)
    (cpu : (CpuState × Word) × Stream) (size : Word × Stream)
    (chipset : (BitVec 32 × BitVec 32 × Word) × Stream),
    getHeader.run file = header ∧ (pod.get ({}, 0)).run header.2 = cpu ∧ getU64.run cpu.2 = size ∧
      getChipsetBlock.run (size.2.drop size.1.toNat) = chipset ∧
      recorded pod file =
        ⟨header.1.1, header.1.2, size.1, size.2.take size.1.toNat, chipset.1.1, chipset.1.2.1,
          chipset.1.2.2⟩ := by
  refine ⟨_, _, _, _, rfl, rfl, rfl, rfl, ?_⟩
  rw [recorded]

/-- **What a load does with a file.** -/
theorem load_eq (file : Stream) (m : Board ε) :
    match rejection pod file m with
    | some e => load pod file m = .error e
    | none => ∃ m', load pod file m = .ok m' := by
  obtain ⟨header, cpu, size, chipset, hheader, hcpu, hsize, hchipset, hrecorded⟩ :=
    recorded_eq pod file
  have hsections := loadSections_eq pod file m
  rw [load_header, hheader] at hsections
  unfold rejection afterPages load
  rw [hrecorded]
  generalize loadSections pod m file Section.all = sections at hsections ⊢
  dsimp only
  by_cases hshort : file.length < 8
  · simp only [if_pos hshort]
  by_cases hsum : fnv1a64 (file.take (file.length - 8)) ≠
      (getU64.run (file.drop (file.length - 8))).1
  · simp only [if_neg hshort, if_pos hsum]
  simp only [if_neg hshort, if_neg hsum]
  by_cases hmagic : header.1.1 ≠ kSnapshotMagic
  · simp only [if_pos hmagic, bind, Except.bind] at hsections ⊢
    simp only [hsections]
  by_cases hversion : header.1.2 ≠ (kFormatVersion, kCpuStateVersion, kChipsetVersion)
  · simp only [if_neg hmagic, if_pos hversion, bind, Except.bind] at hsections ⊢
    simp only [hsections]
  simp only [if_neg hmagic, if_neg hversion, bind, Except.bind, load_cpu, hcpu, load_memory,
    hsize] at hsections ⊢
  by_cases hmem : size.1 ≠ m.memSize
  · simp only [if_pos hmem] at hsections ⊢
    simp only [hsections]
  simp only [if_neg hmem] at hsections ⊢
  rw [← not_not.1 hmem]
  by_cases hcovers : ¬ Covers m.memory size.1.toNat
  · simp only [if_pos hcovers] at hsections ⊢
    simp only [hsections]
  simp only [if_neg hcovers, load_chipset, hchipset] at hsections ⊢
  -- the pages leave the devices and the memory size alone
  have hdevices : ∀ mem, (setMemory m mem).devices = m.devices := fun _ => rfl
  have hmemSize : ∀ mem, (setMemory m mem).memSize = m.memSize := fun _ => rfl
  simp only [hdevices, hmemSize, ← not_not.1 hmem] at hsections ⊢
  by_cases hvariant : chipset.1.1.setWidth 8 ≠ m.devices.variant.code
  · simp only [if_pos hvariant] at hsections ⊢
    simp only [hsections]
  by_cases hchip : chipset.1.2.2 ≠ size.1
  · simp only [if_neg hvariant, if_pos hchip] at hsections ⊢
    simp only [hsections]
  simp only [if_neg hvariant, if_neg hchip] at hsections ⊢
  obtain ⟨y, hy⟩ : ∃ y, sections = .ok y := hsections ▸ loadSections_rest pod _
  simp only [hy]
  exact ⟨_, rfl⟩

/-! ## Atomic rejection -/

/-- The load stops at a check in front of the pages. -/
def FrontRejected (file : Stream) (m : Board ε) : Prop :=
  ¬ ChecksumOk file ∨ (recorded pod file).magic ≠ kSnapshotMagic ∨
    (recorded pod file).versions ≠ (kFormatVersion, kCpuStateVersion, kChipsetVersion) ∨
    (recorded pod file).memSize ≠ m.memSize

/-- The load stops in the pages or at a check behind them. -/
def LateRejected (file : Stream) (m : Board ε) : Prop :=
  ¬ Covers m.memory m.memSize.toNat ∨
    (recorded pod file).variant.setWidth 8 ≠ m.devices.variant.code ∨
    (recorded pod file).chipMemSize ≠ m.memSize

/-- The memory bytes of the file are those of the machine, as far as its pages go. -/
def SameMemory (file : Stream) (m : Board ε) : Prop :=
  ∀ c : BitVec 48, c.toNat < kPageSize * m.memory.pageCount.toNat →
    ∀ b, (recorded pod file).memory[c.toNat]? = some b → m.memory.bytes c = b

/-- The chipset block is of this machine, its variant in all four bytes and its CPU count too. -/
structure SameChipset (file : Stream) (m : Board ε) : Prop where
  /-- The same variant, in all four bytes. -/
  variant : (recorded pod file).variant = m.devices.variant.code.setWidth 32
  /-- As many CPUs. -/
  cpuCount : (recorded pod file).cpuCount = BitVec.ofNat 32 m.devices.irq.cchip.cpuCount

/-- The pages leave the machine alone exactly when they hold its own memory. -/
theorem afterPages_eq_self_iff (file : Stream) (m : Board ε) :
    afterPages pod file m = m ↔ SameMemory pod file m := by
  have hmem : afterPages pod file m = m ↔
      fillAt m.memory 0 ((recorded pod file).memory.take
        (kPageSize * m.memory.pageCount.toNat)) = m.memory :=
    ⟨fun h => congrArg Board.memory h, fun h => by rw [afterPages, h]; rfl⟩
  rw [hmem, fillAt, SameMemory]
  constructor
  · intro h c hc b hb
    have hbyte := congrFun (congrArg GuestMemory.bytes h) c
    simp only [Nat.zero_le, if_true, Nat.sub_zero, List.getD_eq_getElem?_getD,
      List.getElem?_take_of_lt hc, hb, Option.getD_some] at hbyte
    exact hbyte.symm
  · intro h
    congr 1
    funext c
    simp only [Nat.zero_le, if_true, Nat.sub_zero, List.getD_eq_getElem?_getD]
    by_cases hc : c.toNat < kPageSize * m.memory.pageCount.toNat
    · rw [List.getElem?_take_of_lt hc]
      cases hb : (recorded pod file).memory[c.toNat]? with
      | none => rfl
      | some b => exact (h c hc b hb).symm
    · rw [List.getElem?_eq_none, Option.getD_none]
      · rfl
      · rw [List.length_take]
        omega

variable {pod} {file : Stream} {m : Board ε}

/-- In front of the pages a rejection leaves the machine alone. -/
theorem rejection_front (hfront : FrontRejected pod file m) :
    ∃ e, rejection pod file m = some (e, m) := by
  rw [rejection]
  by_cases hshort : file.length < 8
  · exact ⟨_, if_pos hshort⟩
  rw [if_neg hshort]
  by_cases hsum : fnv1a64 (file.take (file.length - 8)) ≠
      (getU64.run (file.drop (file.length - 8))).1
  · exact ⟨_, if_pos hsum⟩
  rw [if_neg hsum]
  by_cases hmagic : (recorded pod file).magic ≠ kSnapshotMagic
  · exact ⟨_, if_pos hmagic⟩
  rw [if_neg hmagic]
  by_cases hversions : (recorded pod file).versions ≠
      (kFormatVersion, kCpuStateVersion, kChipsetVersion)
  · exact ⟨_, if_pos hversions⟩
  rw [if_neg hversions]
  refine ⟨_, if_pos fun hsize => ?_⟩
  rcases hfront with h | h | h | h
  · exact h ⟨Nat.le_of_not_lt hshort, not_not.1 hsum⟩
  · exact hmagic h
  · exact hversions h
  · exact h hsize

/-- Past the front the checks are those behind the size of the memory. -/
theorem rejection_of_not_front (hfront : ¬ FrontRejected pod file m) :
    rejection pod file m =
      if ¬ Covers m.memory m.memSize.toNat then some (.ensurePageFailed, afterPages pod file m)
      else if (recorded pod file).variant.setWidth 8 ≠ m.devices.variant.code then
        some (.variantMismatch, afterPages pod file m)
      else if (recorded pod file).chipMemSize ≠ m.memSize then
        some (.chipMemSizeMismatch, afterPages pod file m)
      else none := by
  simp only [FrontRejected, ChecksumOk, not_or, not_not] at hfront
  obtain ⟨⟨hlong, hsum⟩, hmagic, hversions, hsize⟩ := hfront
  rw [rejection]
  rw [if_neg (Nat.not_lt.2 hlong), if_neg (not_not.2 hsum), if_neg (not_not.2 hmagic),
    if_neg (not_not.2 hversions), if_neg (not_not.2 hsize)]

/-- Behind the pages a rejection leaves the machine with the memory of the file. -/
theorem rejection_late (hfront : ¬ FrontRejected pod file m) (hlate : LateRejected pod file m) :
    ∃ e, rejection pod file m = some (e, afterPages pod file m) := by
  rw [rejection_of_not_front hfront]
  split
  · exact ⟨_, rfl⟩
  · next hcovers =>
    split
    · exact ⟨_, rfl⟩
    · next hvariant =>
      refine ⟨_, if_pos fun hsize => ?_⟩
      rcases hlate with h | h | h
      · exact hcovers h
      · exact hvariant h
      · exact h hsize

/-- A load that no check stops is not rejected. -/
theorem rejection_none (hfront : ¬ FrontRejected pod file m) (hlate : ¬ LateRejected pod file m) :
    rejection pod file m = none := by
  simp only [LateRejected, not_or] at hlate
  rw [rejection_of_not_front hfront, if_neg hlate.1, if_neg hlate.2.1, if_neg hlate.2.2]

/-- A load ends in the error of the check that stops it. -/
theorem load_error_of_rejection {e : LoadError × Board ε} (h : rejection pod file m = some e) :
    load pod file m = .error e := by
  have hload := load_eq pod file m
  rwa [h] at hload

/-- A load that no check stops succeeds. -/
theorem load_ok_of_rejection (h : rejection pod file m = none) :
    ∃ m', load pod file m = .ok m' := by
  have hload := load_eq pod file m
  rwa [h] at hload

variable (pod file m)

/-- **A load is atomic for exactly these files**: the file is rejected in front of the pages; or it
is rejected behind them and brings the memory that is there; or it is not rejected and the chipset
block is of this machine. -/
theorem rejectsAtomically_iff :
    RejectsAtomically pod file m ↔
      FrontRejected pod file m ∨
        (LateRejected pod file m ∧ SameMemory pod file m) ∨
        (¬ LateRejected pod file m ∧ SameChipset pod file m) := by
  by_cases hfront : FrontRejected pod file m
  · obtain ⟨e, he⟩ := rejection_front hfront
    have hload := load_error_of_rejection he
    refine iff_of_true ⟨fun _ => ⟨_, hload⟩, fun e' m' h => ?_⟩ (Or.inl hfront)
    rw [hload] at h
    cases h
    rfl
  by_cases hlate : LateRejected pod file m
  · obtain ⟨e, he⟩ := rejection_late hfront hlate
    have hload := load_error_of_rejection he
    simp only [hfront, hlate, not_true_eq_false, false_and, or_false, true_and, false_or]
    rw [← afterPages_eq_self_iff]
    constructor
    · intro h
      exact h.restores e _ hload
    · intro h
      refine ⟨fun _ => ⟨_, hload⟩, fun e' m' hload' => ?_⟩
      rw [hload, h] at hload'
      cases hload'
      rfl
  · obtain ⟨m', hload⟩ := load_ok_of_rejection (rejection_none hfront hlate)
    simp only [hfront, hlate, not_false_eq_true, false_and, true_and, false_or]
    have hagrees : Agrees pod file m ↔ SameChipset pod file m := by
      simp only [FrontRejected, LateRejected, not_or, not_not] at hfront hlate
      obtain ⟨hsum, hmagic, hversions, hsize⟩ := hfront
      exact ⟨fun h => ⟨h.variant, h.cpuCount⟩,
        fun h => ⟨hsum, hmagic, hversions, hsize, h.variant, h.cpuCount, hlate.2.2⟩⟩
    rw [← hagrees]
    constructor
    · intro h
      by_contra hdisagree
      obtain ⟨e, he⟩ := h.rejects hdisagree
      rw [hload] at he
      cases he
    · intro h
      refine ⟨fun hdisagree => absurd h hdisagree, fun e m' he => ?_⟩
      rw [hload] at he
      cases he

/-! ## Files of other machines -/

variable (ts : Word) (comment : Stream)

/-- **What a saved file records.** -/
theorem recorded_body (rest : Stream) :
    recorded pod (body pod ts comment m ++ rest) =
      { magic := kSnapshotMagic
        versions := (kFormatVersion, kCpuStateVersion, kChipsetVersion)
        memSize := m.memSize
        memory := memoryBytes m
        variant := m.devices.variant.code.setWidth 32
        cpuCount := BitVec.ofNat 32 m.devices.irq.cchip.cpuCount
        chipMemSize := m.memSize } := by
  have hlen : (memoryBytes m).length = m.memSize.toNat := by simp [memoryBytes]
  have hchipset : Reads getChipsetBlock (Section.bytes pod ts comment m (memoryBytes m) .chipset)
      (m.devices.variant.code.setWidth 32, BitVec.ofNat 32 m.devices.irq.cchip.cpuCount,
        m.memSize) := by
    simp only [Section.bytes, List.append_assoc]
    refine (reads_u32 _).bind ((reads_qString _).bind ((reads_u32 _).bind ?_))
    exact (reads_u64 _).bind_pure rfl
  have hmemory : Section.bytes pod ts comment m (memoryBytes m) .memory =
      putU64 m.memSize ++ memoryBytes m := rfl
  have hcpu : Section.bytes pod ts comment m (memoryBytes m) .cpu =
      pod.image (m.cpu, m.warp.warpCycles) := rfl
  rw [recorded, body]
  simp only [Section.all, List.flatMap_cons, List.append_assoc]
  rw [reads_header, hcpu]
  dsimp only
  rw [pod.reads, hmemory]
  dsimp only
  rw [List.append_assoc, reads_u64]
  dsimp only
  rw [List.take_left' hlen, List.drop_left' hlen, hchipset]

end

/-- The footer of a file that was written whole. -/
theorem checksumOk_footer (bytes : Stream) : ChecksumOk (bytes ++ putU64 (fnv1a64 bytes)) := by
  have hfooter : (putU64 (fnv1a64 bytes)).length = 8 := length_leBytes 8 _
  have hlen : (bytes ++ putU64 (fnv1a64 bytes)).length = bytes.length + 8 := by
    rw [List.length_append, hfooter]
  have hsum := reads_u64 (fnv1a64 bytes) []
  rw [List.append_nil] at hsum
  refine ⟨by omega, ?_⟩
  rw [hlen, Nat.add_sub_cancel, List.take_left, List.drop_left, hsum]

/-- The file of a board, as `save` writes it. -/
def fileOf (pod : Pod (CpuState × Word)) (m : Board Unit) : Stream :=
  body pod 0 [] m ++ putU64 (fnv1a64 (body pod 0 [] m))

/-- A Tsunami with one byte of memory. -/
def smallTsunami : Board Unit := builtBoard 1 1 {}

/-- A Typhoon with a one in the byte. -/
def smallTyphoon : Board Unit :=
  modifyDevices (setMemory smallTsunami ⟨1, fun _ => 1⟩) fun d => { d with variant := .typhoon }

/-- The Tsunami with two CPUs. -/
def dualTsunami : Board Unit :=
  modifyDevices smallTsunami fun d => { d with irq := .make 2 0x08 none }

/-- The front checks let the file of a machine with as much memory pass. -/
theorem not_frontRejected_fileOf (pod : Pod (CpuState × Word)) {m m' : Board Unit}
    (hsize : m.memSize = m'.memSize) : ¬ FrontRejected pod (fileOf pod m) m' := by
  rw [FrontRejected, fileOf, recorded_body]
  simp [checksumOk_footer, hsize]

/-- **A rejected file overwrites memory, and one of a dual-CPU machine is taken.** -/
theorem load_of_other_machine_not_atomic :
    ∃ pod : Pod (CpuState × Word),
      ¬ RejectsAtomically pod (fileOf pod smallTyphoon) smallTsunami ∧
      ¬ RejectsAtomically pod (fileOf pod dualTsunami) smallTsunami := by
  obtain ⟨pod⟩ := cpuPod_nonempty
  refine ⟨pod, fun h => ?_, fun h => ?_⟩
  · have hlate : LateRejected pod (fileOf pod smallTyphoon) smallTsunami := by
      refine Or.inr (Or.inl ?_)
      rw [fileOf, recorded_body]
      decide
    have hfront : ¬ FrontRejected pod (fileOf pod smallTyphoon) smallTsunami :=
      not_frontRejected_fileOf pod rfl
    obtain ⟨e, he⟩ := rejection_late hfront hlate
    have hsame := (afterPages_eq_self_iff pod _ _).1
      (h.restores _ _ (load_error_of_rejection he))
    have hbyte : (0 : BitVec 8) = 1 := hsame 0 (by decide) 1 (by
      rw [fileOf, recorded_body]
      decide)
    exact absurd hbyte (by decide)
  · have hlate : ¬ LateRejected pod (fileOf pod dualTsunami) smallTsunami := by
      rw [LateRejected, fileOf, recorded_body]
      decide
    have hfront : ¬ FrontRejected pod (fileOf pod dualTsunami) smallTsunami :=
      not_frontRejected_fileOf pod rfl
    obtain ⟨m', hload⟩ := load_ok_of_rejection (rejection_none hfront hlate)
    obtain ⟨e, he⟩ := h.rejects fun hagrees => by
      have hcount := hagrees.cpuCount
      rw [fileOf, recorded_body] at hcount
      have hdiffer : BitVec.ofNat 32 2 = BitVec.ofNat 32 1 := hcount
      exact absurd hdiffer (by decide)
    rw [hload] at he
    cases he

end Snapshot

end EmulatR
