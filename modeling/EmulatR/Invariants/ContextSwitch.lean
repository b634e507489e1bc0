import EmulatR.Boxes.PalBox
import EmulatR.Memory.Bytes

/-! # Switching contexts

SWPCTX saves the context of the process that gives up the CPU in its control block, and loads that
of the next (palBoxLib/grains/PalEntries.cpp, deviceLib/HwpcbContext.h). Two switches, to a process
and back, should leave the first as it was, and in the block of the second what it did not change.

The load drops bit 63 of the page table base, which marks a process that runs on physical
addresses, and nobody puts it back. `swpctxLaw_iff` says that nothing else is lost. -/

namespace EmulatR

open GuestMemory

/-! ## Control blocks in memory -/

/-- The bytes of a control block, the quadwords that SWPCTX does not touch included. -/
def hwpcbSize : Nat := 128

/-- Every byte of the block is in memory. -/
def InDram (mem : GuestMemory) (pa : Word) : Prop :=
  ∀ i < hwpcbSize, mem.inRange (pa + BitVec.ofNat 64 i) = true

/-- The blocks share no byte. -/
def Apart (a b : Word) : Prop :=
  ∀ i < hwpcbSize, ∀ j < hwpcbSize, cell (a + BitVec.ofNat 64 i) ≠ cell (b + BitVec.ofNat 64 j)

/-- Two memories of one size have the same bytes in the block. -/
structure SameBlock (mem mem' : GuestMemory) (pa : Word) : Prop where
  /-- Memory is as large as before. -/
  pages : mem'.pageCount = mem.pageCount
  /-- So is every byte of the block. -/
  bytes : ∀ i < hwpcbSize, mem'.bytes (cell (pa + BitVec.ofNat 64 i)) =
    mem.bytes (cell (pa + BitVec.ofNat 64 i))

/-- A quadword of a block. -/
def quadAt (mem : GuestMemory) (pa : Word) (i : Nat) : Word :=
  mem.read (pa + BitVec.ofNat 64 (8 * i)) 8

section Blocks

variable {mem mem' : GuestMemory} {pa : Word}

/-- Being in DRAM depends on the size of memory only. -/
theorem InDram.congr (h : InDram mem pa) (hpages : mem'.pageCount = mem.pageCount) :
    InDram mem' pa := by
  intro i hi
  rw [inRange, hpages]
  exact h i hi

/-- Of two blocks apart, either may be named first. -/
theorem Apart.symm {a b : Word} (h : Apart a b) : Apart b a := fun i hi j hj =>
  (h j hj i hi).symm

/-- Memories that agree on a block have the same quadwords there. -/
theorem SameBlock.quadAt_eq (h : SameBlock mem mem' pa) {i : Nat} (hi : i < 16) :
    quadAt mem' pa i = quadAt mem pa i := by
  rw [quadAt, quadAt, read_eq_leWord _ _ (by decide), read_eq_leWord _ _ (by decide)]
  apply leWord_congr
  intro k hk
  rw [BitVec.add_assoc, ← BitVec.ofNat_add, read1, read1, inRange, inRange, h.pages,
    h.bytes (8 * i + k) (by simp only [hwpcbSize]; omega)]

/-- A context is read from the nine quadwords of its block. -/
theorem quads_readHwpcb (mem : GuestMemory) (pa : Word) :
    (readHwpcb mem pa).quads = (List.range 9).map (quadAt mem pa) := by
  simp [readHwpcb, Hwpcb.quads, quadAt, List.range_succ]

/-- The quadwords of a context read from memory are those in memory. -/
theorem getD_quads_readHwpcb (mem : GuestMemory) (pa : Word) {i : Nat} (hi : i < 9) :
    (readHwpcb mem pa).quads.getD i 0 = quadAt mem pa i := by
  rw [quads_readHwpcb, List.getD_eq_getElem?_getD, List.getElem?_map, List.getElem?_range hi]
  rfl

/-- A context is its quadwords. -/
theorem Hwpcb.quads_inj {h h' : Hwpcb} (heq : h.quads = h'.quads) : h = h' := by
  cases h
  cases h'
  simpa [Hwpcb.quads] using heq

/-- From the same block the same context is read. -/
theorem SameBlock.readHwpcb_eq (h : SameBlock mem mem' pa) :
    readHwpcb mem' pa = readHwpcb mem pa := by
  apply Hwpcb.quads_inj
  rw [quads_readHwpcb, quads_readHwpcb]
  refine List.map_congr_left fun i hi => h.quadAt_eq ?_
  have := List.mem_range.1 hi
  omega

/-- Writing quadwords keeps the size of memory. -/
@[simp] theorem pageCount_writeQuads (mem : GuestMemory) (pa : Word) (qs : List Word) :
    (writeQuads mem pa qs).pageCount = mem.pageCount := by
  induction qs generalizing mem pa with
  | nil => rfl
  | cons q qs ih => rw [writeQuads, ih, write_eq_writeEach _ _ _ (by decide), pageCount_writeEach]

/-- The bytes after consecutive quadwords were written. -/
theorem bytes_writeQuads (mem : GuestMemory) (pa : Word) {qs : List Word} (hlen : qs.length ≤ 16)
    (c : BitVec 48) :
    (writeQuads mem pa qs).bytes c =
      if (c - cell pa).toNat < 8 * qs.length ∧ mem.holds c = true then
        byteOf (qs.getD ((c - cell pa).toNat / 8) 0) ((c - cell pa).toNat % 8)
      else mem.bytes c := by
  induction qs generalizing mem pa with
  | nil => rw [writeQuads, if_neg fun h => absurd h.1 (Nat.not_lt_zero _)]
  | cons q qs ih =>
    have hlen' : qs.length ≤ 15 := Nat.le_of_succ_le_succ hlen
    -- the distance from the next quadword, with wrap-around
    have hnext : (c - cell (pa + 8)).toNat = ((c - cell pa).toNat + (2 ^ 48 - 8)) % 2 ^ 48 := by
      rw [show (8 : Word) = BitVec.ofNat 64 8 from rfl, cell_add_ofNat]
      simp only [BitVec.toNat_sub, BitVec.toNat_add, BitVec.toNat_ofNat]
      omega
    rw [writeQuads, ih _ _ (by omega), write_eq_writeEach _ _ _ (by decide), holds_writeEach,
      bytes_writeEach _ _ _ (by decide), hnext, List.length_cons]
    generalize hd : (c - cell pa).toNat = d
    have hd48 : d < 2 ^ 48 := hd ▸ BitVec.isLt _
    by_cases hin : mem.holds c = true
    · by_cases hfirst : d < 8
      · have hnot : ¬ (d + (2 ^ 48 - 8)) % 2 ^ 48 < 8 * qs.length := by omega
        have hdiv : d / 8 = 0 := by omega
        have hmod : d % 8 = d := by omega
        rw [if_neg fun h => hnot h.1, if_pos ⟨hfirst, hin⟩, if_pos ⟨by omega, hin⟩, hdiv, hmod]
        rfl
      · have hsub : (d + (2 ^ 48 - 8)) % 2 ^ 48 = d - 8 := by omega
        have hdiv : d / 8 = (d - 8) / 8 + 1 := by omega
        have hmod : d % 8 = (d - 8) % 8 := by omega
        rw [hsub, hdiv, hmod, List.getD_cons_succ]
        by_cases hlt : d - 8 < 8 * qs.length
        · rw [if_pos ⟨hlt, hin⟩, if_pos ⟨by omega, hin⟩]
        · rw [if_neg fun h => hlt h.1, if_neg fun h => hfirst h.1, if_neg fun h => hlt (by omega)]
    · rw [if_neg fun h => hin h.2, if_neg fun h => hin h.2, if_neg fun h => hin h.2]

/-- Writing a context leaves the blocks apart from its own. -/
theorem sameBlock_writeQuads {b : Word} (h : Apart pa b) {qs : List Word}
    (hlen : qs.length ≤ 16) : SameBlock mem (writeQuads mem pa qs) b := by
  refine ⟨pageCount_writeQuads mem pa qs, fun j hj => ?_⟩
  rw [bytes_writeQuads mem pa hlen, if_neg]
  rintro ⟨hd, -⟩
  have hd' := hd.trans_le (show 8 * qs.length ≤ hwpcbSize by simp only [hwpcbSize]; omega)
  have hlt : (cell (b + BitVec.ofNat 64 j) - cell pa).toNat < 2 ^ 48 := BitVec.isLt _
  exact h _ hd' j hj ((eq_cell_add_iff pa hlt _).2 rfl).symm

/-- A quadword that was written is read back. -/
theorem quadAt_writeQuads (hin : InDram mem pa) {qs : List Word} (hlen : qs.length ≤ 16) {i : Nat}
    (hi : i < qs.length) : quadAt (writeQuads mem pa qs) pa i = qs.getD i 0 := by
  apply eq_of_bytes
  intro k hk
  have hidx : 8 * i + k < hwpcbSize := by simp only [hwpcbSize]; omega
  have hbyte := hin (8 * i + k) hidx
  have hdist : (cell (pa + BitVec.ofNat 64 (8 * i + k)) - cell pa).toNat = 8 * i + k :=
    (eq_cell_add_iff pa (by omega) _).1 rfl
  have hbyte' : (writeQuads mem pa qs).inRange (pa + BitVec.ofNat 64 (8 * i + k)) = true :=
    (hin.congr (pageCount_writeQuads mem pa qs)) _ hidx
  have hdiv : (8 * i + k) / 8 = i := by omega
  have hmod : (8 * i + k) % 8 = k := by omega
  rw [quadAt, read_eq_leWord _ _ (by decide), byteOf_leWord _ hk, if_pos hk, BitVec.add_assoc,
    ← BitVec.ofNat_add, read1_of_inRange hbyte', bytes_writeQuads mem pa hlen, hdist,
    if_pos ⟨by omega, inRange_eq_holds mem _ ▸ hbyte⟩, hdiv, hmod]

/-- A quadword beyond those written keeps its value. -/
theorem quadAt_writeQuads_of_ge {qs : List Word} (hlen : qs.length ≤ 16) {i : Nat}
    (hi : qs.length ≤ i) (hi16 : i < 16) : quadAt (writeQuads mem pa qs) pa i = quadAt mem pa i := by
  rw [quadAt, quadAt, read_eq_leWord _ _ (by decide), read_eq_leWord _ _ (by decide)]
  apply leWord_congr
  intro k hk
  have hdist : (cell (pa + BitVec.ofNat 64 (8 * i + k)) - cell pa).toNat = 8 * i + k :=
    (eq_cell_add_iff pa (by omega) _).1 rfl
  have hbytes : (writeQuads mem pa qs).bytes (cell (pa + BitVec.ofNat 64 (8 * i + k))) =
      mem.bytes (cell (pa + BitVec.ofNat 64 (8 * i + k))) := by
    rw [bytes_writeQuads mem pa hlen, hdist, if_neg fun h => absurd h.1 (by omega)]
  rw [BitVec.add_assoc, ← BitVec.ofNat_add, read1, read1, inRange, inRange, pageCount_writeQuads,
    hbytes]

/-- A context has nine quadwords. -/
@[simp] theorem Hwpcb.length_quads (h : Hwpcb) : h.quads.length = 9 := rfl

/-- A context written inside DRAM is read back. -/
theorem readHwpcb_writeQuads (hin : InDram mem pa) (h : Hwpcb) :
    readHwpcb (writeQuads mem pa h.quads) pa = h := by
  apply Hwpcb.quads_inj
  rw [quads_readHwpcb]
  have hquad : ∀ i ∈ List.range 9, quadAt (writeQuads mem pa h.quads) pa i = h.quads.getD i 0 :=
    fun i hi => quadAt_writeQuads hin (by simp) (by simpa using hi)
  rw [List.map_congr_left hquad]
  rfl

end Blocks

/-! ## The law -/

/-- The context of a running process: R30 is its kernel stack pointer. -/
def liveContext (cpu : CpuState) : Hwpcb := { storeCpuToHwpcb cpu with ksp := cpu.intReg 30 }

/-- A process has run on what a switch left: it is still the current one, asks to go back, and has
spared the block of the other. -/
structure HasRun (a b : Word) (out : ExecOut) (cpu : CpuState) (mem : GuestMemory) : Prop where
  /-- The block of the process is the current one. -/
  pcbb : cpu.pcbb = b
  /-- R16 holds the block to go back to. -/
  back : cpu.intReg 16 = a
  /-- That block is untouched. -/
  spared : SameBlock out.memory mem a

/-- What two switches should leave, `out` from the first and `ret` from the second. -/
structure Restores (cpu : CpuState) (mem : GuestMemory) (out : ExecOut) (cpu' : CpuState)
    (mem' : GuestMemory) (ret : ExecOut) : Prop where
  /-- The first block is current again. -/
  current : ret.cpu.pcbb = cpu.pcbb
  /-- The first process has its context back. -/
  context : liveContext ret.cpu = liveContext cpu
  /-- A register that the other process did not change is in its block as before. -/
  kept : ∀ i < 9, (liveContext cpu').quads.getD i 0 = (liveContext out.cpu).quads.getD i 0 →
    quadAt ret.memory out.cpu.pcbb i = quadAt mem out.cpu.pcbb i
  /-- So is the rest of the block, where it was not written. -/
  scratch : ∀ i < 16, 9 ≤ i → quadAt mem' out.cpu.pcbb i = quadAt out.memory out.cpu.pcbb i →
    quadAt ret.memory out.cpu.pcbb i = quadAt mem out.cpu.pcbb i
  /-- Neither switch moves the cycle counter. -/
  counter : out.cpu.cycleCount = cpu.cycleCount ∧ ret.cpu.cycleCount = cpu'.cycleCount

/-- The CPU asks for a switch to its own block. -/
def toItself (cpu : CpuState) : CpuState :=
  { cpu with intReg := Function.update cpu.intReg 16 cpu.pcbb }

/-- Two switches restore, whatever runs between, and a switch to the own block changes nothing. -/
structure SwpctxLaw (g : InstructionGrain) (cpu : CpuState) (mem : GuestMemory) : Prop where
  /-- There and back, with any run of the other process between. -/
  roundTrip : ∀ cpu' mem',
    HasRun cpu.pcbb (cpu.intReg 16) (execSwpctxVms g cpu mem) cpu' mem' →
      Restores cpu mem (execSwpctxVms g cpu mem) cpu' mem' (execSwpctxVms g cpu' mem')
  /-- A switch to the own block. -/
  self : liveContext (execSwpctxVms g (toItself cpu) mem).cpu = liveContext cpu ∧
    (execSwpctxVms g (toItself cpu) mem).cpu.cycleCount = cpu.cycleCount

/-- A context as it is loaded. -/
def Hwpcb.loaded (h : Hwpcb) : Hwpcb := { h with ptbr := h.ptbr &&& 0x7FFFFFFFFFFFFFFF }

section Switch

variable {g : InstructionGrain} {cpu : CpuState} {mem : GuestMemory}

/-- Stripping bit 63 changes a word only where the bit is set. -/
theorem clear63_eq_iff (x : Word) : x &&& 0x7FFFFFFFFFFFFFFF = x ↔ x.getLsbD 63 = false := by
  have hmask : ~~~(0x7FFFFFFFFFFFFFFF : Word) = BitVec.twoPow 64 63 := by decide
  rw [Library.and_eq_self_iff, hmask, BitVec.and_twoPow]
  cases x.getLsbD 63 <;> decide

/-- A context is loaded as it is unless its page table base has bit 63. -/
theorem Hwpcb.loaded_eq_iff (h : Hwpcb) : h.loaded = h ↔ h.ptbr.getLsbD 63 = false := by
  rw [← clear63_eq_iff]
  constructor
  · exact congrArg Hwpcb.ptbr
  · intro hptbr
    rw [Hwpcb.loaded, hptbr]

/-- The counter of a process is that of the machine with an offset, so loading it does not move the
machine's. -/
theorem liveContext_enterContext (cpu : CpuState) (b : Word) (ctx : Hwpcb) :
    liveContext (enterContext cpu b ctx) = ctx.loaded := by
  have hcc : cpu.cycleCount + (ctx.cc - cpu.cycleCount) = ctx.cc := by
    rw [BitVec.add_comm, BitVec.sub_add_cancel]
  simp only [liveContext, storeCpuToHwpcb, enterContext, loadCpuFromHwpcb, Hwpcb.loaded, hcc,
    Function.update_self]

/-- The memory after a switch has the context in the old block. -/
theorem memory_execSwpctxVms :
    (execSwpctxVms g cpu mem).memory = writeQuads mem cpu.pcbb (liveContext cpu).quads := rfl

/-- The switch makes the block in R16 the current one. -/
theorem pcbb_execSwpctxVms : (execSwpctxVms g cpu mem).cpu.pcbb = cpu.intReg 16 := rfl

/-- The CPU after a switch to another block has the context of that block. -/
theorem liveContext_execSwpctxVms (hdisj : Apart cpu.pcbb (cpu.intReg 16)) :
    liveContext (execSwpctxVms g cpu mem).cpu = (readHwpcb mem (cpu.intReg 16)).loaded := by
  have hframe : SameBlock mem (execSwpctxVms g cpu mem).memory (cpu.intReg 16) :=
    sameBlock_writeQuads hdisj (by simp)
  rw [← hframe.readHwpcb_eq]
  exact liveContext_enterContext cpu _ _

/-- A switch to the own block reads back what was just saved. -/
theorem liveContext_self (hA : InDram mem cpu.pcbb) :
    liveContext (execSwpctxVms g (toItself cpu) mem).cpu = (liveContext cpu).loaded := by
  have hlive : liveContext (toItself cpu) = liveContext cpu := by
    simp [liveContext, toItself, storeCpuToHwpcb]
  have hr16 : (toItself cpu).intReg 16 = cpu.pcbb := by simp [toItself]
  have hexec : liveContext (execSwpctxVms g (toItself cpu) mem).cpu =
      (readHwpcb (writeQuads mem cpu.pcbb (liveContext (toItself cpu)).quads)
        ((toItself cpu).intReg 16)).loaded := liveContext_enterContext _ _ _
  rw [hexec, hlive, hr16, readHwpcb_writeQuads hA]

section RoundTrip

variable {cpu' : CpuState} {mem' : GuestMemory}

/-- What two switches do: the first context comes back as it is loaded, and the block of the other
holds the other's registers. -/
theorem roundTrip_spec (hA : InDram mem cpu.pcbb) (hB : InDram mem (cpu.intReg 16))
    (hdisj : Apart cpu.pcbb (cpu.intReg 16))
    (hrun : HasRun cpu.pcbb (cpu.intReg 16) (execSwpctxVms g cpu mem) cpu' mem') :
    liveContext (execSwpctxVms g cpu' mem').cpu = (liveContext cpu).loaded ∧
      (∀ i < 9, quadAt (execSwpctxVms g cpu' mem').memory (cpu.intReg 16) i =
        (liveContext cpu').quads.getD i 0) ∧
      ∀ i < 16, 9 ≤ i → quadAt (execSwpctxVms g cpu' mem').memory (cpu.intReg 16) i =
        quadAt mem' (cpu.intReg 16) i := by
  obtain ⟨hpcbb, hback, hspared⟩ := hrun
  have hpages : mem'.pageCount = mem.pageCount := hspared.pages.trans (pageCount_writeQuads _ _ _)
  have hB' : InDram mem' cpu'.pcbb := hpcbb ▸ hB.congr hpages
  have hmem : (execSwpctxVms g cpu' mem').memory =
      writeQuads mem' cpu'.pcbb (liveContext cpu').quads := memory_execSwpctxVms
  rw [hmem, ← hpcbb]
  refine ⟨?_, fun i hi => ?_, fun i hi h9 => ?_⟩
  · rw [liveContext_execSwpctxVms (hpcbb ▸ hback ▸ hdisj.symm), hback, hspared.readHwpcb_eq,
      memory_execSwpctxVms, readHwpcb_writeQuads hA]
  · exact quadAt_writeQuads hB' (by simp) (by simpa using hi)
  · exact quadAt_writeQuads_of_ge (by simp) (by simpa using h9) hi

/-- Two switches restore where the marks are clear. -/
theorem restores_of_clear (hA : InDram mem cpu.pcbb) (hB : InDram mem (cpu.intReg 16))
    (hdisj : Apart cpu.pcbb (cpu.intReg 16)) (hlive : cpu.ptbr.getLsbD 63 = false)
    (hsaved : (readHwpcb mem (cpu.intReg 16)).ptbr.getLsbD 63 = false)
    (hrun : HasRun cpu.pcbb (cpu.intReg 16) (execSwpctxVms g cpu mem) cpu' mem') :
    Restores cpu mem (execSwpctxVms g cpu mem) cpu' mem' (execSwpctxVms g cpu' mem') := by
  obtain ⟨hcontext, hquads, hscratch⟩ := roundTrip_spec hA hB hdisj hrun
  have hout : liveContext (execSwpctxVms g cpu mem).cpu = readHwpcb mem (cpu.intReg 16) := by
    rw [liveContext_execSwpctxVms hdisj, (Hwpcb.loaded_eq_iff _).2 hsaved]
  have hframe : SameBlock mem (execSwpctxVms g cpu mem).memory (cpu.intReg 16) :=
    sameBlock_writeQuads hdisj (by simp)
  constructor
  · exact hrun.back
  · rw [hcontext, (Hwpcb.loaded_eq_iff (liveContext cpu)).2 hlive]
  · intro i hi heq
    rw [pcbb_execSwpctxVms, hquads i hi, heq, hout, getD_quads_readHwpcb mem _ hi]
  · intro i hi h9 heq
    rw [pcbb_execSwpctxVms] at heq ⊢
    rw [hscratch i hi h9, heq, hframe.quadAt_eq hi]
  · exact ⟨rfl, rfl⟩

/-- A run that does nothing but ask to go back. -/
def idleRun (a : Word) (out : ExecOut) : CpuState :=
  { out.cpu with intReg := Function.update out.cpu.intReg 16 a }

/-- A process that asks to go back at once has run. -/
theorem hasRun_idle (g : InstructionGrain) (cpu : CpuState) (mem : GuestMemory) :
    HasRun cpu.pcbb (cpu.intReg 16) (execSwpctxVms g cpu mem)
      (idleRun cpu.pcbb (execSwpctxVms g cpu mem)) (execSwpctxVms g cpu mem).memory :=
  ⟨rfl, by simp [idleRun], ⟨rfl, fun _ _ => rfl⟩⟩

/-- If two switches restore even after such a run, the marks are clear. -/
theorem clear_of_restores (hA : InDram mem cpu.pcbb) (hB : InDram mem (cpu.intReg 16))
    (hdisj : Apart cpu.pcbb (cpu.intReg 16))
    (h : ∀ cpu' mem', HasRun cpu.pcbb (cpu.intReg 16) (execSwpctxVms g cpu mem) cpu' mem' →
      Restores cpu mem (execSwpctxVms g cpu mem) cpu' mem' (execSwpctxVms g cpu' mem')) :
    cpu.ptbr.getLsbD 63 = false ∧
      (readHwpcb mem (cpu.intReg 16)).ptbr.getLsbD 63 = false := by
  have hrun := hasRun_idle g cpu mem
  obtain ⟨hcontext, hquads, -⟩ := roundTrip_spec hA hB hdisj hrun
  have hrestores := h _ _ hrun
  have hidle : liveContext (idleRun cpu.pcbb (execSwpctxVms g cpu mem)) =
      liveContext (execSwpctxVms g cpu mem).cpu := by
    simp [liveContext, idleRun, storeCpuToHwpcb]
  constructor
  · exact (Hwpcb.loaded_eq_iff (liveContext cpu)).1 (hcontext.symm.trans hrestores.context)
  · -- the quadword of the page table base is written without the mark
    have hkept := (hquads 4 (by decide)).symm.trans
      (hrestores.kept 4 (by decide) (congrArg (List.getD ·.quads 4 0) hidle))
    rw [hidle, liveContext_execSwpctxVms hdisj] at hkept
    exact (clear63_eq_iff _).1 hkept

end RoundTrip

/-- **SWPCTX there and back restores everything, and a switch to the own block changes nothing, iff
neither the page table base of the CPU nor the one saved in the other block has bit 63 set.** -/
theorem swpctxLaw_iff (hA : InDram mem cpu.pcbb) (hB : InDram mem (cpu.intReg 16))
    (hdisj : Apart cpu.pcbb (cpu.intReg 16)) :
    SwpctxLaw g cpu mem ↔
      cpu.ptbr.getLsbD 63 = false ∧
        (readHwpcb mem (cpu.intReg 16)).ptbr.getLsbD 63 = false := by
  constructor
  · exact fun h => clear_of_restores hA hB hdisj h.roundTrip
  · rintro ⟨hlive, hsaved⟩
    refine ⟨fun cpu' mem' hrun => restores_of_clear hA hB hdisj hlive hsaved hrun, ?_, rfl⟩
    rw [liveContext_self hA, (Hwpcb.loaded_eq_iff (liveContext cpu)).2 hlive]

end Switch

/-! ## Two blocks

The control blocks at 0 and 128 of a memory of one page. -/

/-- The blocks at 0 and 128 share no byte. -/
theorem apart_blocks : Apart 0 128 := by
  intro i hi j hj
  rw [show (128 : Word) = BitVec.ofNat 64 128 from rfl, ← BitVec.ofNat_add, ne_eq,
    ← BitVec.toNat_inj]
  simp only [hwpcbSize] at hi hj
  simp [cell]
  omega

/-- The two blocks of the example lie in the one page of memory. -/
theorem inDram_blocks {mem : GuestMemory} (h : mem.pageCount = 1) :
    InDram mem 0 ∧ InDram mem 128 := by
  have hlow : ∀ i < hwpcbSize, pageIndex (0 + BitVec.ofNat 64 i) < 1 ∧
      pageIndex (128 + BitVec.ofNat 64 i) < 1 := by decide +kernel
  constructor <;> intro i hi <;> rw [inRange, h, decide_eq_true_iff]
  · exact (hlow i hi).1
  · exact (hlow i hi).2

/-- The SWPCTX instruction. -/
def swpctxGrain : InstructionGrain := { pc := 0, semFlags := [], encoded := 0x05, primaryOp := 0 }

/-- The context of a process that runs on page tables. -/
def runningContext : Hwpcb :=
  { ksp := 0x1000, esp := 0x1100, ssp := 0x1200, usp := 0x1300, ptbr := 0x40, asn := 5,
    astenSr := 0xF, fen := 1, cc := 107 }

/-- A CPU that runs it, with the block at 0, and asks for the block at 128. -/
def runningProcess : CpuState :=
  { pcbb := 0, intReg := fun i => if i = 16 then 128 else if i = 30 then 0x1000 else 0,
    esp := 0x1100, ssp := 0x1200, usp := 0x1300, ptbr := 0x40, asn := 5, astenSr := 0xF, fen := 1,
    cycleCount := 100, ccOffset := 7 }

/-- Another context. -/
def waitingContext : Hwpcb :=
  { ksp := 0x7000, esp := 0x7100, ssp := 0x7200, usp := 0x7300, ptbr := 0x80, asn := 9,
    astenSr := 0x3, fen := 0, cc := 5000 }

/-- A memory with that context in the block at 128. -/
def waitingBlock : GuestMemory := writeQuads (.empty 1) 128 waitingContext.quads

/-- The two processes are switched there and back without a loss. -/
theorem swpctxLaw_running : SwpctxLaw swpctxGrain runningProcess waitingBlock ∧
    liveContext runningProcess = runningContext ∧
    readHwpcb waitingBlock (runningProcess.intReg 16) = waitingContext := by
  have hr16 : runningProcess.intReg 16 = 128 := rfl
  have hempty : InDram (.empty 1) 128 := (inDram_blocks rfl).2
  have hread : readHwpcb waitingBlock (runningProcess.intReg 16) = waitingContext := by
    rw [hr16]
    exact readHwpcb_writeQuads hempty _
  obtain ⟨hA, hB⟩ : InDram waitingBlock runningProcess.pcbb ∧
    InDram waitingBlock (runningProcess.intReg 16) := inDram_blocks (pageCount_writeQuads _ _ _)
  have hapart : Apart runningProcess.pcbb (runningProcess.intReg 16) := apart_blocks
  have hclear : runningProcess.ptbr.getLsbD 63 = false ∧
      (readHwpcb waitingBlock (runningProcess.intReg 16)).ptbr.getLsbD 63 = false := by
    rw [hread]
    decide
  exact ⟨(swpctxLaw_iff hA hB hapart).2 hclear, rfl, hread⟩

/-- A CPU with its block at 0, that asks for the one at 128. -/
def firstProcess : CpuState :=
  { pcbb := 0, intReg := fun i => if i = 16 then 128 else 0 }

/-- One page of memory; the block at 128 marks its process as running on physical addresses. -/
def physicalBlock : GuestMemory := ((GuestMemory.empty 1).write 160 0x8000000000000000 8).1

/-- A process on physical addresses, switched to and back, is not one any more. -/
theorem not_swpctxLaw_physical : ¬ SwpctxLaw swpctxGrain firstProcess physicalBlock := by
  intro h
  have hpages : physicalBlock.pageCount = 1 := by decide +kernel
  obtain ⟨hA, hB⟩ : InDram physicalBlock firstProcess.pcbb ∧
    InDram physicalBlock (firstProcess.intReg 16) := inDram_blocks hpages
  have hapart : Apart firstProcess.pcbb (firstProcess.intReg 16) := apart_blocks
  have hclear := (clear_of_restores hA hB hapart h.roundTrip).2
  have hset : (readHwpcb physicalBlock (firstProcess.intReg 16)).ptbr.getLsbD 63 = true := by
    decide +kernel
  rw [hset] at hclear
  cases hclear

end EmulatR
