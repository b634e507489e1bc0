import EmulatR.Isa.UserMachine
import EmulatR.System.Platform

/-! # Programs on the pipeline

As long as a program keeps to the instructions of the machine it sees, and to addresses that
translate to DRAM, the pipeline runs it as that machine does (`ofMachine_iterate`): the registers,
the program counter and memory after any number of steps are the machine's, and the address space is
what it was.

`stepCpu_intOperate` is one integer operate, through the whole pipeline. -/

namespace EmulatR

open GuestMemory

/-! ## The rows of the table -/

/-- The operates that ignore operand A. -/
def IntOp.ignoresA : IntOp → Bool
  | amask | implver | ctpop | ctlz | cttz | sextb | sextw | unpkbw | unpkbl | pkwb | pklb => true
  | _ => false

/-- An operation that ignores operand A has one value for all of them. -/
theorem IntOp.value_of_ignoresA {op : IntOp} (h : op.ignoresA = true) (a a' b : Word) :
    op.value a b = op.value a' b := by
  cases op with
  | amask => rfl
  | implver => rfl
  | ctpop => rfl
  | ctlz => rfl
  | cttz => rfl
  | sextb => rfl
  | sextw => rfl
  | unpkbw => rfl
  | unpkbl => rfl
  | pkwb => rfl
  | pklb => rfl
  | _ => cases h

namespace UserInstr

/-- The operands an instruction takes are those its flags ask for, and its access is a plain one of
a size that the bus has. -/
def flagsFit (i : UserInstr) (flags : GrainSem) : Bool :=
  let has := fun f => flags.contains f
  !has .readsFp && !has .fpFormat && !has .physAddr &&
    match i with
    | operate op =>
      has .opFormat && (has .readsRa || op.ignoresA) && (has .readsRb || op == .implver)
    | cmov _ => has .opFormat && has .readsRa && has .readsRb
    | address _ => !has .opFormat && has .readsRb
    | load size => !has .opFormat && has .readsRb && [1, 2, 4, 8].contains size
    | loadU => !has .opFormat && has .readsRb
    | store size =>
      !has .opFormat && has .readsRa && has .readsRb && !has .locked && [1, 2, 4, 8].contains size
    | storeU => !has .opFormat && has .readsRa && has .readsRb && !has .locked
    | branch => true
    | bcond _ => has .readsRa
    | jump => !has .opFormat && has .readsRb
    | barrier => true

/-- An entry whose flags fit its instruction. -/
def Fits (entry : GrainEntry) : Prop :=
  ∀ i, ofLeaf entry.leaf = some i → i.flagsFit entry.semFlags = true

end UserInstr

/-- The flags of every row fit the instruction that its leaf is. -/
theorem GrainMaster.fits_rows : ∀ r ∈ rows,
    (UserInstr.ofLeaf r.leaf).all (fun i => i.flagsFit r.flags) = true := by
  decide +kernel

section Rows

variable {δ : Type} (p : Platform δ) (e : Encoded)

/-- Every entry the decoder gives fits. -/
theorem Platform.fits (pp : BitVec 8) : UserInstr.Fits (p.config.decode e pp) := by
  apply p.decode_ind e pp (P := UserInstr.Fits)
  · intro r hr i hi
    have hall := GrainMaster.fits_rows r hr
    have hleaf : UserInstr.ofLeaf r.leaf = some i := hi
    rw [hleaf] at hall
    exact hall
  · intro i hi
    cases hi
  · intro vms i hi
    cases hi

/-- Such an instruction runs under no opcode of HW_LD and HW_ST. -/
theorem primaryOp_of_ofLeaf {l : Leaf} {i : UserInstr} (hi : UserInstr.ofLeaf l = some i) {op : Nat}
    (hop : op = 0x1B ∨ op = 0x1F) : ¬ l.runsUnder op = true := by
  rcases hop with rfl | rfl <;>
    cases l with
    | pal l => cases hi
    | ordinary l => cases l <;> first | (simp [Leaf.runsUnder]; done) | cases hi

/-- The grain of a decoded instruction has the flags of its row. -/
theorem semFlags_leafGrain (m : Machine δ) {i : UserInstr}
    (hi : UserInstr.ofLeaf (decodeEntry p.config m.cpu e).leaf = some i) :
    (leafGrain p.config m e).semFlags = (decodeEntry p.config m.cpu e).semFlags := by
  rw [leafGrain, makeGrain]
  refine if_neg fun h => primaryOp_of_ofLeaf hi (h.1.imp ?_ ?_) (p.runsUnder e m.cpu.palPersonality)
  · exact congrArg BitVec.toNat
  · exact congrArg BitVec.toNat

end Rows

/-! ## What a program sees of a machine -/

/-- The state a program sees. -/
def UserState.ofMachine {δ : Type} (m : Machine δ) : UserState :=
  { reg := m.cpu.intReg, pc := m.cpu.pc, mem := m.bus.memory.bytes }

section Space

variable {δ : Type} (p : Platform δ) (m : Machine δ)

/-- DRAM claims the address, and every byte of the access is backed. -/
def dramBacks (pa : Word) (size : Nat) : Bool :=
  p.devices.dramClaims m.bus.devices pa &&
    (List.range size).all fun i => m.bus.memory.inRange (pa + BitVec.ofNat 64 i)

/-- Where an access to a translated address goes; off silicon one longword reads as a constant. -/
def dataCell (access : AccessKind) (size : Nat) (pa : Word) : Option (BitVec 48) :=
  if dramBacks p m pa size && (p.silicon || access != .dataRead || pa != 0xBFFC) then some (cell pa)
  else none

/-- Where a fetch from a translated address goes; the firmware payload is no DRAM. -/
def codeCell (pa : Word) : Option (BitVec 48) :=
  if dramBacks p m pa 4 && (p.tryFetch m.bus.devices pa).isNone then some (cell pa) else none

/-- The address space of a machine. A halted CPU fetches nothing. -/
def AddressSpace.ofMachine : AddressSpace where
  code va :=
    if m.cpu.halted then none
    else (Ev6Translator.translateInstruction { m.cpu with pc := va } va).pa?.bind (codeCell p m)
  data access va size :=
    (Ev6Translator.translateDataAligned m.cpu va size access).pa?.bind (dataCell p m access size)
  decode e := UserInstr.ofLeaf (decodeEntry p.config m.cpu e).leaf

/-- A machine that differs in what a program changes, in the cycle counter and in reservations. -/
structure SameSpace (m m' : Machine δ) : Prop where
  /-- The CPUs differ in registers, PC and cycles only. -/
  cpu : ∃ regs pc cycles, m'.cpu = { m.cpu with intReg := regs, pc := pc, cycleCount := cycles }
  /-- The devices are the same. -/
  devices : m'.bus.devices = m.bus.devices
  /-- There are as many pages of memory. -/
  pageCount : m'.bus.memory.pageCount = m.bus.memory.pageCount

/-- A machine that differs in registers, PC and cycles only has the same address space. -/
theorem SameSpace.ofMachine_eq {m m' : Machine δ} (h : SameSpace m m') :
    AddressSpace.ofMachine p m' = AddressSpace.ofMachine p m := by
  obtain ⟨⟨regs, pc, cycles, hcpu⟩, hdev, hcount⟩ := h
  have hback : ∀ pa size, dramBacks p m' pa size = dramBacks p m pa size := by
    intro pa size
    simp only [dramBacks, inRange, hdev, hcount]
  have hcode : codeCell p m' = codeCell p m := by
    funext pa
    rw [codeCell, codeCell, hback, hdev]
  have hdata : dataCell p m' = dataCell p m := by
    funext access size pa
    rw [dataCell, dataCell, hback]
  simp only [AddressSpace.ofMachine, hcode, hdata, hcpu]
  rfl

end Space

/-! ## DRAM -/

section Dram

variable {δ : Type} {p : Platform δ} {m : Machine δ} {pa : Word} {size : Nat}

/-- The bytes of an address that memory backs are in memory. -/
theorem inRange_of_dramBacks (h : dramBacks p m pa size = true) {i : Nat} (hi : i < size) :
    m.bus.memory.inRange (pa + BitVec.ofNat 64 i) = true := by
  rw [dramBacks, Bool.and_eq_true] at h
  exact List.all_eq_true.1 h.2 i (List.mem_range.2 hi)

/-- The bytes of a backed access are those of its cells. -/
theorem read1_of_dramBacks (h : dramBacks p m pa size = true) {i : Nat} (hi : i < size) :
    m.bus.memory.read1 (pa + BitVec.ofNat 64 i) =
      m.bus.memory.bytes (cell pa + BitVec.ofNat 48 i) := by
  rw [read1_of_inRange (inRange_of_dramBacks h hi), cell_add_ofNat]

/-- A backed read composes the bytes of its cells. -/
theorem dramRead_of_dramBacks (h : dramBacks p m pa size = true)
    (hsize : size = 1 ∨ size = 2 ∨ size = 4 ∨ size = 8) :
    Chipset.dramRead m.bus.memory pa size =
      ⟨.ok, loadBytes m.bus.memory.bytes (cell pa) size⟩ := by
  have hbytes : leWord (fun i => m.bus.memory.read1 (pa + BitVec.ofNat 64 i)) size =
      loadBytes m.bus.memory.bytes (cell pa) size :=
    leWord_congr fun i hi => read1_of_dramBacks h hi
  rw [Chipset.dramRead]
  rcases hsize with rfl | hsize
  · have hone : leWord (fun i => m.bus.memory.read1 (pa + BitVec.ofNat 64 i)) 1 =
        (m.bus.memory.read1 pa).setWidth 64 := by
      simp [leWord]
    rw [if_pos rfl, ← hone, hbytes]
  · rw [if_neg (by omega), if_pos hsize, read_eq_leWord _ _ (by omega), hbytes]

/-- A backed write puts its bytes into its cells. -/
theorem bytes_dramWrite (h : dramBacks p m pa size = true)
    (hsize : size = 1 ∨ size = 2 ∨ size = 4 ∨ size = 8) (v : Word) :
    (Chipset.dramWrite m.bus.memory pa v size).bytes =
      storeBytes m.bus.memory.bytes (cell pa) size v := by
  have heach : Chipset.dramWrite m.bus.memory pa v size = m.bus.memory.writeEach pa v size := by
    rw [Chipset.dramWrite]
    rcases hsize with rfl | hsize
    · have hpa : pa + BitVec.ofNat 64 0 = pa := BitVec.add_zero pa
      rw [if_pos rfl, writeEach, writeEach, hpa]
    · rw [if_neg (by omega), write_eq_writeEach _ _ _ (by omega)]
  funext c
  rw [heach, bytes_writeEach _ _ _ (by omega), storeBytes]
  apply if_congr (and_iff_left_of_imp fun hlt => ?_) rfl rfl
  have hcell := (eq_cell_add_iff pa (by omega) c).2 rfl
  rw [hcell, ← inRange_eq_holds]
  exact inRange_of_dramBacks h hlt

/-- A write keeps the pages. -/
theorem pageCount_dramWrite (g : GuestMemory) (pa v : Word) (size : Nat) :
    (Chipset.dramWrite g pa v size).pageCount = g.pageCount := by
  have hpokes : ∀ n, (g.pokes pa v n).pageCount = g.pageCount := by
    intro n
    induction n with
    | zero => rfl
    | succ n ih => exact ih
  rw [Chipset.dramWrite]
  split
  · exact pageCount_write1 g pa _
  · rw [GuestMemory.write]
    split
    · exact pageCount_writeEach g pa v size
    · split
      · exact hpokes size
      · rfl

end Dram

/-! ## One step -/

section Step

variable {δ : Type} {p : Platform δ} {m : Machine δ}

/-- A fetch that the address space allows gets its word from memory and leaves the bus alone. -/
theorem fetchWord_of_code {c : BitVec 48}
    (h : (AddressSpace.ofMachine p m).code m.cpu.pc = some c) :
    ¬ m.cpu.halted ∧ fetchWord p.config m =
      (m.bus, .ok ((loadBytes m.bus.memory.bytes c 4).setWidth 32)) := by
  have hcode : (if m.cpu.halted then none
      else (Ev6Translator.translateInstruction m.cpu m.cpu.pc).pa?.bind (codeCell p m)) = some c := h
  split at hcode
  · cases hcode
  · rename_i hrun
    obtain ⟨pa, hpa, hcell⟩ := Option.bind_eq_some_iff.1 hcode
    rw [codeCell] at hcell
    split at hcell
    · rename_i hback
      cases hcell
      rw [Bool.and_eq_true] at hback
      have hclaims : p.devices.dramClaims m.bus.devices pa = true := by
        rw [dramBacks, Bool.and_eq_true] at hback
        exact hback.1.1
      have hpayload : p.config.tryFetch m.bus.devices pa = none := Option.isNone_iff_eq_none.1 hback.2
      have hread : m.bus.fetch p.config.devices pa 4 =
          (m.bus, ⟨.ok, loadBytes m.bus.memory.bytes (cell pa) 4⟩) := by
        rw [Chipset.fetch, Chipset.read, ← dramRead_of_dramBacks hback.1 (by decide)]
        exact if_pos hclaims
      refine ⟨hrun, ?_⟩
      rw [fetchWord, hpa]
      simp only [hpayload, hread]
      rfl
    · cases hcell

/-- What the drain and the retire stage make of a result. -/
def settle (p : Platform δ) (m : Machine δ) (e : Encoded) (r : BoxResult) : Machine δ :=
  let x := MemDrainer.drain p.devices p.silicon (leafGrain p.config m e) m r
  { x.1 with cpu := (retire m.cpu.pc x.2 x.1.cpu).tick }

/-- A step of an instruction whose leaf leaves the CPU alone. -/
theorem stepCpu_eq_settle {e : Encoded} {l : OrdinaryLeaf} {r : BoxResult} (hrun : ¬ m.cpu.halted)
    (hfetch : fetchWord p.config m = (m.bus, .ok e))
    (hleaf : (decodeEntry p.config m.cpu e).leaf = .ordinary l)
    (hexec : l.exec p.fp (leafGrain p.config m e) (leafCtx p.config m e) m.cpu = (m.cpu, r)) :
    stepCpu p.config m = settle p m e r := by
  have hout : leafOut p.config m e = ⟨m.cpu, m.bus.memory, r⟩ := by
    rw [leafOut_eq, hleaf]
    have hfp : l.exec p.config.fp (leafGrain p.config m e) (leafCtx p.config m e) m.cpu =
        (m.cpu, r) := hexec
    rw [Leaf.exec, hfp]
  have hbus : afterFetch p.config m = m := by
    rw [afterFetch, hfetch]
  have hpre : preDrain p.config m e = m := by
    rw [preDrain, hbus, hout]
    rfl
  have hok : (fetchWord p.config m).2 = .ok e := congrArg Prod.snd hfetch
  rw [stepCpu_eq _ hrun, issue_of_ok _ hok, executeWord_afterFetch, hpre, hout]
  rfl

/-- A step has led to a state that the program sees, in the same address space. -/
structure Ran (m m' : Machine δ) (s : UserState) : Prop where
  /-- The machine shows the state. -/
  state : UserState.ofMachine m' = s
  /-- It has the same address space. -/
  space : SameSpace m m'
  /-- R31 is zero. -/
  zero : m'.cpu.intReg 31 = 0

/-- A register write of an integer result. -/
theorem commitRegWrite_int {r : BoxResult} (hzero : m.cpu.intReg 31 = 0)
    (hfp : r.regWriteIsFp = false) :
    MemDrainer.commitRegWrite m.cpu r =
        { m.cpu with intReg :=
          ((UserState.ofMachine m).write r.regWriteIdx r.regWriteValue).reg } ∧
      ((UserState.ofMachine m).write r.regWriteIdx r.regWriteValue).reg 31 = 0 := by
  rw [MemDrainer.commitRegWrite, UserState.write]
  by_cases hidx : r.regWriteIdx = 31
  · simp only [if_pos hidx]
    exact ⟨if_neg (not_not.2 hzero), hzero⟩
  · have hkeep : Function.update m.cpu.intReg r.regWriteIdx r.regWriteValue 31 = 0 :=
      (Function.update_of_ne (Ne.symm hidx) _ _).trans hzero
    simp only [if_neg hidx, hfp, Bool.false_eq_true, if_false]
    exact ⟨if_neg (not_not.2 hkeep), hkeep⟩

/-- The machine after a register write and a change of the program counter. -/
theorem ran_of_commit {n : Machine δ} {r : BoxResult} (hzero : m.cpu.intReg 31 = 0)
    (hcpu : n.cpu = m.cpu) (hdev : n.bus.devices = m.bus.devices)
    (hcount : n.bus.memory.pageCount = m.bus.memory.pageCount) (hfp : r.regWriteIsFp = false)
    (pc : Word) :
    Ran m { n with cpu := ({ MemDrainer.commitRegWrite n.cpu r with pc := pc }).tick }
      { (UserState.ofMachine m).write r.regWriteIdx r.regWriteValue with
        pc := pc, mem := n.bus.memory.bytes } := by
  obtain ⟨hcommit, hkeep⟩ := commitRegWrite_int hzero hfp
  rw [hcpu, hcommit]
  exact ⟨rfl, ⟨⟨_, _, _, rfl⟩, hdev, hcount⟩, hkeep⟩

/-- A write of a register keeps memory. -/
theorem mem_write (s : UserState) (r : BitVec 5) (v : Word) : (s.write r v).mem = s.mem := by
  rw [UserState.write]
  split <;> rfl

/-- A write of a register keeps the PC. -/
theorem pc_write (s : UserState) (r : BitVec 5) (v : Word) : (s.write r v).pc = s.pc := by
  rw [UserState.write]
  split <;> rfl

/-- A result without an access. -/
theorem settle_plain {e : Encoded} {r : BoxResult} (hzero : m.cpu.intReg 31 = 0)
    (hfault : r.faultCode = .noFault) (hsize : r.memSize = 0) (hfp : r.regWriteIsFp = false) :
    Ran m (settle p m e r)
      { (UserState.ofMachine m).write r.regWriteIdx r.regWriteValue with
        pc := if r.divert then r.divertTarget else m.cpu.pc + 4 } := by
  have hran := ran_of_commit (n := m) hzero rfl rfl rfl hfp
    (if r.divert then r.divertTarget else m.cpu.pc + 4)
  have hdrain : MemDrainer.drain p.devices p.silicon (leafGrain p.config m e) m r =
      ({ m with cpu := MemDrainer.commitRegWrite m.cpu r }, r) := by
    rw [MemDrainer.drain, if_neg (not_not.2 hfault), if_pos hsize,
      MemDrainer.commit_of_noFault hfault]
  have hmem : (UserState.ofMachine m).mem =
      ((UserState.ofMachine m).write r.regWriteIdx r.regWriteValue).mem := (mem_write _ _ _).symm
  rw [settle, hdrain]
  simp only [retire, hfault, ne_eq, not_true_eq_false, if_false]
  exact hmem ▸ hran

/-- What the address space says of a data access. -/
theorem data_eq_some {access : AccessKind} {va : Word} {size : Nat} {c : BitVec 48}
    (h : (AddressSpace.ofMachine p m).data access va size = some c) :
    ∃ pa, (Ev6Translator.translateDataAligned m.cpu va size access).pa? = some pa ∧
      c = cell pa ∧ dramBacks p m pa size = true ∧
      (p.silicon = true ∨ access ≠ .dataRead ∨ pa ≠ 0xBFFC) := by
  obtain ⟨pa, hpa, hcell⟩ := Option.bind_eq_some_iff.1 h
  refine ⟨pa, hpa, ?_⟩
  rw [dataCell] at hcell
  split at hcell
  · rename_i hback
    cases hcell
    rw [Bool.and_eq_true, Bool.or_eq_true, Bool.or_eq_true, bne_iff_ne, bne_iff_ne, or_assoc] at hback
    exact ⟨rfl, hback⟩
  · cases hcell

/-- The translation of a result that is not physical. -/
theorem translate_of_virtual {r : BoxResult} (h : r.semFlags.contains .physAddr = false) :
    MemDrainer.translate m.cpu r =
      Ev6Translator.translateDataAligned m.cpu r.memAddr r.memSize (MemDrainer.accessKind r) := by
  rw [MemDrainer.translate, BoxResult.isPhysAddr, h]
  rfl

/-- The drain of a result with an access. -/
theorem drain_of_access {g : InstructionGrain} {r r' : BoxResult} {m' : Machine δ}
    (hfault : r.faultCode = .noFault) (hsize : r.memSize ≠ 0) (hfault' : r'.faultCode = .noFault)
    (h : MemDrainer.applyMemEffect p.devices p.silicon g m r = (m', r')) :
    MemDrainer.drain p.devices p.silicon g m r =
      ({ m' with cpu := MemDrainer.commitRegWrite m'.cpu r' }, r') := by
  rw [MemDrainer.drain, if_neg (not_not.2 hfault), if_neg hsize, h,
    MemDrainer.commit_of_noFault hfault']

/-- A load. -/
theorem settle_load {e : Encoded} {va : Word} {size : Nat} {c : BitVec 48}
    (hzero : m.cpu.intReg 31 = 0)
    (hphys : (leafGrain p.config m e).semFlags.contains .physAddr = false)
    (hsize : size = 1 ∨ size = 2 ∨ size = 4 ∨ size = 8)
    (h : (AddressSpace.ofMachine p m).data .dataRead va size = some c) :
    Ran m (settle p m e (loadResult (leafGrain p.config m e) va size false))
      ((UserState.ofMachine m).write e.ra
        (extendLoaded size (loadBytes m.bus.memory.bytes c size))).advance := by
  obtain ⟨pa, hpa, rfl, hback, hconst⟩ := data_eq_some h
  let r := loadResult (leafGrain p.config m e) va size false
  let v := extendLoaded size (loadBytes m.bus.memory.bytes (cell pa) size)
  let m' := { m with locks := if r.isLocked then m.locks.set m.cpu.cpuSlot pa else m.locks }
  have htr : (MemDrainer.translate m.cpu r).pa? = some pa := by
    rw [translate_of_virtual hphys]
    exact hpa
  have hclaims : p.devices.dramClaims m.bus.devices pa = true := by
    rw [dramBacks, Bool.and_eq_true] at hback
    exact hback.1
  have hread : m.bus.read p.devices pa size =
      (m.bus, ⟨.ok, loadBytes m.bus.memory.bytes (cell pa) size⟩) := by
    rw [Chipset.read, ← dramRead_of_dramBacks hback hsize]
    exact if_pos hclaims
  have hplain : (!p.silicon && pa == 0xBFFC) = false := by
    rcases hconst with hs | hkind | hpa
    · rw [hs]
      rfl
    · exact absurd rfl hkind
    · rw [beq_eq_false_iff_ne.2 hpa, Bool.and_false]
  have happly : MemDrainer.applyMemEffect p.devices p.silicon (leafGrain p.config m e) m r =
      (m', { r with regWriteValue := v }) := by
    rw [MemDrainer.applyMemEffect, htr]
    have hsz : r.memSize = size := rfl
    simp only [r, loadResult, Bool.false_eq_true, if_false, MemDrainer.applyLoadEffect, hread,
      hplain, ne_eq, not_true_eq_false]
    rfl
  have hdrain := drain_of_access (p := p) (r := r) rfl (show size ≠ 0 by omega) rfl happly
  have hran := ran_of_commit (n := m') (r := { r with regWriteValue := v }) hzero rfl rfl rfl rfl
    (m.cpu.pc + 4)
  have hstate : ((UserState.ofMachine m).write e.ra v).advance =
      { (UserState.ofMachine m).write e.ra v with
        pc := m.cpu.pc + 4, mem := m'.bus.memory.bytes } := by
    rw [UserState.advance, pc_write]
    exact congrArg (fun mem => UserState.mk _ _ mem) (mem_write _ _ _)
  rw [settle, hdrain]
  exact hstate ▸ hran

/-- A store. -/
theorem settle_store {e : Encoded} {va data : Word} {size : Nat} {c : BitVec 48}
    (hzero : m.cpu.intReg 31 = 0)
    (hphys : (leafGrain p.config m e).semFlags.contains .physAddr = false)
    (hlocked : (leafGrain p.config m e).semFlags.contains .locked = false)
    (hsize : size = 1 ∨ size = 2 ∨ size = 4 ∨ size = 8)
    (h : (AddressSpace.ofMachine p m).data .dataWrite va size = some c) :
    Ran m (settle p m e (storeResult (leafGrain p.config m e) va data size))
      { (UserState.ofMachine m).advance with
        mem := storeBytes m.bus.memory.bytes c size data } := by
  obtain ⟨pa, hpa, rfl, hback, -⟩ := data_eq_some h
  let r := storeResult (leafGrain p.config m e) va data size
  let m' := { m with
    bus := { m.bus with memory := Chipset.dramWrite m.bus.memory pa data size }
    locks := m.locks.clearLine pa m.cpu.cpuSlot }
  have htr : (MemDrainer.translate m.cpu r).pa? = some pa := by
    rw [translate_of_virtual hphys]
    exact hpa
  have hclaims : p.devices.dramClaims m.bus.devices pa = true := by
    rw [dramBacks, Bool.and_eq_true] at hback
    exact hback.1
  have hwrite : m.bus.write p.devices pa r.memData r.memSize =
      ({ m.bus with memory := Chipset.dramWrite m.bus.memory pa data size }, ⟨.ok, 0⟩) := by
    exact (if_neg (not_not.2 hsize)).trans (if_pos hclaims)
  have happly : MemDrainer.applyMemEffect p.devices p.silicon (leafGrain p.config m e) m r =
      (m', r) := by
    have hlock : r.isLocked = false := hlocked
    have hstore : r.memIsStore = true := rfl
    rw [MemDrainer.applyMemEffect, htr]
    simp only [hstore, hlock, if_true, MemDrainer.applyStoreEffect, MemDrainer.performStore, hwrite,
      ne_eq, not_true_eq_false, Bool.false_eq_true, if_false]
    rfl
  have hdrain := drain_of_access (p := p) (r := r) rfl (show size ≠ 0 by omega) rfl happly
  have hran := ran_of_commit (n := m') (r := r) hzero rfl rfl
    (pageCount_dramWrite m.bus.memory pa data size) rfl (m.cpu.pc + 4)
  rw [settle, hdrain]
  rw [show m'.bus.memory.bytes = _ from bytes_dramWrite hback hsize data] at hran
  exact hran

end Step

/-! ## Instructions -/

section Instructions

variable {δ : Type} {p : Platform δ} {m : Machine δ} {e : Encoded}

/-- The registers of the program are those of the machine. -/
theorem read_ofMachine (hzero : m.cpu.intReg 31 = 0) (r : BitVec 5) :
    (UserState.ofMachine m).read r = m.cpu.intReg r := by
  rw [UserState.read]
  split
  · rename_i hr
    rw [hr, hzero]
  · rfl

/-- The PC moves on after a write of a register. -/
theorem advance_write (s : UserState) (r : BitVec 5) (v : Word) :
    (s.write r v).advance = { s.write r v with pc := s.pc + 4 } := by
  rw [UserState.advance, pc_write]

/-- Operand A of an instruction that reads Ra. -/
theorem opA_leafCtx (hzero : m.cpu.intReg 31 = 0)
    (hfp : (decodeEntry p.config m.cpu e).semFlags.contains .readsFp = false)
    (ha : (decodeEntry p.config m.cpu e).semFlags.contains .readsRa = true) :
    (leafCtx p.config m e).opA = (UserState.ofMachine m).read e.ra := by
  rw [read_ofMachine hzero, leafCtx_eq, buildCtx]
  simp only [ha, hfp, if_true, Bool.false_eq_true, if_false]
  rfl

/-- Operand B of an operate. -/
theorem opB_operate (hzero : m.cpu.intReg 31 = 0)
    (hfp : (decodeEntry p.config m.cpu e).semFlags.contains .readsFp = false)
    (hop : (decodeEntry p.config m.cpu e).semFlags.contains .opFormat = true)
    (hb : (decodeEntry p.config m.cpu e).semFlags.contains .readsRb = true) :
    (leafCtx p.config m e).opB = (UserState.ofMachine m).operandB e := by
  rw [UserState.operandB, read_ofMachine hzero, leafCtx_eq, buildCtx]
  simp only [hb, hop, hfp, if_true, Bool.true_or, Bool.true_and, Bool.false_and, Bool.false_eq_true,
    if_false]
  rfl

/-- Operand B of an instruction that has no literal. -/
theorem opB_register (hzero : m.cpu.intReg 31 = 0)
    (hfp : (decodeEntry p.config m.cpu e).semFlags.contains .readsFp = false)
    (hop : (decodeEntry p.config m.cpu e).semFlags.contains .opFormat = false)
    (hformat : (decodeEntry p.config m.cpu e).semFlags.contains .fpFormat = false)
    (hb : (decodeEntry p.config m.cpu e).semFlags.contains .readsRb = true) :
    (leafCtx p.config m e).opB = (UserState.ofMachine m).read e.rb := by
  rw [read_ofMachine hzero, leafCtx_eq, buildCtx]
  simp only [hb, hop, hformat, hfp, if_true, Bool.false_or, Bool.false_and, Bool.false_eq_true,
    if_false]
  rfl

/-- The value of an operate, from the registers and the literal. -/
theorem value_leafCtx {op : IntOp} (hzero : m.cpu.intReg 31 = 0)
    (hi : UserInstr.ofLeaf (decodeEntry p.config m.cpu e).leaf = some (.operate op)) :
    op.value (leafCtx p.config m e).opA (leafCtx p.config m e).opB =
      op.meaning ((UserState.ofMachine m).read e.ra) ((UserState.ofMachine m).operandB e) := by
  have hfit : (UserInstr.operate op).flagsFit (decodeEntry p.config m.cpu e).semFlags = true :=
    p.fits e m.cpu.palPersonality _ hi
  simp only [UserInstr.flagsFit, Bool.and_eq_true, Bool.or_eq_true, Bool.not_eq_true',
    beq_iff_eq] at hfit
  obtain ⟨⟨⟨hfp, -⟩, -⟩, ⟨hop, ha⟩, hb⟩ := hfit
  rw [← value_eq_meaning]
  rcases hb with hb | rfl
  · rw [opB_operate hzero hfp hop hb]
    rcases ha with ha | ha
    · rw [opA_leafCtx hzero hfp ha]
    · exact IntOp.value_of_ignoresA ha _ _ _
  · rfl

/-- The widths of an access. -/
theorem size_of_contains {size : Nat} (h : [1, 2, 4, 8].contains size = true) :
    size = 1 ∨ size = 2 ∨ size = 4 ∨ size = 8 := by
  simpa using h

/-- **One instruction does what the machine the program sees does.** -/
theorem ran_exec {i : UserInstr} {s : UserState} (hzero : m.cpu.intReg 31 = 0)
    (hrun : ¬ m.cpu.halted) (hfetch : fetchWord p.config m = (m.bus, .ok e))
    (hi : UserInstr.ofLeaf (decodeEntry p.config m.cpu e).leaf = some i)
    (h : (UserState.ofMachine m).exec (AddressSpace.ofMachine p m) e i = some s) :
    Ran m (stepCpu p.config m) s := by
  have hfit := p.fits e m.cpu.palPersonality i hi
  have hflags : (leafGrain p.config m e).semFlags = (decodeEntry p.config m.cpu e).semFlags :=
    semFlags_leafGrain p e m hi
  change i.flagsFit (decodeEntry p.config m.cpu e).semFlags = true at hfit
  rw [UserInstr.flagsFit.eq_def, Bool.and_eq_true, Bool.and_eq_true, Bool.and_eq_true, Bool.not_eq_true',
    Bool.not_eq_true', Bool.not_eq_true'] at hfit
  obtain ⟨⟨⟨hfp, hformat⟩, hphys⟩, hfit⟩ := hfit
  rw [← hflags] at hphys
  cases hleaf : (decodeEntry p.config m.cpu e).leaf with
  | pal l =>
    rw [hleaf] at hi
    cases hi
  | ordinary l =>
    have hstep := fun r hexec => stepCpu_eq_settle (r := r) hrun hfetch hleaf hexec
    rw [hleaf] at hi
    cases l with
    | int op =>
      rw [UserInstr.ofLeaf] at hi
      split at hi
      · cases hi
      · rename_i hne
        cases hi
        have hvalue : op.value (leafCtx p.config m e).opA (leafCtx p.config m e).opB =
            op.meaning ((UserState.ofMachine m).read e.ra) ((UserState.ofMachine m).operandB e) :=
          value_leafCtx hzero (by rw [hleaf, UserInstr.ofLeaf, if_neg hne])
        have hran := settle_plain (p := p) (e := e)
          (r := execIntOp op (leafGrain p.config m e) (leafCtx p.config m e)) hzero rfl rfl rfl
        cases h
        rw [hstep _ rfl, advance_write, ← hvalue]
        exact hran
    | cmov cond =>
      cases hi
      cases h
      simp only [Bool.and_eq_true] at hfit
      obtain ⟨⟨hop, ha⟩, hb⟩ := hfit
      rw [hstep _ rfl, execCmov, opA_leafCtx hzero hfp ha, opB_operate hzero hfp hop hb]
      split
      · rw [advance_write]
        exact settle_plain hzero rfl rfl rfl
      · exact settle_plain hzero rfl rfl rfl
    | lda =>
      cases hi
      cases h
      simp only [Bool.and_eq_true, Bool.not_eq_true'] at hfit
      rw [hstep _ rfl, advance_write, execLda, memEa, opB_register hzero hfp hfit.1 hformat hfit.2,
        BitVec.shiftLeft_zero]
      exact settle_plain hzero rfl rfl rfl
    | ldah =>
      cases hi
      cases h
      simp only [Bool.and_eq_true, Bool.not_eq_true'] at hfit
      rw [hstep _ rfl, advance_write, execLdah, opB_register hzero hfp hfit.1 hformat hfit.2]
      exact settle_plain hzero rfl rfl rfl
    | load size =>
      cases hi
      simp only [Bool.and_eq_true, Bool.not_eq_true'] at hfit
      obtain ⟨⟨hop, hb⟩, hsize⟩ := hfit
      obtain ⟨c, hc, rfl⟩ := Option.map_eq_some_iff.1 h
      rw [hstep _ rfl, execLoad, memEa, opB_register hzero hfp hop hformat hb]
      exact settle_load hzero hphys (size_of_contains hsize) hc
    | ldqU =>
      cases hi
      simp only [Bool.and_eq_true, Bool.not_eq_true'] at hfit
      obtain ⟨hop, hb⟩ := hfit
      obtain ⟨c, hc, rfl⟩ := Option.map_eq_some_iff.1 h
      rw [hstep _ rfl, execLdqU, memEaU, memEa, opB_register hzero hfp hop hformat hb]
      exact settle_load hzero hphys (by decide) hc
    | store size =>
      cases hi
      simp only [Bool.and_eq_true, Bool.not_eq_true'] at hfit
      obtain ⟨⟨⟨⟨hop, ha⟩, hb⟩, hlocked⟩, hsize⟩ := hfit
      obtain ⟨c, hc, rfl⟩ := Option.map_eq_some_iff.1 h
      rw [hstep _ rfl, execStore, memEa, opB_register hzero hfp hop hformat hb,
        opA_leafCtx hzero hfp ha]
      exact settle_store hzero hphys (hflags ▸ hlocked) (size_of_contains hsize) hc
    | stqU =>
      cases hi
      simp only [Bool.and_eq_true, Bool.not_eq_true'] at hfit
      obtain ⟨⟨⟨hop, ha⟩, hb⟩, hlocked⟩ := hfit
      obtain ⟨c, hc, rfl⟩ := Option.map_eq_some_iff.1 h
      rw [hstep _ rfl, execStqU, memEaU, memEa, opB_register hzero hfp hop hformat hb,
        opA_leafCtx hzero hfp ha]
      exact settle_store hzero hphys (hflags ▸ hlocked) (by decide) hc
    | br =>
      cases hi
      cases h
      rw [hstep _ rfl]
      exact settle_plain hzero rfl rfl rfl
    | bcond cond =>
      cases hi
      cases h
      have hran := settle_plain (p := p) (e := e)
        (r := execBcond cond (leafGrain p.config m e) (leafCtx p.config m e)) hzero rfl rfl rfl
      have htaken : cond.met (leafCtx p.config m e).opA = cond.met ((UserState.ofMachine m).read e.ra) :=
        congrArg cond.met (opA_leafCtx hzero hfp hfit)
      have hpc : (if (execBcond cond (leafGrain p.config m e) (leafCtx p.config m e)).divert then
          (execBcond cond (leafGrain p.config m e) (leafCtx p.config m e)).divertTarget
          else m.cpu.pc + 4) =
            if cond.met ((UserState.ofMachine m).read e.ra) then m.cpu.pc + 4 + e.braDispSext
            else m.cpu.pc + 4 := by
        rw [execBcond, branchResult, htaken]
        split <;> rfl
      rw [hstep _ rfl]
      rw [hpc] at hran
      exact hran
    | jmp =>
      cases hi
      cases h
      simp only [Bool.and_eq_true, Bool.not_eq_true'] at hfit
      rw [hstep _ rfl, execJmp, jumpTarget, opB_register hzero hfp hfit.1 hformat hfit.2]
      exact settle_plain hzero rfl rfl rfl
    | barrier =>
      cases hi
      cases h
      rw [hstep _ rfl]
      exact settle_plain hzero rfl rfl rfl
    | _ => cases hi

/-- An integer operate, wherever it was fetched from: Rc gets what the operate means, applied to Ra
and to Rb or the literal; the program counter moves on, and nothing else changes but the cycle
counter. -/
theorem stepCpu_intOperate (p : Platform δ) (m : Machine δ) (e : Encoded) (op : IntOp)
    (hrun : ¬ m.cpu.halted) (hzero : m.cpu.intReg 31 = 0) (he : fetched p.config m = some e)
    (hleaf : (decodeEntry p.config m.cpu e).leaf = .ordinary (.int op)) (hne : op ≠ .ftoit) :
    stepCpu p.config m = { afterFetch p.config m with
      cpu := { m.cpu with
        intReg := ((UserState.ofMachine m).write e.rc
          (op.meaning ((UserState.ofMachine m).read e.ra) ((UserState.ofMachine m).operandB e))).reg
        pc := m.cpu.pc + 4
        cycleCount := m.cpu.cycleCount + 1 } } := by
  let r := execIntOp op (leafGrain p.config m e) (leafCtx p.config m e)
  have hout : leafOut p.config m e = ⟨m.cpu, m.bus.memory, r⟩ := by
    rw [leafOut_eq, hleaf]
    rfl
  have hpre : preDrain p.config m e = afterFetch p.config m := by
    rw [preDrain, hout, ← memory_fetchWord p.config m]
    rfl
  have hdrain : MemDrainer.drain p.devices p.silicon (leafGrain p.config m e)
      (afterFetch p.config m) r =
        ({ afterFetch p.config m with cpu := MemDrainer.commitRegWrite m.cpu r }, r) := rfl
  have hvalue : r.regWriteValue =
      op.meaning ((UserState.ofMachine m).read e.ra) ((UserState.ofMachine m).operandB e) :=
    value_leafCtx hzero (by rw [hleaf, UserInstr.ofLeaf, if_neg hne])
  have hcommit := (commitRegWrite_int (r := r) hzero rfl).1
  rw [hvalue] at hcommit
  have hexec : executeWord p.config (afterFetch p.config m) e =
      ({ afterFetch p.config m with cpu := MemDrainer.commitRegWrite m.cpu r }, r) := by
    rw [executeWord_afterFetch, hpre, hout]
    exact hdrain
  rw [stepCpu_eq _ hrun, issue_of_ok _ ((fetched_eq_some _).1 he), hexec, hcommit]
  rfl

end Instructions

/-! ## Programs -/

section Programs

variable {δ : Type} {p : Platform δ} {m : Machine δ}

/-- A space that stays twice stays. -/
theorem SameSpace.trans {m m' m'' : Machine δ} (h : SameSpace m m') (h' : SameSpace m' m'') :
    SameSpace m m'' := by
  obtain ⟨⟨_, _, _, hcpu⟩, hdev, hcount⟩ := h
  obtain ⟨⟨regs, pc, cycles, hcpu'⟩, hdev', hcount'⟩ := h'
  refine ⟨⟨regs, pc, cycles, ?_⟩, hdev'.trans hdev, hcount'.trans hcount⟩
  rw [hcpu', hcpu]

/-- **A step of the pipeline is a step of the machine the program sees.** -/
theorem ran_step {s : UserState} (hzero : m.cpu.intReg 31 = 0)
    (h : (UserState.ofMachine m).step (AddressSpace.ofMachine p m) = some s) :
    Ran m (stepCpu p.config m) s := by
  obtain ⟨c, hcode, hrest⟩ := Option.bind_eq_some_iff.1 h
  obtain ⟨i, hi, hexec⟩ := Option.bind_eq_some_iff.1 hrest
  obtain ⟨hrun, hfetch⟩ := fetchWord_of_code hcode
  exact ran_exec hzero hrun hfetch hi hexec

/-- Programs run on the pipeline as on the machine they see: if that machine gets through `n` steps
in the address space of the emulated one, then after `n` steps of the pipeline the registers, the
program counter and memory are those it ends with, and the address space is as it was. -/
theorem ofMachine_iterate (p : Platform δ) (m : Machine δ) (n : Nat) (s : UserState)
    (hzero : m.cpu.intReg 31 = 0)
    (h : (UserState.ofMachine m).run (AddressSpace.ofMachine p m) n = some s) :
    UserState.ofMachine ((stepCpu p.config)^[n] m) = s ∧
      AddressSpace.ofMachine p ((stepCpu p.config)^[n] m) = AddressSpace.ofMachine p m := by
  have hran : ∀ n m, m.cpu.intReg 31 = 0 →
      (UserState.ofMachine m).run (AddressSpace.ofMachine p m) n = some s →
      Ran m ((stepCpu p.config)^[n] m) s := by
    intro n
    induction n with
    | zero =>
      intro m hzero h
      cases h
      exact ⟨rfl, ⟨⟨_, _, _, rfl⟩, rfl, rfl⟩, hzero⟩
    | succ n ih =>
      intro m hzero h
      obtain ⟨s', hstep, hrest⟩ := Option.bind_eq_some_iff.1 h
      have hone := ran_step hzero hstep
      rw [← hone.state, ← hone.space.ofMachine_eq p] at hrest
      have hmore := ih (stepCpu p.config m) hone.zero hrest
      exact ⟨hmore.state, hone.space.trans hmore.space, hmore.zero⟩
  have h := hran n m hzero h
  exact ⟨h.state, h.space.ofMachine_eq p⟩

/-- The program's decoder is that of the machine. -/
theorem decode_ofMachine (p : Platform δ) (m : Machine δ) (e : Encoded) :
    (AddressSpace.ofMachine p m).decode e = UserInstr.ofLeaf (decodeEntry p.config m.cpu e).leaf :=
  rfl

/-- A step executes the instruction at the PC. -/
theorem step_eq {A : AddressSpace} {s : UserState} {c : BitVec 48} {e : Encoded} {i : UserInstr}
    (hc : A.code s.pc = some c) (he : (loadBytes s.mem c 4).setWidth 32 = e)
    (hi : A.decode e = some i) : s.step A = s.exec A e i := by
  subst he
  simp only [UserState.step, hc, hi, Option.bind_some]

end Programs

/-! ### LDA R1, 5(R31) and ADDQ R1, R1, R2 -/

/-- LDA R1, 5(R31). -/
def ldaWord : Encoded := 0x203F0005

/-- ADDQ R1, R1, R2. -/
def addqWord : Encoded := 0x40210402

/-- A platform without devices and without a payload. -/
def plainPlatform : Platform Unit :=
  { fetchOnly ldaWord with tryFetch := fun _ _ => none }

/-- The two words in memory, and the CPU in PALmode before them. -/
def programMachine : Machine Unit :=
  ⟨{ pc := 1 },
    ⟨⟨16, storeBytes (storeBytes (fun _ => 0) 0 4 (ldaWord.setWidth 64)) 4 4
      (addqWord.setWidth 64)⟩, ()⟩, .empty⟩

/-- LDA and ADDQ in the table. -/
theorem mem_rows_program :
    ⟨"LDA", 0x08, some 0, .direct, [.memFormat, .readsRb, .writesRa, .readsInt, .writesInt],
        .ordinary .lda⟩ ∈ GrainMaster.memoryRows ∧
      ⟨"ADDQ", 0x10, some 0x20, .intArith, GrainMaster.intFlags, .ordinary (.int .addq)⟩ ∈
        GrainMaster.intArithRows := by
  decide +kernel

/-- The first word decodes to LDA. -/
theorem decode_ldaWord :
    (AddressSpace.ofMachine plainPlatform programMachine).decode ldaWord = some (.address 0) := by
  have hrow := GrainMaster.mem_rows_of_family GrainMaster.memoryRows (by simp [GrainMaster.families])
    mem_rows_program.1
  have hentry := plainPlatform.decodeEntry_eq (e := ldaWord) programMachine.cpu hrow
    (GrainRow.selected_of_isDirect (by decide) (by decide) (by decide)) (by decide)
  rw [decode_ofMachine, hentry]
  rfl

/-- The second has the entry of ADDQ. -/
theorem decodeEntry_addqWord (p : Platform Unit) (cpu : CpuState) :
    decodeEntry p.config cpu addqWord = ⟨.ordinary (.int .addq), GrainMaster.intFlags⟩ := by
  have hrow := GrainMaster.mem_rows_of_family GrainMaster.intArithRows
    (by simp [GrainMaster.families]) mem_rows_program.2
  exact p.decodeEntry_eq (e := addqWord) cpu hrow
    (GrainRow.selected_of_sub (by decide) (by decide) (by decide) (by decide) (by decide)) (by decide)

/-- The second word decodes to ADDQ. -/
theorem decode_addqWord :
    (AddressSpace.ofMachine plainPlatform programMachine).decode addqWord =
      some (.operate .addq) := by
  rw [decode_ofMachine, decodeEntry_addqWord]
  rfl

/-- ADDQ of 5 and 5, in PALmode. -/
theorem stepCpu_intOperate_addq :
    (stepCpu (fetchOnly addqWord).config { programMachine with cpu := { programMachine.cpu with
      intReg := Function.update (fun _ => 0) 1 5 } }).cpu.intReg 2 = 10 := by
  rw [stepCpu_intOperate (fetchOnly addqWord) _ addqWord .addq (by decide) rfl
    (fetched_fetchOnly_of_pal rfl (by decide) (by decide))
    (by rw [decodeEntry_addqWord]) (by decide)]
  rfl

/-- The state the two instructions lead to. -/
def programEnd : UserState :=
  ((((UserState.ofMachine programMachine).write 1 5).advance).write 2 10).advance

/-- The program runs to its end. -/
theorem run_programMachine :
    (UserState.ofMachine programMachine).run (AddressSpace.ofMachine plainPlatform programMachine) 2 =
      some programEnd := by
  have hfirst : (UserState.ofMachine programMachine).step
      (AddressSpace.ofMachine plainPlatform programMachine) =
        some ((UserState.ofMachine programMachine).write 1 5).advance :=
    step_eq (c := 0) (by decide) (by decide) decode_ldaWord
  have hsecond : (((UserState.ofMachine programMachine).write 1 5).advance).step
      (AddressSpace.ofMachine plainPlatform programMachine) = some programEnd :=
    step_eq (c := 4) (by decide) (by decide) decode_addqWord
  rw [UserState.run, hfirst, Option.bind_some, UserState.run, hsecond]
  rfl

/-- The pipeline leaves 10 in R2. -/
theorem ofMachine_iterate_addq :
    (UserState.ofMachine ((stepCpu plainPlatform.config)^[2] programMachine)).reg 2 = 10 := by
  rw [(ofMachine_iterate plainPlatform programMachine 2 programEnd rfl run_programMachine).1]
  rfl

end EmulatR
