import EmulatR.Boxes.Leaf
import EmulatR.Isa.IntOperate
import EmulatR.Mmu.Translator

/-! # The machine a program sees

To a program that only computes, loads, stores and branches the machine is a register file, a
program counter and bytes of memory. Everything else (the mode, the translation buffers, the
superpages, what the bus claims) stays as it is and enters as an `AddressSpace`: where instructions
are fetched, where data of a given size lies, and what a word means. -/

namespace EmulatR

open GuestMemory

/-! ## Instructions -/

/-- The instructions of such a program. -/
inductive UserInstr
  /-- An integer operate. -/
  | operate (op : IntOp)
  /-- A conditional move. -/
  | cmov (cond : RegCond)
  /-- LDA and LDAH, by the power of two of the displacement. -/
  | address (scale : Nat)
  /-- A load of a number of bytes. -/
  | load (size : Nat)
  /-- LDQ_U. -/
  | loadU
  /-- A store of a number of bytes. -/
  | store (size : Nat)
  /-- STQ_U. -/
  | storeU
  /-- BR and BSR. -/
  | branch
  /-- A conditional branch. -/
  | bcond (cond : RegCond)
  /-- JMP, JSR, RET and JSR_COROUTINE. -/
  | jump
  /-- A barrier or a prefetch. -/
  | barrier
  deriving DecidableEq, Repr

/-- The instruction of a leaf. Conditional stores, the floating instructions, the counters and the
PAL leaves are no such instructions. -/
def UserInstr.ofLeaf : Leaf → Option UserInstr
  | .ordinary (.int op) => if op = .ftoit then none else some (.operate op)
  | .ordinary (.cmov cond) => some (.cmov cond)
  | .ordinary .lda => some (.address 0)
  | .ordinary .ldah => some (.address 16)
  | .ordinary (.load size) => some (.load size)
  | .ordinary .ldqU => some .loadU
  | .ordinary (.store size) => some (.store size)
  | .ordinary .stqU => some .storeU
  | .ordinary .br => some .branch
  | .ordinary (.bcond cond) => some (.bcond cond)
  | .ordinary .jmp => some .jump
  | .ordinary .barrier => some .barrier
  | _ => none

/-! ## The machine -/

/-- What stays as it is. Addresses of bytes are 48 bits wide. -/
structure AddressSpace where
  /-- Where an instruction is fetched. -/
  code : Word → Option (BitVec 48)
  /-- Where data of a given size lies. -/
  data : AccessKind → Word → Nat → Option (BitVec 48)
  /-- The instruction of a word. -/
  decode : Encoded → Option UserInstr

/-- What a program changes. -/
structure UserState where
  /-- The registers; register 31 is not read from here. -/
  reg : BitVec 5 → Word
  /-- The program counter. -/
  pc : Word
  /-- The bytes of memory. -/
  mem : BitVec 48 → BitVec 8

/-- `n` bytes, the least significant first. -/
def loadBytes (mem : BitVec 48 → BitVec 8) (c : BitVec 48) (n : Nat) : Word :=
  leWord (fun i => mem (c + BitVec.ofNat 48 i)) n

/-- The low `n` bytes of a value put into memory. -/
def storeBytes (mem : BitVec 48 → BitVec 8) (c : BitVec 48) (n : Nat) (v : Word) :
    BitVec 48 → BitVec 8 :=
  fun a => if (a - c).toNat < n then byteOf v (a - c).toNat else mem a

/-- Loaded data as a register value: a longword is signed, smaller data is not. -/
def extendLoaded (size : Nat) (v : Word) : Word := if size = 4 then sext32 (v.setWidth 32) else v

namespace UserState

variable (s : UserState)

/-- A register as an operand. -/
def read (r : BitVec 5) : Word := if r = 31 then 0 else s.reg r

/-- A register is written; register 31 is not. -/
def write (r : BitVec 5) (v : Word) : UserState :=
  if r = 31 then s else { s with reg := Function.update s.reg r v }

/-- On to the next instruction. -/
def advance : UserState := { s with pc := s.pc + 4 }

/-- The second operand of an operate: a register or the literal. -/
def operandB (e : Encoded) : Word := if e.litFlag then e.lit.setWidth 64 else s.read e.rb

/-- The address of a load or a store. -/
def address (e : Encoded) : Word := s.read e.rb + e.memDispSext

/-- Where a call comes back to. -/
def link : Word := (s.pc + 4) &&& ~~~3

/-- Load into Ra. -/
def loadAt (A : AddressSpace) (e : Encoded) (va : Word) (size : Nat) : Option UserState :=
  (A.data .dataRead va size).map fun c =>
    (s.write e.ra (extendLoaded size (loadBytes s.mem c size))).advance

/-- Store Ra. -/
def storeAt (A : AddressSpace) (e : Encoded) (va : Word) (size : Nat) : Option UserState :=
  (A.data .dataWrite va size).map fun c =>
    { s.advance with mem := storeBytes s.mem c size (s.read e.ra) }

/-- An instruction; none if it asks for an address that is not there. -/
def exec (A : AddressSpace) (e : Encoded) : UserInstr → Option UserState
  | .operate op => some (s.write e.rc (op.meaning (s.read e.ra) (s.operandB e))).advance
  | .cmov cond =>
    some (if cond.met (s.read e.ra) then s.write e.rc (s.operandB e) else s).advance
  | .address scale => some (s.write e.ra (s.read e.rb + e.memDispSext <<< scale)).advance
  | .load size => s.loadAt A e (s.address e) size
  | .loadU => s.loadAt A e (s.address e &&& ~~~7) 8
  | .store size => s.storeAt A e (s.address e) size
  | .storeU => s.storeAt A e (s.address e &&& ~~~7) 8
  | .branch => some { s.write e.ra s.link with pc := s.pc + 4 + e.braDispSext }
  | .bcond cond =>
    some { s with pc := if cond.met (s.read e.ra) then s.pc + 4 + e.braDispSext else s.pc + 4 }
  -- bit 0 of the program counter is the mode and stays
  | .jump => some { s.write e.ra s.link with pc := (s.read e.rb &&& ~~~3) ||| (s.pc &&& 1) }
  | .barrier => some s.advance

/-- One step: fetch, decode, execute. -/
def step (A : AddressSpace) : Option UserState :=
  (A.code s.pc).bind fun c =>
    let e : Encoded := (loadBytes s.mem c 4).setWidth 32
    (A.decode e).bind fun i => s.exec A e i

/-- A number of steps. -/
def run (A : AddressSpace) : Nat → UserState → Option UserState
  | 0, s => some s
  | n + 1, s => (s.step A).bind (run A n)

end UserState

end EmulatR
