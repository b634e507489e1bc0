import EmulatR.Core.Grain

/-! # The Ebox: integer operates

The integer leaves (eBoxLib/grains/IntArith.cpp with coreLib/alpha_int_byteops.h). A leaf of this
box computes one value from its two operands and writes it to Rc; the conditional moves may
suppress the write. RC, RS and RPCC touch the CPU state and write Ra.

`IntOp` lists the operations, `IntOp.value` is what each computes and `execIntOp` its leaf. -/

namespace EmulatR

/-! ## Byte manipulation -/

namespace ByteOps

/-- The byte position an operand selects, its low three bits. -/
def bytePos (offset : Word) : Nat := (offset.extractLsb' 0 3).toNat

/-- A mask of the low `n` bytes. -/
def lowBytes (n : Nat) : Word := ((1 : Word) <<< (8 * n)) - 1

/-- Clear the bytes whose mask bit is set. -/
def zap (value mask : Word) : Word :=
  (List.range 8).foldl
    (fun r i => if mask.getLsbD i then r &&& ~~~((0xFF : Word) <<< (8 * i)) else r) value

/-- Keep the bytes whose mask bit is set. -/
def zapnot (value mask : Word) : Word :=
  (List.range 8).foldl
    (fun r i => if mask.getLsbD i then r ||| (value &&& ((0xFF : Word) <<< (8 * i))) else r) 0

/-- MSKBL, MSKWL and MSKLL: clear `n` bytes from the position up. -/
def maskLow (n : Nat) (value offset : Word) : Word :=
  value &&& ~~~(lowBytes n <<< (8 * bytePos offset))

/-- MSKQL: keep the bytes below the position. -/
def mskql (value offset : Word) : Word :=
  if bytePos offset = 0 then 0 else value &&& lowBytes (bytePos offset)

/-- MSKWH, MSKLH and MSKQH: clear the bytes that spill into the next quadword. -/
def maskHigh (n : Nat) (value offset : Word) : Word :=
  if bytePos offset + n ≤ 8 then value else value &&& ~~~lowBytes (bytePos offset + n - 8)

/-- EXTBL, EXTWL, EXTLL and EXTQL: shift the position down to byte 0 and keep `n` bytes. -/
def extLow (n : Nat) (value offset : Word) : Word :=
  (value >>> (8 * bytePos offset)) &&& lowBytes n

/-- EXTWH, EXTLH and EXTQH: the complementary left shift; zero at position zero. -/
def extHigh (n : Nat) (value offset : Word) : Word :=
  if bytePos offset = 0 then 0 else (value <<< (8 * (8 - bytePos offset))) &&& lowBytes n

/-- INSBL, INSWL, INSLL and INSQL: move `n` low bytes up to the position. -/
def insLow (n : Nat) (value offset : Word) : Word :=
  (value &&& lowBytes n) <<< (8 * bytePos offset)

/-- INSWH, INSLH and INSQH: the bytes that spill over; zero at position zero. -/
def insHigh (n : Nat) (value offset : Word) : Word :=
  if bytePos offset = 0 then 0 else (value &&& lowBytes n) >>> (8 * (8 - bytePos offset))

end ByteOps

/-! ## Lanes -/

/-- Assemble `n` lanes of `w` bits. -/
def lanes (w n : Nat) (f : Nat → BitVec w) : Word :=
  (List.range n).foldl (fun acc i => acc ||| ((f i).setWidth 64 <<< (w * i))) 0

/-- Lane `i` of a word. -/
def lane (w : Nat) (v : Word) (i : Nat) : BitVec w := v.extractLsb' (w * i) w

/-- A lanewise choice between two words. -/
def laneSelect (w n : Nat) (pickA : BitVec w → BitVec w → Bool) (a b : Word) : Word :=
  lanes w n fun i => if pickA (lane w a i) (lane w b i) then lane w a i else lane w b i

/-- The sum of the absolute byte differences. -/
def perr (a b : Word) : Word :=
  (List.range 8).foldl (fun acc i =>
    let x := (lane 8 a i).setWidth 64
    let y := (lane 8 b i).setWidth 64
    acc + (if y ≤ x then x - y else y - x)) 0

/-- The position of the highest set bit at or below `n`. -/
def highestSetBit (v : Word) : Nat → Nat
  | 0 => 0
  | n + 1 => if v.getLsbD (n + 1) then n + 1 else highestSetBit v n

/-- The position of the lowest set bit among the first `n`. -/
def lowestSetBit (v : Word) (n : Nat) : Nat := ((List.range n).find? v.getLsbD).getD 0

/-! ## The integer operates -/

/-- The two-operand integer leaves, by the name of the instruction. -/
inductive IntOp
  | amask | implver
  | addl | subl | addq | subq
  | s4addl | s4subl | s8addl | s8subl | s4addq | s4subq | s8addq | s8subq
  | cmpeq | cmpult | cmpule | cmplt | cmple | cmpbge
  | mull | mulq | umulh
  | ctpop | ctlz | cttz
  | and | bic | bis | eqv | ornot | xor
  | sll | srl | sra
  | extbl | extwl | extll | extql | extwh | extlh | extqh
  | insbl | inswl | insll | insql | inswh | inslh | insqh
  | mskbl | mskwl | mskll | mskql | mskwh | msklh | mskqh
  | sextb | sextw | zap | zapnot
  | maxub8 | maxsb8 | maxuw4 | maxsw4 | minub8 | minsb8 | minuw4 | minsw4
  | perr | unpkbw | unpkbl | pkwb | pklb
  /-- FTOIT. -/
  | ftoit
  deriving DecidableEq, Repr

/-- The sign extension of a longword. -/
def sext32 (v : BitVec 32) : Word := v.signExtend 64

/-- A comparison result. -/
def boolWord (b : Bool) : Word := if b then 1 else 0

open ByteOps in
/-- The value an integer leaf writes to Rc. -/
def IntOp.value (op : IntOp) (a b : Word) : Word :=
  match op with
  -- clears the bits of the extensions the CPU has: BWX, FIX, CIX and MVI
  | amask => b &&& ~~~0x107
  | implver => 2
  -- longword results are cut to 32 bits and sign-extended
  | addl => sext32 (a.setWidth 32 + b.setWidth 32)
  | subl => sext32 (a.setWidth 32 - b.setWidth 32)
  | addq => a + b
  | subq => a - b
  -- the scale is applied to the quadword, before the cut
  | s4addl => sext32 (((a <<< 2) + b).setWidth 32)
  | s4subl => sext32 (((a <<< 2) - b).setWidth 32)
  | s8addl => sext32 (((a <<< 3) + b).setWidth 32)
  | s8subl => sext32 (((a <<< 3) - b).setWidth 32)
  | s4addq => (a <<< 2) + b
  | s4subq => (a <<< 2) - b
  | s8addq => (a <<< 3) + b
  | s8subq => (a <<< 3) - b
  | cmpeq => boolWord (a == b)
  | cmpult => boolWord (a.ult b)
  | cmpule => boolWord (a.ule b)
  | cmplt => boolWord (a.slt b)
  | cmple => boolWord (a.sle b)
  -- bit `i` compares byte `i`, unsigned
  | cmpbge => lanes 1 8 fun i => BitVec.ofBool ((lane 8 b i).ule (lane 8 a i))
  | mull => sext32 (a.setWidth 32 * b.setWidth 32)
  | mulq => a * b
  | umulh => ((a.setWidth 128 * b.setWidth 128) >>> 64).setWidth 64
  -- the count instructions read Rb
  | ctpop => BitVec.ofNat 64 ((List.range 64).countP b.getLsbD)
  | ctlz => if b ≠ 0 then BitVec.ofNat 64 (63 - highestSetBit b 63) else 64
  | cttz => if b ≠ 0 then BitVec.ofNat 64 (lowestSetBit b 64) else 64
  | and => a &&& b
  | bic => a &&& ~~~b
  | bis => a ||| b
  | eqv => ~~~(a ^^^ b)
  | ornot => a ||| ~~~b
  | xor => a ^^^ b
  -- the low six bits of the count
  | sll => a <<< (b &&& 0x3F).toNat
  | srl => a >>> (b &&& 0x3F).toNat
  | sra => a.sshiftRight (b &&& 0x3F).toNat
  | extbl => extLow 1 a b
  | extwl => extLow 2 a b
  | extll => extLow 4 a b
  | extql => extLow 8 a b
  | extwh => extHigh 2 a b
  | extlh => extHigh 4 a b
  | extqh => extHigh 8 a b
  | insbl => insLow 1 a b
  | inswl => insLow 2 a b
  | insll => insLow 4 a b
  | insql => insLow 8 a b
  | inswh => insHigh 2 a b
  | inslh => insHigh 4 a b
  | insqh => insHigh 8 a b
  | mskbl => maskLow 1 a b
  | mskwl => maskLow 2 a b
  | mskll => maskLow 4 a b
  | mskql => ByteOps.mskql a b
  | mskwh => maskHigh 2 a b
  | msklh => maskHigh 4 a b
  | mskqh => maskHigh 8 a b
  | sextb => (b.setWidth 8).signExtend 64
  | sextw => (b.setWidth 16).signExtend 64
  | zap => ByteOps.zap a b
  | zapnot => ByteOps.zapnot a b
  -- ties take the second operand, which is equal anyway
  | maxub8 => laneSelect 8 8 (fun x y => y.ult x) a b
  | maxsb8 => laneSelect 8 8 (fun x y => y.slt x) a b
  | maxuw4 => laneSelect 16 4 (fun x y => y.ult x) a b
  | maxsw4 => laneSelect 16 4 (fun x y => y.slt x) a b
  | minub8 => laneSelect 8 8 (fun x y => x.ult y) a b
  | minsb8 => laneSelect 8 8 (fun x y => x.slt y) a b
  | minuw4 => laneSelect 16 4 (fun x y => x.ult y) a b
  | minsw4 => laneSelect 16 4 (fun x y => x.slt y) a b
  | perr => EmulatR.perr a b
  | unpkbw => lanes 16 4 fun i => (lane 8 b i).setWidth 16
  | unpkbl => lanes 32 2 fun i => (lane 8 b i).setWidth 32
  | pkwb => lanes 8 4 fun i => (lane 16 b i).setWidth 8
  | pklb => lanes 8 2 fun i => (lane 32 b i).setWidth 8
  | ftoit => a

/-- An integer operate leaf: write the value to Rc. -/
def execIntOp (op : IntOp) (g : InstructionGrain) (c : ExecCtx) : BoxResult :=
  intWrite g g.encoded.rc (op.value c.opA c.opB)

/-! ## Conditions on a register -/

/-- The conditions of the integer conditional moves and branches. -/
inductive RegCond
  | eq | ne | lt | ge | le | gt | lbs | lbc
  deriving DecidableEq, Repr

/-- A register meets a condition. -/
def RegCond.met (cond : RegCond) (a : Word) : Bool :=
  match cond with
  | eq => a == 0
  | ne => a != 0
  | lt => a.slt 0
  | ge => !a.slt 0
  | le => a.sle 0
  | gt => !a.sle 0
  | lbs => a.getLsbD 0
  | lbc => !a.getLsbD 0

/-- A conditional move: write B to Rc if A meets the condition, else write nothing. -/
def execCmov (cond : RegCond) (g : InstructionGrain) (c : ExecCtx) : BoxResult :=
  -- register 31 stands for no write
  if cond.met c.opA then intWrite g g.encoded.rc c.opB else intWrite g 31 0

/-! ## The leaves that touch the CPU state -/

/-- RC: read and clear the interrupt flag. -/
def execRc (g : InstructionGrain) (cpu : CpuState) : CpuState × BoxResult :=
  ({ cpu with intrFlag := 0 }, intWrite g g.encoded.ra cpu.intrFlag)

/-- RS: read and set the interrupt flag. -/
def execRs (g : InstructionGrain) (cpu : CpuState) : CpuState × BoxResult :=
  ({ cpu with intrFlag := 1 }, intWrite g g.encoded.ra cpu.intrFlag)

/-- RPCC: the cycle counter; its multiplier is one. -/
def execRpcc (g : InstructionGrain) (cpu : CpuState) : BoxResult :=
  intWrite g g.encoded.ra (cpu.cycleCount + cpu.ccOffset)

end EmulatR
