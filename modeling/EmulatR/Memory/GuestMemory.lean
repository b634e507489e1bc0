import Mathlib.Logic.Function.Basic
import EmulatR.Pte.AlphaPte

/-! # Guest memory and the lock monitor

`GuestMemory` is the sparse physical memory (memoryLib/GuestMemory.cpp): 64 KiB pages allocated on
first write, unallocated pages reading as zero. The page index is the address shifted right by 16
and cut to 32 bits, so a cell is named by the low 48 bits of its address. An access inside one page
is range-checked once; an access that crosses a page end is done byte by byte, and its byte
statuses are dropped.

`LockMonitor` holds one line reservation for each of four CPUs. -/

namespace EmulatR

/-- The status of a guest memory write. -/
inductive MemStatus
  | ok | outOfRange
  deriving DecidableEq, Repr

/-- The physical memory: its number of pages and its bytes. -/
structure GuestMemory where
  /-- The number of 64 KiB pages. -/
  pageCount : BitVec 32
  /-- The byte of a cell; a page never written holds zeros. -/
  bytes : BitVec 48 → BitVec 8

namespace GuestMemory

/-- A fresh memory of the given number of pages. -/
def empty (pageCount : BitVec 32) : GuestMemory := ⟨pageCount, fun _ => 0⟩

/-- The page index of an address, cut to 32 bits. -/
def pageIndex (pa : Word) : BitVec 32 := pa.extractLsb' 16 32

/-- The cell an address names. -/
def cell (pa : Word) : BitVec 48 := pa.setWidth 48

/-- The page of an address exists. -/
def inRange (m : GuestMemory) (pa : Word) : Bool := pageIndex pa < m.pageCount

/-- The access runs over the end of its 64 KiB page. -/
def crosses (pa : Word) (n : Nat) : Bool := 0xFFFF - (n - 1) < (pa &&& 0xFFFF).toNat

/-- Little-endian composition of `n` bytes. -/
def leWord (f : Nat → BitVec 8) : Nat → Word
  | 0 => 0
  | n + 1 => leWord f n ||| ((f n).setWidth 64 <<< (8 * n))

/-- Byte `i` of a value. -/
def byteOf (v : Word) (i : Nat) : BitVec 8 := v.extractLsb' (8 * i) 8

/-- Read one byte; addresses outside the memory read as zero. -/
def read1 (m : GuestMemory) (pa : Word) : BitVec 8 := if m.inRange pa then m.bytes (cell pa) else 0

/-- Read `n` bytes, `n` one of 2, 4 and 8. -/
def read (m : GuestMemory) (pa : Word) (n : Nat) : Word :=
  -- byte by byte, so that the part outside the memory reads as zero
  if crosses pa n then leWord (fun i => m.read1 (pa + BitVec.ofNat 64 i)) n
  -- one page, checked once
  else if m.inRange pa then leWord (fun i => m.bytes (cell (pa + BitVec.ofNat 64 i))) n
  else 0

/-- Store a byte without a range check. -/
def poke (m : GuestMemory) (pa : Word) (b : BitVec 8) : GuestMemory :=
  { m with bytes := Function.update m.bytes (cell pa) b }

/-- Store `n` bytes without a range check. -/
def pokes (m : GuestMemory) (pa v : Word) : Nat → GuestMemory
  | 0 => m
  | n + 1 => (pokes m pa v n).poke (pa + BitVec.ofNat 64 n) (byteOf v n)

/-- Write one byte. -/
def write1 (m : GuestMemory) (pa : Word) (b : BitVec 8) : GuestMemory × MemStatus :=
  if m.inRange pa then (m.poke pa b, .ok) else (m, .outOfRange)

/-- Write `n` bytes one at a time, dropping the statuses. -/
def writeEach (m : GuestMemory) (pa v : Word) : Nat → GuestMemory
  | 0 => m
  | n + 1 => ((writeEach m pa v n).write1 (pa + BitVec.ofNat 64 n) (byteOf v n)).1

/-- Write `n` bytes, `n` one of 2, 4 and 8. -/
def write (m : GuestMemory) (pa v : Word) (n : Nat) : GuestMemory × MemStatus :=
  -- the statuses of the single bytes are dropped
  if crosses pa n then (m.writeEach pa v n, .ok)
  else if m.inRange pa then (m.pokes pa v n, .ok)
  else (m, .outOfRange)

end GuestMemory

/-! ## The lock monitor -/

/-- One CPU's reservation of a line. -/
structure Reservation where
  /-- The reserved line. -/
  pa : Word := 0
  /-- Whether the reservation stands. -/
  valid : Bool := false
  deriving DecidableEq, Repr

/-- The reservations of the four CPUs. -/
abbrev LockMonitor := Fin 4 → Reservation

namespace LockMonitor

/-- The 64-byte line of an address. -/
def line (pa : Word) : Word := pa &&& ~~~0x3F

/-- The monitor slot of a CPU number; numbers from 4 on have none. -/
def slotOf (cpuId : BitVec 32) : Option (Fin 4) :=
  if h : cpuId.toNat < 4 then some ⟨cpuId.toNat, h⟩ else none

/-- No reservations. -/
def empty : LockMonitor := fun _ => {}

/-- LDx_L: reserve the line. -/
def set (m : LockMonitor) (cpuId : BitVec 32) (pa : Word) : LockMonitor :=
  match slotOf cpuId with
  | some i => Function.update m i ⟨line pa, true⟩
  | none => m

/-- STx_C: does the CPU hold the line? -/
def check (m : LockMonitor) (cpuId : BitVec 32) (pa : Word) : Bool :=
  match slotOf cpuId with
  | some i => (m i).valid && (m i).pa == line pa
  | none => false

/-- Drop the CPU's reservation. -/
def clear (m : LockMonitor) (cpuId : BitVec 32) : LockMonitor :=
  match slotOf cpuId with
  | some i => Function.update m i { m i with valid := false }
  | none => m

/-- Drop every reservation of the line of `pa`, except the named CPU's. -/
def clearLine (m : LockMonitor) (pa : Word) (exceptCpu : BitVec 32) : LockMonitor := fun i =>
  if slotOf exceptCpu = some i then m i
  else if (m i).valid && (m i).pa == line pa then { m i with valid := false }
  else m i

end LockMonitor

end EmulatR
