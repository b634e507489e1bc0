import Mathlib.Data.BitVec

/-! # The canonical Alpha page table entry

`AlphaPte` is the in-memory PTE the translation buffers store (pteLib/AlphaPte.h), together with
the two IPR-side layouts that are decoded into it (pteLib/Ev6PteFormat.h). Bit positions are the
architecture's; the PFN occupies bits 63:32. -/

namespace EmulatR

/-- A 64-bit machine word: registers, addresses and IPR values. -/
abbrev Word := BitVec 64

/-- The four processor modes, numbered as the PS current-mode field encodes them. -/
inductive ModePrivilege
  | kernel | executive | supervisor | user
  deriving DecidableEq, Repr

namespace ModePrivilege

/-- The mode a two-bit current-mode field selects. -/
def ofBits (b : BitVec 2) : ModePrivilege :=
  if b = 0 then kernel else if b = 1 then executive else if b = 2 then supervisor else user

/-- The two-bit current-mode field of a mode. -/
def toBits : ModePrivilege → BitVec 2
  | kernel => 0
  | executive => 1
  | supervisor => 2
  | user => 3

end ModePrivilege

/-- A canonical page table entry; only the raw value is stored. -/
structure AlphaPte where
  /-- The 64-bit entry. -/
  raw : Word := 0
  deriving DecidableEq, Repr

namespace AlphaPte

/-- Build a valid mapping with kernel and user enables, as the tests and the boot path do. -/
def makeValid (pfn : Word) (kre kwe ure uwe asmFlag : Bool) : AlphaPte :=
  ⟨1 ||| (if asmFlag then 1 <<< 4 else 0) ||| (if kre then 1 <<< 8 else 0)
    ||| (if kwe then 1 <<< 12 else 0) ||| (if ure then 1 <<< 11 else 0)
    ||| (if uwe then 1 <<< 15 else 0) ||| ((pfn &&& 0xFFFFFFFF) <<< 32)⟩

variable (p : AlphaPte)

/-- Fault on read. -/
def bitFOR : Bool := p.raw.getLsbD 1
/-- Fault on write. -/
def bitFOW : Bool := p.raw.getLsbD 2
/-- Fault on execute. -/
def bitFOE : Bool := p.raw.getLsbD 3
/-- Address space match: the mapping is global. -/
def bitASM : Bool := p.raw.getLsbD 4
/-- The granularity hint, bits 6:5. -/
def gh : BitVec 2 := p.raw.extractLsb' 5 2
/-- The page frame number, bits 63:32. -/
def pfn : Word := (p.raw.extractLsb' 32 32).setWidth 64

/-- The read enable of a mode, KRE, ERE, SRE or URE at bits 8 to 11. -/
def readEnable (m : ModePrivilege) : Bool := p.raw.getLsbD (8 + m.toBits.toNat)

/-- The write enable of a mode, KWE, EWE, SWE or UWE at bits 12 to 15. -/
def writeEnable (m : ModePrivilege) : Bool := p.raw.getLsbD (12 + m.toBits.toNat)

/-- Read permission: FOR vetoes, then the mode's read enable decides. -/
def canRead (m : ModePrivilege) : Bool := !p.bitFOR && p.readEnable m

/-- Write permission: FOW vetoes, then the mode's write enable decides. -/
def canWrite (m : ModePrivilege) : Bool := !p.bitFOW && p.writeEnable m

/-- Execute permission: FOE vetoes; Alpha has no execute enable, so reading must be allowed. -/
def canExecute (m : ModePrivilege) : Bool := !p.bitFOE && p.canRead m

end AlphaPte

/-- Decode a DTB_PTE write: FOR, FOW, ASM, GH and the eight enables, PFN at 62:32. -/
def canonicalFromDtbPte (reg : Word) : AlphaPte :=
  ⟨(reg &&& 0xFF76) ||| (((reg >>> 32) &&& 0xFFFFFFFF) <<< 32) ||| 1⟩

/-- Decode an ITB_PTE write: ASM, GH and the four read enables, PFN at its natural position. -/
def canonicalFromItbPte (reg : Word) : AlphaPte :=
  ⟨(reg &&& 0x0F70) ||| (((reg >>> 13) &&& 0xFFFFFFFF) <<< 32) ||| 1⟩

end EmulatR
