import EmulatR.Library.UniqueIndex
import EmulatR.Pipeline.Driver

/-! # The table generator and the decoder

The instruction table is a list of rows (grainFactoryLib/GrainMasterV4.tsv). The generator
(grainFactoryLib/codegen/genGrains.py) checks the rows, sorts them into buckets, where a key used
twice is an error, and emits dense sub-tables and sparse lookups. The decoder
(pipelineLib/PipelineDriver.h) then selects an entry of the emitted tables by the word's primary
opcode and a sub-decode field of its own.

`GrainRow` is a row, `validate` the check, `emitDispatchTables` the generator and `decode` the
decoder. -/

namespace EmulatR

/-- How the words of a primary opcode are dispatched. -/
inductive DispatchKind
  | direct | intArith | intLogical | intShift | intMul | itFp | fltVax | fltIeee | fltLogical
  | misc | jmpClass | fpTiExt | pal | hwMfpr | hwLd | hwMtpr | hwRei | hwSt | reserved
  deriving DecidableEq, Repr

namespace DispatchKind

/-- The kinds whose primary opcode is the operation (direct_kinds). -/
def isDirect : DispatchKind → Bool
  | direct | hwMfpr | hwLd | hwMtpr | hwRei | hwSt => true
  | _ => false

/-- The kinds with a dense sub-table, and its size (SUBTABLE_SIZES). -/
def subTableSize : DispatchKind → Option Nat
  | intArith | intLogical | intShift | intMul | fltLogical | fpTiExt => some 128
  | itFp | fltVax | fltIeee => some 2048
  | jmpClass => some 4
  | _ => none

end DispatchKind

/-- The kind of each primary opcode (PRIMARY_KIND_MAP). -/
def primaryKindMap (op : BitVec 6) : DispatchKind :=
  match op.toNat with
  | 0x00 => .pal
  | 0x10 => .intArith
  | 0x11 => .intLogical
  | 0x12 => .intShift
  | 0x13 => .intMul
  | 0x14 => .itFp
  | 0x15 => .fltVax
  | 0x16 => .fltIeee
  | 0x17 => .fltLogical
  | 0x18 => .misc
  | 0x19 => .hwMfpr
  | 0x1A => .jmpClass
  | 0x1B => .hwLd
  | 0x1C => .fpTiExt
  | 0x1D => .hwMtpr
  | 0x1E => .hwRei
  | 0x1F => .hwSt
  | n => if n ≤ 0x07 then .reserved else .direct

/-- A row of the instruction table. -/
structure GrainRow where
  /-- The mnemonic. -/
  mnemonic : String
  /-- The primary opcode; the column is an unrestricted integer. -/
  primaryOpcode : Int
  /-- The sub-decode value, an unrestricted integer that may be absent. -/
  subDecode : Option Int
  /-- The dispatch kind. -/
  dispatchKind : DispatchKind
  /-- The semantic flags. -/
  flags : GrainSem
  /-- The leaf the row's name resolves to. -/
  leaf : Leaf
  deriving DecidableEq

namespace GrainRow

/-- The sub-decode value the generator uses; an absent one is zero. -/
def sub (g : GrainRow) : Int := g.subDecode.getD 0

/-- The row has a flag. -/
def has (g : GrainRow) (f : SemFlag) : Bool := g.flags.contains f

/-- The dispatch entry of a row. -/
def entry (g : GrainRow) : GrainEntry := ⟨g.leaf, g.flags⟩

end GrainRow

/-! ## Validation -/

/-- A mutex group of SemanticFlags.tsv: exactly one, or at most one, of its members. -/
structure MutexGroup where
  /-- Exactly one member must be present, not at most one. -/
  exactlyOne : Bool
  /-- The members. -/
  members : List SemFlag

/-- The mutex groups. -/
def mutexGroups : List MutexGroup :=
  [⟨true, [.palFormat, .braFormat, .memFormat, .opFormat, .fpFormat, .hwFormat, .jmpFormat,
      .miscFormat]⟩,
    ⟨false, [.load, .store]⟩,
    ⟨false, [.palEntry, .palExit, .palIntrinsic]⟩,
    ⟨false, [.writesInt, .writesFp]⟩,
    ⟨false, [.iprRead, .iprWrite]⟩]

/-- A row respects a group. -/
def MutexGroup.respectedBy (grp : MutexGroup) (g : GrainRow) : Bool :=
  let present := grp.members.filter g.has
  if grp.exactlyOne then present.length == 1 else present.length ≤ 1

/-- The rows pass validation. -/
def validate (rows : List GrainRow) : Bool :=
  rows.all fun g => mutexGroups.all fun grp => grp.respectedBy g

/-! ## Emission -/

/-- The buckets a row is sorted into. Misc rows are kept in a list of their own, and Reserved rows
are dropped. -/
inductive BucketKey
  /-- A slot of the table of primary opcodes. -/
  | direct (op : Int)
  /-- A slot of a sub-table. -/
  | sub (kind : DispatchKind) (sub : Int)
  /-- A slot of the Tru64 PAL table. -/
  | palTru64 (sub : Int)
  /-- A slot of the VMS PAL table. -/
  | palVms (sub : Int)
  deriving DecidableEq

/-- The keys of a row. -/
def bucketKeys (g : GrainRow) : List BucketKey :=
  if g.dispatchKind.isDirect then [.direct g.primaryOpcode]
  else if g.dispatchKind = .pal then
    -- a row of both personalities stands in both tables
    (if g.has .palTru64 then [.palTru64 g.sub] else []) ++
      (if g.has .palVms then [.palVms g.sub] else [])
  else if g.dispatchKind.subTableSize.isSome then [.sub g.dispatchKind g.sub]
  else []

/-- What a table slot holds. -/
inductive Dispatch
  /-- A row. -/
  | row (g : GrainRow)
  /-- The OPCDEC sentinel. -/
  | opcDec
  /-- The synthetic CALL_PAL dispatcher of a personality. -/
  | callPal (vms : Bool)
  deriving DecidableEq

/-- A row, or else the given default. -/
def Dispatch.ofRow (default : Dispatch) : Option GrainRow → Dispatch
  | some g => .row g
  | none => default

/-- The emitted tables. -/
structure DispatchTables where
  /-- The direct entry of a primary opcode. -/
  direct : BitVec 6 → Dispatch
  /-- The dense sub-tables, by kind and index. -/
  subTable : DispatchKind → Nat → Dispatch
  /-- lookupMisc. -/
  misc : Nat → Dispatch
  /-- lookupPalTru64. -/
  palTru64 : Nat → Dispatch
  /-- lookupPalVms. -/
  palVms : Nat → Dispatch

/-- The tables of an index. The default of the CALL_PAL lookups is the synthetic dispatcher if the
hand-written leaves have it. `lookupMisc` is emitted as a switch with one case for each row, which
compiles only if no two rows share a function code; then the search finds the row of the case. -/
def tablesOf (hasCallPalDispatch : Bool) (rows : List GrainRow)
    (d : Library.Index BucketKey GrainRow) : DispatchTables :=
  { direct := fun op => .ofRow .opcDec (d (.direct op.toNat))
    subTable := fun kind i => .ofRow .opcDec (d (.sub kind i))
    -- the cases of the switch, looked through one by one
    misc := fun func => .ofRow .opcDec (rows.find? fun g => g.dispatchKind = .misc ∧ g.sub = func)
    palTru64 := fun func =>
      .ofRow (if hasCallPalDispatch then .callPal false else .opcDec) (d (.palTru64 func))
    palVms := fun func =>
      .ofRow (if hasCallPalDispatch then .callPal true else .opcDec) (d (.palVms func)) }

/-- Emit the tables, or report a key that appears twice. -/
def emitDispatchTables (hasCallPalDispatch : Bool) (rows : List GrainRow) :
    Except BucketKey DispatchTables :=
  (Library.buildIndex bucketKeys rows).map (tablesOf hasCallPalDispatch rows)

/-- The generator accepts the rows and emits the tables. -/
structure GenGrainsAccepts (hasCallPalDispatch : Bool) (rows : List GrainRow) (t : DispatchTables) :
    Prop where
  /-- Validation reports no error. -/
  valid : validate rows
  /-- Emission reports no error. -/
  emits : emitDispatchTables hasCallPalDispatch rows = .ok t

/-! ## The decoder -/

/-- The slot of a sub-table, if the index is inside it. -/
def DispatchTables.subEntry (t : DispatchTables) (kind : DispatchKind) (i : Nat) : Dispatch :=
  match kind.subTableSize with
  | some size => if i < size then t.subTable kind i else .opcDec
  | none => .opcDec

/-- The decoder: seven bits select within most sub-tables, eleven within FltIeee; a FltVax opcode
has no case and falls through to OPCDEC. -/
def decode (t : DispatchTables) (e : Encoded) (palPersonality : BitVec 8) : Dispatch :=
  match primaryKindMap e.primaryOp with
  | .direct => t.direct e.primaryOp
  | .hwMfpr => t.direct e.primaryOp
  | .hwLd => t.direct e.primaryOp
  | .hwMtpr => t.direct e.primaryOp
  | .hwRei => t.direct e.primaryOp
  | .hwSt => t.direct e.primaryOp
  | .reserved => .opcDec
  | .intArith => t.subEntry .intArith (e.extractLsb' 5 7).toNat
  | .intLogical => t.subEntry .intLogical (e.extractLsb' 5 7).toNat
  | .intShift => t.subEntry .intShift (e.extractLsb' 5 7).toNat
  | .intMul => t.subEntry .intMul (e.extractLsb' 5 7).toNat
  -- ITFP rows have eleven bits, but the decoder cuts them to seven like the others
  | .itFp => t.subEntry .itFp (e.extractLsb' 5 7).toNat
  | .fltLogical => t.subEntry .fltLogical (e.extractLsb' 5 7).toNat
  | .fpTiExt => t.subEntry .fpTiExt (e.extractLsb' 5 7).toNat
  | .fltIeee => t.subEntry .fltIeee (e.extractLsb' 5 11).toNat
  | .jmpClass => t.subEntry .jmpClass (e.extractLsb' 14 2).toNat
  | .misc => t.misc (e.extractLsb' 0 16).toNat
  | .pal =>
    -- any personality but OpenVMS decodes as Tru64
    if palPersonality = 1 then t.palVms (e.extractLsb' 0 26).toNat
    else t.palTru64 (e.extractLsb' 0 26).toNat
  | .fltVax => .opcDec

/-- The entry a slot dispatches to. -/
def Dispatch.entry : Dispatch → GrainEntry
  | row g => g.entry
  | opcDec => ⟨.ordinary .opcDec, [.opcDec]⟩
  | callPal vms =>
    ⟨.pal .callPalDispatch, [.palFormat, .palEntry, .changesPC, .uncond,
      if vms then .palVms else .palTru64]⟩

end EmulatR
