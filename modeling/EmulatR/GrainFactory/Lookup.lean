import EmulatR.GrainFactory.Codegen

/-! # What the decoder looks up

The decoder forms a value from the word and looks it up in the emitted tables; the generator filled
these from the rows. `decode_sound` and `decode_complete` put the two together: the decoder returns
a row iff the row is in the table and is selected, in the words of the decoder's own fields. -/

namespace EmulatR

/-! ## The sub-decode fields -/

namespace DispatchKind

/-- The sub-decode field of a kind, its lowest bit and its width: the widths of the table's schema,
and eleven bits where the sub-table or the schema has the whole function field. -/
def field : DispatchKind → Option (Nat × Nat)
  | intArith | intLogical | intShift | intMul | fpTiExt => some (5, 7)
  | itFp | fltVax | fltIeee | fltLogical => some (5, 11)
  | misc => some (0, 16)
  | jmpClass => some (14, 2)
  | pal => some (0, 26)
  | direct | hwMfpr | hwLd | hwMtpr | hwRei | hwSt | reserved => none

/-- The kinds the decoder looks up by seven bits of an eleven-bit field. -/
def isCutSub : DispatchKind → Bool
  | itFp | fltLogical => true
  | _ => false

/-- The kinds the decoder never looks up. -/
def isUndecoded : DispatchKind → Bool
  | fltVax | reserved => true
  | _ => false

end DispatchKind

/-- The word's sub-decode field for a kind. -/
def subField (k : DispatchKind) (e : Encoded) : Int :=
  match k.field with
  | some (lo, w) => ((e.extractLsb' lo w).toNat : Int)
  | none => 0

/-! ## The buckets of a row -/

section Buckets

variable {r : GrainRow}

/-- A row is in the table of primary opcodes when its kind has no sub-table. -/
theorem direct_mem_bucketKeys {op : Int} :
    BucketKey.direct op ∈ bucketKeys r ↔ r.dispatchKind.isDirect ∧ r.primaryOpcode = op := by
  by_cases hd : r.dispatchKind.isDirect
  · rw [bucketKeys, if_pos hd, List.mem_singleton, BucketKey.direct.injEq]
    exact ⟨fun h => ⟨hd, h.symm⟩, fun h => h.2.symm⟩
  · rw [bucketKeys, if_neg hd]
    split_ifs <;> simp [hd]

/-- A row is in the sub-table of its kind. -/
theorem sub_mem_bucketKeys {k : DispatchKind} {s : Int} :
    BucketKey.sub k s ∈ bucketKeys r ↔
      r.dispatchKind = k ∧ k.subTableSize.isSome ∧ r.sub = s := by
  by_cases hs : r.dispatchKind.subTableSize.isSome
  -- a kind with a sub-table is neither direct nor CALL_PAL
  · have hd : ¬ r.dispatchKind.isDirect := by revert hs; cases r.dispatchKind <;> decide
    have hp : r.dispatchKind ≠ .pal := by rintro h; rw [h] at hs; cases hs
    rw [bucketKeys, if_neg hd, if_neg hp, if_pos hs, List.mem_singleton, BucketKey.sub.injEq]
    constructor
    · rintro ⟨rfl, rfl⟩; exact ⟨rfl, hs, rfl⟩
    · rintro ⟨rfl, -, rfl⟩; exact ⟨rfl, rfl⟩
  · constructor
    · intro h
      rw [bucketKeys, if_neg hs] at h
      split_ifs at h <;> simp at h
    · rintro ⟨rfl, hsome, -⟩; exact absurd hsome hs

/-- The CALL_PAL keys of a row. -/
theorem bucketKeys_of_pal (h : r.dispatchKind = .pal) :
    bucketKeys r = (if r.has .palTru64 then [.palTru64 r.sub] else []) ++
      (if r.has .palVms then [.palVms r.sub] else []) := by
  rw [bucketKeys, if_neg (by rw [h]; decide), if_pos h]

/-- A row is in the Tru64 PAL table when it has that personality. -/
theorem palTru64_mem_bucketKeys {s : Int} :
    BucketKey.palTru64 s ∈ bucketKeys r ↔
      r.dispatchKind = .pal ∧ r.has .palTru64 ∧ r.sub = s := by
  by_cases hp : r.dispatchKind = .pal
  · rw [bucketKeys_of_pal hp, List.mem_append]
    -- four combinations of the two personality flags
    by_cases ht : r.has .palTru64 <;> by_cases hv : r.has .palVms <;>
      simp only [ht, hv, hp, if_true, List.mem_singleton, BucketKey.palTru64.injEq, reduceCtorEq,
        or_false, true_and, List.not_mem_nil, false_and, and_false, eq_comm (a := s),
        Bool.false_eq_true, if_false]
  · rw [bucketKeys, if_neg hp]
    split_ifs <;> simp [hp]

/-- A row is in the VMS PAL table when it has that personality. -/
theorem palVms_mem_bucketKeys {s : Int} :
    BucketKey.palVms s ∈ bucketKeys r ↔
      r.dispatchKind = .pal ∧ r.has .palVms ∧ r.sub = s := by
  by_cases hp : r.dispatchKind = .pal
  · rw [bucketKeys_of_pal hp, List.mem_append]
    by_cases ht : r.has .palTru64 <;> by_cases hv : r.has .palVms <;>
      simp only [ht, hv, hp, if_true, List.mem_singleton, BucketKey.palVms.injEq, reduceCtorEq,
        or_false, false_or, true_and, List.not_mem_nil, false_and, and_false, eq_comm (a := s),
        Bool.false_eq_true, if_false]
  · rw [bucketKeys, if_neg hp]
    split_ifs <;> simp [hp]

end Buckets

/-! ## What the decoder selects -/

/-- The sub-decode value the decoder forms for a kind. -/
def decodeIndex (k : DispatchKind) (e : Encoded) : Nat :=
  if k.isCutSub then (e.extractLsb' 5 7).toNat else (subField k e).toNat

/-- The CALL_PAL flag the decoder looks under. -/
def personalityFlag (palPersonality : BitVec 8) : SemFlag :=
  if palPersonality = 1 then .palVms else .palTru64

/-- Every personality but 1 is Tru64. -/
theorem personalityFlag_of_ne {pp : BitVec 8} (h : pp ≠ 1) : personalityFlag pp = .palTru64 :=
  if_neg h

/-- Personality 1 is VMS. -/
theorem personalityFlag_of_eq {pp : BitVec 8} (h : pp = 1) : personalityFlag pp = .palVms :=
  if_pos h

/-- The row is one the decoder looks for, in the words of the decoder's own fields. -/
def GrainRow.Selected (r : GrainRow) (e : Encoded) (palPersonality : BitVec 8) : Prop :=
  let k := primaryKindMap e.primaryOp
  if k.isDirect then r.dispatchKind.isDirect ∧ r.primaryOpcode = e.primaryOp.toNat
  else ¬ k.isUndecoded ∧ r.dispatchKind = k ∧ r.sub = decodeIndex k e ∧
    (k = .pal → r.has (personalityFlag palPersonality))

/-- A row of an opcode that is the operation is selected by the opcode alone. -/
theorem GrainRow.selected_of_isDirect {r : GrainRow} {e : Encoded} {pp : BitVec 8}
    (hk : (primaryKindMap e.primaryOp).isDirect) (hd : r.dispatchKind.isDirect)
    (hop : r.primaryOpcode = e.primaryOp.toNat) : r.Selected e pp := by
  rw [Selected, if_pos hk]
  exact ⟨hd, hop⟩

/-- A row of a sub-table other than CALL_PAL's is selected by its value. -/
theorem GrainRow.selected_of_sub {r : GrainRow} {e : Encoded} {pp : BitVec 8}
    (hk : ¬ r.dispatchKind.isDirect) (hu : ¬ r.dispatchKind.isUndecoded)
    (hd : primaryKindMap e.primaryOp = r.dispatchKind) (hs : r.sub = decodeIndex r.dispatchKind e)
    (hp : r.dispatchKind ≠ .pal) : r.Selected e pp := by
  rw [Selected, hd, if_neg hk]
  exact ⟨hu, rfl, hs, fun h => absurd h hp⟩

/-- A dispatch gives a row only where the table has it. -/
theorem Dispatch.ofRow_eq_row {dflt : Dispatch} (h : ∀ g, dflt ≠ .row g) {o : Option GrainRow}
    {r : GrainRow} : Dispatch.ofRow dflt o = .row r ↔ o = some r := by
  cases o with
  | none => simp [ofRow, h]
  | some g => simp [ofRow]

/-- The default of a CALL_PAL lookup. -/
def palDefault (hasCallPalDispatch vms : Bool) : Dispatch :=
  if hasCallPalDispatch then .callPal vms else .opcDec

/-- An empty PAL slot gives no row. -/
theorem palDefault_ne_row (has vms : Bool) (g : GrainRow) : palDefault has vms ≠ .row g := by
  cases has <;> simp [palDefault]

/-- The lookups of the decoder, class by class. -/
theorem decode_eq (t : DispatchTables) (e : Encoded) (pp : BitVec 8) :
    decode t e pp =
      if (primaryKindMap e.primaryOp).isDirect then t.direct e.primaryOp
      else if (primaryKindMap e.primaryOp).isUndecoded then .opcDec
      else if primaryKindMap e.primaryOp = .misc then t.misc (decodeIndex .misc e)
      else if primaryKindMap e.primaryOp = .pal then
        (if pp = 1 then t.palVms (decodeIndex .pal e) else t.palTru64 (decodeIndex .pal e))
      else t.subEntry (primaryKindMap e.primaryOp)
        (decodeIndex (primaryKindMap e.primaryOp) e) := by
  rw [decode]
  cases primaryKindMap e.primaryOp <;> rfl

/-- An index the decoder forms is inside the sub-table. -/
theorem subEntry_decodeIndex (t : DispatchTables) {k : DispatchKind} (e : Encoded)
    (hs : k.subTableSize.isSome) (hk : k ≠ .fltVax) :
    t.subEntry k (decodeIndex k e) = t.subTable k (decodeIndex k e) := by
  -- the fields are two, seven and eleven bits wide, the tables 4, 128 and 2048 long
  have h2 := (e.extractLsb' 14 2).isLt
  have h7 := (e.extractLsb' 5 7).isLt
  have h11 := (e.extractLsb' 5 11).isLt
  cases k <;> cases hs <;>
    first
    | exact absurd rfl hk
    | refine if_pos ?_
      simp only [decodeIndex, DispatchKind.isCutSub, subField, DispatchKind.field, if_true,
        Bool.false_eq_true, if_false, Int.toNat_natCast]
      omega

section Tables

variable {hasCallPal : Bool} {rows : List GrainRow} {d : Library.Index BucketKey GrainRow}
  {e : Encoded} {pp : BitVec 8} {r : GrainRow}

/-- The sub-tables of the kinds that are not looked up in another way. -/
theorem subTableSize_isSome {k : DispatchKind} (hd : ¬ k.isDirect) (hu : ¬ k.isUndecoded)
    (hm : k ≠ .misc) (hp : k ≠ .pal) : k.subTableSize.isSome ∧ k ≠ .fltVax := by
  revert hd hu hm hp
  cases k <;> decide

/-- What the decoder finds, as a lookup in the index. -/
theorem decode_tablesOf (has : Bool) (rows : List GrainRow) (d : Library.Index BucketKey GrainRow)
    (e : Encoded) (pp : BitVec 8) :
    decode (tablesOf has rows d) e pp =
      let k := primaryKindMap e.primaryOp
      if k.isDirect then .ofRow .opcDec (d (.direct e.primaryOp.toNat))
      else if k.isUndecoded then .opcDec
      else if k = .misc then
        .ofRow .opcDec (rows.find? fun g => g.dispatchKind = .misc ∧ g.sub = decodeIndex .misc e)
      else if k = .pal then
        (if pp = 1 then .ofRow (palDefault has true) (d (.palVms (decodeIndex .pal e)))
          else .ofRow (palDefault has false) (d (.palTru64 (decodeIndex .pal e))))
      else .ofRow .opcDec (d (.sub k (decodeIndex k e))) := by
  simp only [decode_eq]
  split_ifs with hd hu hm hp
  · rfl
  · rfl
  · rfl
  · rfl
  · rfl
  -- only the dense sub-tables are left
  · obtain ⟨hs, hv⟩ := subTableSize_isSome hd hu hm hp
    rw [subEntry_decodeIndex _ e hs hv]
    rfl

/-- With OPCDEC for an empty slot. -/
theorem ofRow_opcDec_eq_row {o : Option GrainRow} :
    Dispatch.ofRow .opcDec o = .row r ↔ o = some r :=
  Dispatch.ofRow_eq_row (by simp)

/-- With the PAL default for an empty slot. -/
theorem ofRow_palDefault_eq_row {has vms : Bool} {o : Option GrainRow} :
    Dispatch.ofRow (palDefault has vms) o = .row r ↔ o = some r :=
  Dispatch.ofRow_eq_row (palDefault_ne_row has vms)

/-- **Soundness of the lookup.** A row the decoder returns is in the table and selected. -/
theorem decode_sound (hd : Library.buildIndex bucketKeys rows = .ok d)
    (h : decode (tablesOf hasCallPal rows d) e pp = .row r) : r ∈ rows ∧ r.Selected e pp := by
  simp only [decode_tablesOf] at h
  simp only [GrainRow.Selected]
  split_ifs at h ⊢ with hdir hund hmisc hpal hvms
  -- the opcode is the operation
  · rw [ofRow_opcDec_eq_row, Library.mem_of_buildIndex hd, direct_mem_bucketKeys] at h
    exact h
  -- Misc: the first row with the value
  · rw [ofRow_opcDec_eq_row] at h
    have hs := List.find?_some h
    simp only [decide_eq_true_eq] at hs
    rw [hmisc]
    exact ⟨List.mem_of_find?_eq_some h, by simp [DispatchKind.isUndecoded], hs.1, hs.2, nofun⟩
  -- CALL_PAL under OpenVMS, then under Tru64
  · rw [ofRow_palDefault_eq_row, Library.mem_of_buildIndex hd, palVms_mem_bucketKeys] at h
    rw [hpal]
    exact ⟨h.1, by simp [DispatchKind.isUndecoded], h.2.1, h.2.2.2,
      fun _ => by rw [personalityFlag_of_eq hvms]; exact h.2.2.1⟩
  · rw [ofRow_palDefault_eq_row, Library.mem_of_buildIndex hd, palTru64_mem_bucketKeys] at h
    rw [hpal]
    exact ⟨h.1, by simp [DispatchKind.isUndecoded], h.2.1, h.2.2.2,
      fun _ => by rw [personalityFlag_of_ne hvms]; exact h.2.2.1⟩
  -- a dense sub-table
  · rw [ofRow_opcDec_eq_row, Library.mem_of_buildIndex hd, sub_mem_bucketKeys] at h
    exact ⟨h.1, hund, h.2.1, h.2.2.2, fun hp => absurd hp hpal⟩

/-- **Completeness of the lookup.** The decoder returns a selected row, or, among Misc rows, one
with the same value. -/
theorem decode_complete (hasCallPal : Bool) (hd : Library.buildIndex bucketKeys rows = .ok d)
    (hr : r ∈ rows) (h : r.Selected e pp) :
    ∃ s ∈ rows, decode (tablesOf hasCallPal rows d) e pp = .row s ∧
      (s = r ∨ (r.dispatchKind = .misc ∧ s.dispatchKind = .misc ∧ s.sub = r.sub)) := by
  simp only [decode_tablesOf]
  simp only [GrainRow.Selected] at h
  split_ifs at h ⊢ with hdir hund hmisc hpal hvms
  · refine ⟨r, hr, ?_, Or.inl rfl⟩
    rw [ofRow_opcDec_eq_row, Library.mem_of_buildIndex hd, direct_mem_bucketKeys]
    exact ⟨hr, h⟩
  · exact absurd hund h.1
  -- another Misc row may stand before this one, with the same value
  · rw [hmisc] at h
    have hsome : (rows.find? fun g =>
        decide (g.dispatchKind = .misc ∧ g.sub = (decodeIndex .misc e : Int))).isSome :=
      List.find?_isSome.mpr ⟨r, hr, decide_eq_true ⟨h.2.1, h.2.2.1⟩⟩
    obtain ⟨s, hs⟩ := Option.isSome_iff_exists.mp hsome
    have hsel := List.find?_some hs
    simp only [decide_eq_true_eq] at hsel
    exact ⟨s, List.mem_of_find?_eq_some hs, ofRow_opcDec_eq_row.mpr hs,
      Or.inr ⟨h.2.1, hsel.1, hsel.2.trans h.2.2.1.symm⟩⟩
  · refine ⟨r, hr, ?_, Or.inl rfl⟩
    rw [hpal] at h
    rw [ofRow_palDefault_eq_row, Library.mem_of_buildIndex hd, palVms_mem_bucketKeys]
    exact ⟨hr, h.2.1, by rw [← personalityFlag_of_eq hvms]; exact h.2.2.2 rfl, h.2.2.1⟩
  · refine ⟨r, hr, ?_, Or.inl rfl⟩
    rw [hpal] at h
    rw [ofRow_palDefault_eq_row, Library.mem_of_buildIndex hd, palTru64_mem_bucketKeys]
    exact ⟨hr, h.2.1, by rw [← personalityFlag_of_ne hvms]; exact h.2.2.2 rfl, h.2.2.1⟩
  · refine ⟨r, hr, ?_, Or.inl rfl⟩
    rw [ofRow_opcDec_eq_row, Library.mem_of_buildIndex hd, sub_mem_bucketKeys]
    exact ⟨hr, h.2.1, (subTableSize_isSome hdir hund hmisc hpal).1, h.2.2.1⟩

/-- A slot without a row holds its default. -/
theorem ofRow_of_ne_row {dflt : Dispatch} {o : Option GrainRow}
    (h : ∀ r, Dispatch.ofRow dflt o ≠ .row r) : Dispatch.ofRow dflt o = dflt := by
  cases o with
  | none => rfl
  | some g => exact absurd rfl (h g)

/-- Where the decoder returns no row it returns the fallback of the opcode. -/
theorem decode_of_no_row (h : ∀ r, decode (tablesOf hasCallPal rows d) e pp ≠ .row r) :
    decode (tablesOf hasCallPal rows d) e pp =
      if primaryKindMap e.primaryOp = .pal then palDefault hasCallPal (pp = 1) else .opcDec := by
  simp only [decode_tablesOf] at h ⊢
  by_cases hpal : primaryKindMap e.primaryOp = .pal
  -- the default of a CALL_PAL slot depends on the personality
  · have hdir : ¬ (primaryKindMap e.primaryOp).isDirect := by rw [hpal]; decide
    have hund : ¬ (primaryKindMap e.primaryOp).isUndecoded := by rw [hpal]; decide
    have hmisc : primaryKindMap e.primaryOp ≠ .misc := by rw [hpal]; decide
    rw [if_pos hpal]
    simp only [if_neg hdir, if_neg hund, if_neg hmisc, if_pos hpal] at h ⊢
    split_ifs at h ⊢ with hvms
    · rw [ofRow_of_ne_row h, decide_eq_true hvms]
    · rw [ofRow_of_ne_row h, decide_eq_false hvms]
  -- every other slot defaults to OPCDEC
  · rw [if_neg hpal]
    split_ifs at h ⊢
    · exact ofRow_of_ne_row h
    · rfl
    · exact ofRow_of_ne_row h
    · exact ofRow_of_ne_row h

end Tables

/-! ## Kinds and opcodes -/

/-- Opcode 0x18 alone is of the misc kind. -/
theorem primaryKindMap_eq_misc {op : BitVec 6} : primaryKindMap op = .misc ↔ op = 0x18 := by
  revert op; decide

/-- Opcode 0 alone is of the PAL kind. -/
theorem primaryKindMap_eq_pal {op : BitVec 6} : primaryKindMap op = .pal ↔ op = 0 := by
  revert op; decide

/-- The opcode of a kind looked up by a sub-decode value. -/
def DispatchKind.opcode : DispatchKind → Nat
  | pal => 0x00
  | intArith => 0x10
  | intLogical => 0x11
  | intShift => 0x12
  | intMul => 0x13
  | itFp => 0x14
  | fltVax => 0x15
  | fltIeee => 0x16
  | fltLogical => 0x17
  | misc => 0x18
  | jmpClass => 0x1A
  | fpTiExt => 0x1C
  | direct | hwMfpr | hwLd | hwMtpr | hwRei | hwSt | reserved => 0

/-- A kind with a sub-table belongs to one opcode. -/
theorem opcode_primaryKindMap {op : BitVec 6} (hd : ¬ (primaryKindMap op).isDirect)
    (hu : ¬ (primaryKindMap op).isUndecoded) : (primaryKindMap op).opcode = op.toNat := by
  revert op; decide

/-- Each kind the decoder looks up by a sub-decode value has one opcode. -/
theorem primaryKindMap_inj {a b : BitVec 6} (hd : ¬ (primaryKindMap a).isDirect)
    (hu : ¬ (primaryKindMap a).isUndecoded) (h : primaryKindMap a = primaryKindMap b) : a = b := by
  have ha := opcode_primaryKindMap hd hu
  have hb := opcode_primaryKindMap (h ▸ hd) (h ▸ hu)
  exact BitVec.eq_of_toNat_eq (ha.symm.trans ((congrArg DispatchKind.opcode h).trans hb))

/-- A direct kind has no sub-field. -/
theorem DispatchKind.field_eq_none_of_isDirect {k : DispatchKind} (h : k.isDirect) :
    k.field = none := by
  revert h; cases k <;> decide

/-- Every decoded kind with a sub-table has one. -/
theorem DispatchKind.field_isSome {k : DispatchKind} (hd : ¬ k.isDirect) (hu : ¬ k.isUndecoded) :
    k.field.isSome := by
  revert hd hu; cases k <;> decide

/-- Unless it is cut short, the index is the sub-field. -/
theorem decodeIndex_of_not_cut {k : DispatchKind} (h : ¬ k.isCutSub) (e : Encoded) :
    (decodeIndex k e : Int) = subField k e := by
  rw [decodeIndex, if_neg h]
  refine Int.toNat_of_nonneg ?_
  rw [subField]
  split <;> omega

/-- The sub-field is a slice of the word. -/
theorem subField_of_field {k : DispatchKind} {lo w : Nat} (h : k.field = some (lo, w))
    (e : Encoded) : subField k e = (e.extractLsb' lo w).toNat := by
  rw [subField, h]

/-! ## Accepted tables -/

section Accepted

variable {has : Bool} {rows : List GrainRow} {t : DispatchTables}
  {d : Library.Index BucketKey GrainRow}

/-- From the index the tables are emitted as they are. -/
theorem emitDispatchTables_eq (h : Library.buildIndex bucketKeys rows = .ok d) :
    emitDispatchTables has rows = .ok (tablesOf has rows d) := by
  rw [emitDispatchTables, h]
  rfl

/-- The tables of an accepted table come from its index. -/
theorem GenGrainsAccepts.exists_index (h : GenGrainsAccepts has rows t) :
    ∃ d, Library.buildIndex bucketKeys rows = .ok d ∧ t = tablesOf has rows d := by
  have hemit := h.emits
  rw [emitDispatchTables] at hemit
  cases hd : Library.buildIndex bucketKeys rows with
  | error k => rw [hd] at hemit; cases hemit
  | ok d => rw [hd] at hemit; cases hemit; exact ⟨d, rfl, rfl⟩

end Accepted

end EmulatR
