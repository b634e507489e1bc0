import EmulatR.GrainFactory.GrainMaster

/-! # Does the decoder agree with the table?

A row describes the words it is meant for: its primary opcode, its sub-decode value over the whole
field of its kind, and for CALL_PAL the personality. The generator and the decoder split the work of
finding that row, and they do not agree on every field. This module says for which accepted tables
they do: `decodeAgrees_iff`.

`sqrtt_decoded_as_sqrttC` is a word that the decoder takes for another. -/

namespace EmulatR

/-- The PAL personalities. -/
inductive PalPersonality
  | tru64 | openVms | linux
  deriving DecidableEq, Repr

namespace PalPersonality

/-- The number a CPU holds for a personality. -/
def code : PalPersonality → BitVec 8
  | tru64 => 0
  | openVms => 1
  | linux => 2

/-- The flag of a row valid under a personality. -/
def flag : PalPersonality → SemFlag
  | tru64 => .palTru64
  | openVms => .palVms
  | linux => .palLinux

end PalPersonality

/-- The row is the one meant for the word under the personality. -/
structure GrainRow.Matches (r : GrainRow) (e : Encoded) (p : PalPersonality) : Prop where
  /-- The primary opcode agrees. -/
  opcode : r.primaryOpcode = e.primaryOp.toNat
  /-- The sub-decode value agrees with the whole field. -/
  sub : r.dispatchKind.field.isSome → r.sub = subField r.dispatchKind e
  /-- A CALL_PAL row is valid under the personality. -/
  personality : r.dispatchKind = .pal → r.has p.flag

/-- What a word that no row matches decodes to. -/
def fallback (hasCallPalDispatch : Bool) (e : Encoded) (p : PalPersonality) : Dispatch :=
  if e.primaryOp = 0 ∧ hasCallPalDispatch then .callPal (p = .openVms) else .opcDec

/-- **The decoder agrees with the table**: it returns a row exactly for the words the row matches,
the fallback where no row matches, and every row for some word. -/
structure DecodeAgrees (hasCallPalDispatch : Bool) (rows : List GrainRow) (t : DispatchTables) :
    Prop where
  /-- The decoder returns the matching row and no other. -/
  row_iff : ∀ e p r, decode t e (PalPersonality.code p) = .row r ↔ r ∈ rows ∧ r.Matches e p
  /-- A word no row matches gets the fallback. -/
  no_row : ∀ e p, (∀ r ∈ rows, ¬ r.Matches e p) →
    decode t e (PalPersonality.code p) = fallback hasCallPalDispatch e p
  /-- Every row is reachable. -/
  reachable : ∀ r ∈ rows, ∃ e p, decode t e (PalPersonality.code p) = .row r

/-- The row fits the decoder. -/
structure GrainRow.Fits (r : GrainRow) : Prop where
  /-- The opcode is one of the 64 and the decoder dispatches it by the row's kind. -/
  opcode : ∃ op : BitVec 6, r.primaryOpcode = op.toNat ∧
    if r.dispatchKind.isDirect then (primaryKindMap op).isDirect = true
    else primaryKindMap op = r.dispatchKind
  /-- The decoder looks the kind up by its whole field. -/
  decoded : ¬ r.dispatchKind.isCutSub ∧ ¬ r.dispatchKind.isUndecoded
  /-- The sub-decode value fits its field. -/
  sub : ∀ lo w, r.dispatchKind.field = some (lo, w) → 0 ≤ r.sub ∧ r.sub < 2 ^ w
  /-- A CALL_PAL row is valid under some personality, and under Linux iff under Tru64. -/
  personality : r.dispatchKind = .pal →
    (r.has .palTru64 ∨ r.has .palVms) ∧ (r.has .palTru64 ↔ r.has .palLinux)

/-- **The tables the decoder agrees with**: every row fits, and no two Misc rows share a value. -/
structure RowsFit (rows : List GrainRow) : Prop where
  /-- Every row fits. -/
  fits : ∀ r ∈ rows, r.Fits
  /-- Misc rows, which the generator does not check, have different values. -/
  misc_unique : ∀ r ∈ rows, ∀ s ∈ rows, r.dispatchKind = .misc → s.dispatchKind = .misc →
    r.sub = s.sub → r = s

/-! ## Words with a given opcode and field -/

/-- The word of an opcode and the value of a field that starts at bit `lo`. -/
def wordOf (op : BitVec 6) (lo sub : Nat) : Encoded := op ++ BitVec.ofNat 26 (sub <<< lo)

/-- The word made of an opcode and a sub-field has that opcode. -/
theorem primaryOp_wordOf (op : BitVec 6) (lo sub : Nat) : (wordOf op lo sub).primaryOp = op :=
  BitVec.extractLsb'_append_eq_left

/-- The word made of an opcode and a sub-field has that sub-field. -/
theorem extractLsb'_wordOf (op : BitVec 6) {lo w sub : Nat} (hw : lo + w ≤ 26) (hs : sub < 2 ^ w) :
    ((wordOf op lo sub).extractLsb' lo w).toNat = sub := by
  -- the shifted value stays below the opcode
  have hlt : sub <<< lo < 2 ^ 26 := by
    rw [Nat.shiftLeft_eq]
    calc sub * 2 ^ lo < 2 ^ w * 2 ^ lo := Nat.mul_lt_mul_of_pos_right hs (Nat.two_pow_pos lo)
      _ = 2 ^ (lo + w) := by rw [← Nat.pow_add, Nat.add_comm]
      _ ≤ 2 ^ 26 := Nat.pow_le_pow_right (by decide) hw
  rw [wordOf, BitVec.extractLsb'_append_eq_of_add_le hw, BitVec.extractLsb'_toNat,
    BitVec.toNat_ofNat, Nat.mod_eq_of_lt hlt, Nat.shiftLeft_shiftRight, Nat.mod_eq_of_lt hs]

/-- The fields of all kinds lie below the opcode. -/
theorem DispatchKind.field_le {k : DispatchKind} {lo w : Nat} (h : k.field = some (lo, w)) :
    lo + w ≤ 26 := by
  cases k <;> cases h <;> decide

/-- Flipping bit 15 changes an eleven-bit function field, and neither the opcode nor the seven bits
the decoder looks at. -/
theorem flip_bit15 (e : Encoded) :
    (e ^^^ 0x8000#32).extractLsb' 26 6 = e.extractLsb' 26 6 ∧
      (e ^^^ 0x8000#32).extractLsb' 5 7 = e.extractLsb' 5 7 ∧
      (e ^^^ 0x8000#32).extractLsb' 5 11 ≠ e.extractLsb' 5 11 := by
  simp only [BitVec.extractLsb'_xor]
  refine ⟨?_, ?_, ?_⟩
  · rw [show (0x8000#32).extractLsb' 26 6 = 0#6 by decide, BitVec.xor_zero]
  · rw [show (0x8000#32).extractLsb' 5 7 = 0#7 by decide, BitVec.xor_zero]
  · intro h
    have h0 : (0x8000#32).extractLsb' 5 11 = 0#11 := by
      rwa [← BitVec.xor_right_inj (e.extractLsb' 5 11), BitVec.xor_zero]
    exact absurd h0 (by decide)

/-! ## The tables the decoder agrees with -/

section Agreement

variable {has : Bool} {rows : List GrainRow} {t : DispatchTables} {r : GrainRow} {e : Encoded}
  {p : PalPersonality}

/-- For a row that fits, the decoder's own fields and the table's say the same. -/
theorem GrainRow.Fits.selected_iff (hf : r.Fits) : r.Selected e p.code ↔ r.Matches e p := by
  obtain ⟨op, hop, hkind⟩ := hf.opcode
  have hopeq : r.primaryOpcode = e.primaryOp.toNat ↔ op = e.primaryOp := by
    rw [hop, Int.natCast_inj, BitVec.toNat_inj]
  -- a direct kind is found by its opcode alone, every other kind by opcode and field
  by_cases hd : r.dispatchKind.isDirect
  · rw [if_pos hd] at hkind
    have hfield := DispatchKind.field_eq_none_of_isDirect hd
    have hpal : r.dispatchKind ≠ .pal := by intro h; rw [h] at hd; cases hd
    constructor
    · intro hs
      refine ⟨?_, fun h => (by rw [hfield] at h; cases h), fun h => absurd h hpal⟩
      simp only [GrainRow.Selected] at hs
      split_ifs at hs with hk
      · exact hs.2
      · exact absurd (hs.2.1 ▸ hd) hk
    · intro hm
      have : op = e.primaryOp := hopeq.mp hm.opcode
      subst this
      rw [GrainRow.Selected, if_pos hkind]
      exact ⟨hd, hm.opcode⟩
  · rw [if_neg hd] at hkind
    have hsome := DispatchKind.field_isSome hd hf.decoded.2
    -- Linux is looked up where Tru64 is, which the row allows for
    have hflag : r.dispatchKind = .pal → (r.has (personalityFlag p.code) ↔ r.has p.flag) := by
      intro hp
      cases p with
      | tru64 => exact Iff.rfl
      | openVms => exact Iff.rfl
      | linux => exact (hf.personality hp).2
    constructor
    · intro hs
      simp only [GrainRow.Selected] at hs
      split_ifs at hs with hk
      · exact absurd hs.1 hd
      · obtain ⟨-, hrk, hsub, hpers⟩ := hs
        -- a looked-up kind belongs to one opcode only
        have hop' : op = e.primaryOp :=
          primaryKindMap_inj (hkind ▸ hd) (hkind ▸ hf.decoded.2) (hkind.trans hrk)
        rw [← hrk] at hsub hpers
        exact ⟨hopeq.mpr hop', fun _ => hsub.trans (decodeIndex_of_not_cut hf.decoded.1 e),
          fun hp => (hflag hp).mp (hpers hp)⟩
    · intro hm
      have : op = e.primaryOp := hopeq.mp hm.opcode
      subst this
      rw [GrainRow.Selected, hkind, if_neg hd]
      exact ⟨hf.decoded.2, rfl, (hm.sub hsome).trans (decodeIndex_of_not_cut hf.decoded.1 e).symm,
        fun hp => (hflag hp).mpr (hm.personality hp)⟩

/-- A row that fits matches some word under some personality. -/
theorem GrainRow.Fits.exists_matches (hf : r.Fits) : ∃ e p, r.Matches e p := by
  obtain ⟨op, hop, -⟩ := hf.opcode
  obtain ⟨p, hp⟩ : ∃ p : PalPersonality, r.dispatchKind = .pal → r.has p.flag := by
    by_cases hpal : r.dispatchKind = .pal
    · rcases (hf.personality hpal).1 with ht | hv
      · exact ⟨.tru64, fun _ => ht⟩
      · exact ⟨.openVms, fun _ => hv⟩
    · exact ⟨.tru64, fun h => absurd h hpal⟩
  cases hfield : r.dispatchKind.field with
  | none =>
    refine ⟨wordOf op 0 0, p, ?_, fun h => (by rw [hfield] at h; cases h), hp⟩
    rw [primaryOp_wordOf, hop]
  | some lw =>
    obtain ⟨lo, w⟩ := lw
    obtain ⟨hnonneg, hlt⟩ := hf.sub lo w hfield
    refine ⟨wordOf op lo r.sub.toNat, p, by rw [primaryOp_wordOf, hop], fun _ => ?_, hp⟩
    -- the value fits its field, so it is read back from the word
    rw [subField_of_field hfield, extractLsb'_wordOf op (DispatchKind.field_le hfield)
      (by rw [← Int.ofNat_lt, Int.toNat_of_nonneg hnonneg]; exact_mod_cast hlt),
      Int.toNat_of_nonneg hnonneg]

/-- The tables whose rows fit are decoded as the rows say. -/
theorem decodeAgrees_of_rowsFit (hacc : GenGrainsAccepts has rows t) (hfit : RowsFit rows) :
    DecodeAgrees has rows t := by
  obtain ⟨d, hd, rfl⟩ := hacc.exists_index
  have row_iff : ∀ e p r, decode (tablesOf has rows d) e (PalPersonality.code p) = .row r ↔
      r ∈ rows ∧ r.Matches e p := by
    intro e p r
    constructor
    · intro h
      -- what is decoded was put into the tables from a row
      obtain ⟨hr, hs⟩ := decode_sound hd h
      exact ⟨hr, (hfit.fits r hr).selected_iff.mp hs⟩
    · rintro ⟨hr, hm⟩
      obtain ⟨s, hs, hdec, rfl | ⟨hrm, hsm, hsub⟩⟩ :=
        decode_complete has hd hr ((hfit.fits r hr).selected_iff.mpr hm)
      · exact hdec
      -- two Misc rows compete for one slot, and here they are the same row
      · rw [hfit.misc_unique r hr s hs hrm hsm hsub.symm]
        exact hdec
  refine ⟨row_iff, ?_, ?_⟩
  · intro e p hno
    rw [decode_of_no_row fun r h => hno r ((row_iff e p r).mp h).1 ((row_iff e p r).mp h).2]
    have hvms : decide (PalPersonality.code p = 1) = decide (p = .openVms) := by
      cases p <;> rfl
    simp only [primaryKindMap_eq_pal, fallback, palDefault, hvms]
    by_cases ho : e.primaryOp = 0
    · cases has
      · rw [if_pos ho, if_neg (by simp), if_neg (by simp)]
      · rw [if_pos ho, if_pos rfl, if_pos ⟨ho, rfl⟩]
    · rw [if_neg ho, if_neg fun h => ho h.1]
  · intro r hr
    obtain ⟨e, p, hm⟩ := (hfit.fits r hr).exists_matches
    exact ⟨e, p, (row_iff e p r).mpr ⟨hr, hm⟩⟩

/-- A kind looked up by seven bits of its eleven decodes two words with different fields alike. -/
theorem decode_flip_bit15 (t : DispatchTables) (pp : BitVec 8)
    (h : (primaryKindMap e.primaryOp).isCutSub) :
    decode t (e ^^^ 0x8000#32) pp = decode t e pp := by
  have hop : Encoded.primaryOp (e ^^^ 0x8000#32) = e.primaryOp := (flip_bit15 e).1
  rw [decode_eq, decode_eq, hop]
  have hidx : decodeIndex (primaryKindMap e.primaryOp) (e ^^^ 0x8000#32) =
      decodeIndex (primaryKindMap e.primaryOp) e := by
    rw [decodeIndex, if_pos h, decodeIndex, if_pos h, (flip_bit15 e).2.1]
  rw [hidx]
  revert h
  cases primaryKindMap e.primaryOp <;> simp [DispatchKind.isCutSub, DispatchKind.isDirect,
    DispatchKind.isUndecoded]

/-- Bit 15 is in the sub-field of a kind that is cut short. -/
theorem subField_flip_bit15 {k : DispatchKind} (h : k.isCutSub) :
    subField k (e ^^^ 0x8000#32) ≠ subField k e := by
  have hf : k.field = some (5, 11) := by revert h; cases k <;> decide
  rw [subField_of_field hf, subField_of_field hf]
  intro heq
  exact (flip_bit15 e).2.2 (BitVec.toNat_inj.mp (Int.natCast_inj.mp heq))

/-- A row of a table the decoder agrees with fits. -/
theorem DecodeAgrees.fits (hacc : GenGrainsAccepts has rows t) (h : DecodeAgrees has rows t)
    (hr : r ∈ rows) : r.Fits := by
  obtain ⟨d, hd, rfl⟩ := hacc.exists_index
  -- the row is decoded from some word, and everything is read off that word
  obtain ⟨e, p, hdec⟩ := h.reachable r hr
  have hm := ((h.row_iff e p r).mp hdec).2
  have hs := (decode_sound hd hdec).2
  simp only [GrainRow.Selected] at hs
  split_ifs at hs with hk
  · have hfield := DispatchKind.field_eq_none_of_isDirect hs.1
    refine ⟨⟨e.primaryOp, hm.opcode, by rw [if_pos hs.1]; exact hk⟩, ?_, ?_, ?_⟩
    · have hdir := hs.1
      revert hdir
      cases r.dispatchKind <;> decide
    · intro lo w hlw
      rw [hfield] at hlw
      cases hlw
    · intro hpal
      rw [hpal] at hs
      cases hs.1
  · obtain ⟨hu, hrk, hsub, hpers⟩ := hs
    have hnd : ¬ r.dispatchKind.isDirect := hrk ▸ hk
    refine ⟨⟨e.primaryOp, hm.opcode, by rw [if_neg hnd, hrk]⟩, ⟨?_, hrk ▸ hu⟩, ?_, ?_⟩
    · -- The word with bit 15 flipped decodes to the row too, but the row does not match it.
      intro hcut
      have hdec' := (decode_flip_bit15 (tablesOf has rows d) p.code (hrk ▸ hcut)).trans hdec
      have hm' := ((h.row_iff _ p r).mp hdec').2
      have hsome := DispatchKind.field_isSome hnd (hrk ▸ hu)
      exact subField_flip_bit15 hcut ((hm'.sub hsome).symm.trans (hm.sub hsome))
    · intro lo w hlw
      have hlt := (e.extractLsb' lo w).isLt
      rw [hm.sub (by rw [hlw]; rfl), subField_of_field hlw]
      exact ⟨by omega, by exact_mod_cast hlt⟩
    · intro hpal
      rw [← hrk] at hpers
      have hflag := hpers hpal
      refine ⟨?_, ?_, ?_⟩
      · rw [personalityFlag] at hflag
        split_ifs at hflag
        · exact Or.inr hflag
        · exact Or.inl hflag
      · -- Code 2 is looked up where code 0 is, so a Tru64 row is a Linux row.
        intro ht
        have hsel : r.Selected e 0 := by
          rw [GrainRow.Selected, if_neg hk]
          exact ⟨hu, hrk, hsub, fun _ => ht⟩
        obtain ⟨s, -, hdec0, rfl | ⟨hmisc, -⟩⟩ := decode_complete has hd hr hsel
        · have hdec2 : decode (tablesOf has rows d) e (PalPersonality.code .linux) = .row s := by
            rw [← hdec0, decode_eq, decode_eq]; rfl
          exact ((h.row_iff e .linux s).mp hdec2).2.personality hpal
        · rw [hpal] at hmisc; cases hmisc
      · intro hl
        have hml : r.Matches e .linux := ⟨hm.opcode, hm.sub, fun _ => hl⟩
        have hsel := (decode_sound hd ((h.row_iff e .linux r).mpr ⟨hr, hml⟩)).2
        rw [GrainRow.Selected, if_neg hk] at hsel
        exact hsel.2.2.2 (hrk ▸ hpal)

/-- Misc rows of a table the decoder agrees with have different values. -/
theorem DecodeAgrees.misc_unique (hacc : GenGrainsAccepts has rows t)
    (h : DecodeAgrees has rows t) {s : GrainRow} (hr : r ∈ rows) (hs : s ∈ rows)
    (hrm : r.dispatchKind = .misc) (hsm : s.dispatchKind = .misc) (hsub : r.sub = s.sub) :
    r = s := by
  -- every Misc row has the one Misc opcode
  have opcode_of : ∀ {x : GrainRow}, x ∈ rows → x.dispatchKind = .misc →
      x.primaryOpcode = (0x18 : BitVec 6).toNat := by
    intro x hx hxm
    obtain ⟨op, hop, hkind⟩ := (h.fits hacc hx).opcode
    rw [if_neg (by rw [hxm]; decide), hxm, primaryKindMap_eq_misc] at hkind
    rw [hop, hkind]
  obtain ⟨e, p, hdec⟩ := h.reachable r hr
  have hm := ((h.row_iff e p r).mp hdec).2
  -- the word that decodes to `r` matches `s` too
  have hms : s.Matches e p := by
    refine ⟨?_, fun _ => ?_, fun hp => ?_⟩
    · rw [opcode_of hs hsm, ← opcode_of hr hrm, hm.opcode]
    · rw [← hsub, hm.sub (by rw [hrm]; rfl), hrm, hsm]
    · rw [hsm] at hp; cases hp
  exact Dispatch.row.inj (hdec.symm.trans ((h.row_iff e p s).mpr ⟨hs, hms⟩))

/-- **Decode agrees with the table exactly for the rows that fit the decoder.** -/
theorem decodeAgrees_iff (hacc : GenGrainsAccepts has rows t) :
    DecodeAgrees has rows t ↔ RowsFit rows :=
  ⟨fun h => ⟨fun _ hr => h.fits hacc hr, fun _ hr _ hs => h.misc_unique hacc hr hs⟩,
    decodeAgrees_of_rowsFit hacc⟩

end Agreement

/-- The integer rows fit their fields. -/
theorem rowsFit_intArithRows : RowsFit GrainMaster.intArithRows := by
  have hrow : ∀ r ∈ GrainMaster.intArithRows, r.primaryOpcode = 0x10 ∧ r.dispatchKind = .intArith ∧
      0 ≤ r.sub ∧ r.sub < 2 ^ 7 := by decide +kernel
  refine ⟨fun r hr => ?_, fun r hr s _ hrm => ?_⟩
  · obtain ⟨hop, hkind, hsub⟩ := hrow r hr
    refine ⟨⟨0x10, hop, by rw [hkind]; decide⟩, by rw [hkind]; decide, fun lo w hlw => ?_, ?_⟩
    · rw [hkind] at hlw
      cases hlw
      exact hsub
    · rw [hkind]
      nofun
  · rw [(hrow r hr).2.1] at hrm
    cases hrm

/-- The integer arithmetic of the table on its own is decoded as its rows say. -/
theorem decodeAgrees_intArithRows :
    ∃ t, GenGrainsAccepts true GrainMaster.intArithRows t ∧
      DecodeAgrees true GrainMaster.intArithRows t := by
  obtain ⟨d, hd⟩ : ∃ d, Library.buildIndex bucketKeys GrainMaster.intArithRows = .ok d :=
    Library.buildIndex_isOk_of_distinct GrainMaster.keyCode (by decide +kernel)
  have hacc : GenGrainsAccepts true GrainMaster.intArithRows _ :=
    ⟨by decide +kernel, emitDispatchTables_eq hd⟩
  exact ⟨_, hacc, (decodeAgrees_iff hacc).mpr rowsFit_intArithRows⟩

/-- The SQRTT row of the table. -/
def sqrttRow : GrainRow :=
  ⟨"SQRTT", 0x14, some 0x0AB, .itFp, GrainMaster.fpUnFlags, .ordinary (.fpUn .sqrtT)⟩

/-- The SQRTT_C row of the table, seven bits of whose function field are those of SQRTT. -/
def sqrttCRow : GrainRow :=
  ⟨"SQRTT_C", 0x14, some 0x02B, .itFp, GrainMaster.fpUnFlags, .ordinary (.fpUn .sqrtT)⟩

/-- SQRTT and SQRTT/C are rows of the table. -/
theorem mem_rows_sqrtt : sqrttRow ∈ GrainMaster.rows ∧ sqrttCRow ∈ GrainMaster.rows := by
  decide +kernel

/-- The table is accepted, and SQRTT F2,F3 is decoded as SQRTT_C. -/
theorem sqrtt_decoded_as_sqrttC :
    GenGrainsAccepts true GrainMaster.rows GrainMaster.tables ∧
      sqrttRow ∈ GrainMaster.rows ∧ sqrttRow.Matches 0x53E21563#32 .tru64 ∧
      decode GrainMaster.tables 0x53E21563#32 (PalPersonality.code .tru64) = .row sqrttCRow ∧
      ¬ DecodeAgrees true GrainMaster.rows GrainMaster.tables := by
  have hmatch : sqrttRow.Matches 0x53E21563#32 .tru64 := ⟨by decide, fun _ => by decide, nofun⟩
  have hdec : decode GrainMaster.tables 0x53E21563#32 (PalPersonality.code .tru64) =
      .row sqrttCRow := by
    refine GrainMaster.decode_eq_row mem_rows_sqrtt.2 ?_ (by decide)
    unfold GrainRow.Selected
    decide
  refine ⟨GrainMaster.genGrainsAccepts_rows, mem_rows_sqrtt.1, hmatch, hdec, fun h => ?_⟩
  have hdec' := (h.row_iff _ _ _).mpr ⟨mem_rows_sqrtt.1, hmatch⟩
  have hrow := Dispatch.row.inj (hdec.symm.trans hdec')
  exact absurd (congrArg GrainRow.sub hrow) (by decide)

end EmulatR
