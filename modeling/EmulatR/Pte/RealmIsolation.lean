import EmulatR.Pte.Freshness

/-! # One buffer for both realms

The realm of an entry is part of its tag, so that one manager can hold the entries of both the
instruction and the data side. A TBIS respects it. A lookup does not: the match compares page number
and ASN only, and of the key hash the realm reaches bit 17 alone, which the shard mask cuts off. So
both realms probe the same slots and take the first live entry found there, whichever side filled
it.

* `slot_filled` says where the entry of a slot comes from: a fill of the history, in the realm of
  its tag.
* `lookup_isolated_iff` is the exact condition under which a lookup stays in its own realm. -/

namespace EmulatR

open Library

section FirstMatch

variable {α : Type*} [DecidableEq α]

/-- The first match of a list is a `q` iff before every match that is none there is one that is. -/
theorem forall_find?_iff {p : α → Bool} {q : α → Prop} {l : List α} :
    (∀ a, l.find? p = some a → q a) ↔
      ∀ a ∈ l, p a = true → ¬ q a → ∃ b ∈ l.takeWhile (· ≠ a), p b = true ∧ q b := by
  constructor
  · intro h a ha hp hq
    have hfirst := find?_eq_of_mem ha hp
    cases hb : (l.takeWhile (· ≠ a)).find? p with
    | none =>
      rw [hb] at hfirst
      exact absurd (h a hfirst) hq
    | some b =>
      rw [hb] at hfirst
      exact ⟨b, List.mem_of_find?_eq_some hb, List.find?_some hb, h b hfirst⟩
  · intro h a hfind
    by_contra hq
    have hp := List.find?_some hfind
    have hmem := List.mem_of_find?_eq_some hfind
    obtain ⟨b, hb, hpb, -⟩ := h a hmem hp hq
    -- a match before `a` would have been the first
    have hfirst := find?_eq_of_mem hmem hp
    cases hc : (l.takeWhile (· ≠ a)).find? p with
    | none => exact absurd hpb (List.find?_eq_none.mp hc b hb)
    | some c =>
      rw [hc, hfind, Option.getD_some, Option.some.injEq] at hfirst
      have hne := List.mem_takeWhile_imp (List.mem_of_find?_eq_some hc)
      exact absurd hfirst.symm (by simpa using hne)

end FirstMatch

namespace SPAMShardManager

variable {shards ways : Nat} [NeZero shards] [NeZero ways]

/-! ## Histories of both realms -/

/-- The manager after a history of operations on either realm. -/
def afterOps (shards ways : Nat) [NeZero shards] [NeZero ways] (ops : List (TlbRealm × TbOp)) :
    SPAMShardManager shards ways :=
  runFrom (fun m op => op.2.apply op.1 m) clear ops

/-- The entry was filled in the realm by an operation of the history. -/
def FilledIn (ops : List (TlbRealm × TbOp)) (realm : TlbRealm) (e : TlbEntry) : Prop :=
  ∃ va asn pte gh, (realm, TbOp.insert va asn pte gh) ∈ ops ∧
    e.tag = TlbTag.make (vaToVpn va) asn realm gh ∧ e.pte = pte

/-- A fill leaves the realm in the tag. -/
theorem FilledIn.realm_eq {ops : List (TlbRealm × TbOp)} {realm : TlbRealm} {e : TlbEntry}
    (h : FilledIn ops realm e) : e.tag.realm = realm := by
  obtain ⟨va, asn, pte, gh, -, htag, -⟩ := h
  rw [htag]
  rfl

/-- Every filled slot holds a fill of the history, in the realm of its tag. -/
def SlotsFilled (ops : List (TlbRealm × TbOp)) (m : SPAMShardManager shards ways) : Prop :=
  ∀ i w, (m.slot i w).valid = true → FilledIn ops (m.slot i w).tag.realm (m.slot i w)

/-- One operation of the history keeps the slots filled from it. -/
theorem SlotsFilled.apply {ops : List (TlbRealm × TbOp)} {m : SPAMShardManager shards ways}
    (h : SlotsFilled ops m) {realm : TlbRealm} {op : TbOp} (hop : (realm, op) ∈ ops) :
    SlotsFilled ops (op.apply realm m) := by
  intro i w hv
  rcases op.slot_apply realm m i w with he | he | ⟨x, rfl, hx⟩
  · rw [he] at hv ⊢
    exact h i w hv
  · exact absurd hv (by simp [he])
  · rw [hx.tag]
    exact ⟨x.va, x.asn, x.pte, x.gh, hop, hx.tag, hx.pte⟩

/-- **Where an entry comes from.** After any history the entry of a filled slot was filled by an
operation of the history in the realm of its tag. -/
theorem slot_filled (ops : List (TlbRealm × TbOp)) :
    SlotsFilled ops (afterOps shards ways ops) := by
  -- on a part of the history, with the whole of it as the source of the fills
  have hrun : ∀ (done : List (TlbRealm × TbOp)) (m : SPAMShardManager shards ways),
      (∀ op ∈ done, op ∈ ops) → SlotsFilled ops m →
      SlotsFilled ops (runFrom (fun m op => op.2.apply op.1 m) m done) := by
    intro done
    induction done with
    | nil => exact fun m _ h => h
    | cons op done ih =>
      intro m hmem h
      exact ih _ (fun o ho => hmem o (List.mem_cons_of_mem _ ho))
        (h.apply (hmem op List.mem_cons_self))
  refine hrun ops clear (fun _ h => h) ?_
  intro i w hv
  exact absurd hv (by simp)

/-! ## The realm and the lookup -/

/-- The slot a lookup answers from. -/
def answeringSlot (m : SPAMShardManager shards ways) (realm : TlbRealm) (va asn : Word) :
    Option (SlotId shards ways) :=
  (scan shards ways realm va asn).find? fun s => m.Hits va asn s.1 s.2

/-! ## The condition -/

/-- Before every live entry of the other realm for the address the lookup visits one of its own
realm. -/
def OwnFirst (m : SPAMShardManager shards ways) (realm : TlbRealm) (va asn : Word) : Prop :=
  ∀ s ∈ scan shards ways realm va asn, m.Hits va asn s.1 s.2 →
    (m.slot s.1 s.2).tag.realm ≠ realm →
    ∃ t ∈ (scan shards ways realm va asn).takeWhile (· ≠ s),
      m.Hits va asn t.1 t.2 ∧ (m.slot t.1 t.2).tag.realm = realm

/-- The lookup returns nothing that the history filled in the other realm: the slot it answers from
holds a fill of its own realm. -/
def RealmIsolated (shards ways : Nat) [NeZero shards] [NeZero ways]
    (ops : List (TlbRealm × TbOp)) (realm : TlbRealm) (va asn : Word) : Prop :=
  ∀ s, (afterOps shards ways ops).answeringSlot realm va asn = some s →
    FilledIn ops realm ((afterOps shards ways ops).slot s.1 s.2)

/-- **A lookup stays in its realm iff an entry of that realm comes first.** After every history of
operations on both realms, a lookup answers from a fill of its own realm exactly if each live entry
of the other realm for the address comes, in the order of the visit, after a live one of its own. -/
theorem lookup_isolated_iff (ops : List (TlbRealm × TbOp)) (realm : TlbRealm) (va asn : Word) :
    RealmIsolated shards ways ops realm va asn ↔
      (afterOps shards ways ops).OwnFirst realm va asn := by
  have hfilled : SlotsFilled ops (afterOps shards ways ops) := slot_filled ops
  generalize hm : afterOps shards ways ops = m at hfilled
  have hown : (∀ s, m.answeringSlot realm va asn = some s →
      FilledIn ops realm (m.slot s.1 s.2)) ↔
      ∀ s, m.answeringSlot realm va asn = some s → (m.slot s.1 s.2).tag.realm = realm := by
    refine forall_congr' fun s => forall_congr' fun hs => ⟨FilledIn.realm_eq, fun hrealm => ?_⟩
    -- the slot answers, so it is filled, and its tag says by whom
    have hhit : m.Hits va asn s.1 s.2 := by simpa using List.find?_some hs
    have hfill := hfilled s.1 s.2 (TlbEntry.valid_of_matches hhit.1)
    rwa [hrealm] at hfill
  rw [RealmIsolated, hm, hown]
  simp only [answeringSlot, forall_find?_iff, decide_eq_true_eq, OwnFirst, ne_eq]

/-- A data page and then the same page of the instruction realm, in the CPU's own geometry. -/
def dataFirst : List (TlbRealm × TbOp) :=
  [(.dtb, .insert 0x10000 3 (AlphaPte.makeValid 0x100 true false false false false) 0),
    (.itb, .insert 0x10000 3 (AlphaPte.makeValid 0x200 true false false false false) 0)]

/-- The data entry was filled first and is visited first. -/
theorem lookup_isolated_iff_dataFirst : RealmIsolated 16 8 dataFirst .dtb 0x10000 3 := by
  refine (lookup_isolated_iff dataFirst .dtb 0x10000 3).mpr ?_
  unfold OwnFirst
  decide +kernel

/-- **A data lookup returns an instruction entry.** In the CPU's own geometry, a page filled in the
instruction realm alone is found by a lookup in the data realm. -/
theorem dtb_lookup_returns_itb_fill :
    ¬ ∀ (ops : List (TlbRealm × TbOp)) (realm : TlbRealm) (va asn : Word) (pte : AlphaPte),
      (afterOps 16 8 ops).lookup realm va asn = some pte →
      ∃ va' asn' gh, (realm, TbOp.insert va' asn' pte gh) ∈ ops := by
  intro h
  obtain ⟨va', asn', gh, hmem⟩ :=
    h [(.itb, .insert 0x10000 3 (AlphaPte.makeValid 0x100 true false false false false) 0)] .dtb
      0x10000 3 (AlphaPte.makeValid 0x100 true false false false false) (by decide +kernel)
  exact absurd hmem (by simp)

end SPAMShardManager

end EmulatR
