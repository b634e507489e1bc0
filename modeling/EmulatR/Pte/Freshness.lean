import Mathlib.Data.List.TakeWhile
import EmulatR.Pte.NoStale

/-! # What a fill makes a lookup return

A lookup visits the slots of the four probed shards in a fixed order, granularity by granularity and
way by way, and answers from the first live entry that matches. An insert takes the first free way
of its shard, or the round-robin victim, and leaves every other slot alone: an older entry for the
same page is neither sought nor cleared. So a fill is what the next lookup returns only if no older
live entry for the page is visited before the slot the fill takes.

* `scan` is the order of the visit and `answerBefore` the answer found before a given slot.
* `lookup_insert_block_iff` says when a fill is returned for every address of its block.
* `lookup_global_block_iff` says when a global entry that is still in its slot is returned in
  another address space, where the shards probed are hashed from the other ASN. -/

namespace EmulatR

open Library

/-! ## The first match of a list up to a marked element -/

section FirstMatch

variable {α : Type*} [DecidableEq α]

/-- A search that would accept `a` finds what it finds before `a`, and else `a` itself. -/
theorem find?_eq_of_mem {p : α → Bool} {a : α} {l : List α} (hmem : a ∈ l) (hp : p a = true) :
    l.find? p = some (((l.takeWhile (· ≠ a)).find? p).getD a) := by
  induction l with
  | nil => simp at hmem
  | cons b l ih =>
    by_cases hba : b = a
    · subst hba
      simp [hp]
    · have hmem' : a ∈ l := by
        rcases List.mem_cons.mp hmem with h | h
        · exact absurd h.symm hba
        · exact h
      -- `b` is before the mark, so it is tried on both sides
      rw [List.takeWhile_cons_of_pos (by simpa using hba), List.find?_cons, List.find?_cons]
      cases hb : p b with
      | true => rfl
      | false => exact ih hmem'

/-- A search of a list without the mark is the search before the mark. -/
theorem find?_eq_of_notMem {p : α → Bool} {a : α} {l : List α} (hmem : a ∉ l) :
    l.find? p = (l.takeWhile (· ≠ a)).find? p := by
  have hall : l.takeWhile (· ≠ a) = l := by
    rw [List.takeWhile_eq_self_iff]
    intro b hb
    simpa using fun h : b = a => hmem (h ▸ hb)
  rw [hall]

/-- A search before the mark does not depend on what the predicate says at the mark. -/
theorem find?_takeWhile_congr {p q : α → Bool} {a : α} (h : ∀ b, b ≠ a → p b = q b) (l : List α) :
    (l.takeWhile (· ≠ a)).find? p = (l.takeWhile (· ≠ a)).find? q := by
  induction l with
  | nil => rfl
  | cons b l ih =>
    by_cases hba : b = a
    · simp [hba]
    · rw [List.takeWhile_cons_of_pos (by simpa using hba), List.find?_cons, List.find?_cons,
        h b hba, ih]

end FirstMatch

namespace SPAMShardManager

variable {shards ways : Nat} [NeZero shards] [NeZero ways]

/-! ## The order of a lookup -/

/-- A slot of the buffer: its shard and its way. -/
abbrev SlotId (shards ways : Nat) := Fin shards × Fin ways

instance decidableHits (m : SPAMShardManager shards ways) (va asn : Word) (i : Fin shards)
    (w : Fin ways) : Decidable (m.Hits va asn i w) :=
  inferInstanceAs (Decidable (_ ∧ _))

omit [NeZero shards] [NeZero ways] in
/-- The test a bucket scan makes at each slot. -/
theorem decide_hits (m : SPAMShardManager shards ways) (va asn : Word) (i : Fin shards)
    (w : Fin ways) :
    decide (m.Hits va asn i w) = ((m.slot i w).matches (vaToVpn va) asn &&
      (m.slot i w).isLiveUnder m.globalEpoch m.processEpoch) := by
  rw [Bool.eq_iff_iff, decide_eq_true_iff, Bool.and_eq_true]
  rfl

/-- The slots in the order a lookup visits them. -/
def scan (shards ways : Nat) [NeZero shards] (realm : TlbRealm) (va asn : Word) :
    List (SlotId shards ways) :=
  ghProbes.flatMap fun gh =>
    (List.finRange ways).map fun w => (probeShard shards realm va asn gh, w)

omit [NeZero ways] in
/-- A slot is visited iff its shard is one of the four probed. -/
theorem mem_scan_iff {realm : TlbRealm} {va asn : Word} {s : SlotId shards ways} :
    s ∈ scan shards ways realm va asn ↔ ∃ gh, probeShard shards realm va asn gh = s.1 := by
  have hprobes : ∀ gh : BitVec 2, gh ∈ ghProbes := by decide
  simp only [scan, List.mem_flatMap, List.mem_map, List.mem_finRange, true_and]
  constructor
  · rintro ⟨gh, -, w, rfl⟩
    exact ⟨gh, rfl⟩
  · rintro ⟨gh, hgh⟩
    exact ⟨gh, hprobes gh, s.2, by rw [hgh]⟩

omit [NeZero ways] in
/-- A lookup answers from the first slot of the scan that holds a live entry for the address. -/
theorem lookup_eq_scan (m : SPAMShardManager shards ways) (realm : TlbRealm) (va asn : Word) :
    m.lookup realm va asn =
      ((scan shards ways realm va asn).find? fun s => m.Hits va asn s.1 s.2).map
        fun s => (m.slot s.1 s.2).pte := by
  rw [lookup, scan, List.find?_flatMap, List.map_findSome?]
  congr 1
  funext gh
  simp [SPAMBucket.lookup, Function.comp_def, decide_hits, slot]

/-- What a lookup would answer from the slots it visits before `s`. -/
def answerBefore (m : SPAMShardManager shards ways) (s : SlotId shards ways) (realm : TlbRealm)
    (va asn : Word) : Option AlphaPte :=
  (((scan shards ways realm va asn).takeWhile (· ≠ s)).find? fun s => m.Hits va asn s.1 s.2).map
    fun s => (m.slot s.1 s.2).pte

omit [NeZero ways] in
/-- A visited slot that holds a live entry for the address answers unless an earlier one does. -/
theorem lookup_of_visited {m : SPAMShardManager shards ways} {s : SlotId shards ways}
    {realm : TlbRealm} {va asn : Word} (hmem : s ∈ scan shards ways realm va asn)
    (hhit : m.Hits va asn s.1 s.2) :
    m.lookup realm va asn =
      some ((m.answerBefore s realm va asn).getD (m.slot s.1 s.2).pte) := by
  rw [lookup_eq_scan, find?_eq_of_mem hmem (by simpa using hhit), answerBefore, Option.map_some,
    Option.getD_map]

omit [NeZero ways] in
/-- A lookup that does not visit a slot answers as if the scan ended before it. -/
theorem lookup_of_not_visited {m : SPAMShardManager shards ways} {s : SlotId shards ways}
    {realm : TlbRealm} {va asn : Word} (hmem : s ∉ scan shards ways realm va asn) :
    m.lookup realm va asn = m.answerBefore s realm va asn := by
  rw [lookup_eq_scan, find?_eq_of_notMem hmem, answerBefore]

/-! ## A fill and its block -/

/-- The slot a fill takes. -/
def fillSlot (m : SPAMShardManager shards ways) (realm : TlbRealm) (va asn : Word)
    (gh : BitVec 2) : SlotId shards ways :=
  let i := shardIndexOf shards (TlbTag.make (vaToVpn va) asn realm gh)
  (i, (m.buckets i).insertTarget)

/-- The line a fill writes. -/
def fillEntry (m : SPAMShardManager shards ways) (realm : TlbRealm) (va asn : Word)
    (pte : AlphaPte) (gh : BitVec 2) : TlbEntry :=
  TlbEntry.make (TlbTag.make (vaToVpn va) asn realm gh) pte ⟨m.globalEpoch, m.processEpoch⟩

/-- An insert writes its line into the slot it takes and no other slot. -/
theorem slot_insert_eq (m : SPAMShardManager shards ways) (realm : TlbRealm) (va asn : Word)
    (pte : AlphaPte) (gh : BitVec 2) (s : SlotId shards ways) :
    (m.insert realm va asn pte gh).slot s.1 s.2 =
      if s = m.fillSlot realm va asn gh then m.fillEntry realm va asn pte gh
      else m.slot s.1 s.2 := by
  obtain ⟨i, w⟩ := s
  simp only [insert, fillSlot, fillEntry, slot_setBucket, slots_insert, Prod.mk.injEq]
  by_cases hi : i = shardIndexOf shards (TlbTag.make (vaToVpn va) asn realm gh)
  · subst hi
    simp only [if_pos, true_and]
    split_ifs <;> rfl
  · rw [if_neg hi, if_neg fun h => hi h.1]

/-- Two addresses of one block have the same tag. -/
theorem tag_make_of_covers {va va' asn : Word} {realm : TlbRealm} {pte : AlphaPte} {gh : BitVec 2}
    {x : Word} (h : TbMapping.Covers ⟨va, x, pte, gh⟩ va') :
    TlbTag.make (vaToVpn va') asn realm gh = TlbTag.make (vaToVpn va) asn realm gh := by
  rw [TlbTag.make, TlbTag.make, h]

omit [NeZero shards] [NeZero ways] in
/-- A line matches exactly in its block, in its own address space or in all if it is global. -/
theorem matches_fillEntry_iff {m : SPAMShardManager shards ways} {realm : TlbRealm}
    {va va' asn asn' : Word} {pte : AlphaPte} {gh : BitVec 2} :
    (m.fillEntry realm va asn pte gh).matches (vaToVpn va') asn' = true ↔
      TbMapping.Covers ⟨va, asn, pte, gh⟩ va' ∧ TbMapping.Serves ⟨va, asn, pte, gh⟩ asn' :=
  TlbEntry.Holds.matches_iff ⟨rfl, rfl, rfl⟩ rfl va' asn'

/-- The answer before the slot a fill takes is the same before and after the fill. -/
theorem answerBefore_insert (m : SPAMShardManager shards ways) (realm : TlbRealm)
    (va asn va' asn' : Word) (pte : AlphaPte) (gh : BitVec 2) :
    (m.insert realm va asn pte gh).answerBefore (m.fillSlot realm va asn gh) realm va' asn' =
      m.answerBefore (m.fillSlot realm va asn gh) realm va' asn' := by
  -- away from the taken slot nothing has changed, neither the entry nor whether it is live
  have hslot : ∀ s : SlotId shards ways, s ≠ m.fillSlot realm va asn gh →
      (m.insert realm va asn pte gh).slot s.1 s.2 = m.slot s.1 s.2 := by
    intro s hs
    rw [slot_insert_eq, if_neg hs]
  have hhits : ∀ s : SlotId shards ways, s ≠ m.fillSlot realm va asn gh →
      decide ((m.insert realm va asn pte gh).Hits va' asn' s.1 s.2) =
        decide (m.Hits va' asn' s.1 s.2) := by
    intro s hs
    simp only [Hits, hslot s hs]
    rfl
  rw [answerBefore, answerBefore, find?_takeWhile_congr hhits]
  refine Option.map_congr fun s hs => ?_
  have hne : s ≠ m.fillSlot realm va asn gh := by
    have := List.mem_takeWhile_imp (List.mem_of_find?_eq_some hs)
    simpa using this
  rw [hslot s hne]

/-- **A fill is returned for its block iff nothing older answers first.** Right after an insert
every address of the block translates to the new PTE exactly if, for each of these addresses, the
slots visited before the one the fill takes hold no live entry, or first one with the same PTE. -/
theorem lookup_insert_block_iff (m : SPAMShardManager shards ways) (realm : TlbRealm)
    (va asn : Word) (pte : AlphaPte) (gh : BitVec 2) :
    (∀ va', TbMapping.Covers ⟨va, asn, pte, gh⟩ va' →
        (m.insert realm va asn pte gh).lookup realm va' asn = some pte) ↔
      ∀ va', TbMapping.Covers ⟨va, asn, pte, gh⟩ va' →
        ∀ old, m.answerBefore (m.fillSlot realm va asn gh) realm va' asn = some old →
          old = pte := by
  refine forall_congr' fun va' => forall_congr' fun hcov => ?_
  -- the probe of the fill's own granularity visits the slot
  have hmem : m.fillSlot realm va asn gh ∈ scan shards ways realm va' asn := by
    rw [mem_scan_iff]
    exact ⟨gh, by rw [probeShard, tag_make_of_covers hcov]; rfl⟩
  have hslot := m.slot_insert_eq realm va asn pte gh (m.fillSlot realm va asn gh)
  rw [if_pos rfl] at hslot
  have hhit : (m.insert realm va asn pte gh).Hits va' asn (m.fillSlot realm va asn gh).1
      (m.fillSlot realm va asn gh).2 := by
    refine ⟨?_, ?_⟩
    · rw [hslot, matches_fillEntry_iff]
      exact ⟨hcov, Or.inr rfl⟩
    · rw [hslot]
      simp [TlbEntry.isLiveUnder, fillEntry, TlbEntry.make, isEpochLive, insert, setBucket]
  rw [lookup_of_visited hmem hhit, answerBefore_insert, hslot, Option.some.injEq]
  cases hold : m.answerBefore (m.fillSlot realm va asn gh) realm va' asn with
  | none => simp [fillEntry, TlbEntry.make]
  | some old => simp

/-- A block of one page is its page number. -/
theorem vaToVpn_of_covers {va asn va' : Word} {pte : AlphaPte}
    (h : TbMapping.Covers ⟨va, asn, pte, 0⟩ va') : vaToVpn va' = vaToVpn va := by
  have hmask : vpnMaskForGh 0 = BitVec.allOnes 64 := by decide
  rw [TbMapping.Covers, hmask, BitVec.and_allOnes, BitVec.and_allOnes] at h
  exact h

/-- The CPU's buffer with one page in it. -/
def onePage : SPAMShardManager 16 8 :=
  clear.insert .dtb 0x20000 3 (AlphaPte.makeValid 0x100 true false false false false) 0

/-- A page filled beside another page is returned. -/
theorem lookup_insert_block_beside_other :
    onePage.lookup .dtb 0x20000 3 =
        some (AlphaPte.makeValid 0x100 true false false false false) ∧
      ∀ va', TbMapping.Covers ⟨0x10000, 3, AlphaPte.makeValid 0x200 true false false false false,
          0⟩ va' →
        (onePage.insert .dtb 0x10000 3 (AlphaPte.makeValid 0x200 true false false false false)
            0).lookup .dtb va' 3 =
          some (AlphaPte.makeValid 0x200 true false false false false) := by
  refine ⟨by decide +kernel, (lookup_insert_block_iff onePage .dtb 0x10000 3 _ 0).mpr ?_⟩
  intro va' hcov old hold
  -- a scan depends on the address through its page number only
  have hnone : onePage.answerBefore (onePage.fillSlot .dtb 0x10000 3 0) .dtb va' 3 = none := by
    simp only [answerBefore, scan, probeShard, Hits, vaToVpn_of_covers hcov]
    decide +kernel
  rw [hnone] at hold
  exact absurd hold.symm (Option.some_ne_none old)

/-- **A refill does not supersede an older mapping of the page.** In a fresh buffer a page filled
twice keeps translating by its first PTE. -/
theorem refill_shadowed_by_older_mapping :
    ¬ ∀ (ops : List TbOp) (va asn : Word) (pte : AlphaPte) (gh : BitVec 2) (va' : Word),
      TbMapping.Covers ⟨va, asn, pte, gh⟩ va' →
      ((runFrom (TbOp.apply .dtb) (clear : SPAMShardManager 16 8) ops).insert .dtb va asn pte
        gh).lookup .dtb va' asn = some pte := by
  intro h
  have := h [.insert 0x10000 3 (AlphaPte.makeValid 0x100 true false false false false) 0] 0x10000 3
    (AlphaPte.makeValid 0x200 true false false false false) 0 0x10000 rfl
  exact absurd this (by decide +kernel)

/-! ## A global entry in another address space -/

/-- The manager after a fill and further operations on either realm. -/
def afterFill (m : SPAMShardManager shards ways) (realm : TlbRealm) (va asn : Word)
    (pte : AlphaPte) (gh : BitVec 2) (ops : List (TlbRealm × TbOp)) :
    SPAMShardManager shards ways :=
  runFrom (fun m op => op.2.apply op.1 m) (m.insert realm va asn pte gh) ops

/-- The filled line has been neither evicted nor invalidated: it is still in its slot, and live. -/
def Retained (m : SPAMShardManager shards ways) (realm : TlbRealm) (va asn : Word)
    (pte : AlphaPte) (gh : BitVec 2) (ops : List (TlbRealm × TbOp)) : Prop :=
  let m' := m.afterFill realm va asn pte gh ops
  m'.slot (m.fillSlot realm va asn gh).1 (m.fillSlot realm va asn gh).2 =
      m.fillEntry realm va asn pte gh ∧
    (m.fillEntry realm va asn pte gh).isLiveUnder m'.globalEpoch m'.processEpoch = true

instance decidableRetained (m : SPAMShardManager shards ways) (realm : TlbRealm) (va asn : Word)
    (pte : AlphaPte) (gh : BitVec 2) (ops : List (TlbRealm × TbOp)) :
    Decidable (m.Retained realm va asn pte gh ops) :=
  inferInstanceAs (Decidable (_ ∧ _))

/-- **A retained global entry is returned in another address space iff that space probes its
shard.** For each address of the block the slots visited before the entry's must hold no live entry
and one of the four shards probed under ASN `b` must be the entry's own, or else an earlier slot
must answer with the same PTE. -/
theorem lookup_global_block_iff (m : SPAMShardManager shards ways) (realm : TlbRealm)
    (va a b : Word) (pte : AlphaPte) (gh : BitVec 2) (ops : List (TlbRealm × TbOp))
    (hasm : pte.bitASM = true) (hkept : m.Retained realm va a pte gh ops) :
    (∀ va', TbMapping.Covers ⟨va, a, pte, gh⟩ va' →
        (m.afterFill realm va a pte gh ops).lookup realm va' b = some pte) ↔
      ∀ va', TbMapping.Covers ⟨va, a, pte, gh⟩ va' →
        (m.afterFill realm va a pte gh ops).answerBefore (m.fillSlot realm va a gh) realm va' b =
            some pte ∨
          ((m.afterFill realm va a pte gh ops).answerBefore (m.fillSlot realm va a gh) realm va' b =
              none ∧
            ∃ gh', probeShard shards realm va' b gh' =
              shardIndexOf shards (TlbTag.make (vaToVpn va) a realm gh)) := by
  obtain ⟨hslot, hlive⟩ := hkept
  generalize m.afterFill realm va a pte gh ops = m' at hslot hlive ⊢
  refine forall_congr' fun va' => forall_congr' fun hcov => ?_
  by_cases hmem : m.fillSlot realm va a gh ∈ scan shards ways realm va' b
  · -- the slot is visited and its entry matches in every address space
    have hhit : m'.Hits va' b (m.fillSlot realm va a gh).1 (m.fillSlot realm va a gh).2 := by
      refine ⟨?_, ?_⟩
      · rw [hslot, matches_fillEntry_iff]
        exact ⟨hcov, Or.inl hasm⟩
      · rw [hslot]
        exact hlive
    have hprobe := mem_scan_iff.mp hmem
    rw [lookup_of_visited hmem hhit, hslot, Option.some.injEq]
    cases hold : m'.answerBefore (m.fillSlot realm va a gh) realm va' b with
    | none => simpa [fillEntry, TlbEntry.make, fillSlot] using hprobe
    | some old => simp
  · -- no probed shard is the entry's, so only another entry can answer
    have hprobe : ¬ ∃ gh', probeShard shards realm va' b gh' =
        shardIndexOf shards (TlbTag.make (vaToVpn va) a realm gh) :=
      fun h => hmem (mem_scan_iff.mpr h)
    rw [lookup_of_not_visited hmem]
    simp [hprobe]

/-- ASNs 0 and 8 hash to the same shards of the CPU's buffer, so a global page filled under one is
returned under the other, also after fills of other pages and a TBIAP. -/
theorem lookup_global_block_same_shard :
    (clear : SPAMShardManager 16 8).Retained .dtb 0x10000 0
        (AlphaPte.makeValid 0x100 true false false false true) 0
        [(.itb, .insert 0x20000 4 (AlphaPte.makeValid 0x200 true false false false false) 0),
          (.dtb, .tbiap)] ∧
      ∀ va', TbMapping.Covers ⟨0x10000, 0, AlphaPte.makeValid 0x100 true false false false true,
          0⟩ va' →
        ((clear : SPAMShardManager 16 8).afterFill .dtb 0x10000 0
            (AlphaPte.makeValid 0x100 true false false false true) 0
            [(.itb, .insert 0x20000 4 (AlphaPte.makeValid 0x200 true false false false false) 0),
              (.dtb, .tbiap)]).lookup .dtb va' 8 =
          some (AlphaPte.makeValid 0x100 true false false false true) := by
  refine ⟨by decide +kernel,
    (lookup_global_block_iff clear .dtb 0x10000 0 8 _ 0 _ (by decide) (by decide +kernel)).mpr ?_⟩
  intro va' hcov
  -- a scan depends on the address through its page number only
  simp only [answerBefore, scan, probeShard, Hits, vaToVpn_of_covers hcov]
  exact Or.inr (by decide +kernel)

/-- **A global entry is missed under another ASN.** In the CPU's own geometry, an ASM page filled
under ASN 0 and untouched since is not found under ASN 1. -/
theorem global_entry_missed_under_other_asn :
    ¬ ∀ (m : SPAMShardManager 16 8) (va a b : Word) (pte : AlphaPte) (gh : BitVec 2)
      (ops : List (TlbRealm × TbOp)) (va' : Word),
      pte.bitASM = true → m.Retained .dtb va a pte gh ops →
      TbMapping.Covers ⟨va, a, pte, gh⟩ va' →
      (m.afterFill .dtb va a pte gh ops).lookup .dtb va' b = some pte := by
  intro h
  have hfound := h clear 0x10000 0 1 (AlphaPte.makeValid 0x100 true false false false true) 0 []
    0x10000 (by decide) (by decide +kernel) rfl
  exact absurd hfound (by decide +kernel)

end SPAMShardManager

end EmulatR
