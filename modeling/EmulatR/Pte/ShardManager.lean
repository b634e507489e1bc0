import Mathlib.Logic.Function.Basic
import Mathlib.Data.List.FinRange
import EmulatR.Pte.AlphaPte

/-! # The SPAM translation buffer

A translation buffer is an array of shards, each a small fully associative bucket with round-robin
replacement (pteLib/TlbEntry.h, TlbEpoch.h, SPAMBucket.cpp, SPAMShardManager.cpp). The shard is
chosen by hashing the tag, ASN and granularity hint included. TBIA and TBIAP are lazy: they bump an
epoch counter that a later lookup compares with the epochs stamped into an entry. TBIS is eager: it
scans the shards the four granularities hash to.

Ways and shards are template parameters of the source and stay parameters here; the CPU uses the
`16 × 8` instance for both of its buffers.

`SPAMBucket` is a bucket and `SPAMShardManager` the buffer, with `lookup`, `insert`,
`invalidateAll`, `invalidateAllProcess` and `invalidateSingle`. -/

namespace EmulatR

/-- Which translation buffer an entry belongs to. -/
inductive TlbRealm
  | itb | dtb
  deriving DecidableEq, Repr

/-- The realm's number in the key hash. -/
def TlbRealm.code : TlbRealm → Word
  | itb => 0
  | dtb => 1

/-- The VPN bits that take part in a match under granularity hint `gh`: the low `3·gh` drop out. -/
def vpnMaskForGh (gh : BitVec 2) : Word := ~~~((1 <<< (3 * gh.toNat)) - 1)

/-- The virtual page number of an address (8 KiB pages). -/
def vaToVpn (va : Word) : Word := va >>> 13

/-- The lookup key of a translation buffer line. `gh` ranges over 0..3, the only values the fill
and probe paths pass. -/
structure TlbTag where
  /-- The page number, normalised by the granularity hint. -/
  vpn : Word := 0
  /-- The address space number the entry was filled under. -/
  asn : Word := 0
  /-- The buffer it belongs to. -/
  realm : TlbRealm := .itb
  /-- The granularity hint. -/
  gh : BitVec 2 := 0
  deriving DecidableEq, Repr

/-- The tag constructor: it masks the page number by the granularity hint. -/
def TlbTag.make (vpn asn : Word) (realm : TlbRealm) (gh : BitVec 2) : TlbTag :=
  ⟨vpn &&& vpnMaskForGh gh, asn, realm, gh⟩

/-- The key hash that selects a shard. -/
def tlbKeyHash (tag : TlbTag) : Word :=
  let h := tag.vpn
  let h := h ^^^ (h >>> 21)
  let h := h * 0x9E3779B97F4A7C15
  let h := h ^^^ (tag.asn <<< 1)
  let h := h ^^^ (tag.realm.code <<< 17)
  h ^^^ (tag.gh.setWidth 64 <<< 19)

/-- The epochs stamped into an entry when it is filled. -/
structure TlbEpochSnapshot where
  /-- The TBIA counter at the fill. -/
  globalEpoch : Word := 0
  /-- The TBIAP counter at the fill. -/
  processEpoch : Word := 0
  deriving DecidableEq, Repr

/-- The liveness rule: the global epoch must agree, and the process epoch unless the mapping is
global. -/
def isEpochLive (e : TlbEpochSnapshot) (liveGlobal liveProcess : Word) (asmGlobal : Bool) : Bool :=
  e.globalEpoch == liveGlobal && (asmGlobal || e.processEpoch == liveProcess)

/-- One line of the buffer; the default value is an empty slot. -/
structure TlbEntry where
  /-- The lookup key. -/
  tag : TlbTag := {}
  /-- The mapping. -/
  pte : AlphaPte := {}
  /-- The epochs at the fill. -/
  epochs : TlbEpochSnapshot := {}
  /-- Whether the slot is filled at all. -/
  valid : Bool := false
  /-- The cached ASM bit of the mapping. -/
  asmGlobal : Bool := false
  deriving DecidableEq, Repr

namespace TlbEntry

/-- A filled line. -/
def make (tag : TlbTag) (pte : AlphaPte) (epochs : TlbEpochSnapshot) : TlbEntry :=
  ⟨tag, pte, epochs, true, pte.bitASM⟩

/-- The tag match: the raw page number is masked by the entry's own granularity. -/
def «matches» (e : TlbEntry) (lookupVpn lookupAsn : Word) : Bool :=
  e.valid && (lookupVpn &&& vpnMaskForGh e.tag.gh) == e.tag.vpn &&
    (e.asmGlobal || e.tag.asn == lookupAsn)

/-- The entry survives the bulk invalidations up to the given epochs. -/
def isLiveUnder (e : TlbEntry) (liveGlobal liveProcess : Word) : Bool :=
  isEpochLive e.epochs liveGlobal liveProcess e.asmGlobal

/-- Only a filled slot matches. -/
theorem valid_of_matches {e : TlbEntry} {vpn asn : Word} (h : e.matches vpn asn = true) :
    e.valid = true := by
  simp only [TlbEntry.matches, Bool.and_eq_true] at h
  exact h.1.1

end TlbEntry

/-! ## Buckets -/

/-- One shard: `ways` slots and the round-robin replacement cursor. -/
structure SPAMBucket (ways : Nat) where
  /-- The slots. -/
  slots : Fin ways → TlbEntry
  /-- The next victim when no slot is free. -/
  replaceCursor : Fin ways

namespace SPAMBucket

variable {ways : Nat} [NeZero ways]

/-- An empty bucket, as constructed and as `clear` leaves it. -/
def clear : SPAMBucket ways := ⟨fun _ => {}, 0⟩

/-- Scan the slots in order for a matching, live entry. -/
def lookup (b : SPAMBucket ways) (lookupVpn lookupAsn liveGlobal liveProcess : Word) :
    Option AlphaPte :=
  ((List.finRange ways).find? fun i =>
    (b.slots i).matches lookupVpn lookupAsn && (b.slots i).isLiveUnder liveGlobal liveProcess).map
    fun i => (b.slots i).pte

/-- The slot an insert writes: the first free one, else the round-robin victim. -/
def insertTarget (b : SPAMBucket ways) : Fin ways :=
  ((List.finRange ways).find? fun i => !(b.slots i).valid).getD b.replaceCursor

/-- Fill a slot; the cursor advances on every insert. -/
def insert (b : SPAMBucket ways) (e : TlbEntry) : SPAMBucket ways :=
  ⟨Function.update b.slots b.insertTarget e, b.replaceCursor + 1⟩

/-- Clear every slot that matches in the realm; the scan does not stop at the first. -/
def invalidateMatching (b : SPAMBucket ways) (lookupVpn lookupAsn : Word) (realm : TlbRealm) :
    SPAMBucket ways :=
  { b with slots := fun i =>
      if (b.slots i).valid && (b.slots i).tag.realm == realm
          && (b.slots i).matches lookupVpn lookupAsn
      then {} else b.slots i }

end SPAMBucket

/-! ## The manager -/

/-- The manager: the two epoch counters and the shards. -/
structure SPAMShardManager (shards ways : Nat) where
  /-- Bumped by TBIA. -/
  globalEpoch : Word
  /-- Bumped by TBIAP. -/
  processEpoch : Word
  /-- The shards. -/
  buckets : Fin shards → SPAMBucket ways

/-- The CPU's buffers have sixteen shards. -/
instance neZero_sixteen : NeZero (16 : Nat) := ⟨by decide⟩

/-- The CPU's buffers have eight ways. -/
instance neZero_eight : NeZero (8 : Nat) := ⟨by decide⟩

namespace SPAMShardManager

variable {shards ways : Nat} [NeZero shards] [NeZero ways]

/-- Cold boot: counters at zero, every slot empty. -/
def clear : SPAMShardManager shards ways := ⟨0, 0, fun _ => SPAMBucket.clear⟩

/-- The shard of a tag. `shards` is a power of two, so the mask is the reduction. -/
def shardIndexOf (shards : Nat) [NeZero shards] (tag : TlbTag) : Fin shards :=
  Fin.ofNat shards (tlbKeyHash tag &&& BitVec.ofNat 64 (shards - 1)).toNat

/-- The granularities, in the order the probe loops try them. -/
def ghProbes : List (BitVec 2) := [0, 1, 2, 3]

/-- The shard probed for an address under one granularity. -/
def probeShard (shards : Nat) [NeZero shards] (realm : TlbRealm) (va asn : Word) (gh : BitVec 2) :
    Fin shards :=
  shardIndexOf shards (TlbTag.make (vaToVpn va) asn realm gh)

/-- Look an address up: probe the shard of each granularity with the raw page number. -/
def lookup (m : SPAMShardManager shards ways) (realm : TlbRealm) (va asn : Word) :
    Option AlphaPte :=
  -- the hash takes the granularity in, and the lookup does not know the entry's: all four are tried
  ghProbes.findSome? fun gh =>
    (m.buckets (probeShard shards realm va asn gh)).lookup (vaToVpn va) asn m.globalEpoch
      m.processEpoch

/-- Replace one shard. -/
def setBucket (m : SPAMShardManager shards ways) (i : Fin shards) (b : SPAMBucket ways) :
    SPAMShardManager shards ways :=
  { m with buckets := Function.update m.buckets i b }

/-- Fill an entry stamped with the current epochs, in the shard of its tag. -/
def insert (m : SPAMShardManager shards ways) (realm : TlbRealm) (va asn : Word) (pte : AlphaPte)
    (gh : BitVec 2) : SPAMShardManager shards ways :=
  let tag := TlbTag.make (vaToVpn va) asn realm gh
  let entry := TlbEntry.make tag pte ⟨m.globalEpoch, m.processEpoch⟩
  m.setBucket (shardIndexOf shards tag) ((m.buckets (shardIndexOf shards tag)).insert entry)

/-- TBIA: one bump of the global epoch. -/
def invalidateAll (m : SPAMShardManager shards ways) : SPAMShardManager shards ways :=
  { m with globalEpoch := m.globalEpoch + 1 }

/-- TBIAP: one bump of the process epoch; global mappings survive. -/
def invalidateAllProcess (m : SPAMShardManager shards ways) : SPAMShardManager shards ways :=
  { m with processEpoch := m.processEpoch + 1 }

/-- One iteration of the TBIS loop. -/
def invalidateProbe (realm : TlbRealm) (va asn : Word) (m : SPAMShardManager shards ways)
    (gh : BitVec 2) : SPAMShardManager shards ways :=
  m.setBucket (probeShard shards realm va asn gh)
    ((m.buckets (probeShard shards realm va asn gh)).invalidateMatching (vaToVpn va) asn realm)

/-- TBIS: invalidate every matching slot of the four probed shards. -/
def invalidateSingle (m : SPAMShardManager shards ways) (realm : TlbRealm) (va asn : Word) :
    SPAMShardManager shards ways :=
  ghProbes.foldl (invalidateProbe realm va asn) m

/-! ## What the operations do to a slot -/

/-- The entry in a slot. -/
def slot (m : SPAMShardManager shards ways) (i : Fin shards) (w : Fin ways) : TlbEntry :=
  (m.buckets i).slots w

omit [NeZero shards] in
/-- A cleared manager has empty slots. -/
@[simp] theorem slot_clear (i : Fin shards) (w : Fin ways) :
    (clear : SPAMShardManager shards ways).slot i w = {} := rfl

omit [NeZero shards] [NeZero ways] in
/-- Replacing a bucket changes its own slots. -/
theorem slot_setBucket (m : SPAMShardManager shards ways) (j : Fin shards) (b : SPAMBucket ways)
    (i : Fin shards) (w : Fin ways) :
    (m.setBucket j b).slot i w = if i = j then b.slots w else m.slot i w := by
  simp only [slot, setBucket, Function.update_apply]
  split_ifs <;> rfl

/-- A bucket insert writes one slot. -/
theorem slots_insert (b : SPAMBucket ways) (e : TlbEntry) (w : Fin ways) :
    (b.insert e).slots w = if w = b.insertTarget then e else b.slots w := by
  simp only [SPAMBucket.insert, Function.update_apply]

omit [NeZero ways] in
/-- A bucket scan empties the matching slots of the realm. -/
theorem slots_invalidateMatching (b : SPAMBucket ways) (vpn asn : Word) (realm : TlbRealm)
    (w : Fin ways) :
    (b.invalidateMatching vpn asn realm).slots w =
      if (b.slots w).tag.realm = realm ∧ (b.slots w).matches vpn asn = true then {}
      else b.slots w := by
  -- the scan tests `valid` apart, but a match needs it anyway
  have hvalid : (b.slots w).matches vpn asn = true → (b.slots w).valid = true :=
    TlbEntry.valid_of_matches
  simp only [SPAMBucket.invalidateMatching, Bool.and_eq_true, beq_iff_eq]
  by_cases h : (b.slots w).tag.realm = realm ∧ (b.slots w).matches vpn asn = true
  · rw [if_pos h, if_pos ⟨⟨hvalid h.2, h.1⟩, h.2⟩]
  · rw [if_neg h, if_neg fun h' => h ⟨h'.1.2, h'.2⟩]

/-- An insert leaves each slot as it was, or it is the filled slot, in the shard of the new tag. -/
theorem slot_insert (m : SPAMShardManager shards ways) (realm : TlbRealm) (va asn : Word)
    (pte : AlphaPte) (gh : BitVec 2) (i : Fin shards) (w : Fin ways) :
    (m.insert realm va asn pte gh).slot i w = m.slot i w ∨
      (i = shardIndexOf shards (TlbTag.make (vaToVpn va) asn realm gh) ∧
        (m.insert realm va asn pte gh).slot i w
          = TlbEntry.make (TlbTag.make (vaToVpn va) asn realm gh) pte
              ⟨m.globalEpoch, m.processEpoch⟩) := by
  rw [insert]
  generalize TlbTag.make (vaToVpn va) asn realm gh = tag
  generalize shardIndexOf shards tag = j
  rw [slot_setBucket]
  by_cases hi : i = j
  · subst hi
    rw [if_pos rfl, slots_insert]
    -- in the shard of the tag only the target is written
    by_cases hw : w = (m.buckets i).insertTarget
    · exact Or.inr ⟨rfl, if_pos hw⟩
    · exact Or.inl (if_neg hw)
  · exact Or.inl (if_neg hi)

omit [NeZero ways] in
/-- One TBIS probe empties the matching slots of its shard and leaves every other slot alone. -/
theorem slot_invalidateProbe (realm : TlbRealm) (va asn : Word)
    (m : SPAMShardManager shards ways) (gh : BitVec 2) (i : Fin shards) (w : Fin ways) :
    (invalidateProbe realm va asn m gh).slot i w =
      if i = probeShard shards realm va asn gh ∧ (m.slot i w).tag.realm = realm ∧
          (m.slot i w).matches (vaToVpn va) asn = true
      then {} else m.slot i w := by
  rw [invalidateProbe]
  generalize probeShard shards realm va asn gh = j
  rw [slot_setBucket, slots_invalidateMatching]
  by_cases hi : i = j
  · subst hi
    rw [if_pos rfl, slot]
    by_cases hc : ((m.buckets i).slots w).tag.realm = realm ∧
        ((m.buckets i).slots w).matches (vaToVpn va) asn = true
    · rw [if_pos hc, if_pos ⟨rfl, hc⟩]
    · rw [if_neg hc, if_neg fun h => hc h.2]
  · rw [if_neg hi, if_neg fun h => hi h.1]

omit [NeZero ways] in
/-- A slot after any prefix of the TBIS loop: empty, or untouched and then not one of the matching
slots of the shards probed so far. -/
theorem slot_foldl_invalidateProbe (realm : TlbRealm) (va asn : Word)
    (m : SPAMShardManager shards ways) (ghs : List (BitVec 2)) (i : Fin shards) (w : Fin ways) :
    (ghs.foldl (invalidateProbe realm va asn) m).slot i w = {} ∨
      ((ghs.foldl (invalidateProbe realm va asn) m).slot i w = m.slot i w ∧
        ∀ gh ∈ ghs, ¬ (i = probeShard shards realm va asn gh ∧ (m.slot i w).tag.realm = realm ∧
          (m.slot i w).matches (vaToVpn va) asn = true)) := by
  -- on the probes still to come: once a slot is empty no probe fills it again
  induction ghs generalizing m with
  | nil => right; simp
  | cons gh ghs ih =>
    rw [List.foldl_cons]
    have hprobe := slot_invalidateProbe realm va asn m gh i w
    rcases ih (invalidateProbe realm va asn m gh) with h | ⟨h, hrest⟩
    · exact Or.inl h
    · split_ifs at hprobe with hc
      · left; rw [h, hprobe]
      · right
        refine ⟨by rw [h, hprobe], ?_⟩
        rw [hprobe] at hrest
        intro g hg
        rcases List.mem_cons.mp hg with rfl | hg
        · exact hc
        · exact hrest g hg

omit [NeZero ways] in
/-- The probes of a TBIS leave the epochs alone. -/
theorem epochs_foldl_invalidateProbe (realm : TlbRealm) (va asn : Word)
    (m : SPAMShardManager shards ways) (ghs : List (BitVec 2)) :
    (ghs.foldl (invalidateProbe realm va asn) m).globalEpoch = m.globalEpoch ∧
      (ghs.foldl (invalidateProbe realm va asn) m).processEpoch = m.processEpoch := by
  induction ghs generalizing m with
  | nil => exact ⟨rfl, rfl⟩
  | cons gh ghs ih => exact ih (invalidateProbe realm va asn m gh)

omit [NeZero ways] in
/-- A hit comes from a slot that matches and is live, and the returned PTE is that slot's. -/
theorem exists_slot_of_lookup {m : SPAMShardManager shards ways} {realm : TlbRealm} {va asn : Word}
    {pte : AlphaPte} (h : m.lookup realm va asn = some pte) :
    ∃ i w, (m.slot i w).matches (vaToVpn va) asn = true ∧
      (m.slot i w).isLiveUnder m.globalEpoch m.processEpoch = true ∧ (m.slot i w).pte = pte := by
  -- the probe that answered, and in its bucket the first slot that passed
  obtain ⟨-, gh, -, -, hb, -⟩ := List.findSome?_eq_some_iff.mp h
  obtain ⟨w, hw, rfl⟩ := Option.map_eq_some_iff.mp hb
  have hp := List.find?_some hw
  rw [Bool.and_eq_true] at hp
  exact ⟨_, w, hp.1, hp.2, rfl⟩

/-- A slot holds a live entry for an address. -/
def Hits (m : SPAMShardManager shards ways) (va asn : Word) (i : Fin shards) (w : Fin ways) :
    Prop :=
  (m.slot i w).matches (vaToVpn va) asn = true ∧
    (m.slot i w).isLiveUnder m.globalEpoch m.processEpoch = true

omit [NeZero ways] in
/-- A lookup misses iff no slot of the four probed shards holds a live entry for the address. -/
theorem lookup_eq_none_iff {m : SPAMShardManager shards ways} {realm : TlbRealm} {va asn : Word} :
    m.lookup realm va asn = none ↔
      ∀ gh w, ¬ m.Hits va asn (probeShard shards realm va asn gh) w := by
  have hprobes : ∀ gh : BitVec 2, gh ∈ ghProbes := by decide
  simp only [lookup, List.findSome?_eq_none_iff, SPAMBucket.lookup, Option.map_eq_none_iff,
    List.find?_eq_none, Bool.and_eq_true]
  constructor
  · intro h gh w
    exact h gh (hprobes gh) w (List.mem_finRange w)
  · intro h gh _ w _
    exact h gh w

/-- An insert does fill a slot of the shard of its tag. -/
theorem exists_slot_insert (m : SPAMShardManager shards ways) (realm : TlbRealm) (va asn : Word)
    (pte : AlphaPte) (gh : BitVec 2) :
    ∃ w, (m.insert realm va asn pte gh).slot
        (shardIndexOf shards (TlbTag.make (vaToVpn va) asn realm gh)) w =
      TlbEntry.make (TlbTag.make (vaToVpn va) asn realm gh) pte
        ⟨m.globalEpoch, m.processEpoch⟩ := by
  rw [insert]
  refine ⟨(m.buckets (shardIndexOf shards
    (TlbTag.make (vaToVpn va) asn realm gh))).insertTarget, ?_⟩
  rw [slot_setBucket, if_pos rfl, slots_insert, if_pos rfl]

/-- The new entry answers for its address in its own address space, and in every other if it is
global. -/
theorem matches_make_iff {va asn asn' : Word} {realm : TlbRealm} {gh : BitVec 2} {pte : AlphaPte}
    {epochs : TlbEpochSnapshot} :
    (TlbEntry.make (TlbTag.make (vaToVpn va) asn realm gh) pte epochs).matches (vaToVpn va) asn' =
      true ↔ pte.bitASM = true ∨ asn = asn' := by
  simp [TlbEntry.matches, TlbEntry.make, TlbTag.make]

/-- The slot an insert fills hits in every address space the new entry answers for. -/
theorem exists_hits_insert (m : SPAMShardManager shards ways) (realm : TlbRealm)
    (va asn asn' : Word) (pte : AlphaPte) (gh : BitVec 2) (h : pte.bitASM = true ∨ asn = asn') :
    ∃ w, (m.insert realm va asn pte gh).Hits va asn'
      (shardIndexOf shards (TlbTag.make (vaToVpn va) asn realm gh)) w := by
  obtain ⟨w, hw⟩ := exists_slot_insert m realm va asn pte gh
  refine ⟨w, ?_, ?_⟩
  · rw [hw, matches_make_iff]
    exact h
  -- the stamps are the manager's own epochs
  · rw [hw]
    simp [TlbEntry.isLiveUnder, TlbEntry.make, isEpochLive, insert, setBucket]

/-- **What an insert makes of a miss.** An address that missed is found after an insert of its page
iff the new entry answers for the address space of the lookup and is in one of the shards that the
lookup probes. -/
theorem lookup_insert_ne_none_iff {m : SPAMShardManager shards ways} {realm : TlbRealm}
    {va asn asn' : Word} {pte : AlphaPte} {gh : BitVec 2}
    (hmiss : m.lookup realm va asn' = none) :
    (m.insert realm va asn pte gh).lookup realm va asn' ≠ none ↔
      asn = asn' ∨ (pte.bitASM = true ∧
        ∃ gh', shardIndexOf shards (TlbTag.make (vaToVpn va) asn realm gh) =
          probeShard shards realm va asn' gh') := by
  rw [lookup_eq_none_iff] at hmiss
  rw [ne_eq, lookup_eq_none_iff]
  push Not
  constructor
  · rintro ⟨gh', w, hmatch, hlive⟩
    -- an old entry would have hit before, so it is the new one
    rcases slot_insert m realm va asn pte gh (probeShard shards realm va asn' gh') w with
      hold | ⟨hshard, hnew⟩
    · rw [hold] at hmatch hlive
      exact absurd ⟨hmatch, hlive⟩ (hmiss gh' w)
    · rw [hnew, matches_make_iff] at hmatch
      rcases hmatch with hasm | rfl
      · exact Or.inr ⟨hasm, gh', hshard.symm⟩
      · exact Or.inl rfl
  · rintro (rfl | ⟨hasm, gh', hshard⟩)
    · exact ⟨gh, exists_hits_insert m realm va asn asn pte gh (Or.inr rfl)⟩
    · obtain ⟨w, hw⟩ := exists_hits_insert m realm va asn asn' pte gh (Or.inl hasm)
      rw [hshard] at hw
      exact ⟨gh', w, hw⟩

/-- An insert in the address space of the lookup is always found. -/
theorem lookup_insert_self (m : SPAMShardManager shards ways) (realm : TlbRealm) (va asn : Word)
    (pte : AlphaPte) (gh : BitVec 2) :
    (m.insert realm va asn pte gh).lookup realm va asn ≠ none := by
  obtain ⟨w, hw⟩ := exists_hits_insert m realm va asn asn pte gh (Or.inr rfl)
  rw [ne_eq, lookup_eq_none_iff]
  exact fun hmiss => hmiss gh w hw

end SPAMShardManager

end EmulatR
