import EmulatR.Library.RoundRobin
import EmulatR.Pte.RealmIsolation

/-! # Which slot an insert takes

An insert takes the first slot whose valid flag is down, else the one at the cursor
(pteLib/SPAMBucket.cpp). A TBIA or TBIAP leaves the flags up, so a stale slot is not free to it: the
bucket is a ring (`Library.RoundRobin`) in which only a TBIS frees a slot, and the cursor may come
to a live entry beside stale ones.

* `insertSlots_eq_targets` connects the inserts to the ring: the slots they write are its targets.
* `replacement_iff` says, for every state, when an insert evicts a live entry only as the last
  resort, and when as many inserts as there are ways are resident together after a TBIA. -/

namespace EmulatR

open Library

/-- The arguments of an insert. -/
structure Fill where
  /-- The buffer. -/
  realm : TlbRealm
  /-- An address of the mapped block. -/
  va : Word
  /-- The address space. -/
  asn : Word
  /-- The mapping. -/
  pte : AlphaPte
  /-- The granularity hint. -/
  gh : BitVec 2

/-- The free slots and the cursor, as an insert sees them. -/
def SPAMBucket.ring {ways : Nat} (b : SPAMBucket ways) : RoundRobin ways :=
  ⟨fun w => !(b.slots w).valid, b.replaceCursor⟩

/-- An insert takes the target of the ring. -/
theorem SPAMBucket.insertTarget_eq_target {ways : Nat} [NeZero ways] (b : SPAMBucket ways) :
    b.insertTarget = b.ring.target := rfl

/-- An insert of a filled entry is a fill of the ring. -/
theorem SPAMBucket.ring_insert {ways : Nat} [NeZero ways] (b : SPAMBucket ways) {e : TlbEntry}
    (he : e.valid = true) : (b.insert e).ring = b.ring.fill := by
  rw [ring, RoundRobin.fill, ← insertTarget_eq_target]
  refine congrArg (RoundRobin.mk · (b.replaceCursor + 1)) (funext fun w => ?_)
  simp only [SPAMBucket.insert, Function.update_apply, ring]
  by_cases hw : w = b.insertTarget
  · rw [if_pos hw, if_pos hw, he]
    rfl
  · rw [if_neg hw, if_neg hw]

namespace SPAMShardManager

variable {shards ways : Nat} [NeZero shards] [NeZero ways]

/-! ## A sequence of inserts -/

/-- The bucket a fill goes to. -/
def fillShard (shards : Nat) [NeZero shards] (f : Fill) : Fin shards :=
  shardIndexOf shards (TlbTag.make (vaToVpn f.va) f.asn f.realm f.gh)

/-- The line a fill writes under the epochs of the manager. -/
def lineOf (m : SPAMShardManager shards ways) (f : Fill) : TlbEntry :=
  m.fillEntry f.realm f.va f.asn f.pte f.gh

/-- Insert with the arguments of a fill. -/
def insertFill (m : SPAMShardManager shards ways) (f : Fill) : SPAMShardManager shards ways :=
  m.insert f.realm f.va f.asn f.pte f.gh

/-- A sequence of inserts. -/
def insertFills (m : SPAMShardManager shards ways) (fs : List Fill) :
    SPAMShardManager shards ways :=
  runFrom insertFill m fs

/-- The fills that go to a bucket. -/
def fillsOf (i : Fin shards) (fs : List Fill) : List Fill := fs.filter (fillShard shards · = i)

/-- A fill of the shard itself. -/
theorem fillsOf_cons_self (f : Fill) (fs : List Fill) :
    fillsOf (fillShard shards f) (f :: fs) = f :: fillsOf (fillShard shards f) fs :=
  List.filter_cons_of_pos (decide_eq_true rfl)

/-- A fill of another shard. -/
theorem fillsOf_cons_of_ne {i : Fin shards} {f : Fill} (h : fillShard shards f ≠ i)
    (fs : List Fill) : fillsOf i (f :: fs) = fillsOf i fs :=
  List.filter_cons_of_neg (by simpa using h)

/-- The slots of a bucket that a sequence of inserts writes, in their order. -/
def insertSlots (i : Fin shards) : SPAMShardManager shards ways → List Fill → List (Fin ways)
  | _, [] => []
  | m, f :: fs =>
    if fillShard shards f = i then (m.buckets i).insertTarget :: insertSlots i (m.insertFill f) fs
    else insertSlots i (m.insertFill f) fs

/-- The bucket of the fill, after an insert. -/
theorem buckets_insertFill_self (m : SPAMShardManager shards ways) (f : Fill) :
    (m.insertFill f).buckets (fillShard shards f) =
      (m.buckets (fillShard shards f)).insert (m.lineOf f) :=
  Function.update_self _ _ _

/-- An insert leaves the other buckets alone. -/
theorem buckets_insertFill_of_ne (m : SPAMShardManager shards ways) {f : Fill} {i : Fin shards}
    (h : fillShard shards f ≠ i) : (m.insertFill f).buckets i = m.buckets i :=
  Function.update_of_ne (Ne.symm h) _ _

/-- **The inserts are fills of the ring**: the slots they write are its targets. -/
theorem insertSlots_eq_targets (m : SPAMShardManager shards ways) (i : Fin shards)
    (fs : List Fill) :
    insertSlots i m fs = RoundRobin.targets (fillsOf i fs).length (m.buckets i).ring := by
  induction fs generalizing m with
  | nil => rfl
  | cons f fs ih =>
    rw [insertSlots, ih]
    by_cases hf : fillShard shards f = i
    · subst hf
      rw [if_pos rfl, fillsOf_cons_self, buckets_insertFill_self, SPAMBucket.ring_insert _ rfl,
        List.length_cons, RoundRobin.targets, SPAMBucket.insertTarget_eq_target]
    · rw [if_neg hf, fillsOf_cons_of_ne hf, buckets_insertFill_of_ne m hf]

/-- The slots the inserts do not write stay. -/
theorem slot_insertFills_of_notMem (m : SPAMShardManager shards ways) (i : Fin shards)
    (fs : List Fill) (w : Fin ways) (h : w ∉ insertSlots i m fs) :
    (m.insertFills fs).slot i w = m.slot i w := by
  induction fs generalizing m with
  | nil => rfl
  | cons f fs ih =>
    rw [insertSlots] at h
    by_cases hf : fillShard shards f = i
    · subst hf
      rw [if_pos rfl, List.mem_cons, not_or] at h
      refine (ih _ h.2).trans ?_
      rw [slot, buckets_insertFill_self, slots_insert, if_neg h.1, slot]
    · rw [if_neg hf] at h
      refine (ih _ h).trans ?_
      rw [slot, buckets_insertFill_of_ne m hf, slot]

/-! ## Live entries -/

/-- The slot is filled and survives the bulk invalidations so far. -/
def LiveAt (m : SPAMShardManager shards ways) (i : Fin shards) (w : Fin ways) : Prop :=
  (m.slot i w).valid = true ∧ (m.slot i w).isLiveUnder m.globalEpoch m.processEpoch = true

instance (m : SPAMShardManager shards ways) (i : Fin shards) (w : Fin ways) :
    Decidable (m.LiveAt i w) :=
  inferInstanceAs (Decidable (_ ∧ _))

/-- The insert evicts a live entry only if every slot of the bucket is live. -/
def EvictsLiveLast (m : SPAMShardManager shards ways) (f : Fill) : Prop :=
  m.LiveAt (fillShard shards f) (m.buckets (fillShard shards f)).insertTarget →
    ∀ w, m.LiveAt (fillShard shards f) w

instance (m : SPAMShardManager shards ways) (f : Fill) : Decidable (m.EvictsLiveLast f) :=
  inferInstanceAs (Decidable (_ → _))

/-- The inserts into the bucket write slots that are pairwise different, and in the end each slot
holds the entry written there, live. -/
def AllResident (m : SPAMShardManager shards ways) (i : Fin shards) (fs : List Fill) : Prop :=
  (insertSlots i m fs).Nodup ∧
    ∀ p ∈ (insertSlots i m fs).zip (fillsOf i fs),
      (m.insertFills fs).slot i p.1 = m.lineOf p.2 ∧ (m.insertFills fs).LiveAt i p.1

/-- Inserts into different slots leave their entries there. -/
theorem slot_insertFills_of_nodup (m : SPAMShardManager shards ways) (i : Fin shards)
    (fs : List Fill) (h : (insertSlots i m fs).Nodup) :
    ∀ p ∈ (insertSlots i m fs).zip (fillsOf i fs),
      (m.insertFills fs).slot i p.1 = m.lineOf p.2 := by
  induction fs generalizing m with
  | nil =>
    intro p hp
    exact absurd hp (by simp [insertSlots])
  | cons f fs ih =>
    rw [insertSlots] at h ⊢
    by_cases hf : fillShard shards f = i
    · subst hf
      rw [if_pos rfl, List.nodup_cons] at h
      rw [if_pos rfl, fillsOf_cons_self, List.zip_cons_cons]
      intro p hp
      rcases List.mem_cons.mp hp with rfl | hp
      -- no later insert comes back to the slot
      · refine (slot_insertFills_of_notMem _ _ fs _ h.1).trans ?_
        rw [slot, buckets_insertFill_self, slots_insert, if_pos rfl]
      · exact ih (m.insertFill f) h.2 p hp
    · rw [if_neg hf] at h
      rw [if_neg hf, fillsOf_cons_of_ne hf]
      exact ih (m.insertFill f) h

/-- The inserts leave the epochs. -/
theorem epochs_insertFills (m : SPAMShardManager shards ways) (fs : List Fill) :
    (m.insertFills fs).globalEpoch = m.globalEpoch ∧
      (m.insertFills fs).processEpoch = m.processEpoch := by
  induction fs generalizing m with
  | nil => exact ⟨rfl, rfl⟩
  | cons f fs ih => exact ih (m.insertFill f)

/-- The entries are resident together iff the inserts write different slots. -/
theorem allResident_iff (m : SPAMShardManager shards ways) (i : Fin shards) (fs : List Fill) :
    m.AllResident i fs ↔ (insertSlots i m fs).Nodup := by
  refine ⟨And.left, fun h => ⟨h, fun p hp => ?_⟩⟩
  have hslot := slot_insertFills_of_nodup m i fs h p hp
  refine ⟨hslot, ?_⟩
  -- the stamps are the manager's own epochs
  rw [LiveAt, hslot, (epochs_insertFills m fs).1, (epochs_insertFills m fs).2]
  exact ⟨rfl, by simp [TlbEntry.isLiveUnder, lineOf, fillEntry, TlbEntry.make, isEpochLive]⟩

omit [NeZero shards] [NeZero ways] in
/-- An insert evicts a live entry only where no slot is free and the one at the cursor is live. -/
theorem liveAt_insertTarget_iff (m : SPAMShardManager shards ways) (i : Fin shards) :
    m.LiveAt i (m.buckets i).insertTarget ↔
      (∀ w, (m.slot i w).valid = true) ∧ m.LiveAt i (m.buckets i).replaceCursor := by
  rw [SPAMBucket.insertTarget]
  cases hfind : (List.finRange ways).find? fun w => !((m.buckets i).slots w).valid with
  | none =>
    have hfull : ∀ w, (m.slot i w).valid = true := fun w => by
      simpa [slot] using List.find?_eq_none.mp hfind w (List.mem_finRange w)
    exact (and_iff_right hfull).symm
  | some w =>
    -- a free slot is taken, and a free slot is not live
    have hfree : (m.slot i w).valid = false := by simpa [slot] using List.find?_some hfind
    constructor
    · rintro ⟨hv, -⟩
      exact absurd hv (by simp [hfree])
    · rintro ⟨hfull, -⟩
      exact absurd (hfull w) (by simp [hfree])

/-! ## The condition -/

/-- A slot is free, or the one at the cursor is not live, or every slot is live. -/
def VictimLast (m : SPAMShardManager shards ways) (i : Fin shards) : Prop :=
  (∃ w, (m.slot i w).valid = false) ∨ ¬ m.LiveAt i (m.buckets i).replaceCursor ∨
    ∀ w, m.LiveAt i w

/-- The cursor passes every free slot of the bucket while the free slots last. -/
def FreeAtCursor (m : SPAMShardManager shards ways) (i : Fin shards) : Prop :=
  ∀ w, (m.slot i w).valid = false →
    (w - (m.buckets i).replaceCursor).val <
      ((List.finRange ways).filter fun w => !(m.slot i w).valid).length

/-- **When replacement spares the live entries.** In every state an insert evicts a live entry only
as the last resort iff a slot is free, the cursor is at no live entry or all are live; and after a
TBIA as many inserts into one bucket as it has ways, among any inserts into others, are resident
together iff the cursor passes its free slots while they last. -/
theorem replacement_iff (m : SPAMShardManager shards ways) :
    (∀ f, m.EvictsLiveLast f ↔ m.VictimLast (fillShard shards f)) ∧
      ∀ i fs, (fillsOf i fs).length = ways →
        (m.invalidateAll.AllResident i fs ↔ m.FreeAtCursor i) := by
  refine ⟨fun f => ?_, fun i fs hlen => ?_⟩
  · rw [EvictsLiveLast, liveAt_insertTarget_iff, VictimLast]
    generalize fillShard shards f = i
    by_cases hfull : ∀ w, (m.slot i w).valid = true
    · have hfree : ¬ ∃ w, (m.slot i w).valid = false := by simpa using hfull
      rw [or_iff_right hfree, and_iff_right hfull]
      exact imp_iff_not_or
    · have hfree : ∃ w, (m.slot i w).valid = false := by simpa using hfull
      exact iff_of_true (fun h => absurd h.1 hfull) (Or.inl hfree)
  · rw [allResident_iff, insertSlots_eq_targets, hlen, RoundRobin.nodup_targets_iff]
    refine forall_congr' fun w => ?_
    simp only [SPAMBucket.ring, Bool.not_eq_true']
    rfl

/-- A global mapping, for the runs below. -/
def globalPte : AlphaPte := AlphaPte.makeValid 0x100 true false false false true

/-- A mapping of one process. -/
def processPte : AlphaPte := AlphaPte.makeValid 0x100 true false false false false

/-- Seven mappings of a process and then a global one fill a bucket; after a TBIAP an insert spares
the global one. And in a bucket with three mappings the eight inserts after a TBIA are resident
together. -/
theorem replacement_iff_used :
    (afterOps 16 8 (List.replicate 7 (.dtb, .insert 0x10000 3 processPte 0) ++
        [(.dtb, .insert 0x10000 3 globalPte 0), (.dtb, .tbiap)])).EvictsLiveLast
      ⟨.dtb, 0x10000, 3, processPte, 0⟩ ∧
    (afterOps 16 8 (List.replicate 3 (.dtb, .insert 0x10000 3 processPte 0))).invalidateAll.AllResident
      (fillShard 16 ⟨.dtb, 0x10000, 3, processPte, 0⟩)
      (List.replicate 8 ⟨.dtb, 0x10000, 3, processPte, 0⟩) :=
  ⟨((replacement_iff _).1 _).mpr (by unfold VictimLast; decide +kernel),
    ((replacement_iff _).2 _ _ (by decide +kernel)).mpr (by unfold FreeAtCursor; decide +kernel)⟩

/-- **Replacement does not prefer stale slots.** A global mapping and seven of a process fill a
bucket; after a TBIAP the next insert evicts the global one, the only live entry. And where a TBIS
has freed a slot other than the one at the cursor, the second insert after a TBIA overwrites the
first. -/
theorem insert_evicts_live_beside_stale :
    (¬ ∀ ops f, (afterOps 16 8 ops).EvictsLiveLast f) ∧
      ¬ ∀ ops i fs, (fillsOf i fs).length = 8 →
        (afterOps 16 8 ops).invalidateAll.AllResident i fs := by
  constructor
  · intro h
    refine absurd (h ((.dtb, .insert 0x10000 3 globalPte 0) ::
      List.replicate 7 (.dtb, .insert 0x10000 3 processPte 0) ++ [(.dtb, .tbiap)])
      ⟨.dtb, 0x10000, 3, processPte, 0⟩) ?_
    decide +kernel
  · intro h
    -- the page and its block of eight, then the TBIS of another page of the block
    have hres := h ((.dtb, .insert 0x10000 3 processPte 0) ::
      (.dtb, .insert 0x10000 3 processPte 1) ::
      List.replicate 6 (.dtb, .insert 0x10000 3 processPte 0) ++ [(.dtb, .tbis 0x12000 3)])
      (fillShard 16 ⟨.dtb, 0x10000, 3, processPte, 0⟩)
      (List.replicate 8 ⟨.dtb, 0x10000, 3, processPte, 0⟩) (by decide +kernel)
    rw [allResident_iff] at hres
    revert hres
    decide +kernel

end SPAMShardManager

end EmulatR
