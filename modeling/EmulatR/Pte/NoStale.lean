import EmulatR.Library.Run
import EmulatR.Pte.ShardManager

/-! # Invalidation leaves no stale translation

What a translation buffer is for: after any history of fills and invalidations, a hit returns a
mapping that was filled for the address and that nothing has invalidated since. The abstract buffer
is the ledger `tbLedger` of fills and invalidations, which neither evicts nor hashes; the manager
simulates it (`Simulates`), every live slot being one of the abstract mappings.

The simulation needs one condition on each TBIS. The shard index hashes the ASN, and TBIS probes
only the shards of the ASN it is given, so an ASM mapping filled under another ASN is found only if
it happens to live in one of those shards. `TbOp.Reaches` is that condition, and
`tbis_under_other_asn_misses_global` is a run in which it fails.

`noStaleTranslation_of_reaches` is the result over runs. -/

namespace EmulatR

open Library

/-- The operations on one realm of a translation buffer. -/
inductive TbOp
  /-- A fill. -/
  | insert (va asn : Word) (pte : AlphaPte) (gh : BitVec 2)
  /-- Invalidate all. -/
  | tbia
  /-- Invalidate all of the process: mappings without ASM. -/
  | tbiap
  /-- Invalidate a single address. -/
  | tbis (va asn : Word)
  /-- Cold boot. -/
  | clear
  deriving DecidableEq

namespace TbOp

variable {shards ways : Nat} [NeZero shards] [NeZero ways]

/-- Run one operation on the manager. -/
def apply (realm : TlbRealm) (m : SPAMShardManager shards ways) :
    TbOp → SPAMShardManager shards ways
  | insert va asn pte gh => m.insert realm va asn pte gh
  | tbia => m.invalidateAll
  | tbiap => m.invalidateAllProcess
  | tbis va asn => m.invalidateSingle realm va asn
  | clear => SPAMShardManager.clear

/-- Whether an operation reaches every entry it names. A TBIS must find each live matching slot in
one of the four shards it probes; a bulk invalidation must not wrap its epoch counter. -/
def Reaches (realm : TlbRealm) (m : SPAMShardManager shards ways) : TbOp → Prop
  | tbis va asn => ∀ i w, (m.slot i w).matches (vaToVpn va) asn = true →
      (m.slot i w).isLiveUnder m.globalEpoch m.processEpoch = true →
      ∃ gh ∈ SPAMShardManager.ghProbes, i = SPAMShardManager.probeShard shards realm va asn gh
  | tbia => m.globalEpoch ≠ BitVec.allOnes 64
  | tbiap => m.processEpoch ≠ BitVec.allOnes 64
  | insert .. => True
  | clear => True

instance (realm : TlbRealm) (m : SPAMShardManager shards ways) (op : TbOp) :
    Decidable (op.Reaches realm m) := by
  cases op <;> unfold Reaches <;> infer_instance

end TbOp

/-! ## The abstract buffer -/

/-- A mapping as it was filled. -/
structure TbMapping where
  /-- An address of the mapped block. -/
  va : Word
  /-- The address space it was filled under. -/
  asn : Word
  /-- The page table entry. -/
  pte : AlphaPte
  /-- The granularity of the block. -/
  gh : BitVec 2
  deriving DecidableEq

namespace TbMapping

/-- The address lies in the mapped block: page numbers agree under the mapping's granularity. -/
def Covers (x : TbMapping) (va : Word) : Prop :=
  vaToVpn va &&& vpnMaskForGh x.gh = vaToVpn x.va &&& vpnMaskForGh x.gh

/-- The mapping serves an address space: it is global or was filled under that ASN. -/
def Serves (x : TbMapping) (asn : Word) : Prop := x.pte.bitASM = true ∨ x.asn = asn

end TbMapping

/-- The operation invalidates the mapping. -/
def TbOp.Invalidates : TbOp → TbMapping → Prop
  | .insert .., _ => False
  | .tbia, _ => True
  | .tbiap, x => x.pte.bitASM = false
  | .tbis va asn, x => x.Covers va ∧ x.Serves asn
  | .clear, _ => True

/-- The abstract buffer: fills establish mappings, invalidations revoke them. -/
def tbLedger : Ledger TbOp TbMapping where
  adds op x := op = .insert x.va x.asn x.pte x.gh
  revokes op x := op.Invalidates x

/-- **No stale translation** after a history: every hit is a mapping filled for a block containing
the address, serving the ASN, that no later operation invalidated. -/
def NoStaleTranslation (shards ways : Nat) [NeZero shards] [NeZero ways] (realm : TlbRealm)
    (ops : List TbOp) : Prop :=
  ∀ va asn pte,
    (runFrom (TbOp.apply realm) (SPAMShardManager.clear : SPAMShardManager shards ways) ops).lookup
      realm va asn = some pte →
    ∃ before iva iasn gh after, ops = before ++ TbOp.insert iva iasn pte gh :: after ∧
      TbMapping.Covers ⟨iva, iasn, pte, gh⟩ va ∧ TbMapping.Serves ⟨iva, iasn, pte, gh⟩ asn ∧
      ∀ op ∈ after, ¬ op.Invalidates ⟨iva, iasn, pte, gh⟩

/-! ## The simulation -/

namespace TlbEntry

/-- A slot holds a mapping: its tag, PTE and cached ASM bit are those of the fill. -/
structure Holds (realm : TlbRealm) (e : TlbEntry) (x : TbMapping) : Prop where
  /-- The tag is the fill's. -/
  tag : e.tag = TlbTag.make (vaToVpn x.va) x.asn realm x.gh
  /-- The PTE is the fill's. -/
  pte : e.pte = x.pte
  /-- The cached ASM bit is the PTE's. -/
  asm : e.asmGlobal = x.pte.bitASM

/-- A slot that holds a mapping matches exactly the addresses and ASNs the mapping covers and
serves. -/
theorem Holds.matches_iff {realm : TlbRealm} {e : TlbEntry} {x : TbMapping} (h : e.Holds realm x)
    (hvalid : e.valid = true) (va asn : Word) :
    e.matches (vaToVpn va) asn = true ↔ x.Covers va ∧ x.Serves asn := by
  simp only [TlbEntry.matches, hvalid, h.tag, h.asm, TlbTag.make, TbMapping.Covers,
    TbMapping.Serves, Bool.true_and, Bool.and_eq_true, Bool.or_eq_true, beq_iff_eq]

end TlbEntry

section Simulation

variable {shards ways : Nat} [NeZero shards] [NeZero ways]

/-- **What an operation does to a slot**: it leaves it, empties it, or is the fill of it. -/
theorem TbOp.slot_apply (op : TbOp) (realm : TlbRealm) (m : SPAMShardManager shards ways)
    (i : Fin shards) (w : Fin ways) :
    (op.apply realm m).slot i w = m.slot i w ∨ (op.apply realm m).slot i w = {} ∨
      ∃ x : TbMapping, op = .insert x.va x.asn x.pte x.gh ∧
        ((op.apply realm m).slot i w).Holds realm x := by
  cases op with
  | insert va asn pte gh =>
    rcases SPAMShardManager.slot_insert m realm va asn pte gh i w with h | ⟨-, h⟩
    · exact Or.inl h
    · refine Or.inr (Or.inr ⟨⟨va, asn, pte, gh⟩, rfl, ?_⟩)
      rw [TbOp.apply, h]
      exact ⟨rfl, rfl, rfl⟩
  -- the bulk invalidations touch no slot
  | tbia => exact Or.inl rfl
  | tbiap => exact Or.inl rfl
  | tbis va asn =>
    rcases SPAMShardManager.slot_foldl_invalidateProbe realm va asn m SPAMShardManager.ghProbes
      i w with h | ⟨h, -⟩
    · exact Or.inr (Or.inl h)
    · exact Or.inl h
  | clear => exact Or.inr (Or.inl rfl)

/-- The manager simulates the abstract buffer `A`: filled slots belong to the realm, carry epochs
no later than the counters, and hold a mapping of `A` as long as they are live. -/
structure Simulates (realm : TlbRealm) (m : SPAMShardManager shards ways) (A : Set TbMapping) :
    Prop where
  /-- Every filled slot is of this realm. -/
  realm_eq : ∀ i w, (m.slot i w).valid = true → (m.slot i w).tag.realm = realm
  /-- No filled slot is stamped with a future global epoch. -/
  global_le : ∀ i w, (m.slot i w).valid = true →
    (m.slot i w).epochs.globalEpoch ≤ m.globalEpoch
  /-- No filled slot is stamped with a future process epoch. -/
  process_le : ∀ i w, (m.slot i w).valid = true →
    (m.slot i w).epochs.processEpoch ≤ m.processEpoch
  /-- Every live slot holds a mapping of the abstract buffer. -/
  live : ∀ i w, (m.slot i w).valid = true →
    (m.slot i w).isLiveUnder m.globalEpoch m.processEpoch = true →
    ∃ x ∈ A, (m.slot i w).Holds realm x

omit [NeZero shards] in
/-- A cleared manager answers nothing. -/
theorem simulates_clear (realm : TlbRealm) (A : Set TbMapping) :
    Simulates realm (SPAMShardManager.clear : SPAMShardManager shards ways) A := by
  constructor <;> intro i w h <;> simp at h

/-- An epoch that is bumped without wrapping leaves every earlier stamp behind. -/
theorem stamp_lt_of_bump {e c : Word} (hle : e ≤ c) (hc : c ≠ BitVec.allOnes 64) : e < c + 1 := by
  have hc' : c.toNat ≠ 2 ^ 64 - 1 := by
    intro h
    exact hc (BitVec.eq_of_toNat_eq (by rw [h]; rfl))
  have hlt := c.isLt
  -- below the last value the counter does not wrap, so this is arithmetic on naturals
  rw [BitVec.le_def] at hle
  rw [BitVec.lt_def, BitVec.toNat_add]
  change e.toNat < (c.toNat + 1) % 2 ^ 64
  omega

namespace Simulates

variable {realm : TlbRealm} {m : SPAMShardManager shards ways} {A : Set TbMapping}

/-- A fill. -/
theorem insert (h : Simulates realm m A) (va asn : Word) (pte : AlphaPte) (gh : BitVec 2) :
    Simulates realm (m.insert realm va asn pte gh)
      (tbLedger.step A (.insert va asn pte gh)) := by
  have hslot := m.slot_insert realm va asn pte gh
  -- each slot is as before, or it is the filled one with the realm and epochs of this moment
  constructor
  · intro i w hv
    rcases hslot i w with he | ⟨-, he⟩
    · rw [he] at hv ⊢; exact h.realm_eq i w hv
    · rw [he]; rfl
  · intro i w hv
    rcases hslot i w with he | ⟨-, he⟩
    · rw [he] at hv ⊢; exact h.global_le i w hv
    · rw [he]; exact BitVec.le_refl _
  · intro i w hv
    rcases hslot i w with he | ⟨-, he⟩
    · rw [he] at hv ⊢; exact h.process_le i w hv
    · rw [he]; exact BitVec.le_refl _
  · intro i w hv hl
    rcases hslot i w with he | ⟨-, he⟩
    · rw [he] at hv hl ⊢
      obtain ⟨x, hx, hh⟩ := h.live i w hv hl
      exact ⟨x, Or.inr ⟨hx, id⟩, hh⟩
    · rw [he]
      -- the mapping the ledger has just added
      exact ⟨⟨va, asn, pte, gh⟩, Or.inl rfl, rfl, rfl, rfl⟩

omit [NeZero shards] [NeZero ways] in
/-- TBIA, unless the epoch wraps. -/
theorem tbia (h : Simulates realm m A) (hc : m.globalEpoch ≠ BitVec.allOnes 64) :
    Simulates realm m.invalidateAll (tbLedger.step A .tbia) := by
  refine ⟨h.realm_eq, ?_, h.process_le, ?_⟩
  · intro i w hv
    exact BitVec.le_of_lt (stamp_lt_of_bump (h.global_le i w hv) hc)
  · intro i w hv hl
    -- every stamp is now older than the counter, so no slot is live
    have hlt := stamp_lt_of_bump (h.global_le i w hv) hc
    simp only [TlbEntry.isLiveUnder, isEpochLive, Bool.and_eq_true, beq_iff_eq] at hl
    exact absurd (hl.1 ▸ hlt) (BitVec.lt_irrefl _)

omit [NeZero shards] [NeZero ways] in
/-- TBIAP, unless the epoch wraps. -/
theorem tbiap (h : Simulates realm m A) (hc : m.processEpoch ≠ BitVec.allOnes 64) :
    Simulates realm m.invalidateAllProcess (tbLedger.step A .tbiap) := by
  refine ⟨h.realm_eq, h.global_le, ?_, ?_⟩
  · intro i w hv
    exact BitVec.le_of_lt (stamp_lt_of_bump (h.process_le i w hv) hc)
  · intro i w hv hl
    have hlt := stamp_lt_of_bump (h.process_le i w hv) hc
    simp only [TlbEntry.isLiveUnder, isEpochLive, Bool.and_eq_true, Bool.or_eq_true,
      beq_iff_eq] at hl
    -- a live slot is stamped with an old process epoch, so only its ASM bit keeps it live
    have hasm : (m.slot i w).asmGlobal = true :=
      hl.2.resolve_right fun he => absurd (he ▸ hlt) (BitVec.lt_irrefl _)
    have hl' : (m.slot i w).isLiveUnder m.globalEpoch m.processEpoch = true := by
      simp only [TlbEntry.isLiveUnder, isEpochLive, Bool.and_eq_true, Bool.or_eq_true, beq_iff_eq]
      exact ⟨hl.1, Or.inl hasm⟩
    obtain ⟨x, hx, hh⟩ := h.live i w hv hl'
    refine ⟨x, Or.inr ⟨hx, ?_⟩, hh⟩
    intro hrev
    have : x.pte.bitASM = false := hrev
    rw [← hh.asm, hasm] at this
    exact Bool.noConfusion this

omit [NeZero ways] in
/-- TBIS, where it reaches every entry for the address. -/
theorem tbis (h : Simulates realm m A) (va asn : Word)
    (hreach : (TbOp.tbis va asn).Reaches realm m) :
    Simulates realm (m.invalidateSingle realm va asn) (tbLedger.step A (.tbis va asn)) := by
  have hslot := m.slot_foldl_invalidateProbe realm va asn SPAMShardManager.ghProbes
  obtain ⟨hg, hp⟩ := m.epochs_foldl_invalidateProbe realm va asn SPAMShardManager.ghProbes
  -- a filled slot after the scan is the same slot as before it
  have hsame : ∀ i w, ((m.invalidateSingle realm va asn).slot i w).valid = true →
      (m.invalidateSingle realm va asn).slot i w = m.slot i w ∧
        ∀ gh ∈ SPAMShardManager.ghProbes,
          ¬ (i = SPAMShardManager.probeShard shards realm va asn gh ∧
            (m.slot i w).tag.realm = realm ∧ (m.slot i w).matches (vaToVpn va) asn = true) := by
    intro i w hv
    rcases hslot i w with he | he
    · rw [SPAMShardManager.invalidateSingle, he] at hv; exact absurd hv (by simp)
    · exact he
  constructor
  · intro i w hv
    obtain ⟨he, -⟩ := hsame i w hv
    rw [he] at hv ⊢; exact h.realm_eq i w hv
  · intro i w hv
    obtain ⟨he, -⟩ := hsame i w hv
    rw [he] at hv ⊢
    exact (congrArg ((m.slot i w).epochs.globalEpoch ≤ ·) hg).mpr (h.global_le i w hv)
  · intro i w hv
    obtain ⟨he, -⟩ := hsame i w hv
    rw [he] at hv ⊢
    exact (congrArg ((m.slot i w).epochs.processEpoch ≤ ·) hp).mpr (h.process_le i w hv)
  · intro i w hv hl
    obtain ⟨he, hkept⟩ := hsame i w hv
    rw [he] at hv hl ⊢
    have hl' : (m.slot i w).isLiveUnder m.globalEpoch m.processEpoch = true := by
      rw [← hg, ← hp]; exact hl
    obtain ⟨x, hx, hh⟩ := h.live i w hv hl'
    refine ⟨x, Or.inr ⟨hx, ?_⟩, hh⟩
    -- were `x` named by the TBIS, its slot would be in a probed shard and the scan would clear it
    intro hrev
    have hm := (hh.matches_iff hv va asn).mpr hrev
    obtain ⟨gh, hgh, hi⟩ := hreach i w hm hl'
    exact hkept gh hgh ⟨hi, h.realm_eq i w hv, hm⟩

/-- Every operation that reaches the entries it names keeps the simulation. -/
theorem apply (h : Simulates realm m A) (op : TbOp) (hreach : op.Reaches realm m) :
    Simulates realm (op.apply realm m) (tbLedger.step A op) := by
  cases op with
  | insert va asn pte gh => exact h.insert va asn pte gh
  | tbia => exact h.tbia hreach
  | tbiap => exact h.tbiap hreach
  | tbis va asn => exact h.tbis va asn hreach
  | clear => exact simulates_clear realm _

/-- The simulation along a whole run. -/
theorem run {ops : List TbOp} (h : Simulates realm m A)
    (hrun : RunMeets (TbOp.apply realm) (fun m op => TbOp.Reaches realm m op) m ops) :
    Simulates realm (runFrom (TbOp.apply realm) m ops) (runFrom tbLedger.step A ops) := by
  induction ops generalizing m A with
  | nil => exact h
  | cons op ops ih =>
    -- the condition is on the state each operation finds, and the manager moves with the ledger
    exact ih (h.apply op hrun.1) hrun.2

omit [NeZero ways] in
/-- Under the simulation every hit is a mapping of the abstract buffer. -/
theorem hit (h : Simulates realm m A) {va asn : Word} {pte : AlphaPte}
    (hhit : m.lookup realm va asn = some pte) :
    ∃ x ∈ A, x.Covers va ∧ x.Serves asn ∧ x.pte = pte := by
  obtain ⟨i, w, hm, hl, hpte⟩ := SPAMShardManager.exists_slot_of_lookup hhit
  have hv : (m.slot i w).valid = true := TlbEntry.valid_of_matches hm
  obtain ⟨x, hx, hh⟩ := h.live i w hv hl
  obtain ⟨hcov, hserve⟩ := (hh.matches_iff hv va asn).mp hm
  exact ⟨x, hx, hcov, hserve, by rw [← hh.pte, hpte]⟩

end Simulates

end Simulation

/-! ## The result -/

/-- **A run whose invalidations reach what they name leaves no stale translation.** -/
theorem noStaleTranslation_of_reaches (shards ways : Nat) [NeZero shards] [NeZero ways]
    (realm : TlbRealm) (ops : List TbOp)
    (hrun : RunMeets (TbOp.apply realm) (fun m op => TbOp.Reaches realm m op)
      (SPAMShardManager.clear : SPAMShardManager shards ways) ops) :
    NoStaleTranslation shards ways realm ops := by
  intro va asn pte hhit
  have hsim := Simulates.run (simulates_clear realm ∅) hrun
  -- the hit is a mapping of the ledger, and the ledger knows where in the history it comes from
  obtain ⟨⟨iva, iasn, ipte, gh⟩, hx, hcov, hserve, rfl⟩ := hsim.hit hhit
  obtain ⟨before, op, after, hops, hadd, hkeep⟩ := tbLedger.mem_live_iff.mp hx
  have hop : op = TbOp.insert iva iasn ipte gh := hadd
  exact ⟨before, iva, iasn, gh, after, hop ▸ hops, hcov, hserve, hkeep⟩

/-- A run that fills two pages, invalidates one of them singly and everything private in bulk. -/
theorem noStaleTranslation_two_pages :
    RunMeets (TbOp.apply .dtb) (fun m op => TbOp.Reaches .dtb m op)
        (SPAMShardManager.clear : SPAMShardManager 8 4)
        [.insert 0x10000 3 (AlphaPte.makeValid 0x100 true false false false true) 0,
          .insert 0x20000 3 (AlphaPte.makeValid 0x200 true false false false false) 1,
          .tbis 0x20000 3, .tbiap] ∧
      NoStaleTranslation 8 4 .dtb
        [.insert 0x10000 3 (AlphaPte.makeValid 0x100 true false false false true) 0,
          .insert 0x20000 3 (AlphaPte.makeValid 0x200 true false false false false) 1,
          .tbis 0x20000 3, .tbiap] :=
  ⟨by decide +kernel, noStaleTranslation_of_reaches 8 4 .dtb _ (by decide +kernel)⟩

/-- **A TBIS under another ASN misses a global mapping.** In the CPU's own geometry, an ASM page
filled under ASN 0 survives a TBIS of its address under ASN 1 and is still returned. -/
theorem tbis_under_other_asn_misses_global :
    ¬ NoStaleTranslation 16 8 .dtb
      [.insert 0x10000 0 (AlphaPte.makeValid 0x100 true false false false true) 0,
        .tbis 0x10000 1] := by
  intro h
  obtain ⟨before, iva, iasn, gh, after, hops, hcov, -, hkeep⟩ :=
    h 0x10000 0 (AlphaPte.makeValid 0x100 true false false false true) (by decide +kernel)
  -- the only fill of the history is its first operation, and the TBIS comes after it
  rcases before with - | ⟨op₁, - | ⟨op₂, before⟩⟩
  · rw [List.nil_append, List.cons.injEq] at hops
    refine hkeep (.tbis 0x10000 1) (hops.2 ▸ List.mem_cons_self) ⟨?_, Or.inl ?_⟩
    · obtain ⟨hva, -, -, hgh⟩ := TbOp.insert.inj hops.1
      subst hva hgh
      rfl
    · exact (by decide : (AlphaPte.makeValid 0x100 true false false false true).bitASM = true)
  · exact absurd hops (by simp)
  · exact absurd hops (by simp)

end EmulatR
