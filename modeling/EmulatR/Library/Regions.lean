import Mathlib.Algebra.Ring.Nat
import Mathlib.Data.Finset.Card
import Mathlib.Order.Interval.Finset.Nat

/-! # Regions of a memory

A region is a range of addresses. Regions no two of which share an address are not longer than the
memory they lie in (`Region.sum_len_le`), and regions laid one after another share none
(`Region.pairwise_apart_layout`).

An `Arena` is a memory of which a bounded part may be written. `Confined` says that a program writes
into a region only; it composes, and it tells what later writes leave of earlier ones. -/

namespace EmulatR.Library

universe u

/-- A range of addresses. -/
structure Region where
  /-- The first address. -/
  base : Nat
  /-- How many addresses it has. -/
  len : Nat
  deriving DecidableEq, Repr

namespace Region

/-- The first address behind a region. -/
def finish (r : Region) : Nat := r.base + r.len

instance : Membership Nat Region := ⟨fun r a => r.base ≤ a ∧ a < r.finish⟩

/-- An address is in a region between its ends. -/
theorem mem_iff {r : Region} {a : Nat} : a ∈ r ↔ r.base ≤ a ∧ a < r.finish := Iff.rfl

instance (a : Nat) (r : Region) : Decidable (a ∈ r) :=
  inferInstanceAs (Decidable (r.base ≤ a ∧ a < r.finish))

/-- Two regions share no address. -/
def Apart (r s : Region) : Prop := ∀ a ∈ r, a ∉ s

/-- Regions one after the other are apart. -/
theorem apart_of_le {r s : Region} (h : r.finish ≤ s.base ∨ s.finish ≤ r.base) : r.Apart s := by
  intro a hr hs
  rw [mem_iff] at hr hs
  omega

/-! ## Room -/

/-- Regions that lie in a memory and share no address leave room for the rest of it. -/
theorem card_add_sum_len_le {n : Nat} {rs : List Region} (happ : rs.Pairwise Apart)
    (hin : ∀ r ∈ rs, r.finish ≤ n) {taken : Finset Nat} (htaken : taken ⊆ Finset.range n)
    (hfree : ∀ r ∈ rs, ∀ a ∈ r, a ∉ taken) : taken.card + (rs.map len).sum ≤ n := by
  -- on the regions; the first one joins the addresses taken
  induction rs generalizing taken with
  | nil => simpa using Finset.card_le_card htaken
  | cons r rs ih =>
    rw [List.pairwise_cons] at happ
    have hdisj : Disjoint taken (Finset.Ico r.base r.finish) := by
      rw [Finset.disjoint_right]
      intro a ha
      exact hfree r List.mem_cons_self a (Finset.mem_Ico.1 ha)
    have hcard : (taken ∪ Finset.Ico r.base r.finish).card = taken.card + r.len := by
      rw [Finset.card_union_of_disjoint hdisj, Nat.card_Ico, finish, Nat.add_sub_cancel_left]
    have hsub : taken ∪ Finset.Ico r.base r.finish ⊆ Finset.range n := by
      refine Finset.union_subset htaken fun a ha => Finset.mem_range.2 ?_
      exact lt_of_lt_of_le (Finset.mem_Ico.1 ha).2 (hin r List.mem_cons_self)
    have hrest := ih happ.2 (fun s hs => hin s (List.mem_cons_of_mem r hs)) hsub fun s hs a ha => by
      rw [Finset.mem_union, not_or]
      exact ⟨hfree s (List.mem_cons_of_mem r hs) a ha, fun hr =>
        happ.1 s hs a (Finset.mem_Ico.1 hr) ha⟩
    rw [List.map_cons, List.sum_cons]
    omega

/-- Regions that share no address are together not longer than the memory they lie in. -/
theorem sum_len_le {n : Nat} {rs : List Region} (happ : rs.Pairwise Apart)
    (hin : ∀ r ∈ rs, r.finish ≤ n) : (rs.map len).sum ≤ n := by
  simpa using card_add_sum_len_le happ hin (Finset.empty_subset _) fun _ _ a _ =>
    Finset.notMem_empty a

/-! ## Regions one after another -/

/-- Regions of the given lengths, each where the one before it ends. -/
def layout (start : Nat) : List Nat → List Region
  | [] => []
  | l :: ls => ⟨start, l⟩ :: layout (start + l) ls

/-- A layout begins at its start. -/
theorem le_base_of_mem_layout {start : Nat} {ls : List Nat} {r : Region}
    (h : r ∈ layout start ls) : start ≤ r.base := by
  induction ls generalizing start with
  | nil => cases h
  | cons l ls ih =>
    rcases List.mem_cons.1 h with rfl | hr
    · exact le_refl start
    · exact le_trans (Nat.le_add_right start l) (ih hr)

/-- A layout ends at the sum of its lengths. -/
theorem finish_le_of_mem_layout {start : Nat} {ls : List Nat} {r : Region}
    (h : r ∈ layout start ls) : r.finish ≤ start + ls.sum := by
  induction ls generalizing start with
  | nil => cases h
  | cons l ls ih =>
    rw [List.sum_cons]
    rcases List.mem_cons.1 h with rfl | hr
    · exact Nat.add_le_add_left (Nat.le_add_right l ls.sum) start
    · exact le_of_le_of_eq (ih hr) (Nat.add_assoc start l ls.sum)

/-- The regions of a layout are apart. -/
theorem pairwise_apart_layout (start : Nat) (ls : List Nat) :
    (layout start ls).Pairwise Apart := by
  induction ls generalizing start with
  | nil => exact List.Pairwise.nil
  | cons l ls ih =>
    exact List.pairwise_cons.2 ⟨fun r hr => apart_of_le (.inl (le_base_of_mem_layout hr)),
      ih (start + l)⟩

end Region

/-! ## Writing -/

/-- A memory, and whether all writes have been inside its writable part. -/
structure Arena (β : Type u) where
  /-- The contents. -/
  cells : Nat → β
  /-- No store has gone past the end. -/
  inside : Bool

variable {β : Type u} {total : Nat} {f g : Arena β → Arena β} {r s : Region} {m : Arena β}

namespace Arena

/-- Write a region of a memory whose first `total` cells may be written. -/
def fill (total : Nat) (r : Region) (v : Nat → β) (m : Arena β) : Arena β where
  cells a := if a ∈ r then v (a - r.base) else m.cells a
  inside := m.inside && decide (r.finish ≤ total)

/-- Run a step for every index below a bound. -/
def forEach : Nat → (Nat → Arena β → Arena β) → Arena β → Arena β
  | 0, _, m => m
  | n + 1, step, m => step n (forEach n step m)

/-- Two memories agree on a region. -/
def AgreeOn (r : Region) (m m' : Arena β) : Prop := ∀ a ∈ r, m.cells a = m'.cells a

/-- Agreement goes through. -/
theorem AgreeOn.trans {m₁ m₂ m₃ : Arena β} (h : AgreeOn r m₁ m₂) (h' : AgreeOn r m₂ m₃) :
    AgreeOn r m₁ m₃ := fun a ha => (h a ha).trans (h' a ha)

/-- Arenas that agree on a region agree on what lies inside it. -/
theorem AgreeOn.mono {m m' : Arena β} (h : AgreeOn r m m') (hbase : r.base ≤ s.base)
    (hfinish : s.finish ≤ r.finish) : AgreeOn s m m' := fun a ha =>
  h a ⟨le_trans hbase ha.1, lt_of_lt_of_le ha.2 hfinish⟩

/-- A cell of the region is filled. -/
theorem cells_fill_of_mem {v : Nat → β} {a : Nat} (h : a ∈ r) :
    (fill total r v m).cells a = v (a - r.base) := if_pos h

/-- A cell outside keeps its contents. -/
theorem cells_fill_of_notMem {v : Nat → β} {a : Nat} (h : a ∉ r) :
    (fill total r v m).cells a = m.cells a := if_neg h

end Arena

open Arena

/-- A program writes into a region only: the cells outside keep their contents, and no write leaves
a memory that holds the region. -/
structure Confined (total : Nat) (f : Arena β → Arena β) (r : Region) : Prop where
  /-- Outside the region nothing changes. -/
  frame : ∀ m, ∀ a ∉ r, (f m).cells a = m.cells a
  /-- A region that fits is not left. -/
  inside : r.finish ≤ total → ∀ m, (f m).inside = m.inside

namespace Confined

/-- Filling a region. -/
theorem fill (total : Nat) (r : Region) (v : Nat → β) : Confined total (Arena.fill total r v) r where
  frame _ _ ha := cells_fill_of_notMem ha
  inside h m := by rw [Arena.fill, decide_eq_true h, Bool.and_true]

/-- Doing nothing. -/
theorem id (total : Nat) (r : Region) : Confined total (fun m : Arena β => m) r where
  frame _ _ _ := rfl
  inside _ _ := rfl

/-- Two operations in a row. -/
theorem comp (hg : Confined total g r) (hf : Confined total f r) :
    Confined total (fun m => g (f m)) r where
  frame m a ha := (hg.frame (f m) a ha).trans (hf.frame m a ha)
  inside h m := (hg.inside h (f m)).trans (hf.inside h m)

/-- What is written may depend on the memory. -/
theorem self {h : Arena β → Arena β → Arena β} (hh : ∀ m, Confined total (h m) r) :
    Confined total (fun m => h m m) r where
  frame m := (hh m).frame m
  inside hle m := (hh m).inside hle m

/-- What writes into a region writes into every region that holds it. -/
theorem mono (h : Confined total f r) (hbase : s.base ≤ r.base) (hfinish : r.finish ≤ s.finish) :
    Confined total f s where
  frame m a ha := h.frame m a fun hr =>
    ha ⟨le_trans hbase hr.1, lt_of_lt_of_le hr.2 hfinish⟩
  inside hs := h.inside (le_trans hfinish hs)

/-- A loop of them. -/
theorem forEach {n : Nat} {step : Nat → Arena β → Arena β}
    (h : ∀ i < n, Confined total (step i) r) : Confined total (Arena.forEach n step) r := by
  induction n with
  | zero => exact Confined.id total r
  | succ n ih =>
    exact (h n (Nat.lt_succ_self n)).comp (ih fun i hi => h i (Nat.lt_succ_of_lt hi))

/-- A region apart from the written one keeps its contents. -/
theorem agreeOn (h : Confined total f r) (happ : r.Apart s) (m : Arena β) : AgreeOn s (f m) m :=
  fun a hs => h.frame m a fun hr => happ a hr hs

/-- Of steps into regions that share no address, each leaves what it wrote. -/
theorem agreeOn_forEach {n i : Nat} {step : Nat → Arena β → Arena β} {region : Nat → Region}
    (h : ∀ j, Confined total (step j) (region j))
    (happ : ∀ j, i < j → (region j).Apart (region i)) (hi : i < n) (m : Arena β) :
    AgreeOn (region i) (Arena.forEach n step m) (step i (Arena.forEach i step m)) := by
  -- on the number of steps; those behind step `i` write elsewhere
  induction n with
  | zero => cases hi
  | succ n ih =>
    rcases Nat.lt_succ_iff_lt_or_eq.1 hi with hlt | rfl
    · exact ((h n).agreeOn (happ n hlt) _).trans (ih hlt)
    · exact fun _ _ => rfl

end Confined

end EmulatR.Library
