import Mathlib.Data.List.FinRange
import Mathlib.Data.List.Nodup
import Mathlib.Algebra.Group.Fin.Basic
import Mathlib.Algebra.GroupWithZero.Nat
import Mathlib.Logic.Function.Basic

/-! # Filling a ring: free places first, then round robin

A ring of `n` places and a cursor. A fill takes the first free place, in the order of the places,
and where none is free the place at the cursor; the cursor advances at every fill. While places are
free the cursor runs ahead without being asked, so when the ring is full it need not stand where the
fills began.

* `targets_eq` lists the places that a number of fills take: the free ones in order, then those the
  cursor comes to.
* `nodup_targets_iff` says when `n` fills take `n` different places: every free place is one the
  cursor passes while the free places last. -/

namespace EmulatR.Library

/-- A ring of places: which are free, and the cursor. -/
structure RoundRobin (n : Nat) where
  /-- The free places. -/
  free : Fin n → Bool
  /-- The place taken when none is free. -/
  cursor : Fin n

namespace RoundRobin

section Target

variable {n : Nat} (r : RoundRobin n)

/-- The place a fill takes. -/
def target : Fin n := ((List.finRange n).find? r.free).getD r.cursor

/-- The free places, in order. -/
def freePlaces : List (Fin n) := (List.finRange n).filter r.free

/-- The free places are those marked free. -/
theorem mem_freePlaces_iff {i : Fin n} : i ∈ r.freePlaces ↔ r.free i = true := by
  simp [freePlaces]

/-- No place is listed twice. -/
theorem nodup_freePlaces : r.freePlaces.Nodup := (List.nodup_finRange n).filter _

/-- A fill takes the first of the free places. -/
theorem target_eq : r.target = r.freePlaces.head?.getD r.cursor := by
  rw [target, freePlaces, List.head?_filter]

end Target

variable {n : Nat} [NeZero n] (r : RoundRobin n)

/-- The ring after a fill. -/
def fill : RoundRobin n := ⟨Function.update r.free r.target false, r.cursor + 1⟩

/-- The places that the next fills take. -/
def targets : Nat → RoundRobin n → List (Fin n)
  | 0, _ => []
  | k + 1, r => r.target :: targets k r.fill

/-- A fill leaves the free places after the first. -/
theorem freePlaces_fill : r.fill.freePlaces = r.freePlaces.tail := by
  have herase : r.fill.freePlaces = r.freePlaces.erase r.target := by
    rw [r.nodup_freePlaces.erase_eq_filter, freePlaces, freePlaces, List.filter_filter]
    refine List.filter_congr fun i _ => ?_
    by_cases hi : i = r.target
    · simp [fill, hi]
    · simp [fill, hi]
  rw [herase, target_eq]
  cases hfree : r.freePlaces with
  | nil => rfl
  | cons i rest => simp

/-- A full ring is filled round robin. -/
theorem targets_of_full (k : Nat) (h : r.freePlaces = []) :
    targets k r = (List.range k).map fun j => r.cursor + Fin.ofNat n j := by
  induction k generalizing r with
  | zero => rfl
  | succ k ih =>
    rw [targets, target_eq, h, ih r.fill (by rw [freePlaces_fill, h]; rfl), List.range_succ_eq_map,
      List.map_cons, List.map_map]
    refine congrArg₂ _ (by simp) (List.map_congr_left fun j _ => ?_)
    -- the cursor is one further, and one fill less lies behind
    change r.cursor + 1 + Fin.ofNat n j = r.cursor + Fin.ofNat n (j + 1)
    rw [add_assoc]
    congr 1
    apply Fin.ext
    simp [Fin.val_add, Nat.add_comm]

/-- **The places that fills take**: the free ones in order, and then round robin from where the
cursor has come to. -/
theorem targets_eq (k : Nat) :
    targets (r.freePlaces.length + k) r =
      r.freePlaces ++
        (List.range k).map fun j => r.cursor + Fin.ofNat n (r.freePlaces.length + j) := by
  induction hfree : r.freePlaces generalizing r with
  | nil =>
    rw [List.length_nil, Nat.zero_add, targets_of_full r k hfree, List.nil_append]
    simp
  | cons i rest ih =>
    have hrest : r.fill.freePlaces = rest := by rw [freePlaces_fill, hfree, List.tail_cons]
    rw [List.length_cons, Nat.add_right_comm, targets, ih r.fill hrest, target_eq, hfree,
      List.cons_append]
    refine congrArg (fun l => i :: (rest ++ l)) (List.map_congr_left fun j _ => ?_)
    change r.cursor + 1 + _ = _
    rw [add_assoc]
    refine congrArg (r.cursor + ·) (Fin.ext ?_)
    simp [Fin.val_add]
    congr 1
    omega

/-- **When `n` fills take `n` places.** Every free place must be one that the cursor passes while
the free places are being filled. -/
theorem nodup_targets_iff :
    (targets n r).Nodup ↔ ∀ i, r.free i = true → (i - r.cursor).val < r.freePlaces.length := by
  have hle : r.freePlaces.length ≤ n := by
    have h := List.length_filter_le r.free (List.finRange n)
    rwa [List.length_finRange] at h
  obtain ⟨k, hk⟩ := Nat.exists_eq_add_of_le hle
  have hinj : ((List.range k).map fun j =>
      r.cursor + Fin.ofNat n (r.freePlaces.length + j)).Nodup := by
    refine List.nodup_range.map_on fun a ha b hb heq => ?_
    have hval := congrArg Fin.val (add_left_cancel heq)
    rw [List.mem_range] at ha hb
    rw [Fin.val_ofNat, Fin.val_ofNat, Nat.mod_eq_of_lt (by omega), Nat.mod_eq_of_lt (by omega)]
      at hval
    omega
  have htargets := (congrArg (fun m => targets m r) hk).trans (r.targets_eq k)
  rw [htargets, List.nodup_append']
  constructor
  · rintro ⟨-, -, hdisj⟩ i hi
    by_contra hge
    -- a free place further on is reached by the cursor again
    refine hdisj ((mem_freePlaces_iff r).mpr hi) (List.mem_map.mpr
      ⟨(i - r.cursor).val - r.freePlaces.length, List.mem_range.mpr ?_, ?_⟩)
    · have := (i - r.cursor).isLt
      omega
    · rw [Nat.add_sub_cancel' (not_lt.mp hge)]
      have hof : Fin.ofNat n (i - r.cursor).val = i - r.cursor :=
        Fin.ext (by rw [Fin.val_ofNat, Nat.mod_eq_of_lt (i - r.cursor).isLt])
      rw [hof, add_sub_cancel]
  · intro h
    refine ⟨r.nodup_freePlaces, hinj, fun i hi hi' => ?_⟩
    obtain ⟨j, hj, rfl⟩ := List.mem_map.mp hi'
    have hlt := h _ ((mem_freePlaces_iff r).mp hi)
    rw [List.mem_range] at hj
    rw [add_sub_cancel_left, Fin.val_ofNat, Nat.mod_eq_of_lt (by omega)] at hlt
    omega

end RoundRobin

end EmulatR.Library
