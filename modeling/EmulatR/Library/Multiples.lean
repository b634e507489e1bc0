import Mathlib.Data.Nat.ModEq
import Mathlib.Data.List.Range

/-! # The multiples of a period in an interval of time

`multiplesIn p a b` lists the multiples of `p` in the half-open interval `(a, b]`, in order: the
instants at which a periodic timer that watches a clock run from `a` to `b` has to fire. The lemmas
cut the interval and say when it holds no multiple, or just one at its end. -/

namespace EmulatR.Library

/-- The multiples of `p` in `(a, b]`, in order. -/
def multiplesIn (p a b : Nat) : List Nat := (List.range' (a + 1) (b - a)).filter (p ∣ ·)

variable {p a b c : Nat}

/-- The list has the multiples in the interval. -/
theorem mem_multiplesIn {t : Nat} : t ∈ multiplesIn p a b ↔ a < t ∧ t ≤ b ∧ p ∣ t := by
  simp only [multiplesIn, List.mem_filter, List.mem_range'_1, decide_eq_true_eq]
  omega

/-- An empty interval has none. -/
@[simp] theorem multiplesIn_self : multiplesIn p a a = [] := by simp [multiplesIn]

/-- The interval in two parts. -/
theorem multiplesIn_append (hab : a ≤ b) (hbc : b ≤ c) :
    multiplesIn p a b ++ multiplesIn p b c = multiplesIn p a c := by
  rw [multiplesIn, multiplesIn, multiplesIn, ← List.filter_append]
  have hcut : c - a = (b - a) + (c - b) := by omega
  rw [hcut, ← List.range'_append_1, show a + 1 + (b - a) = b + 1 by omega]

/-- The distance from `a` to the next multiple after it. -/
def toNext (p a : Nat) : Nat := p - a % p

/-- The next multiple is ahead. -/
theorem toNext_pos (hp : 0 < p) : 0 < toNext p a := by
  have := Nat.mod_lt a hp
  rw [toNext]
  omega

/-- The next multiple is no more than a period away. -/
theorem toNext_le : toNext p a ≤ p := Nat.sub_le p (a % p)

/-- The next multiple is one. -/
theorem dvd_add_toNext (hp : 0 < p) : p ∣ a + toNext p a := by
  have hlt := Nat.mod_lt a hp
  have hdiv := Nat.div_add_mod a p
  refine ⟨a / p + 1, ?_⟩
  rw [toNext, Nat.mul_add, Nat.mul_one]
  omega

/-- Between `a` and the next multiple there is none. -/
theorem not_dvd_of_lt_toNext {d : Nat} (hpos : 0 < d) (hd : d < toNext p a) : ¬ p ∣ a + d := by
  intro h
  have hp : 0 < p := by
    rcases Nat.eq_zero_or_pos p with rfl | hp
    · simp [toNext] at hd
    · exact hp
  have hlt := Nat.mod_lt a hp
  rw [toNext] at hd
  have hmod : (a % p + d) % p = 0 := by
    rw [Nat.add_mod, Nat.mod_mod, ← Nat.add_mod]
    exact Nat.mod_eq_zero_of_dvd h
  rw [Nat.mod_eq_of_lt (by omega)] at hmod
  omega

/-- Short of the next multiple the interval holds none. -/
theorem multiplesIn_eq_nil {d : Nat} (hd : d < toNext p a) : multiplesIn p a (a + d) = [] := by
  rw [List.eq_nil_iff_forall_not_mem]
  intro t ht
  obtain ⟨hlo, hhi, hdvd⟩ := mem_multiplesIn.mp ht
  have ht' : t = a + (t - a) := by omega
  rw [ht'] at hdvd
  exact not_dvd_of_lt_toNext (by omega) (by omega) hdvd

/-- Up to the next multiple the interval holds that one. -/
theorem multiplesIn_toNext (hp : 0 < p) :
    multiplesIn p a (a + toNext p a) = [a + toNext p a] := by
  have hpos : 0 < toNext p a := toNext_pos hp
  rw [← multiplesIn_append (show a ≤ a + (toNext p a - 1) by omega)
    (show a + (toNext p a - 1) ≤ a + toNext p a by omega), multiplesIn_eq_nil (by omega)]
  rw [multiplesIn, show a + toNext p a - (a + (toNext p a - 1)) = 1 by omega,
    show a + (toNext p a - 1) + 1 = a + toNext p a by omega]
  simp [dvd_add_toNext hp]

/-- On the way to the next multiple it comes nearer. -/
theorem toNext_add {d : Nat} (hd : d < toNext p a) : toNext p (a + d) = toNext p a - d := by
  rw [toNext] at hd
  rw [toNext, toNext, ← Nat.mod_add_mod, Nat.mod_eq_of_lt (by omega)]
  omega

/-! ## A timer that fires on landing

A clock jumps from `a` to `a + d`, and from there, if it warps, to the next multiple. The timer
looks at the clock once, at the end of the jump, if it `looks` at all, and fires if the clock is on
a multiple that is not `silent`. -/

section Landing

variable {d : Nat} {looks warps : Prop} [Decidable looks] [Decidable warps] {silent : Nat → Prop}
  [DecidablePred silent]

/-- Where the clock ends. -/
def landing (p a d : Nat) (warps : Prop) [Decidable warps] : Nat :=
  a + d + if warps then toNext p (a + d) else 0

/-- A warp lands no earlier than the step. -/
theorem le_landing : a + d ≤ landing p a d warps := Nat.le_add_right _ _

/-- Short of the next multiple a warp ends on it. -/
theorem landing_of_lt (hd : d < toNext p a) :
    landing p a d warps = if warps then a + toNext p a else a + d := by
  rw [landing, toNext_add hd]
  split
  · omega
  · rfl

/-- What the timer fires at. -/
def fired (p a d : Nat) (looks warps : Prop) [Decidable looks] [Decidable warps]
    (silent : Nat → Prop) [DecidablePred silent] : List Nat :=
  if looks ∧ p ∣ landing p a d warps ∧ ¬ silent (landing p a d warps) then
    [landing p a d warps]
  else []

/-- What makes a jump lose no multiple and repeat none. -/
structure LandsOnTime (p a d : Nat) (looks warps : Prop) (silent : Nat → Prop) : Prop where
  /-- The jump does not go past the next multiple. -/
  notPast : d ≤ toNext p a
  /-- If it reaches that multiple, the timer looks. -/
  seen : d = toNext p a → looks
  /-- If the clock ends on it, it is not silent. -/
  notSilent : d = toNext p a ∨ warps → ¬ silent (a + toNext p a)
  /-- The timer does not look twice at the same multiple. -/
  notTwice : d = 0 → looks → p ∣ a → silent a

/-- **A timer that fires on landing is accurate iff the jump lands on time.** -/
theorem multiplesIn_landing_iff (hp : 0 < p) (hlooks : warps → looks)
    (hwarps : warps → p ∣ a + d → silent (a + d)) :
    multiplesIn p a (landing p a d warps) = fired p a d looks warps silent ↔
      LandsOnTime p a d looks warps silent := by
  have hpos : 0 < toNext p a := toNext_pos hp
  rcases Nat.lt_trichotomy d (toNext p a) with hlt | heq | hgt
  · -- short of the next multiple: the clock stays there or warps onto it
    have hne : d ≠ toNext p a := by omega
    rw [fired, landing_of_lt hlt]
    by_cases hw : warps
    · rw [if_pos hw, multiplesIn_toNext hp]
      simp only [hlooks hw, dvd_add_toNext hp, true_and]
      constructor
      · intro h
        refine ⟨hlt.le, fun h' => absurd h' hne, fun _ hs => ?_, ?_⟩
        · simp [hs] at h
        · rintro rfl - hdvd
          exact hwarps hw hdvd
      · intro h
        rw [if_pos (h.notSilent (Or.inr hw))]
    · rw [if_neg hw, multiplesIn_eq_nil hlt]
      constructor
      · intro h
        refine ⟨hlt.le, fun h' => absurd h' hne, fun h' => absurd h' (by simp [hne, hw]), ?_⟩
        rintro rfl hl hdvd
        by_contra hs
        rw [if_pos ⟨hl, hdvd, hs⟩] at h
        exact absurd h (by simp)
      · intro h
        rw [if_neg]
        rintro ⟨hl, hdvd, hs⟩
        rcases Nat.eq_zero_or_pos d with rfl | hd
        · exact hs (h.notTwice rfl hl hdvd)
        · exact not_dvd_of_lt_toNext hd hlt hdvd
  · -- on the next multiple: no warp follows, unless the multiple is silent
    subst heq
    have hdvd : p ∣ a + toNext p a := dvd_add_toNext hp
    by_cases hs : silent (a + toNext p a)
    · refine iff_of_false ?_ fun h => h.notSilent (Or.inl rfl) hs
      intro h
      have hmem : a + toNext p a ∈ multiplesIn p a (landing p a (toNext p a) warps) :=
        mem_multiplesIn.mpr ⟨by omega, le_landing, hdvd⟩
      rw [h, fired] at hmem
      split at hmem
      · rename_i hf
        rw [← List.mem_singleton.mp hmem] at hf
        exact hf.2.2 hs
      · exact absurd hmem List.not_mem_nil
    · have hw : ¬ warps := fun hw => hs (hwarps hw hdvd)
      rw [fired, landing, if_neg hw, Nat.add_zero, multiplesIn_toNext hp]
      simp only [hdvd, hs, not_false_eq_true, and_true]
      constructor
      · intro h
        have hl : looks := by
          by_contra hl
          simp [hl] at h
        exact ⟨le_rfl, fun _ => hl, fun _ => hs, fun h0 => by omega⟩
      · intro h
        rw [if_pos (h.seen rfl)]
  · -- past it: the multiple jumped over is not where the clock ends
    refine iff_of_false ?_ fun h => absurd h.notPast (by omega)
    intro h
    have hmem : a + toNext p a ∈ multiplesIn p a (landing p a d warps) :=
      mem_multiplesIn.mpr ⟨by omega, le_trans (by omega) le_landing, dvd_add_toNext hp⟩
    have hend : a + toNext p a < landing p a d warps := lt_of_lt_of_le (by omega) le_landing
    rw [h, fired] at hmem
    split at hmem
    · exact absurd (List.mem_singleton.mp hmem) hend.ne
    · exact absurd hmem List.not_mem_nil

omit [Decidable looks] [Decidable warps] in
/-- A clock that wraps at a multiple `q` of the period, and is silent there, lands on time when its
remainder does. -/
theorem landsOnTime_congr {q a' : Nat} (hpq : p ∣ q) (h : a ≡ a' [MOD q]) :
    LandsOnTime p a d looks warps (q ∣ ·) ↔ LandsOnTime p a' d looks warps (q ∣ ·) := by
  have hnext : toNext p a = toNext p a' := by rw [toNext, toNext, h.of_dvd hpq]
  have hdvd : p ∣ a ↔ p ∣ a' := (h.of_dvd hpq).dvd_iff dvd_rfl
  have hwrap : q ∣ a ↔ q ∣ a' := h.dvd_iff dvd_rfl
  have hwrap' : q ∣ a + toNext p a' ↔ q ∣ a' + toNext p a' := (h.add_right _).dvd_iff dvd_rfl
  constructor
  · rintro ⟨h1, h2, h3, h4⟩
    rw [hnext] at h1 h2 h3
    rw [hwrap'] at h3
    rw [hdvd, hwrap] at h4
    exact ⟨h1, h2, h3, h4⟩
  · rintro ⟨h1, h2, h3, h4⟩
    rw [← hnext] at h1 h2 h3
    rw [hnext, ← hwrap', ← hnext] at h3
    rw [← hdvd, ← hwrap] at h4
    exact ⟨h1, h2, h3, h4⟩

end Landing

end EmulatR.Library
