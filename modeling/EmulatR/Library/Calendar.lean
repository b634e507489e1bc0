import Mathlib.Algebra.BigOperators.Intervals
import Mathlib.Algebra.Order.BigOperators.Group.Finset
import Mathlib.Data.Prod.Lex
import Mathlib.Order.Monotone.Basic

/-! # The proleptic Gregorian calendar

Dates, the day after a date, and their number: how many days they are from the first of January of
the year 0. The number says in one expression what going from day to day says step by step
(`dayNumber_after`), and orders the dates (`dayNumber_lt_iff`), so a computation of a date is right
if its number is. -/

namespace EmulatR.Library.Calendar

/-- A year that is divisible by four is a leap year, but of the centuries only every fourth. -/
def IsLeap (year : Nat) : Prop := (4 ∣ year ∧ ¬ 100 ∣ year) ∨ 400 ∣ year

instance (year : Nat) : Decidable (IsLeap year) := inferInstanceAs (Decidable (_ ∨ _))

/-- The days of a month. -/
def daysInMonth (year month : Nat) : Nat :=
  if month = 2 then if IsLeap year then 29 else 28
  else if month = 4 ∨ month = 6 ∨ month = 9 ∨ month = 11 then 30
  else 31

/-- No month is empty. -/
theorem daysInMonth_pos (year month : Nat) : 0 < daysInMonth year month := by
  unfold daysInMonth
  split_ifs <;> decide

/-- No month is longer than 31 days. -/
theorem daysInMonth_le (year month : Nat) : daysInMonth year month ≤ 31 := by
  unfold daysInMonth
  split_ifs <;> decide

/-- A date of the calendar. -/
@[ext] structure Date where
  /-- The year. -/
  year : Nat
  /-- The month, from 1. -/
  month : Nat
  /-- The day of the month, from 1. -/
  day : Nat
  /-- There is no month 0. -/
  month_pos : 1 ≤ month
  /-- There are twelve months. -/
  month_le : month ≤ 12
  /-- There is no day 0. -/
  day_pos : 1 ≤ day
  /-- The month has that day. -/
  day_le : day ≤ daysInMonth year month
  deriving DecidableEq

/-- The first of a month. -/
def firstOf (year month : Nat) (hpos : 1 ≤ month) (hle : month ≤ 12) : Date :=
  ⟨year, month, 1, hpos, hle, Nat.le_refl 1, daysInMonth_pos year month⟩

/-- The first of January. -/
def newYear (year : Nat) : Date := firstOf year 1 (Nat.le_refl 1) (by decide)

namespace Date

variable (d : Date)

/-- The day after. -/
def next : Date :=
  if hday : d.day < daysInMonth d.year d.month then
    { d with day := d.day + 1, day_pos := Nat.succ_pos _, day_le := hday }
  else if hmonth : d.month < 12 then firstOf d.year (d.month + 1) (Nat.succ_pos _) hmonth
  else newYear (d.year + 1)

/-- The date that many days after. -/
def after (n : Nat) : Date := next^[n] d

/-! ## Day numbers -/

/-- The days of the years before this one, from the year 0 on. -/
def daysBeforeYear (year : Nat) : Nat :=
  365 * year + (year + 3) / 4 - (year + 99) / 100 + (year + 399) / 400

/-- The days of the months before this one. -/
def daysBeforeMonth (year month : Nat) : Nat := ∑ m ∈ Finset.Ico 1 month, daysInMonth year m

/-- The number of a date. -/
def dayNumber : Nat := daysBeforeYear d.year + daysBeforeMonth d.year d.month + d.day

/-- The day of the week, with 1 for Sunday; the first day was a Saturday. -/
def weekday : Nat := 1 + (d.dayNumber + 5) % 7

/-- The next month begins where this one ends. -/
theorem daysBeforeMonth_succ (year : Nat) {month : Nat} (h : 1 ≤ month) :
    daysBeforeMonth year (month + 1) = daysBeforeMonth year month + daysInMonth year month :=
  Finset.sum_Ico_succ_top h _

/-- Later months begin later. -/
theorem daysBeforeMonth_mono (year : Nat) : Monotone (daysBeforeMonth year) := fun _ _ h =>
  Finset.sum_le_sum_of_subset (Finset.Ico_subset_Ico_right h)

/-- One more of the years before the next one is a multiple iff this one is. -/
theorem multiplesBefore_succ (year k : Nat) :
    (year + 1 + k) / (k + 1) = (year + k) / (k + 1) + if k + 1 ∣ year then 1 else 0 := by
  rw [Nat.add_right_comm, Nat.succ_div, Nat.add_assoc]
  simp only [Nat.dvd_add_self_right]

/-- A year has 365 or 366 days. -/
theorem daysBeforeYear_succ (year : Nat) :
    daysBeforeYear (year + 1) = daysBeforeYear year + daysBeforeMonth year 13 := by
  have hyear : daysBeforeMonth year 13 = if IsLeap year then 366 else 365 := by
    rw [daysBeforeMonth]
    simp only [Finset.sum_Ico_succ_top, Nat.reduceLeDiff, daysInMonth]
    split <;> simp
  have hfours : (year + 1 + 3) / 4 = (year + 3) / 4 + if 4 ∣ year then 1 else 0 :=
    multiplesBefore_succ year 3
  have hcenturies : (year + 1 + 99) / 100 = (year + 99) / 100 + if 100 ∣ year then 1 else 0 :=
    multiplesBefore_succ year 99
  have hcycles : (year + 1 + 399) / 400 = (year + 399) / 400 + if 400 ∣ year then 1 else 0 :=
    multiplesBefore_succ year 399
  have hle : (year + 99) / 100 ≤ year := by omega
  rw [hyear, daysBeforeYear, daysBeforeYear, hfours, hcenturies, hcycles]
  generalize (year + 99) / 100 = centuries at hle
  by_cases hfour : 4 ∣ year
  · by_cases hcentury : 100 ∣ year
    · by_cases hcycle : 400 ∣ year
      · have hleap : IsLeap year := Or.inr hcycle
        rw [if_pos hfour, if_pos hcentury, if_pos hcycle, if_pos hleap]
        omega
      · have hcommon : ¬ IsLeap year := fun h => h.elim (fun h => h.2 hcentury) hcycle
        rw [if_pos hfour, if_pos hcentury, if_neg hcycle, if_neg hcommon]
        omega
    · have hcycle : ¬ 400 ∣ year := fun h => hcentury ((by decide : 100 ∣ 400).trans h)
      have hleap : IsLeap year := Or.inl ⟨hfour, hcentury⟩
      rw [if_pos hfour, if_neg hcentury, if_neg hcycle, if_pos hleap]
      omega
  · have hcentury : ¬ 100 ∣ year := fun h => hfour ((by decide : 4 ∣ 100).trans h)
    have hcycle : ¬ 400 ∣ year := fun h => hfour ((by decide : 4 ∣ 400).trans h)
    have hcommon : ¬ IsLeap year := fun h => h.elim (fun h => hfour h.1) hcycle
    rw [if_neg hfour, if_neg hcentury, if_neg hcycle, if_neg hcommon]
    omega

/-- Later years begin later. -/
theorem daysBeforeYear_mono : Monotone daysBeforeYear := by
  refine monotone_nat_of_le_succ fun year => ?_
  rw [daysBeforeYear_succ]
  exact Nat.le_add_right _ _

/-- The number of the first day of a month. -/
theorem dayNumber_firstOf (year month : Nat) (hpos : 1 ≤ month) (hle : month ≤ 12) :
    (firstOf year month hpos hle).dayNumber = daysBeforeYear year + daysBeforeMonth year month + 1 :=
  rfl

/-- The day after the last of a month is the first of the next. -/
theorem dayNumber_firstOf_succ {year month : Nat} (hpos : 1 ≤ month) (hle : month < 12) :
    (firstOf year (month + 1) (Nat.succ_pos _) hle).dayNumber =
      (firstOf year month hpos hle.le).dayNumber + daysInMonth year month := by
  rw [dayNumber_firstOf, dayNumber_firstOf, daysBeforeMonth_succ year hpos]
  omega

/-- The day after the last of December is the first of January. -/
theorem dayNumber_newYear (year : Nat) :
    (newYear (year + 1)).dayNumber =
      (firstOf year 12 (by decide) (Nat.le_refl 12)).dayNumber + daysInMonth year 12 := by
  have hjanuary : daysBeforeMonth (year + 1) 1 = 0 := by
    rw [daysBeforeMonth, Finset.Ico_self, Finset.sum_empty]
  rw [newYear, dayNumber_firstOf, dayNumber_firstOf, daysBeforeYear_succ,
    daysBeforeMonth_succ year (by decide : 1 ≤ 12), hjanuary]
  omega

/-- Within a month the numbers go up with the days. -/
theorem dayNumber_eq_firstOf :
    d.dayNumber + 1 = (firstOf d.year d.month d.month_pos d.month_le).dayNumber + d.day := by
  rw [dayNumber_firstOf, dayNumber]
  omega

/-- **The number of the day after is the next one.** -/
theorem dayNumber_next : d.next.dayNumber = d.dayNumber + 1 := by
  have hfirst := d.dayNumber_eq_firstOf
  have hle := d.day_le
  unfold next
  split_ifs with hday hmonth
  · simp only [dayNumber]
    omega
  · rw [dayNumber_firstOf_succ d.month_pos hmonth]
    omega
  · have hmonth' : d.month = 12 := Nat.le_antisymm d.month_le (Nat.le_of_not_lt hmonth)
    rw [dayNumber_newYear]
    simp only [hmonth'] at hfirst hle hday
    omega

/-- Walking `n` days adds `n` to the day number. -/
theorem dayNumber_after (n : Nat) : (d.after n).dayNumber = d.dayNumber + n := by
  induction n with
  | zero => rfl
  | succ n ih =>
    rw [after, Function.iterate_succ_apply', dayNumber_next]
    exact congrArg Nat.succ ih

/-! ## The order of dates -/

/-- Year, month and day, in this order of weight. -/
def key : Nat ×ₗ Nat ×ₗ Nat := toLex (d.year, toLex (d.month, d.day))

variable {d}

/-- Dates are ordered by year, month and day. -/
theorem key_lt_iff {e : Date} :
    d.key < e.key ↔ d.year < e.year ∨ d.year = e.year ∧
      (d.month < e.month ∨ d.month = e.month ∧ d.day < e.day) := by
  rw [key, key, Prod.Lex.toLex_lt_toLex, Prod.Lex.toLex_lt_toLex]

/-- A date is its key. -/
theorem key_injective : Function.Injective key := by
  intro d e h
  have hpair := toLex.injective h
  have hmonth := toLex.injective (congrArg Prod.snd hpair)
  exact Date.ext (congrArg Prod.fst hpair) (congrArg Prod.fst hmonth) (congrArg Prod.snd hmonth)

/-- The days of a year up to a date are no more than those of the year. -/
theorem daysBeforeMonth_add_day_le (d : Date) :
    daysBeforeMonth d.year d.month + d.day ≤ daysBeforeMonth d.year (d.month + 1) := by
  rw [daysBeforeMonth_succ _ d.month_pos]
  exact Nat.add_le_add_left d.day_le _

/-- Later dates have larger day numbers. -/
theorem dayNumber_lt_of_key_lt {e : Date} (h : d.key < e.key) : d.dayNumber < e.dayNumber := by
  have hmonth := d.daysBeforeMonth_add_day_le
  have hday := e.day_pos
  unfold dayNumber
  rcases key_lt_iff.1 h with hyear | ⟨hyear, hlt | ⟨heq, hlt⟩⟩
  · -- the year before this one has ended
    have hend : daysBeforeMonth d.year (d.month + 1) ≤ daysBeforeMonth d.year 13 :=
      daysBeforeMonth_mono _ (Nat.succ_le_succ d.month_le)
    have hnext := daysBeforeYear_mono (Nat.succ_le_of_lt hyear)
    rw [Nat.succ_eq_add_one, daysBeforeYear_succ] at hnext
    omega
  · have hnext : daysBeforeMonth d.year (d.month + 1) ≤ daysBeforeMonth d.year e.month :=
      daysBeforeMonth_mono _ (Nat.succ_le_of_lt hlt)
    rw [← hyear]
    omega
  · rw [← hyear, ← heq]
    omega

/-- **Dates are ordered by their numbers.** -/
theorem dayNumber_lt_iff {e : Date} : d.dayNumber < e.dayNumber ↔ d.key < e.key := by
  refine ⟨fun h => ?_, dayNumber_lt_of_key_lt⟩
  rcases lt_trichotomy d.key e.key with hlt | heq | hgt
  · exact hlt
  · rw [key_injective heq] at h
    exact absurd h (Nat.lt_irrefl _)
  · exact absurd (dayNumber_lt_of_key_lt hgt) (Nat.lt_asymm h)

/-- No two dates have the same day number. -/
theorem dayNumber_injective : Function.Injective dayNumber := by
  intro d e h
  rcases lt_trichotomy d.key e.key with hlt | heq | hgt
  · exact absurd (dayNumber_lt_of_key_lt hlt) (h ▸ Nat.lt_irrefl _)
  · exact key_injective heq
  · exact absurd (dayNumber_lt_of_key_lt hgt) (h ▸ Nat.lt_irrefl _)

/-- The weekday goes on with the days. -/
theorem weekday_after (d : Date) (n : Nat) :
    (d.after n).weekday = 1 + (d.weekday - 1 + n) % 7 := by
  rw [weekday, weekday, dayNumber_after]
  omega

end Date

end EmulatR.Library.Calendar
