import EmulatR.Library.Calendar
import EmulatR.System.Board

/-! # The TOY clock

The clock registers of the MC146818 (deviceLib/Tsunami/ToyRtc.h) are filled from the cycle counter
when one of them is selected: the date that many seconds after the epoch, as binary or BCD, with 24
or 12 hours. `toy_clock` compares the walk through the months with the calendar. -/

namespace EmulatR

open Library

/-- The clock, without its ports. -/
structure ToyRtc where
  /-- The CMOS. -/
  cmos : BitVec 8 → BitVec 8 := fun _ => 0
  /-- The cycles that make a second. -/
  cyclesPerSecond : Word := 1000000000
  /-- A rate of zero is taken for one. -/
  cyclesPerSecond_ne : cyclesPerSecond ≠ 0 := by decide

namespace ToyRtc

/-! ## The registers -/

/-- The seconds. -/
def kRegSeconds : BitVec 8 := 0x00
/-- The minutes. -/
def kRegMinutes : BitVec 8 := 0x02
/-- The hours. -/
def kRegHours : BitVec 8 := 0x04
/-- The day of the week. -/
def kRegDow : BitVec 8 := 0x06
/-- The day of the month. -/
def kRegDom : BitVec 8 := 0x07
/-- The month. -/
def kRegMonth : BitVec 8 := 0x08
/-- The year of the century. -/
def kRegYear : BitVec 8 := 0x09
/-- The register with the format of the others. -/
def kRegB : BitVec 8 := 0x0b

/-- Set for binary, clear for BCD. -/
def kRegB_DM : BitVec 8 := 0x04

/-- Set for 24 hours, clear for 12. -/
def kRegB_H24 : BitVec 8 := 0x02

/-- The afternoon, in the twelve-hour format. -/
def kHourPmBit : BitVec 8 := 0x80

/-- The year at which the clock starts. -/
def kEpochYear : Nat := 2026

/-- A Thursday, with 1 for Sunday. -/
def kEpochDow : Nat := 5

/-- A clock of this rate. -/
def ofRate (cyclesPerSecond : Word) : ToyRtc where
  cyclesPerSecond := if cyclesPerSecond = 0 then 1 else cyclesPerSecond
  cyclesPerSecond_ne := by
    split
    · decide
    · assumption

/-- The days of the months of a common year. -/
def kDim : List Nat := [31, 28, 31, 30, 31, 30, 31, 31, 30, 31, 30, 31]

/-- The days of a month. -/
def daysInMonth (year mon : Nat) : Nat :=
  if mon = 2 ∧ ((year % 4 = 0 ∧ year % 100 ≠ 0) ∨ year % 400 = 0) then 29
  else kDim.getD (mon - 1) 31

/-- Every month has days. -/
theorem daysInMonth_pos (year mon : Nat) : 0 < daysInMonth year mon := by
  unfold daysInMonth
  split
  · decide
  · have hall : ∀ n ∈ kDim, 0 < n := by decide
    rw [List.getD_eq_getElem?_getD]
    cases h : kDim[mon - 1]? with
    | none => decide
    | some n => exact hall n (List.mem_of_getElem? h)

/-- The walk through the calendar, from the first of a month on: `dom` is 1 whenever the loop
begins. -/
def walk (year mon : Nat) (remaining : Int) : Nat × Nat × Int :=
  let dim := daysInMonth year mon
  if remaining < dim then (year, mon, 1 + remaining)
  else if mon + 1 > 12 then walk (year + 1) 1 (remaining - dim)
  else walk year (mon + 1) (remaining - dim)
termination_by remaining.toNat
decreasing_by
  all_goals
    have := daysInMonth_pos year mon
    omega

/-- A date with its time of day, as the clock computes it. -/
@[ext] structure Clock where
  /-- The year. -/
  year : Nat
  /-- The month, from 1. -/
  mon : Nat
  /-- The day of the month, from 1. -/
  dom : Int
  /-- The day of the week, from 1 for Sunday. -/
  dow : Nat
  /-- The hour. -/
  hour : Nat
  /-- The minute. -/
  min : Nat
  /-- The second. -/
  sec : Nat
  deriving DecidableEq, Repr

variable (t : ToyRtc)

/-- The seconds since the epoch. -/
def elapsed (cycles : Word) : Word := cycles / t.cyclesPerSecond

/-- The date and the time of day at a cycle count. -/
def clock (cycles : Word) : Clock :=
  let daySecs := t.elapsed cycles % 86400
  let days := t.elapsed cycles / 86400
  let date := walk kEpochYear 1 (days.setWidth 32).toInt
  { year := date.1
    mon := date.2.1
    dom := date.2.2
    dow := 1 + ((kEpochDow - 1) + (days % 7).toNat) % 7
    hour := (daySecs / 3600).toNat
    min := (daySecs / 60 % 60).toNat
    sec := (daySecs % 60).toNat }

/-- A number in the format of the registers, binary or decimal. -/
def encode (v : BitVec 8) (binary : Bool) : BitVec 8 :=
  if binary then v else (v / 10) <<< 4 ||| v % 10

/-- The hours register. -/
def hourReg (hour : Nat) (binary h24 : Bool) : BitVec 8 :=
  if h24 then encode (BitVec.ofNat 8 hour) binary
  else
    let h12 := if hour % 12 = 0 then 12 else hour % 12
    let reg := encode (BitVec.ofNat 8 h12) binary
    if 12 ≤ hour then reg ||| kHourPmBit else reg

/-- The formats of the registers. -/
def binary : Bool := decide (t.cmos kRegB &&& kRegB_DM ≠ 0)

/-- The hours are in the format of 24. -/
def h24 : Bool := decide (t.cmos kRegB &&& kRegB_H24 ≠ 0)

/-- A byte of the CMOS is set. -/
def set (reg v : BitVec 8) : ToyRtc := { t with cmos := Function.update t.cmos reg v }

/-- Fill the clock registers, at this cycle count. -/
def materializeClock (cycles : Word) : ToyRtc :=
  let k := t.clock cycles
  let enc := fun v : BitVec 8 => encode v t.binary
  ((((((t.set kRegSeconds (enc (BitVec.ofNat 8 k.sec))).set kRegMinutes
    (enc (BitVec.ofNat 8 k.min))).set kRegHours (hourReg k.hour t.binary t.h24)).set kRegDow
    (enc (BitVec.ofNat 8 k.dow))).set kRegDom (enc (BitVec.ofInt 8 k.dom))).set kRegMonth
    (enc (BitVec.ofNat 8 k.mon))).set kRegYear (enc (BitVec.ofNat 8 (k.year % 100)))

/-! ## Reading the registers -/

/-- The number that a register holds. -/
def decode (v : BitVec 8) (binary : Bool) : Nat :=
  if binary then v.toNat else (v >>> 4).toNat * 10 + (v &&& 0x0F).toNat

/-- The hour that the hours register holds. -/
def decodeHour (v : BitVec 8) (binary h24 : Bool) : Nat :=
  if h24 then decode v binary
  else
    let h12 := decode (v &&& 0x7F) binary % 12
    if v &&& kHourPmBit ≠ 0 then h12 + 12 else h12

/-- What the registers say; of the year they have two digits. -/
def decoded : Clock where
  year := decode (t.cmos kRegYear) t.binary
  mon := decode (t.cmos kRegMonth) t.binary
  dom := decode (t.cmos kRegDom) t.binary
  dow := decode (t.cmos kRegDow) t.binary
  hour := decodeHour (t.cmos kRegHours) t.binary t.h24
  min := decode (t.cmos kRegMinutes) t.binary
  sec := decode (t.cmos kRegSeconds) t.binary

/-- A number below 100 is read back. -/
theorem decode_encode (binary : Bool) {n : Nat} (h : n < 100) :
    decode (encode (BitVec.ofNat 8 n) binary) binary = n := by
  have hall : ∀ binary, ∀ n < 100, decode (encode (BitVec.ofNat 8 n) binary) binary = n := by
    decide
  exact hall binary n h

/-- An hour is read back in either format. -/
theorem decodeHour_hourReg (binary h24 : Bool) {hour : Nat} (h : hour < 24) :
    decodeHour (hourReg hour binary h24) binary h24 = hour := by
  have hall : ∀ binary h24, ∀ hour < 24,
      decodeHour (hourReg hour binary h24) binary h24 = hour := by decide
  exact hall binary h24 hour h

/-! ## The walk through the calendar -/

open Calendar (Date firstOf newYear)

/-- The table of the months is that of the calendar. -/
theorem daysInMonth_eq {mon : Nat} (year : Nat) (hpos : 1 ≤ mon) (hle : mon ≤ 12) :
    daysInMonth year mon = Calendar.daysInMonth year mon := by
  have hleap : (year % 4 = 0 ∧ year % 100 ≠ 0) ∨ year % 400 = 0 ↔ Calendar.IsLeap year := by
    simp only [Calendar.IsLeap, Nat.dvd_iff_mod_eq_zero, ne_eq]
  have htable : ∀ leap, ∀ m < 13, 1 ≤ m →
      (if m = 2 ∧ leap = true then 29 else kDim.getD (m - 1) 31) =
        if m = 2 then if leap = true then 29 else 28
        else if m = 4 ∨ m = 6 ∨ m = 9 ∨ m = 11 then 30 else 31 := by decide
  have hmon := htable (decide (Calendar.IsLeap year)) mon (Nat.lt_succ_of_le hle) hpos
  simp only [decide_eq_true_eq] at hmon
  simp only [daysInMonth, Calendar.daysInMonth, hleap]
  exact hmon

/-- **The walk comes to the date of that number.** -/
theorem walk_eq (year mon : Nat) (remaining : Int) (hpos : 1 ≤ mon) (hle : mon ≤ 12)
    (hremaining : 0 ≤ remaining) :
    ∃ d : Date, walk year mon remaining = (d.year, d.month, (d.day : Int)) ∧
      (d.dayNumber : Int) = (firstOf year mon hpos hle).dayNumber + remaining := by
  fun_induction walk year mon remaining with
  | case1 year mon remaining dim hfits =>
    -- the date is in this month
    have hdim : dim = Calendar.daysInMonth year mon := daysInMonth_eq year hpos hle
    rw [hdim] at hfits
    refine ⟨⟨year, mon, 1 + remaining.toNat, hpos, hle, by omega, by omega⟩, ?_, ?_⟩
    · simp only [Prod.mk.injEq, true_and]
      omega
    · rw [Date.dayNumber_firstOf]
      simp only [Date.dayNumber]
      omega
  | case2 year mon remaining dim hfits hlast ih =>
    have hdim : dim = Calendar.daysInMonth year mon := daysInMonth_eq year hpos hle
    obtain rfl : mon = 12 := by omega
    obtain ⟨d, hwalk, hnumber⟩ := ih (Nat.le_refl 1) (by decide) (by omega)
    refine ⟨d, hwalk, ?_⟩
    rw [hnumber, ← newYear, Date.dayNumber_newYear, hdim]
    omega
  | case3 year mon remaining dim hfits hlast ih =>
    have hdim : dim = Calendar.daysInMonth year mon := daysInMonth_eq year hpos hle
    obtain ⟨d, hwalk, hnumber⟩ := ih (Nat.succ_pos _) (Nat.le_of_not_lt hlast) (by omega)
    refine ⟨d, hwalk, ?_⟩
    rw [hnumber, Date.dayNumber_firstOf_succ hpos (Nat.lt_of_not_le fun h => hlast (by omega)),
      hdim]
    omega

/-- The first of January 2026. -/
def epoch : Date := newYear kEpochYear

/-- The weekday at which the clock starts is that of its date. -/
theorem weekday_epoch : epoch.weekday = kEpochDow := by decide

/-- From the epoch on it is the date that many days after. -/
theorem walk_epoch (n : Nat) :
    walk kEpochYear 1 n =
      ((epoch.after n).year, (epoch.after n).month, ((epoch.after n).day : Int)) := by
  obtain ⟨d, hwalk, hnumber⟩ := walk_eq kEpochYear 1 n (Nat.le_refl 1) (by decide) (by omega)
  have hd : d = epoch.after n := by
    refine Date.dayNumber_injective ?_
    rw [Date.dayNumber_after]
    rw [epoch, newYear]
    omega
  rw [hwalk, hd]

/-! ## The clock -/

/-- The whole seconds that have passed. -/
def seconds (cycles : Word) : Nat := cycles.toNat / t.cyclesPerSecond.toNat

/-- The date that many seconds after the epoch. -/
def date (cycles : Word) : Date := epoch.after (t.seconds cycles / 86400)

/-- The clock computes the date and the time of day, as long as the count of days is an `int`. -/
theorem clock_eq {cycles : Word} (hdays : t.seconds cycles / 86400 < 2 ^ 31) :
    t.clock cycles =
      { year := (t.date cycles).year
        mon := (t.date cycles).month
        dom := (t.date cycles).day
        dow := (t.date cycles).weekday
        hour := t.seconds cycles % 86400 / 3600
        min := t.seconds cycles % 86400 / 60 % 60
        sec := t.seconds cycles % 86400 % 60 } := by
  have helapsed : (t.elapsed cycles).toNat = t.seconds cycles := BitVec.toNat_udiv
  have hday : (t.elapsed cycles / 86400).toNat = t.seconds cycles / 86400 := by
    rw [BitVec.toNat_udiv, helapsed]
    rfl
  have htime : (t.elapsed cycles % 86400).toNat = t.seconds cycles % 86400 := by
    rw [BitVec.toNat_umod, helapsed]
    rfl
  have hint : ((t.elapsed cycles / 86400).setWidth 32).toInt =
      ((t.seconds cycles / 86400 : Nat) : Int) := by
    have htoNat : ((t.elapsed cycles / 86400).setWidth 32).toNat = t.seconds cycles / 86400 := by
      rw [BitVec.toNat_setWidth, hday, Nat.mod_eq_of_lt (by omega)]
    rw [BitVec.toInt_eq_toNat_of_lt (by omega), htoNat]
  rw [clock, hint, walk_epoch]
  refine Clock.ext rfl rfl rfl ?_ ?_ ?_ ?_
  · show 1 + (kEpochDow - 1 + (t.elapsed cycles / 86400 % 7).toNat) % 7 = _
    rw [BitVec.toNat_umod, hday, date, Date.weekday_after, weekday_epoch]
    show 1 + (4 + t.seconds cycles / 86400 % 7) % 7 = 1 + (4 + t.seconds cycles / 86400) % 7
    omega
  · show (t.elapsed cycles % 86400 / 3600).toNat = _
    rw [BitVec.toNat_udiv, htime]
    rfl
  · show (t.elapsed cycles % 86400 / 60 % 60).toNat = _
    rw [BitVec.toNat_umod, BitVec.toNat_udiv, htime]
    rfl
  · show (t.elapsed cycles % 86400 % 60).toNat = _
    rw [BitVec.toNat_umod, htime]
    rfl

/-- The registers of the clock. -/
def clockRegs : List (BitVec 8) :=
  [kRegSeconds, kRegMinutes, kRegHours, kRegDow, kRegDom, kRegMonth, kRegYear]

/-- Only they are filled. -/
theorem cmos_materializeClock (cycles : Word) {reg : BitVec 8} (h : reg ∉ clockRegs) :
    (t.materializeClock cycles).cmos reg = t.cmos reg := by
  simp only [clockRegs, List.mem_cons, List.not_mem_nil, or_false, not_or] at h
  obtain ⟨hsec, hmin, hhour, hdow, hdom, hmon, hyear⟩ := h
  simp only [materializeClock, set, Function.update_of_ne, ne_eq, hsec, hmin, hhour, hdow, hdom,
    hmon, hyear, not_false_eq_true]

/-- **What is filled in says what the clock has computed**, without the century. -/
theorem decoded_materializeClock {cycles : Word} (hdays : t.seconds cycles / 86400 < 2 ^ 31) :
    (t.materializeClock cycles).decoded =
      { t.clock cycles with year := (t.clock cycles).year % 100 } := by
  have hformat : (t.materializeClock cycles).cmos kRegB = t.cmos kRegB :=
    t.cmos_materializeClock cycles (by decide)
  have hbinary : (t.materializeClock cycles).binary = t.binary := by rw [binary, hformat, binary]
  have hh24 : (t.materializeClock cycles).h24 = t.h24 := by rw [h24, hformat, h24]
  -- the registers, the last one written on top
  have hyear : (t.materializeClock cycles).cmos kRegYear =
      encode (BitVec.ofNat 8 ((t.clock cycles).year % 100)) t.binary := rfl
  have hmon : (t.materializeClock cycles).cmos kRegMonth =
      encode (BitVec.ofNat 8 (t.clock cycles).mon) t.binary := rfl
  have hdom : (t.materializeClock cycles).cmos kRegDom =
      encode (BitVec.ofInt 8 (t.clock cycles).dom) t.binary := rfl
  have hdow : (t.materializeClock cycles).cmos kRegDow =
      encode (BitVec.ofNat 8 (t.clock cycles).dow) t.binary := rfl
  have hhour : (t.materializeClock cycles).cmos kRegHours =
      hourReg (t.clock cycles).hour t.binary t.h24 := rfl
  have hmin : (t.materializeClock cycles).cmos kRegMinutes =
      encode (BitVec.ofNat 8 (t.clock cycles).min) t.binary := rfl
  have hsec : (t.materializeClock cycles).cmos kRegSeconds =
      encode (BitVec.ofNat 8 (t.clock cycles).sec) t.binary := rfl
  rw [decoded, hbinary, hh24, hyear, hmon, hdom, hdow, hhour, hmin, hsec, t.clock_eq hdays]
  have hmonth := (t.date cycles).month_le
  have hday := (t.date cycles).day_le.trans (Calendar.daysInMonth_le _ _)
  have hweekday : (t.date cycles).weekday ≤ 7 := by
    rw [Date.weekday]
    omega
  ext <;> simp only [BitVec.ofInt_natCast]
  · rw [decode_encode _ (Nat.mod_lt _ (by decide))]
  · rw [decode_encode _ (by omega)]
  · rw [decode_encode _ (by omega)]
  · rw [decode_encode _ (by omega)]
  · rw [decodeHour_hourReg _ _ (by omega)]
  · rw [decode_encode _ (by omega)]
  · rw [decode_encode _ (by omega)]

/-! ## The main result -/

/-- The moment of a clock: from the year down to the second. -/
def Clock.moment (k : Clock) : Nat ×ₗ Nat ×ₗ Int ×ₗ Nat ×ₗ Nat ×ₗ Nat :=
  toLex (k.year, toLex (k.mon, toLex (k.dom, toLex (k.hour, toLex (k.min, k.sec)))))

/-- **Time does not go back.** -/
theorem moment_mono {cycles cycles' : Word} (h : cycles' ≤ cycles)
    (hdays : t.seconds cycles / 86400 < 2 ^ 31) :
    (t.clock cycles').moment ≤ (t.clock cycles).moment := by
  have hseconds : t.seconds cycles' ≤ t.seconds cycles := Nat.div_le_div_right (BitVec.le_def.1 h)
  rw [t.clock_eq hdays, t.clock_eq (by omega)]
  simp only [Clock.moment, Prod.Lex.toLex_le_toLex]
  rcases (Nat.div_le_div_right hseconds : t.seconds cycles' / 86400 ≤ _).lt_or_eq with hlt | heq
  · -- an earlier day
    have hkey : (t.date cycles').key < (t.date cycles).key := by
      rw [← Date.dayNumber_lt_iff, date, date, Date.dayNumber_after, Date.dayNumber_after]
      omega
    have hdate := Date.key_lt_iff.1 hkey
    omega
  · -- the same day
    have hdate : t.date cycles' = t.date cycles := by rw [date, date, heq]
    rw [hdate]
    omega

/-- **The clock.** As long as the count of days is an `int`, the clock computes the date that many
seconds after the epoch in the proleptic Gregorian calendar, with its weekday and the time of day;
its registers say so in the format of register B, the year with two digits; nothing else is filled;
and time does not go back. -/
theorem toy_clock {cycles : Word} (hdays : t.seconds cycles / 86400 < 2 ^ 31) :
    let k := t.clock cycles
    let d := epoch.after (t.seconds cycles / 86400)
    (k.year = d.year ∧ k.mon = d.month ∧ k.dom = d.day ∧ k.dow = d.weekday) ∧
      (k.hour < 24 ∧ k.min < 60 ∧ k.sec < 60 ∧
        (k.hour * 60 + k.min) * 60 + k.sec = t.seconds cycles % 86400) ∧
      (t.materializeClock cycles).decoded = { k with year := k.year % 100 } ∧
      (∀ reg, reg ∉ clockRegs → (t.materializeClock cycles).cmos reg = t.cmos reg) ∧
      ∀ cycles', cycles' ≤ cycles → (t.clock cycles').moment ≤ k.moment := by
  intro k d
  have hk : k = _ := t.clock_eq hdays
  refine ⟨?_, ?_, t.decoded_materializeClock hdays, fun reg => t.cmos_materializeClock cycles,
    fun cycles' h => t.moment_mono h hdays⟩
  · rw [hk]
    exact ⟨rfl, rfl, rfl, rfl⟩
  · rw [hk]
    simp only []
    omega

/-- One second before midnight of the 59th day. -/
theorem toy_clock_february : (({} : ToyRtc).materializeClock 5097599000000000).decoded =
    { ({} : ToyRtc).clock 5097599000000000 with
      year := (({} : ToyRtc).clock 5097599000000000).year % 100 } :=
  (toy_clock {} (by decide)).2.2.1

/-- The cycle count of the first of January 2426. -/
def fourCenturies : Word := 12622780800000000000

/-- Then the registers are those of the epoch, for the century is not stored. -/
theorem centuries_alike :
    (({} : ToyRtc).clock 0).year = 2026 ∧ (({} : ToyRtc).clock fourCenturies).year = 2426 ∧
      ∀ reg, (({} : ToyRtc).materializeClock fourCenturies).cmos reg =
        (({} : ToyRtc).materializeClock 0).cmos reg := by
  have hnow : ({} : ToyRtc).clock 0 = ⟨2026, 1, 1, 5, 0, 0, 0⟩ := by
    rw [clock_eq {} (by decide)]
    decide
  have hdate : ({} : ToyRtc).date fourCenturies = newYear 2426 := by
    refine Date.dayNumber_injective ?_
    rw [date, Date.dayNumber_after]
    decide
  have hlater : ({} : ToyRtc).clock fourCenturies = ⟨2426, 1, 1, 5, 0, 0, 0⟩ := by
    rw [clock_eq {} (by decide), hdate]
    decide
  refine ⟨by rw [hnow], by rw [hlater], fun reg => ?_⟩
  rw [materializeClock, materializeClock, hnow, hlater]
  rfl

end ToyRtc

end EmulatR
