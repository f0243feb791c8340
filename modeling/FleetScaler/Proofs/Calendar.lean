import FleetScaler.Calendar
import Mathlib.Tactic.IntervalCases
import Mathlib.Tactic.Linarith
import Mathlib.Tactic.NormNum

/-!
# The calendar goes on day by day

`Date.ofDays` finds a date by division. What it is to find is said here by the rules of the
Gregorian calendar alone: how long a month is, which years have a leap day, and which date comes
next. Every whole number of days has exactly one date (`valid_ofDays`, `toDays_ofDays`,
`ofDays_toDays`), one more day leads to the next date (`ofDays_add_one`), and a later date is one of
more days (`toDays_lt_iff`).

The years of an era fall into four centuries, a century into cycles of four years. Only with all
three parts apart is the year of a day a matter of linear arithmetic (`yearOfEra_eq`).
-/

namespace FleetScaler.Date

/-! ## The rules of the calendar -/

/-- A year of 366 days. -/
def IsLeap (year : Int) : Prop := year % 4 = 0 ∧ (year % 100 ≠ 0 ∨ year % 400 = 0)

instance (year : Int) : Decidable (IsLeap year) := inferInstanceAs (Decidable (_ ∧ _))

/-- The number of days of a month. -/
def monthLength (year month : Int) : Int :=
  if month = 2 then if IsLeap year then 29 else 28
  else if month = 4 ∨ month = 6 ∨ month = 9 ∨ month = 11 then 30
  else 31

/-- The date is one of the calendar. -/
structure Valid (date : Date) : Prop where
  month_pos : 1 ≤ date.month
  month_le : date.month ≤ 12
  day_pos : 1 ≤ date.day
  day_le : date.day ≤ monthLength date.year date.month

instance (date : Date) : Decidable date.Valid :=
  decidable_of_iff (1 ≤ date.month ∧ date.month ≤ 12 ∧ 1 ≤ date.day ∧
      date.day ≤ monthLength date.year date.month)
    ⟨fun h => ⟨h.1, h.2.1, h.2.2.1, h.2.2.2⟩, fun h => ⟨h.1, h.2, h.3, h.4⟩⟩

/-- The date at which the count of days begins. -/
def epoch : Date := { year := 1970, month := 1, day := 1 }

/-- The next date of the calendar. -/
def tomorrow (date : Date) : Date :=
  if date.day < monthLength date.year date.month then { date with day := date.day + 1 }
  else if date.month < 12 then { date with month := date.month + 1, day := 1 }
  else { year := date.year + 1, month := 1, day := 1 }

/-- A date comes before another one. -/
def Before (date date' : Date) : Prop :=
  date.year < date'.year ∨ date.year = date'.year ∧
    (date.month < date'.month ∨ date.month = date'.month ∧ date.day < date'.day)

theorem monthLength_pos (year month : Int) : 28 ≤ monthLength year month := by
  unfold monthLength
  split
  · split <;> decide
  · split <;> decide

theorem valid_tomorrow {date : Date} (h : date.Valid) : date.tomorrow.Valid := by
  obtain ⟨hmonth, hmonth', hday, hday'⟩ := h
  unfold tomorrow
  split
  · exact ⟨hmonth, hmonth', by simp; omega, by simp; omega⟩
  split
  · have := monthLength_pos date.year (date.month + 1)
    exact ⟨by simp; omega, by simp; omega, by simp, by simp; omega⟩
  · have := monthLength_pos (date.year + 1) 1
    exact ⟨by simp, by simp, by simp, by simp; omega⟩

/-- A month begins where the one before it ends. -/
theorem toDays_next_month (year : Int) {month : Int} (hmonth : 1 ≤ month) (hmonth' : month < 12) :
    toDays ⟨year, month + 1, 1⟩ = toDays ⟨year, month, monthLength year month⟩ + 1 := by
  interval_cases month <;> simp only [toDays, monthLength, IsLeap] <;> norm_num <;> omega

/-- So does a year. -/
theorem toDays_next_year (year : Int) :
    toDays ⟨year + 1, 1, 1⟩ = toDays ⟨year, 12, 31⟩ + 1 := by
  simp only [toDays]
  norm_num
  omega

/-- **One more day leads to the next date.** -/
theorem toDays_tomorrow {date : Date} (h : date.Valid) :
    date.tomorrow.toDays = date.toDays + 1 := by
  obtain ⟨year, month, day⟩ := date
  obtain ⟨hmonth, hmonth', hday, hday'⟩ := h
  simp only at hmonth hmonth' hday hday'
  unfold tomorrow
  split
  · simp only [toDays]
    omega
  · rename_i hlast
    obtain rfl : day = monthLength year month := by simp only at hlast; omega
    split
    · rename_i hyear
      exact toDays_next_month year hmonth hyear
    · rename_i hyear
      obtain rfl : month = 12 := by simp only at hyear; omega
      exact toDays_next_year year

/-! ## Earlier and later -/

theorem toDays_month_lt {year month month' day day' : Int} (hmonth : 1 ≤ month)
    (hlt : month < month') (hle : month' ≤ 12) (hday : day ≤ monthLength year month)
    (hday' : 1 ≤ day') : toDays ⟨year, month, day⟩ < toDays ⟨year, month', day'⟩ := by
  have hnext := toDays_next_month year hmonth (by omega)
  have hin : toDays ⟨year, month, day⟩ ≤ toDays ⟨year, month, monthLength year month⟩ := by
    simp only [toDays]
    omega
  have hlater : toDays ⟨year, month + 1, 1⟩ ≤ toDays ⟨year, month', day'⟩ := by
    simp only [toDays]
    split <;> split <;> omega
  omega

theorem toDays_year_lt {date date' : Date} (h : date.Valid) (h' : date'.Valid)
    (hlt : date.year < date'.year) : date.toDays < date'.toDays := by
  obtain ⟨year, month, day⟩ := date
  obtain ⟨year', month', day'⟩ := date'
  obtain ⟨hmonth, hmonth', hday, hday'⟩ := h
  obtain ⟨hfirst, hfirst', hbegin, -⟩ := h'
  simp only at hmonth hmonth' hday hday' hfirst hfirst' hbegin hlt
  have hend : toDays ⟨year, month, day⟩ ≤ toDays ⟨year, 12, 31⟩ := by
    rcases Int.lt_or_eq_of_le hmonth' with hm | rfl
    · exact Int.le_of_lt (toDays_month_lt hmonth hm (by decide) hday' (by decide))
    · have hlength : monthLength year 12 = 31 := by simp [monthLength]
      simp only [toDays]
      omega
  have hnext := toDays_next_year year
  have hyears : toDays ⟨year + 1, 1, 1⟩ ≤ toDays ⟨year', 1, 1⟩ := by
    simp only [toDays]
    norm_num
    omega
  have hstart : toDays ⟨year', 1, 1⟩ ≤ toDays ⟨year', month', day'⟩ := by
    rcases Int.lt_or_eq_of_le hfirst with hm | rfl
    · refine Int.le_of_lt (toDays_month_lt (by decide) hm hfirst' ?_ hbegin)
      simp [monthLength]
    · simp only [toDays]
      omega
  omega

theorem toDays_lt_of_before {date date' : Date} (h : date.Valid) (h' : date'.Valid)
    (hb : date.Before date') : date.toDays < date'.toDays := by
  rcases hb with hyear | ⟨hyear, hmonth | ⟨hmonth, hday⟩⟩
  · exact toDays_year_lt h h' hyear
  · obtain ⟨year, month, day⟩ := date
    obtain ⟨year', month', day'⟩ := date'
    obtain rfl : year = year' := hyear
    exact toDays_month_lt h.month_pos hmonth h'.month_le h.day_le h'.day_pos
  · simp only [toDays, hyear, hmonth]
    omega

theorem before_trichotomy (date date' : Date) :
    date.Before date' ∨ date = date' ∨ date'.Before date := by
  obtain ⟨year, month, day⟩ := date
  obtain ⟨year', month', day'⟩ := date'
  simp only [Before, Date.mk.injEq]
  omega

/-- **A later date is one of more days.** -/
theorem toDays_lt_iff {date date' : Date} (h : date.Valid) (h' : date'.Valid) :
    date.toDays < date'.toDays ↔ date.Before date' := by
  refine ⟨fun hlt => ?_, toDays_lt_of_before h h'⟩
  rcases before_trichotomy date date' with hb | rfl | hb
  · exact hb
  · omega
  · have := toDays_lt_of_before h' h hb
    omega

/-! ## The date of a day -/

/-- The year of an era in which a day of the era falls. There is one leap day less in a century,
except in the last one, and one more in each cycle of four years. -/
theorem yearOfEra_eq {century cycle year dayOfYear : Int} (hcentury : 0 ≤ century ∧ century ≤ 3)
    (hcycle : 0 ≤ cycle ∧ cycle ≤ 24) (hyear : 0 ≤ year ∧ year ≤ 3)
    (hday : 0 ≤ dayOfYear ∧ dayOfYear ≤ 365)
    (hleap : dayOfYear = 365 → year = 3 ∧ (cycle = 24 → century = 3)) :
    let day := 36524 * century + 1461 * cycle + 365 * year + dayOfYear
    0 ≤ day ∧ day < 146097 ∧
      (day - day / 1460 + day / 36524 - day / 146096) / 365
        = 100 * century + 4 * cycle + year := by
  intro day
  have hlast : day < 146097 := by
    by_cases hextra : dayOfYear = 365
    · have := hleap hextra
      omega
    · omega
  refine ⟨by omega, hlast, ?_⟩
  -- the last day of an era is the only one beyond four centuries of equal length
  have hcenturies : day / 36524 - day / 146096 = century := by
    by_cases hlast : day = 146096
    · rw [hlast]
      omega
    · have hshort : 1461 * cycle + 365 * year + dayOfYear < 36524 := by
        by_cases hextra : dayOfYear = 365
        · have := hleap hextra
          omega
        · omega
      have hin : day / 36524 = century := by omega
      have hnone : day / 146096 = 0 := by omega
      omega
  -- counting years of 365 days runs over by one day at the end of a cycle
  have hover : day / 1460
      = 25 * century + cycle + (24 * century + cycle + 365 * year + dayOfYear) / 1460 := by omega
  have hone : 0 ≤ (24 * century + cycle + 365 * year + dayOfYear) / 1460 ∧
      (24 * century + cycle + 365 * year + dayOfYear) / 1460 ≤ 1 := by omega
  have hend : (24 * century + cycle + 365 * year + dayOfYear) / 1460 = 1 ↔
      1460 ≤ 24 * century + cycle + 365 * year + dayOfYear := by omega
  generalize (24 * century + cycle + 365 * year + dayOfYear) / 1460 = spill at hover hone hend
  have hdays : day - day / 1460 + day / 36524 - day / 146096
      = 365 * (100 * century + 4 * cycle + year) + (dayOfYear - spill) := by omega
  rw [hdays]
  omega

/-- The month that a day of a year beginning in March falls in. Only a leap day is the last of
366 days. -/
theorem month_of_dayOfYear {date : Date} (h : date.Valid) :
    let month := if date.month ≤ 2 then date.month + 9 else date.month - 3
    let dayOfYear := (153 * month + 2) / 5 + date.day - 1
    0 ≤ dayOfYear ∧ dayOfYear ≤ 365 ∧ (5 * dayOfYear + 2) / 153 = month ∧
      (dayOfYear = 365 → date.month = 2 ∧ IsLeap date.year) := by
  obtain ⟨year, month, day⟩ := date
  obtain ⟨hmonth, hmonth', hday, hday'⟩ := h
  simp only at hmonth hmonth' hday hday' ⊢
  by_cases hleap : IsLeap year
  · interval_cases month <;> simp [monthLength, hleap] at hday' ⊢ <;> omega
  · interval_cases month <;> simp [monthLength, hleap] at hday' ⊢ <;> omega

/-- A year by its era, its century, its cycle of four years, and its place in the cycle. -/
theorem exists_cycles (year : Int) : ∃ era century cycle place : Int,
    (0 ≤ century ∧ century ≤ 3) ∧ (0 ≤ cycle ∧ cycle ≤ 24) ∧ (0 ≤ place ∧ place ≤ 3) ∧
      year = 400 * era + (100 * century + 4 * cycle + place) ∧
      365 * year + year / 4 - year / 100 + year / 400
        = 146097 * era + (36524 * century + 1461 * cycle + 365 * place) := by
  refine ⟨year / 400, year % 400 / 100, year % 100 / 4, year % 4, ?_⟩
  omega

/-- What is found on a day, from what the divisions come to. -/
theorem ofDays_eq {days era dayOfEra yearOfEra dayOfYear month : Int}
    (hdays : days + 719468 = 146097 * era + dayOfEra)
    (hrange : 0 ≤ dayOfEra ∧ dayOfEra < 146097)
    (hyear : (dayOfEra - dayOfEra / 1460 + dayOfEra / 36524 - dayOfEra / 146096) / 365 = yearOfEra)
    (hday : dayOfEra - (365 * yearOfEra + yearOfEra / 4 - yearOfEra / 100) = dayOfYear)
    (hmonth : (5 * dayOfYear + 2) / 153 = month) :
    ofDays days = {
      year := era * 400 + yearOfEra + (if month < 10 then 0 else 1)
      month := if month < 10 then month + 3 else month - 9
      day := dayOfYear - (153 * month + 2) / 5 + 1 } := by
  have hera : (days + 719468) / 146097 = era := by
    clear hyear hday hmonth
    omega
  have hrest : (days + 719468) % 146097 = dayOfEra := by
    clear hyear hday hmonth
    omega
  simp only [ofDays, hera, hrest, hyear, hday, hmonth]

/-- **A date is found from its number of days.** -/
theorem ofDays_toDays {date : Date} (h : date.Valid) : ofDays date.toDays = date := by
  have hmonth := month_of_dayOfYear h
  obtain ⟨year, month, day⟩ := date
  obtain ⟨hfirst, hlast, -, -⟩ := h
  simp only at hfirst hlast hmonth
  -- the year that begins in March, and the month and day in it
  generalize hm : (if month ≤ 2 then month + 9 else month - 3) = monthOfYear at hmonth
  generalize hd : (153 * monthOfYear + 2) / 5 + day - 1 = dayOfYear at hmonth
  generalize hy : (if month ≤ 2 then year - 1 else year) = march
  obtain ⟨hday, hday', hfound, hleap⟩ := hmonth
  obtain ⟨era, century, cycle, place, hcentury, hcycle, hplace, hmarch, hlength⟩ :=
    exists_cycles march
  have hextra : dayOfYear = 365 → place = 3 ∧ (cycle = 24 → century = 3) := by
    intro hlong
    obtain ⟨rfl, hfour, hhundred⟩ := hleap hlong
    rw [if_pos (by decide)] at hy
    omega
  have hdays : toDays ⟨year, month, day⟩ + 719468
      = 146097 * era + (36524 * century + 1461 * cycle + 365 * place + dayOfYear) := by
    simp only [toDays, hm, hy]
    linarith
  have hbegun : 36524 * century + 1461 * cycle + 365 * place + dayOfYear
      - (365 * (100 * century + 4 * cycle + place) + (100 * century + 4 * cycle + place) / 4
        - (100 * century + 4 * cycle + place) / 100) = dayOfYear := by
    clear hlength hfound hd hdays
    omega
  obtain ⟨hlow, hhigh, hyear⟩ := yearOfEra_eq hcentury hcycle hplace ⟨hday, hday'⟩ hextra
  rw [ofDays_eq hdays ⟨hlow, hhigh⟩ hyear hbegun hfound, Date.mk.injEq]
  clear hyear hbegun hfound hdays hlength hextra hleap hlow hhigh
  split at hm <;> split at hy <;> split <;> omega

/-- The calendar repeats itself after an era. -/
theorem isLeap_sub_era (year : Int) (n : Nat) : IsLeap (year - 400 * n) ↔ IsLeap year := by
  unfold IsLeap
  omega

/-- Every number of days is that of a date. -/
theorem exists_valid (n : Int) : ∃ date : Date, date.Valid ∧ date.toDays = n := by
  have hcount : ∀ n : Nat, ∃ date : Date, date.Valid ∧ date.toDays = n := by
    intro n
    induction n with
    | zero => exact ⟨epoch, by decide, by decide⟩
    | succ n ih =>
        obtain ⟨date, hvalid, hdays⟩ := ih
        refine ⟨date.tomorrow, valid_tomorrow hvalid, ?_⟩
        rw [toDays_tomorrow hvalid, hdays]
        rfl
  -- a day before 1970 is as many eras back as are needed to count forward
  obtain ⟨⟨year, month, day⟩, hvalid, hdays⟩ := hcount (n + 146097 * n.natAbs).toNat
  refine ⟨⟨year - 400 * n.natAbs, month, day⟩, ?_, ?_⟩
  · have hlength : monthLength (year - 400 * n.natAbs) month = monthLength year month := by
      simp only [monthLength, isLeap_sub_era]
    exact ⟨hvalid.month_pos, hvalid.month_le, hvalid.day_pos, hlength.symm ▸ hvalid.day_le⟩
  · simp only [toDays] at hdays ⊢
    split at hdays <;> rename_i hmonth <;> simp only [hmonth, if_true, if_false] <;> omega

theorem valid_ofDays (n : Int) : (ofDays n).Valid := by
  obtain ⟨date, hvalid, rfl⟩ := exists_valid n
  rwa [ofDays_toDays hvalid]

/-- **The date of a day is as many days away.** -/
theorem toDays_ofDays (n : Int) : (ofDays n).toDays = n := by
  obtain ⟨date, hvalid, rfl⟩ := exists_valid n
  rw [ofDays_toDays hvalid]

/-- **The date of the next day is the next date.** -/
theorem ofDays_add_one (n : Int) : ofDays (n + 1) = (ofDays n).tomorrow := by
  have hvalid := valid_ofDays n
  rw [← ofDays_toDays (valid_tomorrow hvalid), toDays_tomorrow hvalid, toDays_ofDays]

/-! ## Counting the days -/

/-- The number of days of a year. -/
def yearLength (year : Int) : Int := if IsLeap year then 366 else 365

/-- The days from the start of 1970 to a date that is not before it: those of the years before the
date, of the months before it, and of its own month. -/
def count (date : Date) : Int :=
  ((List.range (date.year - 1970).toNat).map fun i : Nat => yearLength (1970 + i)).sum +
    ((List.range (date.month - 1).toNat).map fun i : Nat => monthLength date.year (i + 1)).sum +
    (date.day - 1)

theorem toDays_next_january (year : Int) :
    toDays ⟨year + 1, 1, 1⟩ = toDays ⟨year, 1, 1⟩ + yearLength year := by
  by_cases hleap : IsLeap year <;> simp only [toDays, yearLength, hleap, if_true, if_false] <;>
    simp only [IsLeap] at hleap <;> norm_num <;> omega

theorem sum_yearLength (n : Nat) :
    ((List.range n).map fun i : Nat => yearLength (1970 + i)).sum
      = toDays ⟨1970 + n, 1, 1⟩ := by
  induction n with
  | zero => decide
  | succ n ih =>
      have hnext := toDays_next_january (1970 + n)
      rw [List.range_succ, List.map_append, List.sum_append, ih]
      simp only [List.map_cons, List.map_nil, List.sum_cons, List.sum_nil, Int.add_zero,
        Nat.cast_add, Nat.cast_one, ← Int.add_assoc]
      exact hnext.symm

theorem sum_monthLength (year : Int) (n : Nat) (h : n < 12) :
    ((List.range n).map fun i : Nat => monthLength year (i + 1)).sum
      = toDays ⟨year, n + 1, 1⟩ - toDays ⟨year, 1, 1⟩ := by
  induction n with
  | zero => simp
  | succ n ih =>
      have hnext := toDays_next_month year (show 1 ≤ (n : Int) + 1 by omega) (by omega)
      have hlength : toDays ⟨year, n + 1, monthLength year (n + 1)⟩
          = toDays ⟨year, n + 1, 1⟩ + monthLength year (n + 1) - 1 := by
        simp only [toDays]
        omega
      rw [List.range_succ, List.map_append, List.sum_append, ih (by omega)]
      simp only [List.map_cons, List.map_nil, List.sum_cons, List.sum_nil, Nat.cast_add,
        Nat.cast_one]
      omega

/-- **The number of a date is the count of the days before it.** -/
theorem count_eq_toDays {date : Date} (h : date.Valid) (hyear : 1970 ≤ date.year) :
    date.count = date.toDays := by
  obtain ⟨year, month, day⟩ := date
  obtain ⟨hmonth, hmonth', -, -⟩ := h
  simp only at hmonth hmonth' hyear
  have hyears := sum_yearLength (year - 1970).toNat
  have hmonths := sum_monthLength year (month - 1).toNat (by omega)
  rw [show (1970 : Int) + (year - 1970).toNat = year by omega] at hyears
  rw [show ((month - 1).toNat : Int) + 1 = month by omega] at hmonths
  rw [count, hyears, hmonths]
  simp only [toDays]
  omega

end FleetScaler.Date
