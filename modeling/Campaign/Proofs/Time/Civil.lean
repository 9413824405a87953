import Campaign.Time.Civil
import Mathlib.Order.Monotone.Basic
import Mathlib.Tactic.IntervalCases
/-!
# Days and their numbers

`CivilDate.ofDays` finds the day of a number: `toDays` leads back (`toDays_ofDays`), and the date is
one of the calendar (`OfCalendar`).  The numbers of the years from 1 to 9999 are those from
`firstDay` to `lastDay` (`ofCalendar_ofDays`, `toDays_mem`).

Within an era of 400 years `ofDays` divides a corrected number of the day by 365.  The corrected
number never goes down (`corrected_mono`), and it steps over a multiple of 365 just where a year
begins, as a table of the 400 years shows (`yearOfEra_yearStart`); so the quotient is the year in
which the day lies (`yearOfEra_spec`).
-/
namespace Campaign.CivilDate

/-! ## Years of an era -/

/-- The number of a day of an era, corrected for the leap days before it. -/
def corrected (day : Nat) : Nat := day - day / 1460 + day / 36524 - day / 146096

/-- The year of the era in which a day lies. -/
def yearOfEra (day : Nat) : Nat := corrected day / 365

/-- The first day of a year of an era. -/
def yearStart (year : Nat) : Nat := 365 * year + year / 4 - year / 100

theorem corrected_mono : Monotone corrected := by
  refine monotone_nat_of_le_succ fun day => ?_
  unfold corrected
  omega

theorem yearOfEra_yearStart :
    ∀ year < 400, yearOfEra (yearStart year) = year ∧
      (year ≠ 0 → yearOfEra (yearStart year - 1) = year - 1) := by
  decide +kernel

theorem yearOfEra_mono {a b : Nat} (h : a ≤ b) : yearOfEra a ≤ yearOfEra b :=
  Nat.div_le_div_right (corrected_mono h)

/-- A day lies in its year. -/
theorem yearOfEra_spec {day : Nat} (h : day < 146097) :
    yearOfEra day < 400 ∧ yearStart (yearOfEra day) ≤ day ∧
      (yearOfEra day < 399 → day < yearStart (yearOfEra day + 1)) := by
  have hlast : yearOfEra day ≤ yearOfEra 146096 := yearOfEra_mono (by omega)
  have hlt : yearOfEra day < 400 := Nat.lt_of_le_of_lt hlast (by decide)
  obtain ⟨-, hbefore⟩ := yearOfEra_yearStart (yearOfEra day) hlt
  refine ⟨hlt, ?_, fun hnot => ?_⟩
  · by_contra hearly
    by_cases hzero : yearOfEra day = 0
    · rw [hzero] at hearly
      exact hearly (Nat.zero_le day)
    · have hle : yearOfEra day ≤ yearOfEra (yearStart (yearOfEra day) - 1) :=
        yearOfEra_mono (by omega)
      rw [hbefore hzero] at hle
      omega
  · by_contra hlate
    have hle := yearOfEra_mono (Nat.not_lt.1 hlate)
    rw [(yearOfEra_yearStart (yearOfEra day + 1) (by omega)).1] at hle
    omega

/-- Only a year that ends with a leap day has a day of number 365. -/
theorem leapYear_of_dayOfYear {day : Nat} (h : day < 146097) :
    day - yearStart (yearOfEra day) ≤ 365 ∧
      (day - yearStart (yearOfEra day) = 365 → leapYear (yearOfEra day + 1) = true) := by
  obtain ⟨hlt, hstart, hnext⟩ := yearOfEra_spec h
  generalize yearOfEra day = year at *
  unfold yearStart at *
  rcases Nat.lt_or_ge year 399 with hyear | hyear
  · have hnext := hnext hyear
    -- the next year begins a day later if it is a fourth one and not a century
    by_cases hfourth : (year + 1) % 4 = 0
    · have hquarter : (year + 1) / 4 = year / 4 + 1 := by omega
      by_cases hcentury : (year + 1) % 100 = 0
      · have hcenturies : (year + 1) / 100 = year / 100 + 1 := by omega
        omega
      · have hcenturies : (year + 1) / 100 = year / 100 := by omega
        exact ⟨by omega, fun _ => by simp [leapYear, hfourth, hcentury]⟩
    · have hquarter : (year + 1) / 4 = year / 4 := by omega
      have hcenturies : (year + 1) / 100 = year / 100 := by omega
      omega
  · obtain rfl : year = 399 := by omega
    exact ⟨by omega, fun _ => rfl⟩

/-! ## Dates -/

/-- The date of a day of a year that begins in March. -/
def ofYear (era : Int) (year day : Nat) : CivilDate :=
  let m := (5 * day + 2) / 153
  ⟨year + era * 400 + if m < 10 then 0 else 1, if m < 10 then m + 3 else m - 9,
    day - (153 * m + 2) / 5 + 1⟩

/-- The year and the day of the year that belong to a number. -/
theorem exists_year (n : Int) : ∃ (era : Int) (year day : Nat), year < 400 ∧ day ≤ 365 ∧
    (day = 365 → leapYear (year + 1) = true) ∧
    n + 719468 = era * 146097 + yearStart year + day ∧ ofDays n = ofYear era year day := by
  obtain ⟨day, hday⟩ : ∃ day : Nat, (day : Int) = (n + 719468) % 146097 :=
    Int.eq_ofNat_of_zero_le (Int.emod_nonneg _ (by decide)) |>.imp fun _ h => h.symm
  have hlt : day < 146097 := by omega
  obtain ⟨hyear, hstart, -⟩ := yearOfEra_spec hlt
  obtain ⟨hle, hleap⟩ := leapYear_of_dayOfYear hlt
  refine ⟨(n + 719468) / 146097, yearOfEra day, day - yearStart (yearOfEra day), hyear, hle, hleap,
    by omega, ?_⟩
  have hera : Int.fdiv (n + 719468) 146097 = (n + 719468) / 146097 :=
    Int.fdiv_eq_ediv_of_nonneg _ (by decide)
  have hofEra : n + 719468 - (n + 719468) / 146097 * 146097 = day := by omega
  have hquotient : ((day : Int) - day / 1460 + day / 36524 - day / 146096) / 365 =
      yearOfEra day := by
    unfold yearOfEra corrected
    omega
  have hofYear : (day : Int) - (365 * yearOfEra day + (yearOfEra day : Int) / 4 -
      (yearOfEra day : Int) / 100) = (day - yearStart (yearOfEra day) : Nat) := by
    unfold yearStart at *
    omega
  simp only [ofDays, hera, hofEra, hquotient, hofYear, ofYear]
  generalize day - yearStart (yearOfEra day) = dayOfYear at *
  have hmonth : (5 * (dayOfYear : Int) + 2) / 153 = ((5 * dayOfYear + 2) / 153 : Nat) := by omega
  rw [hmonth]
  have hlast : (5 * dayOfYear + 2) / 153 ≤ 11 := by omega
  have hdays : (153 * ((5 * dayOfYear + 2) / 153) + 2) / 5 ≤ dayOfYear := by omega
  generalize (5 * dayOfYear + 2) / 153 = m at *
  by_cases hm : m < 10
  · simp only [mk.injEq, if_pos hm, show (m : Int) < 10 by omega, if_true]
    omega
  · simp only [mk.injEq, if_neg hm, show ¬ (m : Int) < 10 by omega, if_false]
    omega

/-- The number of a day of a year that begins in March. -/
theorem toDays_ofYear (era : Int) {year day : Nat} (hyear : year < 400) (hday : day ≤ 365) :
    (ofYear era year day).toDays = era * 146097 + yearStart year + day - 719468 := by
  have hera : Int.fdiv (year + era * 400) 400 = era := by
    rw [Int.fdiv_eq_ediv_of_nonneg _ (by decide)]
    omega
  have hlast : (5 * day + 2) / 153 ≤ 11 := by omega
  have hdays : (153 * ((5 * day + 2) / 153) + 2) / 5 ≤ day := by omega
  unfold toDays ofYear yearStart
  generalize (5 * day + 2) / 153 = m at *
  by_cases hm : m < 10
  · have hmonth : ¬ m + 3 ≤ 2 := by omega
    simp only [if_pos hm, if_neg hmonth, Int.add_zero, hera]
    omega
  · have hmonth : m - 9 ≤ 2 := by omega
    simp only [if_neg hm, if_pos hmonth, Int.add_sub_cancel, hera]
    omega

/-- **The day of a number has that number.** -/
theorem toDays_ofDays (n : Int) : (ofDays n).toDays = n := by
  obtain ⟨era, year, day, hyear, hday, -, hn, heq⟩ := exists_year n
  rw [heq, toDays_ofYear era hyear hday]
  omega

/-! ## The calendar -/

/-- Whether a date is one of the calendar, in a year from 1 to 9999. -/
structure OfCalendar (d : CivilDate) : Prop where
  year : 1 ≤ d.year ∧ d.year ≤ 9999
  month : 1 ≤ d.month ∧ d.month ≤ 12
  day : 1 ≤ d.day ∧ d.day ≤ daysIn d.year.toNat d.month

/-- The number of the first day of the year 1. -/
def firstDay : Int := -719162

/-- The number of the last day of the year 9999. -/
def lastDay : Int := 2932896

theorem leapYear_add_era (year : Nat) (era : Nat) :
    leapYear (year + era * 400) = leapYear year := by
  have h4 : (year + era * 400) % 4 = year % 4 := by omega
  have h100 : (year + era * 400) % 100 = year % 100 := by omega
  have h400 : (year + era * 400) % 400 = year % 400 := by omega
  simp only [leapYear, h4, h100, h400]

/-- In a year that begins in March every month has as many days as the calendar says. -/
theorem day_ofYear (era : Nat) {year day : Nat} (hday : day ≤ 365)
    (hleap : day = 365 → leapYear (year + 1) = true) :
    1 ≤ (ofYear era year day).day ∧ (ofYear era year day).day ≤
      daysIn (ofYear era year day).year.toNat (ofYear era year day).month := by
  have hlow : 153 * ((5 * day + 2) / 153) ≤ 5 * day + 2 := by omega
  have hhigh : 5 * day + 2 < 153 * ((5 * day + 2) / 153) + 153 := by omega
  have hlast : (5 * day + 2) / 153 ≤ 11 := by omega
  unfold ofYear
  generalize (5 * day + 2) / 153 = m at *
  refine ⟨Nat.le_add_left 1 _, ?_⟩
  by_cases hfebruary : m = 11
  · subst hfebruary
    have hyear : ((year : Int) + era * 400 + 1).toNat = year + 1 + era * 400 := by omega
    simp only [daysIn, hyear, leapYear_add_era, show ¬ 11 < 10 by decide, if_false, if_true]
    split
    · omega
    · have hshort : day ≠ 365 := fun h => by simp_all
      omega
  · interval_cases m <;> simp [daysIn] <;> omega

theorem month_ofYear (era : Int) (year : Nat) {day : Nat} (hday : day ≤ 365) :
    1 ≤ (ofYear era year day).month ∧ (ofYear era year day).month ≤ 12 := by
  have hlast : (5 * day + 2) / 153 ≤ 11 := by omega
  dsimp only [ofYear]
  split <;> omega

/-- The days from January on, of number 306, are of the next year. -/
theorem year_ofYear (era : Int) (year day : Nat) :
    (ofYear era year day).year = year + era * 400 + if day < 306 then 0 else 1 := by
  dsimp only [ofYear]
  by_cases hday : day < 306
  · rw [if_pos hday, if_pos (by omega)]
  · rw [if_neg hday, if_neg (by omega)]

/-- **The days of the years from 1 to 9999 are dates of the calendar.** -/
theorem ofCalendar_ofDays {n : Int} (hfirst : firstDay ≤ n) (hlast : n ≤ lastDay) :
    (ofDays n).OfCalendar := by
  obtain ⟨era, year, day, hyear, hday, hleap, hn, heq⟩ := exists_year n
  rw [heq]
  unfold firstDay lastDay yearStart at *
  obtain ⟨era, rfl⟩ := Int.eq_ofNat_of_zero_le (show 0 ≤ era by omega)
  refine ⟨?_, month_ofYear era year hday, day_ofYear era hday hleap⟩
  rw [year_ofYear]
  split <;> omega

/-- The year of a number is one from 1 to 9999 on the days of these years only. -/
theorem year_ofDays_iff (n : Int) :
    1 ≤ (ofDays n).year ∧ (ofDays n).year ≤ 9999 ↔ firstDay ≤ n ∧ n ≤ lastDay := by
  refine ⟨fun hyears => ?_, fun hdays => (ofCalendar_ofDays hdays.1 hdays.2).year⟩
  obtain ⟨era, year, day, hyear, hday, -, hn, heq⟩ := exists_year n
  rw [heq, year_ofYear] at hyears
  unfold firstDay lastDay
  unfold yearStart at hn
  split at hyears <;> omega

theorem daysIn_le (year month : Nat) : daysIn year month ≤ 31 := by
  unfold daysIn
  split
  · split <;> omega
  · split
    · omega
    · split <;> omega

/-- **The dates of the calendar have the numbers of the years from 1 to 9999.** -/
theorem toDays_mem {d : CivilDate} (h : d.OfCalendar) :
    firstDay ≤ d.toDays ∧ d.toDays ≤ lastDay := by
  obtain ⟨⟨hfirst, hlast⟩, ⟨hmonth, hmonth'⟩, hday, hday'⟩ := h
  have hday' := hday'.trans (daysIn_le _ _)
  have hera (y : Int) : Int.fdiv y 400 = y / 400 := Int.fdiv_eq_ediv_of_nonneg _ (by decide)
  unfold toDays firstDay lastDay
  by_cases hm : d.month ≤ 2
  · simp only [if_pos hm, hera]
    omega
  · simp only [if_neg hm, hera]
    omega

end Campaign.CivilDate
