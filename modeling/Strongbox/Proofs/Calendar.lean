import Strongbox.Timestamp

/-!
# Days and dates

Every day of the years that have four digits has a date of the calendar, and the date leads back to the day. Years
are counted from March here, so that the day that only leap years have is the last one of its year.
-/

namespace Strongbox.Timestamp

structure IsDate (year month day : Nat) : Prop where
  years : 1 ≤ year ∧ year ≤ 9999
  months : 1 ≤ month ∧ month ≤ 12
  days : 1 ≤ day ∧ day ≤ daysInMonth year month

/-- A day of an era of 400 years: so many centuries, then so many cycles of four years, then so many years, and the
day of the year. -/
structure DayOfEra (dayOfEra century cycle year dayOfYear : Int) : Prop where
  sum : dayOfEra = 36524 * century + 1461 * cycle + 365 * year + dayOfYear
  centuries : 0 ≤ century ∧ century ≤ 3
  cycles : 0 ≤ cycle ∧ cycle ≤ 24
  years : 0 ≤ year ∧ year ≤ 3
  days : 0 ≤ dayOfYear ∧ dayOfYear ≤ 365
  /-- Only the last year of a cycle has 366 days, and that of a century only in the last century. -/
  leap : dayOfYear = 365 → year = 3 ∧ (cycle = 24 → century = 3)

theorem exists_dayOfEra {day : Int} (h : 0 ≤ day ∧ day ≤ 146096) :
    ∃ century cycle year dayOfYear, DayOfEra day century cycle year dayOfYear := by
  -- the last day of an era would begin a fifth century, that of a cycle a fifth year
  obtain ⟨century, hc⟩ : ∃ century, century = min (day / 36524) 3 := ⟨_, rfl⟩
  obtain ⟨cycle, hq⟩ : ∃ cycle, cycle = (day - 36524 * century) / 1461 := ⟨_, rfl⟩
  obtain ⟨year, hy⟩ : ∃ year, year = min ((day - 36524 * century - 1461 * cycle) / 365) 3 := ⟨_, rfl⟩
  refine ⟨century, cycle, year, day - 36524 * century - 1461 * cycle - 365 * year, ?_⟩
  constructor
  · omega
  · omega
  · omega
  · omega
  · omega
  · omega

variable {dayOfEra century cycle year dayOfYear : Int}

/-- The years of an era that are over are found by taking the days of the leap years away. -/
theorem DayOfEra.yearOfEra_eq (h : DayOfEra dayOfEra century cycle year dayOfYear) :
    (dayOfEra - dayOfEra / 1460 + dayOfEra / 36524 - dayOfEra / 146096) / 365 = 100 * century + 4 * cycle + year := by
  obtain ⟨sum, hc, hq, hy, hd, leap⟩ := h
  have centuries : dayOfEra / 36524 - dayOfEra / 146096 = century := by
    by_cases last : dayOfEra = 146096
    · omega
    · have short : 1461 * cycle + 365 * year + dayOfYear < 36524 := by omega
      omega
  have cycles : dayOfEra / 1460 = 25 * century + cycle ∨
      dayOfEra / 1460 = 25 * century + cycle + 1 ∧ year = 3 := by omega
  rcases cycles with cycles | ⟨cycles, rfl⟩
  · have day : dayOfYear ≤ 364 := by omega
    omega
  · omega

theorem DayOfEra.dayOfYear_eq (h : DayOfEra dayOfEra century cycle year dayOfYear) :
    dayOfEra - (365 * (100 * century + 4 * cycle + year) + (100 * century + 4 * cycle + year) / 4 -
      (100 * century + 4 * cycle + year) / 100) = dayOfYear := by
  obtain ⟨sum, hc, hq, hy, hd, leap⟩ := h
  omega

/-- Of the months, counted from March, only the last one is shorter than 30 days. -/
def monthLength (month dayOfYear : Int) : Int :=
  if month = 11 then (if dayOfYear = 365 then 29 else 28)
  else if month = 1 ∨ month = 3 ∨ month = 6 ∨ month = 8 then 30
  else 31

theorem day_le_monthLength (h : 0 ≤ dayOfYear ∧ dayOfYear ≤ 365) {month : Int} (hm : month = (5 * dayOfYear + 2) / 153) :
    0 ≤ month ∧ month ≤ 11 ∧ 0 ≤ dayOfYear - (153 * month + 2) / 5 ∧
      dayOfYear - (153 * month + 2) / 5 < monthLength month dayOfYear := by
  have range : 0 ≤ month ∧ month ≤ 11 := by omega
  refine ⟨range.1, range.2, by omega, ?_⟩
  unfold monthLength
  split
  · split
    · omega
    · omega
  split
  · omega
  · omega

/-- The date of a day, by its year from March and its day of the year. -/
theorem dateOfDays_eq {days era : Int} (h : DayOfEra dayOfEra century cycle year dayOfYear)
    (sum : days = 146097 * era + dayOfEra - 719468) {month m : Int} (hm : month = (5 * dayOfYear + 2) / 153)
    (hmonth : m = if month < 10 then month + 3 else month - 9) :
    dateOfDays days = (100 * century + 4 * cycle + year + era * 400 + (if m ≤ 2 then 1 else 0), m,
      dayOfYear - (153 * month + 2) / 5 + 1) := by
  have within : 0 ≤ dayOfEra ∧ dayOfEra < 146097 := by
    obtain ⟨sum, hc, hq, hy, hd, leap⟩ := h
    omega
  have eras : (days + 719468) / 146097 = era := by omega
  have rest : (days + 719468) % 146097 = dayOfEra := by omega
  subst hmonth hm
  simp only [dateOfDays, eras, rest, h.yearOfEra_eq, h.dayOfYear_eq]

theorem daysOfDate_eq {days era : Int} (h : DayOfEra dayOfEra century cycle year dayOfYear)
    (sum : days = 146097 * era + dayOfEra - 719468) {month : Int} (hm : month = (5 * dayOfYear + 2) / 153)
    {y m d : Nat} (hy : (y : Int) = 100 * century + 4 * cycle + year + era * 400 + (if (m : Int) ≤ 2 then 1 else 0))
    (hmonth : (m : Int) = if month < 10 then month + 3 else month - 9)
    (hd : (d : Int) = dayOfYear - (153 * month + 2) / 5 + 1) : daysOfDate y m d = days := by
  have range := day_le_monthLength h.days hm
  have shifted : ((m : Int) + 9) % 12 = month := by omega
  have years : (if m ≤ 2 then (y : Int) - 1 else y) = 100 * century + 4 * cycle + year + era * 400 := by
    rw [hy]
    split <;> omega
  have day := h.dayOfYear_eq
  obtain ⟨_, hc, hq, hyear, _, _⟩ := h
  generalize 100 * century + 4 * cycle + year = yearOfEra at *
  have eras : (yearOfEra + era * 400) / 400 = era := by omega
  have rest : (yearOfEra + era * 400) % 400 = yearOfEra := by omega
  simp only [daysOfDate, years, shifted, eras, rest]
  omega

/-- Only the February of a leap year has the day that only leap years have. -/
theorem isLeap_of_last (h : DayOfEra dayOfEra century cycle year 365) {era : Int} {y : Nat}
    (hy : (y : Int) = 100 * century + 4 * cycle + year + era * 400 + 1) : isLeap y = true := by
  obtain ⟨_, hc, hq, _, _, leap⟩ := h
  obtain ⟨rfl, full⟩ := leap rfl
  have fourth : y % 4 = 0 := by omega
  have hundredth : y % 100 ≠ 0 ∨ y % 400 = 0 := by omega
  simpa [isLeap, fourth] using hundredth

theorem monthLength_le {month : Int} (range : 0 ≤ month ∧ month ≤ 11) {y m : Nat}
    (hmonth : (m : Int) = if month < 10 then month + 3 else month - 9)
    (leap : dayOfYear = 365 → month = 11 → isLeap y = true) : monthLength month dayOfYear ≤ daysInMonth y m := by
  unfold monthLength daysInMonth
  by_cases last : month = 11
  · obtain rfl : m = 2 := by omega
    rw [if_pos last, if_pos rfl]
    by_cases full : dayOfYear = 365
    · rw [if_pos full, if_pos (leap full last)]
      omega
    · rw [if_neg full]
      split <;> omega
  · have other : m ≠ 2 := by omega
    rw [if_neg last, if_neg other]
    simp only [Bool.or_eq_true, decide_eq_true_eq]
    split <;> split <;> omega

/-- A day of a year with four digits has a date, which leads back to it. -/
theorem exists_date {days : Int} (h : -719162 ≤ days ∧ days ≤ 2932896) : ∃ year month day : Nat,
    dateOfDays days = ((year : Int), (month : Int), (day : Int)) ∧ IsDate year month day ∧
      daysOfDate year month day = days := by
  obtain ⟨era, he⟩ : ∃ era, era = (days + 719468) / 146097 := ⟨_, rfl⟩
  obtain ⟨dayOfEra, hrest⟩ : ∃ dayOfEra, dayOfEra = (days + 719468) % 146097 := ⟨_, rfl⟩
  obtain ⟨century, cycle, year, dayOfYear, split⟩ := exists_dayOfEra (show 0 ≤ dayOfEra ∧ dayOfEra ≤ 146096 by omega)
  have sum : days = 146097 * era + dayOfEra - 719468 := by omega
  obtain ⟨month, hm⟩ : ∃ month, month = (5 * dayOfYear + 2) / 153 := ⟨_, rfl⟩
  obtain ⟨low, high, first, last⟩ := day_le_monthLength split.days hm
  obtain ⟨m, hmonth⟩ : ∃ m : Nat, (m : Int) = if month < 10 then month + 3 else month - 9 :=
    ⟨(if month < 10 then month + 3 else month - 9).toNat, by omega⟩
  obtain ⟨d, hd⟩ : ∃ d : Nat, (d : Int) = dayOfYear - (153 * month + 2) / 5 + 1 :=
    ⟨(dayOfYear - (153 * month + 2) / 5 + 1).toNat, by omega⟩
  obtain ⟨y, hy⟩ : ∃ y : Nat,
      (y : Int) = 100 * century + 4 * cycle + year + era * 400 + (if (m : Int) ≤ 2 then 1 else 0) := by
    refine ⟨(100 * century + 4 * cycle + year + era * 400 + (if (m : Int) ≤ 2 then 1 else 0)).toNat, ?_⟩
    obtain ⟨_, hc, hq, hyear, _, _⟩ := split
    omega
  refine ⟨y, m, d, ?_, ?_, daysOfDate_eq split sum hm hy hmonth hd⟩
  · rw [dateOfDays_eq split sum hm hmonth, ← hd, hy]
  · have bounds := split
    obtain ⟨_, hc, hq, hyear, hday, _⟩ := bounds
    constructor
    · -- the first day is in January, of a year that began before the first one, and the last is in December
      omega
    · omega
    · have length : monthLength month dayOfYear ≤ daysInMonth y m := by
        apply monthLength_le ⟨low, high⟩ hmonth
        rintro rfl rfl
        exact isLeap_of_last split (show (y : Int) = 100 * century + 4 * cycle + year + era * 400 + 1 by omega)
      omega

end Strongbox.Timestamp
