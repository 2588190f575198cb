/-
Dates and the numbers of their days.

Days and existing dates correspond one to one (`exists_ofDays`, `days_ofDays`,
`ofDays_days`), for every integer. Both directions go by an era of 400 years
that start in March: the year of a day of an era is an estimate, `yearOf`, that
grows with the day and is exact on the first and the last day of each year, so
that it is exact on all of them (`yearOf_eq_iff`). In a year the months start at
multiples of 153 / 5, and only the last one, February, depends on the year.

A day lies in the year of its date (`Exists.days_within`), so the dates of the
calendar are those of an interval of days (`Exists.inCalendar_iff`).
-/
import Recast.Time.Date

namespace Recast

namespace Civil

theorem isLeapYear_iff {year : Int} :
    isLeapYear year ↔ year % 4 = 0 ∧ (year % 100 ≠ 0 ∨ year % 400 = 0) := by
  simp [isLeapYear]

/-! ## Years of an era -/

/-- The first day of a year of an era. -/
def yearStart (y : Int) : Int := 365 * y + y / 4 - y / 100

/-- The last day of a year of an era, the leap day where the year ends in a leap year. -/
def yearEnd (y : Int) : Int := yearStart y + if isLeapYear (y + 1) then 365 else 364

/-- The year that a day of an era lies in. -/
def yearOf (d : Int) : Int := (d - d / 1460 + d / 36524 - d / 146096) / 365

theorem yearStart_succ {y : Int} (hy : 0 ≤ y ∧ y < 399) : yearStart (y + 1) = yearEnd y + 1 := by
  simp only [yearEnd, yearStart, isLeapYear_iff]
  split <;> omega

theorem year_within {y : Int} (hy : 0 ≤ y ∧ y < 400) : 0 ≤ yearStart y ∧ yearEnd y < 146097 := by
  simp only [yearEnd, yearStart, isLeapYear_iff]
  split <;> omega

theorem yearOf_ends : ∀ y : Fin 400,
    yearOf (yearStart y.val) = y.val ∧ yearOf (yearEnd y.val) = y.val := by
  decide +kernel

theorem yearOf_yearStart {y : Int} (hy : 0 ≤ y ∧ y < 400) : yearOf (yearStart y) = y := by
  obtain ⟨k, rfl⟩ := Int.eq_ofNat_of_zero_le hy.1
  exact (yearOf_ends ⟨k, by omega⟩).1

theorem yearOf_yearEnd {y : Int} (hy : 0 ≤ y ∧ y < 400) : yearOf (yearEnd y) = y := by
  obtain ⟨k, rfl⟩ := Int.eq_ofNat_of_zero_le hy.1
  exact (yearOf_ends ⟨k, by omega⟩).2

theorem yearOf_mono {a b : Int} (ha : 0 ≤ a) (hab : a ≤ b) (hb : b < 146097) :
    yearOf a ≤ yearOf b := by
  have h4 : b / 1460 - a / 1460 ≤ b - a := by omega
  have h100 : a / 36524 - a / 146096 ≤ b / 36524 - b / 146096 := by omega
  exact Int.ediv_le_ediv (by decide) (by omega)

theorem yearOf_within {d : Int} (hd : 0 ≤ d ∧ d < 146097) : 0 ≤ yearOf d ∧ yearOf d < 400 := by
  unfold yearOf
  omega

/-- A day lies in one year only. -/
theorem yearOf_eq_iff {d y : Int} (hd : 0 ≤ d ∧ d < 146097) (hy : 0 ≤ y ∧ y < 400) :
    yearOf d = y ↔ yearStart y ≤ d ∧ d ≤ yearEnd y := by
  constructor
  · rintro rfl
    constructor
    -- the estimate grows with the day, and is exact on the last day of the year before
    · refine Int.not_lt.1 fun hlt => ?_
      have hne : yearOf d ≠ 0 := fun h0 => by
        rw [h0] at hlt
        exact absurd hlt (Int.not_lt.2 hd.1)
      have hprev : 0 ≤ yearOf d - 1 ∧ yearOf d - 1 < 399 := by omega
      have hstart := yearStart_succ hprev
      rw [Int.sub_add_cancel] at hstart
      have hle := yearOf_mono hd.1 (b := yearEnd (yearOf d - 1)) (by omega)
        (year_within (by omega)).2
      rw [yearOf_yearEnd (by omega)] at hle
      omega
    -- and on the first day of the year after, unless the year is the last of the era
    · refine Int.not_lt.1 fun hlt => ?_
      by_cases hlast : yearOf d = 399
      · rw [hlast] at hlt
        have : yearEnd 399 = 146096 := by decide
        omega
      · have hstart := yearStart_succ (y := yearOf d) (by omega)
        have hle := yearOf_mono (a := yearStart (yearOf d + 1)) (year_within (by omega)).1
          (by omega) hd.2
        rw [yearOf_yearStart (by omega)] at hle
        omega
  · rintro ⟨hstart, hend⟩
    have hwithin := year_within hy
    have hlow := yearOf_mono hwithin.1 hstart hd.2
    have hhigh := yearOf_mono hd.1 hend hwithin.2
    rw [yearOf_yearStart hy] at hlow
    rw [yearOf_yearEnd hy] at hhigh
    omega

/-! ## Months of a year that starts in March -/

/-- The month of the calendar that stands at a place after March. -/
def monthOf (march : Int) : Int := if march < 10 then march + 3 else march - 9

/-- The days of its year before a month. -/
def monthStart (march : Int) : Int := (153 * march + 2) / 5

theorem daysInMonth_monthOf {march : Int} (hm : 0 ≤ march ∧ march < 11) (year : Int) :
    (daysInMonth year (monthOf march).toNat : Int) = monthStart (march + 1) - monthStart march := by
  rcases (by omega : march = 0 ∨ march = 1 ∨ march = 2 ∨ march = 3 ∨ march = 4 ∨ march = 5 ∨
    march = 6 ∨ march = 7 ∨ march = 8 ∨ march = 9 ∨ march = 10) with
    rfl | rfl | rfl | rfl | rfl | rfl | rfl | rfl | rfl | rfl | rfl <;> rfl

theorem month_eq_iff {march rest : Int} :
    (5 * rest + 2) / 153 = march ↔ monthStart march ≤ rest ∧ rest < monthStart (march + 1) := by
  unfold monthStart
  omega

/-! ## Dates of an era -/

/-- The date of a year of an era, a month from March and a day. -/
def ofMarch (era y march day : Int) : Civil :=
  ⟨if monthOf march ≤ 2 then y + era * 400 + 1 else y + era * 400, (monthOf march).toNat,
    day.toNat⟩

/-- The number of that date, counted from 1970-01-01. -/
def marchDays (era y march day : Int) : Int :=
  era * 146097 + (yearStart y + (monthStart march + day - 1)) - 719468

/-- The year of an era has that day of that month. -/
structure HasDay (y march day : Int) : Prop where
  year : 0 ≤ y ∧ y < 400
  month : 0 ≤ march ∧ march < 12
  first : 1 ≤ day
  last : monthStart march + day ≤ monthStart (march + 1) ∧
    yearStart y + (monthStart march + day - 1) ≤ yearEnd y

variable {era y march day : Int} {c : Civil}

theorem days_ofMarch (h : HasDay y march day) :
    (ofMarch era y march day).days = marchDays era y march day := by
  obtain ⟨hy, hm, hd, -⟩ := h
  simp only [days, ofMarch, marchDays, yearStart, monthStart, monthOf]
  split <;> split <;> split <;> omega

theorem ofDays_marchDays (h : HasDay y march day) :
    ofDays (marchDays era y march day) = ofMarch era y march day := by
  obtain ⟨hy, hm, hd, hlast, hyear⟩ := h
  have hwithin := year_within hy
  have hmonths : 0 ≤ monthStart march := by unfold monthStart; omega
  have hera : (marchDays era y march day + 719468) / 146097 = era := by
    unfold marchDays
    omega
  have hofEra : marchDays era y march day + 719468 - era * 146097 =
      yearStart y + (monthStart march + day - 1) := by
    unfold marchDays
    omega
  have hyearOf : yearOf (yearStart y + (monthStart march + day - 1)) = y :=
    (yearOf_eq_iff (by omega) hy).2 (by omega)
  have hmonth : (5 * (monthStart march + day - 1) + 2) / 153 = march :=
    month_eq_iff.2 (by omega)
  have hofYear : yearStart y + (monthStart march + day - 1) - yearStart y =
      monthStart march + day - 1 := by omega
  have hday : monthStart march + day - 1 - monthStart march + 1 = day := by omega
  simp only [ofDays, hera, hofEra]
  rw [← yearOf, hyearOf, ← yearStart, hofYear, hmonth, ← monthStart, hday]
  rfl

theorem exists_marchDays (n : Int) :
    ∃ era y march day, HasDay y march day ∧ marchDays era y march day = n := by
  have hd : 0 ≤ (n + 719468) % 146097 ∧ (n + 719468) % 146097 < 146097 := by omega
  generalize hofEra : (n + 719468) % 146097 = d at hd
  have hy := yearOf_within hd
  have hin := (yearOf_eq_iff hd hy).1 rfl
  have hlength : yearEnd (yearOf d) ≤ yearStart (yearOf d) + 365 := by
    unfold yearEnd
    split <;> omega
  obtain ⟨march, hmarch⟩ : ∃ march, (5 * (d - yearStart (yearOf d)) + 2) / 153 = march :=
    ⟨_, rfl⟩
  have hmonth := month_eq_iff.1 hmarch
  refine ⟨(n + 719468) / 146097, yearOf d, march, d - yearStart (yearOf d) - monthStart march + 1,
    ⟨hy, ?_, ?_, ?_, ?_⟩, ?_⟩
  · omega
  · omega
  · omega
  · omega
  · unfold marchDays
    omega

theorem isLeapYear_era (y era : Int) : isLeapYear (y + era * 400) = isLeapYear y := by
  rw [Bool.eq_iff_iff, isLeapYear_iff, isLeapYear_iff]
  omega

/-- A month has the days up to the start of the next month, and February those up to the end of
the year. -/
theorem le_daysInMonth_iff (era y day : Int) (hm : 0 ≤ march ∧ march < 12) :
    day ≤ daysInMonth (ofMarch era y march day).year (monthOf march).toNat ↔
      monthStart march + day ≤ monthStart (march + 1) ∧
        yearStart y + (monthStart march + day - 1) ≤ yearEnd y := by
  unfold yearEnd
  by_cases hfebruary : march = 11
  · subst hfebruary
    have hleap : isLeapYear (ofMarch era y 11 day).year = isLeapYear (y + 1) := by
      rw [← isLeapYear_era (y + 1) era, Int.add_right_comm]
      rfl
    have hdays : (daysInMonth (ofMarch era y 11 day).year (monthOf 11).toNat : Int) =
        if isLeapYear (ofMarch era y 11 day).year then 29 else 28 := by
      show ((if isLeapYear _ then 29 else 28 : Nat) : Int) = _
      split <;> rfl
    have hstart : monthStart 11 = 337 := rfl
    have hnext : monthStart (11 + 1) = 367 := rfl
    rw [hleap] at hdays
    split <;> simp_all <;> omega
  · have hdays := daysInMonth_monthOf (by omega : 0 ≤ march ∧ march < 11)
      (ofMarch era y march day).year
    have hnext : monthStart (march + 1) ≤ 337 := by
      unfold monthStart
      omega
    split <;> omega

theorem exists_ofMarch (h : HasDay y march day) : (ofMarch era y march day).Exists := by
  obtain ⟨hy, hm, hd, hdays⟩ := h
  have hmonth : 1 ≤ monthOf march ∧ monthOf march ≤ 12 := by
    unfold monthOf
    split <;> omega
  refine ⟨?_, ?_, ?_, ?_⟩ <;> simp only [ofMarch]
  · omega
  · omega
  · omega
  · have hle := (le_daysInMonth_iff era y day hm).2 hdays
    simp only [ofMarch] at hle
    omega

theorem Exists.eq_ofMarch (h : c.Exists) :
    ∃ era y march day, HasDay y march day ∧ ofMarch era y march day = c := by
  obtain ⟨year, month, day⟩ := c
  obtain ⟨hmonth, hmonth', hday, hday'⟩ := h
  simp only at hmonth hmonth' hday hday'
  obtain ⟨march, hmarch, rfl⟩ :
      ∃ march : Int, (0 ≤ march ∧ march < 12) ∧ (monthOf march).toNat = month := by
    refine ⟨(month + 9) % 12, by omega, ?_⟩
    unfold monthOf
    split <;> omega
  obtain ⟨y, era, hy, rfl⟩ : ∃ y era : Int, (0 ≤ y ∧ y < 400) ∧
      (if monthOf march ≤ 2 then y + era * 400 + 1 else y + era * 400) = year := by
    split
    · exact ⟨(year - 1) % 400, (year - 1) / 400, by omega, by omega⟩
    · exact ⟨year % 400, year / 400, by omega, by omega⟩
  have hdays := (le_daysInMonth_iff era y day hmarch).1 (Int.ofNat_le.2 hday')
  exact ⟨era, y, march, day, ⟨hy, hmarch, by omega, hdays⟩, rfl⟩

/-! ## Days and dates -/

/-- The date of a day exists. -/
theorem exists_ofDays (n : Int) : (ofDays n).Exists := by
  obtain ⟨era, y, march, day, h, rfl⟩ := exists_marchDays n
  rw [ofDays_marchDays h]
  exact exists_ofMarch h

/-- The date of a day has the number of that day. -/
@[simp] theorem days_ofDays (n : Int) : (ofDays n).days = n := by
  obtain ⟨era, y, march, day, h, rfl⟩ := exists_marchDays n
  rw [ofDays_marchDays h, days_ofMarch h]

/-- The date of the day of a date is that date. -/
theorem ofDays_days (h : c.Exists) : ofDays c.days = c := by
  obtain ⟨era, y, march, day, hday, rfl⟩ := h.eq_ofMarch
  rw [days_ofMarch hday, ofDays_marchDays hday]

theorem daysInMonth_le (year : Int) (month : Nat) : daysInMonth year month ≤ 31 := by
  unfold daysInMonth
  split
  · split <;> decide
  all_goals decide

theorem Exists.two_digits (h : c.Exists) : c.month < 100 ∧ c.day < 100 := by
  obtain ⟨-, hmonth, -, hday⟩ := h
  have hlast := daysInMonth_le c.year c.month
  omega

/-! ## The years of the calendar -/

/-- The days from March of the year 0 to March of a year. -/
def yearDays (year : Int) : Int := 365 * year + year / 4 - year / 100 + year / 400

/-- The number of the first day of a year. -/
def newYear (year : Int) : Int := days ⟨year, 1, 1⟩

theorem newYear_eq (year : Int) : newYear year = yearDays (year - 1) + 306 - 719468 := by
  simp only [newYear, days, yearDays]
  split <;> omega

theorem newYear_mono {a b : Int} (h : a ≤ b) : newYear a ≤ newYear b := by
  rw [newYear_eq, newYear_eq]
  unfold yearDays
  omega

/-- A day lies in the year of its date. -/
theorem Exists.days_within (h : c.Exists) :
    newYear c.year ≤ c.days ∧ c.days < newYear (c.year + 1) := by
  obtain ⟨hmonth, hmonth', hday, hday'⟩ := h
  have hlast := daysInMonth_le c.year c.month
  have hyear : yearDays (c.year - 1) + 365 ≤ yearDays c.year := by
    unfold yearDays
    omega
  rw [newYear_eq, newYear_eq]
  simp only [days, yearDays] at *
  split <;> omega

/-- The calendar carries the days from the first of its first year to the last of its last one. -/
theorem Exists.inCalendar_iff (h : c.Exists) :
    c.InCalendar ↔ newYear (-262143) ≤ c.days ∧ c.days < newYear 262143 := by
  obtain ⟨hfirst, hlast⟩ := h.days_within
  constructor
  · rintro ⟨hlow, hhigh⟩
    exact ⟨Int.le_trans (newYear_mono hlow) hfirst,
      Int.lt_of_lt_of_le hlast (newYear_mono (by omega))⟩
  · rintro ⟨hlow, hhigh⟩
    refine ⟨Int.not_lt.1 fun hlt => ?_, Int.not_lt.1 fun hlt => ?_⟩
    · have hbefore := newYear_mono (show c.year + 1 ≤ -262143 by omega)
      omega
    · have hafter := newYear_mono (show 262143 ≤ c.year by omega)
      omega

end Civil

end Recast
