/-
Calendar dates of the proleptic Gregorian calendar.

A `Civil` date is any year, month and day; `Civil.ofDays` and `Civil.days`
relate dates to the number of days since 1970-01-01, for every integer. A
`Date` is a civil date that exists and lies in the calendar this library
carries, the years -262143 to 262142.
-/
import Recast.Text.Digits

namespace Recast

/-- A year, a month and a day, not checked. -/
structure Civil where
  year : Int
  month : Nat
  day : Nat
deriving DecidableEq, Repr

/-- A year of 366 days. -/
def isLeapYear (year : Int) : Bool :=
  year % 4 = 0 && (year % 100 ≠ 0 || year % 400 = 0)

def daysInMonth (year : Int) (month : Nat) : Nat :=
  match month with
  | 2 => if isLeapYear year then 29 else 28
  | 4 | 6 | 9 | 11 => 30
  | _ => 31

namespace Civil

/-- Days since 1970-01-01. Years start in March here, so that the leap day is the last of its
year; 400 of them have 146097 days. -/
def days (c : Civil) : Int :=
  let year := if c.month ≤ 2 then c.year - 1 else c.year
  let era := year / 400
  let yearOfEra := year - era * 400
  let march : Int := (c.month + 9) % 12
  let dayOfYear := (153 * march + 2) / 5 + c.day - 1
  let dayOfEra := yearOfEra * 365 + yearOfEra / 4 - yearOfEra / 100 + dayOfYear
  era * 146097 + dayOfEra - 719468

/-- The date that lies that many days after 1970-01-01. -/
def ofDays (days : Int) : Civil :=
  let shifted := days + 719468
  let era := shifted / 146097
  let dayOfEra := shifted - era * 146097
  let yearOfEra := (dayOfEra - dayOfEra / 1460 + dayOfEra / 36524 - dayOfEra / 146096) / 365
  let dayOfYear := dayOfEra - (365 * yearOfEra + yearOfEra / 4 - yearOfEra / 100)
  let march := (5 * dayOfYear + 2) / 153
  let day := dayOfYear - (153 * march + 2) / 5 + 1
  let month := if march < 10 then march + 3 else march - 9
  let year := yearOfEra + era * 400
  ⟨if month ≤ 2 then year + 1 else year, month.toNat, day.toNat⟩

/-- The date exists. -/
def Exists (c : Civil) : Prop :=
  1 ≤ c.month ∧ c.month ≤ 12 ∧ 1 ≤ c.day ∧ c.day ≤ daysInMonth c.year c.month

/-- The date lies in the years that the calendar carries. -/
def InCalendar (c : Civil) : Prop := -262143 ≤ c.year ∧ c.year ≤ 262142

instance (c : Civil) : Decidable c.Exists := inferInstanceAs (Decidable (_ ∧ _))
instance (c : Civil) : Decidable c.InCalendar := inferInstanceAs (Decidable (_ ∧ _))

/-- The order of dates by year, month and day. -/
def key (c : Civil) : List Int := [c.year, c.month, c.day]

/-- A year has four digits at least; one outside 0 to 9999 is written with a sign. -/
def yearText (year : Int) : List Char :=
  let digits := Text.padded 4 year.natAbs
  if 0 ≤ year ∧ year ≤ 9999 then digits
  else (if year < 0 then '-' else '+') :: digits

/-- The date as year, month and day with hyphens. -/
def text (c : Civil) : List Char :=
  yearText c.year ++ '-' :: Text.padded 2 c.month ++ '-' :: Text.padded 2 c.day

end Civil

/-- A date of the calendar. -/
structure Date extends Civil where
  exist : toCivil.Exists
  inCalendar : toCivil.InCalendar
deriving DecidableEq

namespace Date

def ofCivil? (c : Civil) : Option Date :=
  if h : c.Exists ∧ c.InCalendar then some ⟨c, h.1, h.2⟩ else none

def ofDays? (days : Int) : Option Date := ofCivil? (Civil.ofDays days)

/-- 1970-01-01. -/
def epoch : Date := ⟨⟨1970, 1, 1⟩, by decide, by decide⟩

@[simp] theorem ofCivil?_toCivil (d : Date) : ofCivil? d.toCivil = some d := by
  simp [ofCivil?, d.exist, d.inCalendar]

theorem ofCivil?_eq_some {c : Civil} {d : Date} (h : ofCivil? c = some d) : d.toCivil = c := by
  unfold ofCivil? at h
  split at h
  · cases h; rfl
  · cases h

end Date

end Recast
