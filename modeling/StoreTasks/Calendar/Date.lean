/-!
# Calendar — Date

Dates of the Gregorian calendar, extended to all years from `-262143` to `262142`, and their
numbering.

The day number of a date counts days from the first of January of year 1, which has number 1.
`dayNumber` adds up whole years, whole months and days.  `ofDayNumber?` estimates the year from the
146097 days of 400 years, corrects it by one where that is needed, and takes the first month
that reaches the day.
-/

namespace StoreTasks.Calendar

/-- The first year that has dates. -/
def minYear : Int := -262143

/-- The last year that has dates. -/
def maxYear : Int := 262142

/-- Years divisible by four are leap years; of the centuries only every fourth. -/
def isLeapYear (year : Int) : Bool :=
  year % 4 = 0 && (year % 100 ≠ 0 || year % 400 = 0)

/-- The number of days of a month. -/
def monthLength (year : Int) (month : Nat) : Nat :=
  match month with
  | 2 => if isLeapYear year then 29 else 28
  | 4 | 6 | 9 | 11 => 30
  | _ => 31

/-- The numbers name a day of the calendar. -/
def IsDate (year : Int) (month day : Nat) : Prop :=
  minYear ≤ year ∧ year ≤ maxYear ∧ 1 ≤ month ∧ month ≤ 12 ∧ 1 ≤ day ∧ day ≤ monthLength year month

instance (year : Int) (month day : Nat) : Decidable (IsDate year month day) :=
  inferInstanceAs (Decidable (_ ∧ _ ∧ _ ∧ _ ∧ _ ∧ _))

/-- A day of the calendar. -/
structure Date where
  year : Int
  month : Nat
  day : Nat
  /-- There is such a day. -/
  isDate : IsDate year month day
deriving DecidableEq

/-- The days of all years before a year, counted from year 1. -/
def daysBeforeYear (year : Int) : Int :=
  365 * (year - 1) + (year - 1) / 4 - (year - 1) / 100 + (year - 1) / 400

/-- The days of the first months of a year. -/
def daysOfMonths (year : Int) : Nat → Nat
  | 0 => 0
  | n + 1 => daysOfMonths year n + monthLength year (n + 1)

/-- The year that a day number falls into. -/
def yearOfDayNumber (n : Int) : Int :=
  let estimate := (n - 1) * 400 / 146097 + 1
  if n ≤ daysBeforeYear estimate then estimate - 1
  else if daysBeforeYear (estimate + 1) < n then estimate + 1
  else estimate

/-- The month that a day of a year falls into. -/
def monthOfDay (year : Int) (day : Nat) : Nat :=
  ((List.range' 1 12).find? fun month => day ≤ daysOfMonths year month).getD 12

namespace Date

/-- The date of a year, month and day, if there is one. -/
def ofYMD? (year : Int) (month day : Nat) : Option Date :=
  if h : IsDate year month day then some ⟨year, month, day, h⟩ else none

/-- The position of a date in the calendar. -/
def dayNumber (date : Date) : Int :=
  daysBeforeYear date.year + daysOfMonths date.year (date.month - 1) + date.day

/-- The date at a position in the calendar, if the year has dates. -/
def ofDayNumber? (n : Int) : Option Date :=
  let year := yearOfDayNumber n
  let dayOfYear := (n - daysBeforeYear year).toNat
  let month := monthOfDay year dayOfYear
  ofYMD? year month (dayOfYear - daysOfMonths year (month - 1))

end Date

end StoreTasks.Calendar
