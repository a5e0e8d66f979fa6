import StoreTasks.Calendar.Date

/-!
# Calendar — Written

Dates and times of day as text: year, month and day with dashes between them, and hour, minute
and second with colons.  Years of one to four digits are written with four; earlier and later
years have a sign and at least four digits.
-/

namespace StoreTasks.Calendar

/-- The decimal digits of a number, with zeros in front up to the width. -/
def padded (width n : Nat) : List Char :=
  let digits := Nat.toDigits 10 n
  List.replicate (width - digits.length) '0' ++ digits

/-- A year as text. -/
def yearText (year : Int) : List Char :=
  if 0 ≤ year ∧ year ≤ 9999 then padded 4 year.toNat
  else (if year < 0 then '-' else '+') :: padded 4 year.natAbs

/-- A date as characters. -/
def Date.chars (date : Date) : List Char :=
  yearText date.year ++ '-' :: padded 2 date.month ++ '-' :: padded 2 date.day

/-- A date as text. -/
def Date.text (date : Date) : String :=
  String.ofList date.chars

/-- A time on a day.  A leap second has `10 ^ 9` nanoseconds or more. -/
structure Moment where
  date : Date
  hour : Nat
  minute : Nat
  second : Nat
  nanosecond : Nat
deriving DecidableEq

/-- A time as characters, an underscore between date and time of day; the second of a leap
second is one higher. -/
def Moment.chars (moment : Moment) : List Char :=
  moment.date.chars ++ '_' :: padded 2 moment.hour ++ ':' :: padded 2 moment.minute
    ++ ':' :: padded 2 (moment.second + moment.nanosecond / 1_000_000_000)

end StoreTasks.Calendar
