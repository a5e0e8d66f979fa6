import StoreTasks.Calendar.Date

/-!
# Calendar — Shift

Moving a date by days, weeks, months and years.  A move by months keeps the day of the month, or
takes the last day when the month is too short for it; a year is twelve months.  A move that
leaves the calendar has no result.
-/

namespace StoreTasks.Calendar

/-- The units that dates are moved by. -/
inductive CalendarUnit where
  | day
  | week
  | month
  | year
deriving DecidableEq, Repr

namespace CalendarUnit

/-- All units, from the shortest to the longest. -/
def all : List CalendarUnit :=
  [.day, .week, .month, .year]

/-- The name of a unit. -/
def name : CalendarUnit → String
  | .day => "day"
  | .week => "week"
  | .month => "month"
  | .year => "year"

/-- The unit of a name. -/
def ofName? (name : String) : Option CalendarUnit :=
  all.find? (·.name = name)

end CalendarUnit

namespace Date

/-- The date so many days later, or earlier when the number is negative. -/
def addDays? (date : Date) (days : Int) : Option Date :=
  ofDayNumber? (date.dayNumber + days)

/-- The number of months from January of year 0 to the month of a date. -/
def monthIndex (date : Date) : Int :=
  12 * date.year + (date.month - 1)

/-- The date so many months later, or earlier when the number is negative. -/
def addMonths? (date : Date) (months : Int) : Option Date :=
  let index := date.monthIndex + months
  let year := index / 12
  let month := (index % 12).toNat + 1
  ofYMD? year month (min date.day (monthLength year month))

/-- The date so many units later, or earlier when the number is negative. -/
def add? (date : Date) (amount : Int) : CalendarUnit → Option Date
  | .day => date.addDays? amount
  | .week => date.addDays? (7 * amount)
  | .month => date.addMonths? amount
  | .year => date.addMonths? (12 * amount)

/-- The day before. -/
def previous? (date : Date) : Option Date :=
  date.addDays? (-1)

/-- The day after. -/
def next? (date : Date) : Option Date :=
  date.addDays? 1

end Date

end StoreTasks.Calendar
