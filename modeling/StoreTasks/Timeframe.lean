import StoreTasks.Calendar.Phrase
import StoreTasks.Document.ReadTask
import StoreTasks.Refusal

/-!
# Timeframe

The window of dates that an entity is read for.  Its specification is an object with the keys
`to` and `from`, which hold dates as phrases, and optional keys for the interval; or the text
`latest`, which stands for yesterday until today.
-/

namespace StoreTasks

open Calendar

/-- Which day of an interval counts. -/
inductive DayWithinPeriod where
  | first
  | last
deriving DecidableEq, Repr

namespace DayWithinPeriod

/-- The name of a choice in a specification. -/
def name : DayWithinPeriod → String
  | .first => "first"
  | .last => "last"

/-- The name of a choice in a document. -/
def documentName : DayWithinPeriod → String
  | .first => "FIRST"
  | .last => "LAST"

/-- The choice of a name. -/
def ofName? (name : String) : Option DayWithinPeriod :=
  [first, last].find? (·.name = name)

end DayWithinPeriod

/-- The length of an interval is a number of 32 bits. -/
def IsInterval (n : Nat) : Prop :=
  n < 0x1_0000_0000

instance (n : Nat) : Decidable (IsInterval n) :=
  inferInstanceAs (Decidable (_ < _))

/-- A window of dates, divided into intervals. -/
structure Timeframe where
  endDate : Date
  startDate : Date
  intervalUnit : CalendarUnit
  /-- How many units an interval lasts. -/
  interval : Nat
  dayWithinPeriod : DayWithinPeriod
  /-- An interval can have this length. -/
  isInterval : IsInterval interval
deriving DecidableEq

namespace Timeframe

/-- The text that stands for yesterday until today. -/
def latestName : String :=
  "latest"

/-! ### Keys of a specification -/

/-- The length of an interval: a positive integer of 32 bits, by default 1. -/
def readInterval : Option Json → Except Refusal { n : Nat // IsInterval n }
  | none => .ok ⟨1, by decide⟩
  | some (.num (.int n)) =>
    if h : 1 ≤ n ∧ IsInterval n.toNat then .ok ⟨n.toNat, h.2⟩
    else .error (.intervalNotPositive (.num (.int n)))
  | some found => .error (.intervalNotPositive found)

/-- The unit of an interval, by default a day. -/
def readIntervalUnit : Option Json → Except Refusal CalendarUnit
  | none => .ok .day
  | some (.str name) =>
    match CalendarUnit.ofName? name with
    | some unit => .ok unit
    | none => .error (.unknownIntervalUnit (.str name))
  | some found => .error (.unknownIntervalUnit found)

/-- The day that counts, by default the last. -/
def readDayWithinPeriod : Option Json → Except Refusal DayWithinPeriod
  | none => .ok .last
  | some (.str name) =>
    match DayWithinPeriod.ofName? name with
    | some day => .ok day
    | none => .error (.unknownDayWithinPeriod (.str name))
  | some found => .error (.unknownDayWithinPeriod found)

/-- The date of a bound. -/
def readDate (bound : Bound) (text : String) (today : Date) : Except Refusal Date :=
  match Date.ofText? text today with
  | some date => .ok date
  | none => .error (.unrecognisedDate bound text)

/-- The last date, which has to be given. -/
def readEndDate (found : Json) (today : Date) : Except Refusal Date :=
  match found with
  | .str text =>
    if Text.blank text then .error (.finishNotDate found) else readDate .finish text today
  | found => .error (.finishNotDate found)

/-- The day before the last date. -/
def dayBefore (endDate : Date) : Except Refusal Date :=
  match endDate.previous? with
  | some date => .ok date
  | none => .error (.noPreviousDay endDate)

/-- The first date; when nothing is given, the day before the last date. -/
def readStartDate (found : Json) (endDate today : Date) : Except Refusal Date :=
  match found with
  | .null => dayBefore endDate
  | .str text => if Text.blank text then dayBefore endDate else readDate .start text today
  | found => .error (.startNotText found)

/-- The value of a bound's key. -/
def boundValue (spec : Json) (bound : Bound) : Except Refusal Json :=
  match spec.get? bound.key with
  | some value => .ok value
  | none => .error (.boundMissing bound)

/-! ### Specifications -/

/-- The timeframe of an object. -/
def ofObject (spec : Json) (today : Date) : Except Refusal Timeframe := do
  let toValue ← boundValue spec .finish
  let fromValue ← boundValue spec .start
  let ⟨interval, isInterval⟩ ← readInterval (spec.present? "interval")
  let intervalUnit ← readIntervalUnit (spec.present? "interval_unit")
  let dayWithinPeriod ← readDayWithinPeriod (spec.present? "day_within_period")
  let endDate ← readEndDate toValue today
  let startDate ← readStartDate fromValue endDate today
  .ok { endDate, startDate, intervalUnit, interval, dayWithinPeriod, isInterval }

/-- Yesterday until today. -/
def latest (today : Date) : Except Refusal Timeframe := do
  let startDate ← readDate .start "yesterday" today
  .ok {
    endDate := today, startDate, intervalUnit := .day, interval := 1, dayWithinPeriod := .last
    isInterval := by decide }

/-- The timeframe of a specification, with relative dates as seen from today. -/
def ofJson (spec : Json) (today : Date) : Except Refusal Timeframe :=
  match spec with
  | .null => .error .timeframeMissing
  | .obj members => ofObject (.obj members) today
  | .str name => if name = latestName then latest today else .error (.timeframeNotObject spec)
  | _ => .error (.timeframeNotObject spec)

/-- The timeframes of a list of specifications, or of a single one; `none` when nothing is
specified. -/
def listOfJson? (spec : Option Json) (today : Date) : Except Refusal (Option (List Timeframe)) :=
  match spec with
  | none | some .null => .ok none
  | some (.arr items) => (items.mapM fun item => ofJson item today).map some
  | some single => (ofJson single today).map fun timeframe => some [timeframe]

/-- A timeframe as documents show it. -/
def window (timeframe : Timeframe) : Document.Window where
  endDate := timeframe.endDate.text
  startDate := timeframe.startDate.text
  intervalUnit := timeframe.intervalUnit.name
  dayWithinPeriod := timeframe.dayWithinPeriod.documentName
  interval := timeframe.interval

end Timeframe

end StoreTasks
