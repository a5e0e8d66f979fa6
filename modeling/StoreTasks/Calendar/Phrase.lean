import StoreTasks.Calendar.Shift
import StoreTasks.Text.Blank
import StoreTasks.Text.DecimalDigit
import StoreTasks.Text.LowerCase

/-!
# Calendar — Phrase

Dates in words and numbers, read against a reference date.

A text is trimmed and lowered, and has then one of these forms, or none:

* `today`, `now`, `yesterday` or `tomorrow`;
* `Y-M-D` or `Y/M/D`, each number after optional blanks, the year with an optional sign and
  with at most four digits when it has none, month and day with one or two digits;
* `M/D/Y` with one or two, one or two, and four digits;
* `N units ago`, `in N units` or `N units from now`;
* `last unit` or `next unit`.

The unit is day, week, month or year, and may end in `s` after a number.  A phrase is the form
with its numbers still as digits of any script; `resolve?` reads them, for which they have to be
ASCII digits and a count less than `2 ^ 32`, and gives the date if there is one.
-/

namespace StoreTasks.Calendar

open Text

/-- A date as it is expressed. -/
inductive Phrase where
  | today
  | yesterday
  | tomorrow
  /-- Year, month and day in that order. -/
  | civil (year : Int) (month day : Nat)
  /-- Month, day and year in that order. -/
  | monthFirst (month day year : List Char)
  | ago (count : List Char) (unit : CalendarUnit)
  | ahead (count : List Char) (unit : CalendarUnit)
  | last (unit : CalendarUnit)
  | next (unit : CalendarUnit)
deriving DecidableEq, Repr

/-! ### Year first -/

/-- A number of at least one ASCII digit, and the text after it; of more digits than the limit
the rest are left. -/
def takeNumber (limit : Nat) (text : List Char) : Option (Nat × List Char) :=
  match (text.take limit).takeWhile fun c => (digitValue? c).isSome with
  | [] => none
  | digits => (decimalValue? digits).map fun n => (n, text.drop digits.length)

/-- A number after optional blanks. -/
def readNumber (limit : Nat) (text : List Char) : Option (Nat × List Char) :=
  takeNumber limit (trimStart text)

/-- A year after optional blanks, and the text after it. -/
def readYear (text : List Char) : Option (Int × List Char) :=
  match trimStart text with
  | '-' :: rest => (takeNumber rest.length rest).map fun (n, rest) => (-(n : Int), rest)
  | '+' :: rest => (takeNumber rest.length rest).map fun (n, rest) => ((n : Int), rest)
  | text => (takeNumber 4 text).map fun (n, rest) => ((n : Int), rest)

/-- The text after the separator that it starts with. -/
def afterSeparator? (separator : Char) (text : List Char) : Option (List Char) :=
  match text with
  | c :: rest => if c = separator then some rest else none
  | [] => none

/-- Year, month and day with the separator between them, and nothing after them. -/
def readCivil (separator : Char) (text : List Char) : Option Phrase := do
  let (year, text) ← readYear text
  let text ← afterSeparator? separator text
  let (month, text) ← readNumber 2 text
  let text ← afterSeparator? separator text
  let (day, text) ← readNumber 2 text
  if text.isEmpty then some (.civil year month day) else none

/-! ### Month first -/

/-- The text is made of decimal digits, from `least` to `most` of them. -/
def isDigits (least most : Nat) (text : List Char) : Bool :=
  text.all isDecimalDigit && least ≤ text.length && text.length ≤ most

/-- Month, day and year with slashes between them, without blanks. -/
def readMonthFirst (text : List Char) : Option Phrase :=
  match text.splitOnP (· == '/') with
  | [month, day, year] =>
    if isDigits 1 2 month && isDigits 1 2 day && isDigits 4 4 year then
      some (.monthFirst month day year)
    else none
  | _ => none

/-! ### Words -/

/-- A count as it is written. -/
def readCount (word : String) : Option (List Char) :=
  let digits := word.toList
  if digits.all isDecimalDigit && !digits.isEmpty then some digits else none

/-- The name of a unit, with or without an `s` at its end. -/
def readUnits (word : String) : Option CalendarUnit :=
  CalendarUnit.all.find? fun unit => word = unit.name ∨ word = unit.name ++ "s"

/-- The forms that are made of words. -/
def readWords (words : List String) : Option Phrase :=
  match words with
  | ["today"] | ["now"] => some .today
  | ["yesterday"] => some .yesterday
  | ["tomorrow"] => some .tomorrow
  | ["last", unit] => (CalendarUnit.ofName? unit).map .last
  | ["next", unit] => (CalendarUnit.ofName? unit).map .next
  | ["in", count, units] => do some (.ahead (← readCount count) (← readUnits units))
  | [count, units, "ago"] => do some (.ago (← readCount count) (← readUnits units))
  | [count, units, "from", "now"] => do some (.ahead (← readCount count) (← readUnits units))
  | _ => none

/-! ### Phrases -/

namespace Phrase

/-- The form of a text that is trimmed and lowered. -/
def ofChars? (text : List Char) : Option Phrase :=
  readWords ((words text).map String.ofList)
    <|> readCivil '-' text
    <|> readCivil '/' text
    <|> readMonthFirst text

/-- The form of a text. -/
def ofText? (text : String) : Option Phrase :=
  ofChars? (lower (trim text.toList))

/-- Counts are below `2 ^ 32`. -/
def countLimit : Nat := 0x1_0000_0000

/-- The number of a count. -/
def countValue? (digits : List Char) : Option Nat :=
  (decimalValue? digits).filter (· < countLimit)

/-- The date that a phrase denotes when it is said on the reference date. -/
def resolve? (phrase : Phrase) (reference : Date) : Option Date :=
  match phrase with
  | .today => some reference
  | .yesterday => reference.previous?
  | .tomorrow => reference.next?
  | .civil year month day => Date.ofYMD? year month day
  | .monthFirst month day year => do
    Date.ofYMD? (← decimalValue? year) (← decimalValue? month) (← decimalValue? day)
  | .ago count unit => do reference.add? (-(← countValue? count)) unit
  | .ahead count unit => do reference.add? (← countValue? count) unit
  | .last unit => reference.add? (-1) unit
  | .next unit => reference.add? 1 unit

end Phrase

/-- The date that a text denotes when it is read on the reference date. -/
def Date.ofText? (text : String) (reference : Date) : Option Date :=
  (Phrase.ofText? text).bind (·.resolve? reference)

end StoreTasks.Calendar
