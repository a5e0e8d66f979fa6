import StoreTasks.Decimal.Shortest
import StoreTasks.Text.DecimalDigit

/-!
# Json — Number

Numbers of JSON values, their text, and how a numeral is read.

A numeral without fraction and exponent from `-2 ^ 63` to `2 ^ 64 - 1` is an integer, except for
`-0`.  Every other numeral is a binary number.  Its digits are taken as one integer as long as
they fit in 64 bits, and that integer, rounded, is multiplied or divided by a rounded power of
ten.  Each step rounds, so the result need not be the number nearest to the numeral.  A numeral
beyond the finite numbers is refused.
-/

namespace StoreTasks.Json

open Decimal

/-- A number: an integer, or a binary number with a fraction or an exponent. -/
inductive Number where
  | int (n : Int)
  | real (x : Binary64)
deriving DecidableEq, Repr

/-- The decimal digits of an integer, after a minus sign when it is negative. -/
def intText : Int → List Char
  | .ofNat n => Nat.toDigits 10 n
  | .negSucc n => '-' :: Nat.toDigits 10 (n + 1)

/-- A number as JSON text. -/
def Number.text : Number → List Char
  | .int n => intText n
  | .real x => x.text

/-- The parts of a numeral. -/
structure Numeral where
  /-- It starts with a minus sign. -/
  negative : Bool
  /-- The digits before the point. -/
  whole : List Char
  /-- The digits after the point, if there is one. -/
  fraction : Option (List Char)
  /-- The power of ten, if there is one. -/
  power : Option Int
deriving DecidableEq, Repr

namespace Numeral

/-- The character is an ASCII digit. -/
def isDigit (c : Char) : Bool :=
  '0' ≤ c && c ≤ '9'

/-- At least one digit, and the text after the digits. -/
def readDigits (text : List Char) : Option (List Char × List Char) :=
  match text.takeWhile isDigit with
  | [] => none
  | digits => some (digits, text.dropWhile isDigit)

/-- The digits before the point: a zero alone, or digits that do not start with zero. -/
def readWhole (text : List Char) : Option (List Char × List Char) := do
  let (digits, rest) ← readDigits text
  if digits.head? = some '0' ∧ 1 < digits.length then none else some (digits, rest)

/-- The point and at least one digit, when the text goes on with a point. -/
def readFraction (text : List Char) : Option (Option (List Char) × List Char) :=
  match text with
  | '.' :: rest => (readDigits rest).map fun (digits, rest) => (some digits, rest)
  | _ => some (none, text)

/-- The sign of a power, a plus when there is none. -/
def readSign (text : List Char) : Bool × List Char :=
  match text with
  | '-' :: rest => (true, rest)
  | '+' :: rest => (false, rest)
  | _ => (false, text)

/-- The mark `e` or `E`, a sign and at least one digit, when the text goes on with a mark. -/
def readPower (text : List Char) : Option (Option Int × List Char) :=
  match text with
  | 'e' :: rest | 'E' :: rest => do
    let (negative, rest) := readSign rest
    let (digits, rest) ← readDigits rest
    let n ← Text.decimalValue? digits
    some (some (if negative then -n else n), rest)
  | _ => some (none, text)

/-- A numeral at the start of the text, and the text after it. -/
def read (text : List Char) : Option (Numeral × List Char) := do
  let (negative, text) := match text with
    | '-' :: rest => (true, rest)
    | _ => (false, text)
  let (whole, text) ← readWhole text
  let (fraction, text) ← readFraction text
  let (power, text) ← readPower text
  some (⟨negative, whole, fraction, power⟩, text)

/-- Significands are below `2 ^ 64`. -/
def significandLimit : Nat := 0x1_0000_0000_0000_0000

/-- The significand with as many of the digits as keep it below the limit, and the digits
that are left. -/
def takeFitting (significand : Nat) : List Char → Nat × List Char
  | [] => (significand, [])
  | d :: rest =>
    let next := 10 * significand + (d.toNat - '0'.toNat)
    if next < significandLimit then takeFitting next rest else (significand, d :: rest)

/-- `x · 10 ^ exponent`: one rounded power of ten up to 308, and below it first divisions by
`10 ^ 308`. -/
def scale? (x : Binary64) (exponent : Int) : Option Binary64 :=
  if exponent.natAbs ≤ 308 then do
    let power ← Binary64.ofRatio? false (Nat.pow 10 exponent.natAbs) 1
    if 0 ≤ exponent then x.mul? power else x.div? power
  else if x.isZero then some x
  else if 0 < exponent then none
  else do
    let power ← Binary64.ofRatio? false (Nat.pow 10 308) 1
    let quotient ← x.div? power
    scale? quotient (exponent + 308)
termination_by exponent.natAbs
decreasing_by omega

/-- The number that a numeral denotes. -/
def value? (numeral : Numeral) : Option Number := do
  let (significand, wholeLeft) := takeFitting 0 numeral.whole
  let real (significand : Nat) (exponent : Int) : Option Number := do
    let x ← Binary64.ofRatio? false significand 1
    let x ← scale? x exponent
    some (.real (if numeral.negative then x.neg else x))
  let power := numeral.power.getD 0
  match numeral.fraction with
  | some digits =>
    let (significand, left) := takeFitting significand digits
    real significand (wholeLeft.length - (digits.length - left.length) + power)
  | none =>
    if numeral.power.isNone ∧ wholeLeft.isEmpty then
      if !numeral.negative then some (.int significand)
      else if 0 < significand ∧ significand ≤ 0x8000_0000_0000_0000 then some (.int (-significand))
      else real significand 0
    else real significand (wholeLeft.length + power)

end Numeral

/-- A number at the start of the text, and the text after it. -/
def Number.read (text : List Char) : Option (Number × List Char) := do
  let (numeral, rest) ← Numeral.read text
  let number ← numeral.value?
  some (number, rest)

end StoreTasks.Json
