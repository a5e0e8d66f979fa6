import StoreTasks.Json.Printer
import StoreTasks.Text.Quoted

/-!
# Json — Shape

Values read as records whose members have fixed kinds.

A record is written as an object, or as a list of its members in declared order.  Members may be
left out, and null counts as left out.  The members of an object are examined in order of their
keys, the items of a list from the first to the last, and the first fault is the one reported.
-/

namespace StoreTasks.Json

/-- What a place in a record calls for. -/
inductive Expectation where
  | text
  | list
  | record (name : String)
deriving DecidableEq, Repr

/-- Why a value has not the shape that is called for. -/
inductive ShapeError where
  /-- The value has another kind. -/
  | unexpected (found : Json) (expected : Expectation)
  /-- The list for a record has no items, and the record has a member without which a list is
  too short. -/
  | tooShort (name : String) (size : Nat)
  /-- The list for a record has more items than the record has members. -/
  | tooLong (length : Nat)
deriving DecidableEq

/-- The words for what is called for. -/
def Expectation.phrase : Expectation → String
  | .text => "a string"
  | .list => "a sequence"
  | .record name => "struct " ++ name

/-- The words for the kind of a value; scalars are shown. -/
def kindPhrase : Json → String
  | .null => "null"
  | .bool b => "boolean `" ++ (if b then "true" else "false") ++ "`"
  | .num (.int n) => "integer `" ++ String.ofList (intText n) ++ "`"
  | .num (.real x) => "floating point `" ++ String.ofList x.text ++ "`"
  | .str s => "string " ++ Text.quoted s
  | .arr _ => "sequence"
  | .obj _ => "map"

/-- The text of a fault. -/
def ShapeError.message : ShapeError → String
  | .unexpected found expected =>
    "invalid type: " ++ kindPhrase found ++ ", expected " ++ expected.phrase
  | .tooShort name size =>
    "invalid length 0, expected struct " ++ name ++ " with " ++ toString size ++ " elements"
  | .tooLong length =>
    "invalid length " ++ toString length ++ ", expected fewer elements in array"

namespace Shape

/-- A string. -/
def text : Json → Except ShapeError String
  | .str s => .ok s
  | value => .error (.unexpected value .text)

/-- A list, each item of one shape. -/
def list (item : Json → Except ShapeError α) : Json → Except ShapeError (List α)
  | .arr items => items.mapM item
  | value => .error (.unexpected value .list)

/-- A member that may be left out or null. -/
def optional (shape : Json → Except ShapeError α) : Option Json → Except ShapeError (Option α)
  | none | some .null => .ok none
  | some value => (shape value).map some

/-- Any value. -/
def any (value : Json) : Except ShapeError Json :=
  .ok value

/-- A list for a record of `size` members has no more items than that. -/
def atMost (size : Nat) (items : List Json) : Except ShapeError Unit :=
  if size < items.length then .error (.tooLong items.length) else .ok ()

end Shape

end StoreTasks.Json
