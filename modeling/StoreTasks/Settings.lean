import StoreTasks.Destination
import StoreTasks.Document.ReadTask
import StoreTasks.Entity
import StoreTasks.Failure
import StoreTasks.FileTree
import StoreTasks.Json.Reader

/-!
# Settings

What a configuration file settles: the style of read maps, the timezone of extracts that name
none, and the marks of local names.  Every key may be left out, and other keys are ignored.

The file is read from its start, and the first fault decides what is wrong with it.  The keys
`pretty` and `timezone` are checked where they stand; `with_date` and `deleted` are checked
at the end of the object; what comes after the object is looked at last.
-/

namespace StoreTasks

open Json

/-- The settings of a run. -/
structure Settings where
  readMapStyle : Document.ReadMapStyle
  timezone : String
  marks : Destination.Marks
deriving DecidableEq, Repr

namespace Settings

/-- The settings where nothing is configured. -/
def default : Settings where
  readMapStyle := .structured
  timezone := defaultTimezone
  marks := { withDate := false, deleted := false }

/-- The kinds of configured values. -/
inductive ValueKind where
  | flag
  | text
deriving DecidableEq, Repr

/-- The value has the kind. -/
def ValueKind.admits : ValueKind → Json → Bool
  | flag, .bool _ => true
  | text, .str _ => true
  | _, _ => false

/-- The keys that are checked where they stand. -/
def promptKind? : String → Option ValueKind
  | "pretty" => some .flag
  | "timezone" => some .text
  | _ => none

/-- The keys that are checked at the end. -/
def lateKeys : List String :=
  ["with_date", "deleted"]

/-- The part of a text that a reader takes, or the fault that it is not JSON. -/
def orNotJson (part : Option α) : Except Cause α :=
  match part with
  | some part => .ok part
  | none => .error .notJson

/-- A value of a kind.  A list or an object is refused unread. -/
def readKind (kind : ValueKind) (text : List Char) : Except Cause (Json × List Char) := do
  match skipSpace text with
  | '[' :: _ | '\x7b' :: _ => throw .wrongShape
  | text =>
    let (value, rest) ← orNotJson (readPart 0 text)
    if kind.admits value then return (value, rest) else throw .wrongShape

/-- A member of the object, given those before it. -/
def readMember (before : List (String × Json)) (text : List Char) :
    Except Cause ((String × Json) × List Char) := do
  let (key, text) ← orNotJson (readString (skipSpace text))
  match promptKind? key with
  | some kind =>
    if before.any (·.1 = key) then throw .wrongShape
    let text ← orNotJson (readColon text)
    let (value, text) ← readKind kind text
    return ((key, value), text)
  | none =>
    let text ← orNotJson (readColon text)
    let (value, text) ← orNotJson (readPart (maxLevels - 1) text)
    return ((key, value), text)

/-- The members of the object from the next one on, added to those before them. -/
def readMembers (fuel : Nat) (before : List (String × Json)) (text : List Char) :
    Except Cause (List (String × Json) × List Char) := do
  match fuel with
  | 0 => throw .notJson
  | fuel + 1 =>
    let (member, text) ← readMember before text
    let members := before ++ [member]
    match skipSpace text with
    | ',' :: rest => readMembers fuel members rest
    | '\x7d' :: rest => return (members, rest)
    | _ => throw .notJson

/-- The object at the start of a text. -/
def readObject (text : List Char) : Except Cause (List (String × Json) × List Char) := do
  match skipSpace text with
  | '\x7b' :: rest =>
    match skipSpace rest with
    | '\x7d' :: rest => return ([], rest)
    | rest => readMembers rest.length [] rest
  | '[' :: _ => throw .wrongShape
  | text =>
    let _ ← orNotJson (readPart 0 text)
    throw .wrongShape

/-- The keys that are checked at the end occur once at most, with flags. -/
def lateOk (members : List (String × Json)) : Bool :=
  lateKeys.all fun key =>
    match members.filter (·.1 = key) with
    | [] | [(_, .bool _)] => true
    | _ => false

/-- A flag of the object. -/
def flag (members : List (String × Json)) (key : String) (default : Bool) : Bool :=
  match lookup key members with
  | some (.bool b) => b
  | _ => default

/-- The settings of an object whose members are checked. -/
def ofMembers (members : List (String × Json)) : Settings where
  readMapStyle := if flag members "pretty" true then .structured else .inline
  timezone := match lookup "timezone" members with
    | some (.str timezone) => timezone
    | _ => defaultTimezone
  marks := { withDate := flag members "with_date" false, deleted := flag members "deleted" false }

/-- The settings of a text. -/
def ofText (text : String) : Except Cause Settings := do
  let (members, rest) ← readObject text.toList
  if !lateOk members then throw .wrongShape
  if !(skipSpace rest).isEmpty then throw .notJson
  return ofMembers members

/-- The settings of a file. -/
def ofFile (lookup : String → Entry) (path : String) : Except Failure Settings :=
  match (lookup path).text? with
  | none => .error (.during (.readConfigFile path) .file)
  | some text => (ofText text).mapError (.during (.parseConfigFile path))

end Settings

end StoreTasks
