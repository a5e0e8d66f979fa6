/-!
# Field — Type

The types that a field may be declared with, and what each becomes in the documents that are
rendered.  Three tables map types to other words; each covers some of the types only.
-/

namespace StoreTasks

/-- The type of a field.  All but `none` belong to the vocabulary. -/
inductive FieldType where
  | attribute
  | recordId
  | date
  | time
  | fact
  | timestamp
  | autoincrement
  | snapshot
  | hid
  | historicId
  | duration
  | velocity
  | isDeleted
  /-- No type was given. -/
  | none
deriving DecidableEq, Repr

namespace FieldType

/-- The types that may be declared by name, in the order in which messages list them. -/
def vocabulary : List FieldType :=
  [.attribute, .recordId, .date, .time, .fact, .timestamp, .autoincrement, .snapshot, .hid,
    .historicId, .duration, .velocity, .isDeleted]

/-- The name of a type. -/
def name : FieldType → String
  | .attribute => "attribute"
  | .recordId => "recordid"
  | .date => "date"
  | .time => "time"
  | .fact => "fact"
  | .timestamp => "timestamp"
  | .autoincrement => "autoincrement"
  | .snapshot => "snapshot"
  | .hid => "hid"
  | .historicId => "historicid"
  | .duration => "duration"
  | .velocity => "velocity"
  | .isDeleted => "isDeleted"
  | .none => "none"

/-- The type of a name; `none` is a name too. -/
def ofName? (name : String) : Option FieldType :=
  if name = FieldType.none.name then some .none else vocabulary.find? (·.name = name)

/-- The names of the vocabulary as messages list them. -/
def vocabularyText : String :=
  String.intercalate ", " (vocabulary.map name)

/-- How the type is written in a load configuration: its name, and nothing for `none`. -/
def declaredName : FieldType → String
  | .none => ""
  | type => type.name

/-! ### Tables -/

/-- The tables that a type may be missing from. -/
inductive Table where
  /-- Attribute types of upload tasks. -/
  | load
  /-- Operations that read a column. -/
  | extractOp
  /-- Definitions around a reading operation. -/
  | extractDefinition
deriving DecidableEq, Repr

/-- The name of a table. -/
def Table.name : Table → String
  | .load => "load"
  | .extractOp => "extract op"
  | .extractDefinition => "extract definition"

/-- The attribute type in an upload task. -/
def attributeType? : FieldType → Option String
  | .recordId => some "recordid"
  | .timestamp => some "timestamp"
  | .attribute => some "attribute"
  | .fact => some "fact"
  | .time | .date => some "timeAttribute"
  | .isDeleted => some "isDeleted"
  | _ => Option.none

/-- The operation that reads a column of the type. -/
def readingOp? : FieldType → Option String
  | .recordId => some "recordid"
  | .attribute | .fact | .time | .date => some "stream"
  | .snapshot => some "snapshot"
  | _ => Option.none

/-- The definition that wraps the reading operation. -/
def wrapper? : FieldType → Option String
  | .recordId | .attribute => some "value"
  | .fact => some "number"
  | .snapshot => some "snapshot"
  | .time => some "key"
  | .date => some "date"
  | _ => Option.none

end FieldType

end StoreTasks
