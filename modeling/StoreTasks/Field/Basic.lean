import StoreTasks.Document.Declaration
import StoreTasks.Document.Tree
import StoreTasks.Document.UploadTask
import StoreTasks.Refusal
import StoreTasks.Text.Blank

/-!
# Field

A field is a column of an entity.  Plain fields are read from the column of their name; the other
fields are computed.  The functions that make a field from outside data refuse blank names, so
every field they return is `Named`.
-/

namespace StoreTasks

/-- Where a historic-id field finds its values: in fields of another entity, reached through a
stream or through the record id. -/
structure HidOrigin where
  entity : String
  fields : List String
  through : Option String
deriving DecidableEq, Repr

/-- A field. -/
inductive Field where
  /-- A column of the source file. -/
  | plain (name : String) (type : FieldType)
  /-- The date of the extract. -/
  | snapshot
  /-- A generated number. -/
  | autoincrement
  /-- The time a stage lasted.  Its column always has the same name; name and type only tell the
  field apart within its entity. -/
  | duration (name : String) (type : FieldType)
  /-- The rate of change of a stage. -/
  | velocity
  /-- An id found in another entity. -/
  | hid (source : HidOrigin)
deriving DecidableEq, Repr

namespace Field

/-- The name of a field. -/
def name : Field → String
  | plain name _ | duration name _ => name
  | snapshot => "snapshot"
  | autoincrement => "generate"
  | velocity => "velocity"
  | hid source => "hid-" ++ source.entity

/-- The type of a field. -/
def type : Field → FieldType
  | plain _ type | duration _ type => type
  | snapshot => .snapshot
  | autoincrement => .autoincrement
  | velocity => .velocity
  | hid _ => .historicId

/-- The field is a record id by type. -/
def isRecordId (field : Field) : Bool :=
  field.type = .recordId

/-- The field is a historic id. -/
def isHid : Field → Bool
  | hid _ => true
  | _ => false

/-- The field is a generated number. -/
def isAutoincrement (field : Field) : Bool :=
  field = autoincrement

/-- The field is the time a stage lasted. -/
def isDuration : Field → Bool
  | duration _ _ => true
  | _ => false

/-- The field is the rate of change of a stage. -/
def isVelocity (field : Field) : Bool :=
  field = velocity

/-- Other fields of the entity may have the same name: so it is with record ids and timestamps,
which every declaration of an entity has. -/
def mayRepeat (field : Field) : Bool :=
  field.type = .recordId || field.type = .timestamp

/-- The two fields count as one: they have the same name. -/
def same (a b : Field) : Bool :=
  a.name = b.name

/-- The field has a name that is not blank. -/
def Named (field : Field) : Prop :=
  Text.blank field.name = false

/-! ### Making fields -/

/-- The field, unless its name is blank. -/
def named (field : Field) : Except Refusal Field :=
  if Text.blank field.name then .error .blankFieldName else .ok field

/-- A plain field of a type given by name. -/
def declare (name typeName : String) : Except Refusal Field :=
  match FieldType.ofName? typeName with
  | none => .error (.unknownFieldType name typeName)
  | some type => named (plain name type)

/-- A historic-id field, which needs an entity and fields to find its values in. -/
def ofHidOrigin (source : HidOrigin) : Except Refusal Field :=
  if Text.blank source.entity then .error .hidWithoutEntity
  else if source.fields.isEmpty then .error (.hidWithoutFields source.entity)
  else named (hid source)

/-- The name in the declaration of a field. -/
def declaredName (spec : Json) : Except Refusal String :=
  match spec.get? "name" with
  | none | some .null => .error (.fieldWithoutName spec)
  | some (.str name) => .ok name
  | some found => .error (.fieldNameNotText found)

/-- The name of the type in the declaration of a field; an empty one stands for no type. -/
def declaredType (field : String) (spec : Json) : Except Refusal String :=
  match spec.get? "type" with
  | none | some .null => .error (.fieldWithoutType field)
  | some (.str type) => .ok (if type = "" then FieldType.none.name else type)
  | some found => .error (.fieldTypeNotText field found)

/-- The field that an object with the keys `name` and `type` declares. -/
def ofJson (spec : Json) : Except Refusal Field :=
  match spec with
  | .null => .error .fieldMissing
  | .obj _ => do
    let name ← declaredName spec
    let type ← declaredType name spec
    declare name type
  | _ => .error (.fieldNotObject spec)

/-- The computed field that a keyword stands for. -/
def ofKeyword? (keyword : String) : Option Field :=
  match keyword with
  | "DeletedAt" => some (plain "DeletedAt" .time)
  | "IsDeleted" => some (plain "IsDeleted" .attribute)
  | "snapshot" => some snapshot
  | "autoincrement" => some autoincrement
  | "duration" => some (duration "duration" .duration)
  | "velocity" => some (duration "velocity" .velocity)
  | _ => none

/-! ### Rendering -/

open Document

/-- The word for a field's type in a table. -/
def lookUp (field : Field) (table : FieldType.Table) (word? : FieldType → Option String) :
    Except Refusal String :=
  match word? field.type with
  | some word => .ok word
  | none => .error (.unmappedType field.name field.type table)

/-- A field as an attribute of an upload task. -/
def uploadAttribute (field : Field) : Except Refusal Attribute := do
  let type ← field.lookUp .load FieldType.attributeType?
  .ok ⟨field.name, type⟩

/-- The declaration of a field. -/
def declaration (field : Field) : FieldDeclaration :=
  ⟨field.name, field.type.declaredName⟩

/-- The column of a field that is called by the field's name. -/
def ownColumn (field : Field) (definition : Op) : Column :=
  ⟨field.name, field.name, definition⟩

/-- The time a stage lasted: where `IsClosed` is false the duration of `StageName`, else one
divided by zero. -/
def stageDurationColumn : Column where
  name := "StageDuration"
  preferred := "stageduration"
  definition := .branch "case" [
    .branch "option" [
      .branch "=" [.leaf "stream" "IsClosed", .leaf "match" "false"],
      .branch "duration" [.leaf "stream" "StageName"]],
    .branch "option" [.const 1, .const 0]]

/-- The rate of change of a stage. -/
def stageVelocityColumn : Column where
  name := "StageVelocity"
  preferred := "stagevelocity"
  definition := .branch "velocity" [.leaf "stream" "StageName"]

/-- The definition of a historic id: how to get to the other entity, and what to read there. -/
def hidDefinition (source : HidOrigin) : Op :=
  let via : Op := match source.through with
    | some stream => .leaf "stream" stream
    | none => .node FieldType.recordId.name none []
  let target : Op :=
    .node "entity" (some (.text source.entity)) (source.fields.map (Op.leaf "stream"))
  .branch "historicid" [via, target]

/-- A field as a column of a read map. -/
def column (field : Field) : Except Refusal Column :=
  match field with
  | plain name _ => do
    let op ← field.lookUp .extractOp FieldType.readingOp?
    let definition ← field.lookUp .extractDefinition FieldType.wrapper?
    .ok (field.ownColumn (.branch definition [.leaf op name]))
  | snapshot => .ok (field.ownColumn (.leaf "snapshot" "date"))
  | autoincrement => .ok (field.ownColumn (.leaf "generate" "autoincrement"))
  | hid source => .ok (field.ownColumn (hidDefinition source))
  | duration _ _ => .ok stageDurationColumn
  | velocity => .ok stageVelocityColumn

end Field

end StoreTasks
