import StoreTasks.Destination
import StoreTasks.Document.Skeleton
import StoreTasks.Field.Basic
import StoreTasks.Timeframe

/-!
# Entity

A named, ordered set of fields with a source file.  An entity that `declare` accepts has a name
and a file that are not blank, at least one field, and no two fields of the same name other than
record ids and timestamps.
-/

namespace StoreTasks

open Document

/-- The timezone of specifications that name none. -/
def defaultTimezone : String :=
  "UTC"

/-- An entity, with the timeframes it is read for. -/
structure Entity where
  name : String
  file : String
  fields : List Field
  timeframes : List Timeframe
  timezone : String
deriving DecidableEq

/-- The first string that also occurs earlier in the list. -/
def firstRepeat? : List String → Option String
  | names => go [] names
where
  /-- The first string that also occurs earlier, or among those seen before. -/
  go (seen : List String) : List String → Option String
    | [] => none
    | name :: rest => if name ∈ seen then some name else go (name :: seen) rest

namespace Entity

/-! ### Making entities -/

/-- The names of the fields that may not repeat. -/
def exclusiveNames (fields : List Field) : List String :=
  (fields.filter (!·.mayRepeat)).map Field.name

/-- An entity without timeframes. -/
def declare (name file : String) (fields : List Field) : Except Refusal Entity :=
  if Text.blank name then .error .blankEntityName
  else if Text.blank file then .error (.blankFile name)
  else if fields.isEmpty then .error (.noFields name)
  else match firstRepeat? (exclusiveNames fields) with
    | some field => .error (.repeatedField name field)
    | none => .ok { name, file, fields, timeframes := [], timezone := defaultTimezone }

/-- The name in the declaration of an entity. -/
def declaredName (spec : Json) : Except Refusal String :=
  match spec.get? "entity" with
  | none | some .null => .error .entityNameMissing
  | some (.str name) => .ok name
  | some _ => .error .entityNameNotText

/-- The file in the declaration of an entity. -/
def declaredFile (name : String) (spec : Json) : Except Refusal String :=
  match spec.get? "file" with
  | none | some .null => .error (.fileMissing name)
  | some (.str file) => .ok file
  | some _ => .error (.fileNotText name)

/-- The fields in the declaration of an entity. -/
def declaredFields (name : String) (spec : Json) : Except Refusal (List Field) :=
  match spec.get? "fields" with
  | none | some .null => .error (.fieldsMissing name)
  | some (.arr specs) => specs.mapM Field.ofJson
  | some _ => .error (.fieldsNotList name)

/-- The entity that an object with the keys `entity`, `file` and `fields` declares. -/
def ofJson (spec : Json) : Except Refusal Entity :=
  match spec with
  | .obj _ => do
    let name ← declaredName spec
    let file ← declaredFile name spec
    let fields ← declaredFields name spec
    declare name file fields
  | _ => .error (.entityNotObject spec)

/-- The entity with other timeframes. -/
def withTimeframes (entity : Entity) (timeframes : List Timeframe) : Entity :=
  { entity with timeframes }

/-- The entity with another timezone. -/
def withTimezone (entity : Entity) (timezone : String) : Entity :=
  { entity with timezone }

/-! ### Fields -/

/-- The first field of a name. -/
def field? (entity : Entity) (name : String) : Option Field :=
  entity.fields.find? (·.name = name)

/-- There is a field of the name. -/
def hasField (entity : Entity) (name : String) : Bool :=
  (entity.field? name).isSome

/-- The names of the fields, in order. -/
def fieldNames (entity : Entity) : List String :=
  entity.fields.map Field.name

/-- The entity with one more field, whose name no other field has. -/
def addField (entity : Entity) (field : Field) : Except Refusal Entity :=
  if entity.hasField field.name then .error (.fieldExists entity.name field.name)
  else .ok { entity with fields := entity.fields ++ [field] }

/-- The field that identifies a row: the first historic id, else the first record id, else the
first generated number. -/
def identifier? (entity : Entity) : Option Field :=
  entity.fields.find? Field.isHid
    <|> entity.fields.find? Field.isRecordId
    <|> entity.fields.find? Field.isAutoincrement

/-- The field that identifies a row, which an entity needs for a read task. -/
def identifier (entity : Entity) : Except Refusal Field :=
  match entity.identifier? with
  | some field => .ok field
  | none => .error (.missingIdentifier entity.name)

/-! ### Rendering -/

/-- The task to read an entity for a process. -/
def readTask (entity : Entity) (pid : String) (style : ReadMapStyle) :
    Except Refusal ReadTask := do
  let identifier ← entity.identifier
  if entity.timeframes.isEmpty then throw (.timeframeUndefined entity.name)
  let columns ← entity.fields.mapM Field.column
  let file := Destination.ofExtract pid entity.name entity.file
  return {
    entity := entity.name
    timezone := entity.timezone
    style
    readMap := [⟨file, identifier.name, columns⟩]
    timeframes := entity.timeframes.map Timeframe.window }

/-- The task to load the file of an entity for a process. -/
def uploadTask (entity : Entity) (pid : String) : Except Refusal UploadTask := do
  let attributes ← entity.fields.mapM Field.uploadAttribute
  return ⟨entity.name, Destination.ofUpload pid entity.file, attributes⟩

/-- The declaration of an entity. -/
def declaration (entity : Entity) : Declaration :=
  ⟨entity.name, entity.file, entity.fields.map Field.declaration⟩

/-- The skeleton of an extract of the entity with all its fields. -/
def skeleton (entity : Entity) : Skeleton :=
  ⟨entity.timezone, [⟨entity.name, entity.file, entity.fieldNames⟩]⟩

end Entity

end StoreTasks
