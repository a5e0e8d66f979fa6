import StoreTasks.Proofs.Identifier
import StoreTasks.Proofs.Load.UploadTasks
import StoreTasks.Proofs.ReadTask

/-!
# Proofs — Document

What the documents of an entity are, member by member.

`Entity.IsDeclaration`, `Entity.IsSkeleton`, `Entity.IsUploadTask` and `Entity.IsReadTask` describe
the document as a value, from the entity and its fields on: which keys it has, in which order, and
what stands there.  They know nothing of the records that documents are made through.  Each is what
the entity is rendered to (`isDeclaration_iff`, `isSkeleton_iff`, `isUploadTask_iff`,
`isReadTask_iff`), for an upload task and a read task if it can be made at all.

The types of attributes and of plain columns are read from one table each
(`FieldType.attributeTypes`, `FieldType.columnTypes`).
-/

namespace StoreTasks

open Document

/-! ### Types -/

namespace FieldType

/-- The types of fields that can be uploaded, with the words for them. -/
def attributeTypes : List (FieldType × String) :=
  [(.recordId, "recordid"), (.timestamp, "timestamp"), (.attribute, "attribute"), (.fact, "fact"),
    (.time, "timeAttribute"), (.date, "timeAttribute"), (.isDeleted, "isDeleted")]

/-- The types of plain columns, with the operation that reads a column and the definition around
it. -/
def columnTypes : List (FieldType × String × String) :=
  [(.recordId, "recordid", "value"), (.attribute, "stream", "value"), (.fact, "stream", "number"),
    (.time, "stream", "key"), (.date, "stream", "date"), (.snapshot, "snapshot", "snapshot")]

end FieldType

/-! ### Fields -/

namespace Field

/-- The field as an attribute of an upload task. -/
inductive IsAttribute (field : Field) : Json → Prop where
  | attribute {word : String} (row : (field.type, word) ∈ FieldType.attributeTypes) :
      IsAttribute field (.obj [("name", .str field.name), ("type", .str word)])

/-- An operation on a name. -/
def leafOp (type name : String) : Json :=
  .obj [("type", .str type), ("data", .str name)]

/-- An operation on the results of others. -/
def branchOp (type : String) (ops : List Json) : Json :=
  .obj [("type", .str type), ("ops", .arr ops)]

/-- A constant. -/
def constOp (n : Int) : Json :=
  .obj [("type", .str "const"), ("data", .num (.int n))]

/-- How to get to the entity of a historic id: by a stream, or by the record id. -/
def hidVia : Option String → Json
  | some stream => leafOp "stream" stream
  | none => .obj [("type", .str "recordid")]

/-- What to read there.  The operations are left out when there are no fields. -/
def hidTarget (source : HidOrigin) : Json :=
  .obj ([("type", .str "entity"), ("data", .str source.entity)]
    ++ if source.fields = [] then [] else [("ops", .arr (source.fields.map (leafOp "stream")))])

/-- How a column is computed: each kind of field has a definition of its own. -/
inductive IsDefinition : Field → Json → Prop where
  | plain {name op definition : String} {type : FieldType}
      (row : (type, op, definition) ∈ FieldType.columnTypes) :
      IsDefinition (plain name type) (branchOp definition [leafOp op name])
  | snapshot : IsDefinition snapshot (leafOp "snapshot" "date")
  | autoincrement : IsDefinition autoincrement (leafOp "generate" "autoincrement")
  /-- Where the stage is open the time since it began, else one divided by zero. -/
  | duration {name : String} {type : FieldType} :
      IsDefinition (duration name type)
        (branchOp "case" [
          branchOp "option" [
            branchOp "=" [leafOp "stream" "IsClosed", leafOp "match" "false"],
            branchOp "duration" [leafOp "stream" "StageName"]],
          branchOp "option" [constOp 1, constOp 0]])
  | velocity : IsDefinition velocity (branchOp "velocity" [leafOp "stream" "StageName"])
  | hid {source : HidOrigin} :
      IsDefinition (hid source) (branchOp "historicid" [hidVia source.through, hidTarget source])

/-- The name of a column, and the name that it is preferred to have.  The time and the rate of a
stage have names of their own. -/
def heading : Field → String × String
  | duration _ _ => ("StageDuration", "stageduration")
  | velocity => ("StageVelocity", "stagevelocity")
  | field => (field.name, field.name)

/-- The field as a column of a read map. -/
inductive IsColumn (field : Field) : Json → Prop where
  | column {definition : Json} (computed : field.IsDefinition definition) :
      IsColumn field (.obj [("name", .str field.heading.1),
        ("preferred", .str field.heading.2), ("definition", definition)])

end Field

/-! ### Timeframes -/

/-- A timeframe as an object. -/
def Timeframe.document (timeframe : Timeframe) : Json :=
  .obj [("endDate", .str timeframe.endDate.text), ("startDate", .str timeframe.startDate.text),
    ("intervalUnit", .str timeframe.intervalUnit.name),
    ("dayWithinPeriod", .str (match timeframe.dayWithinPeriod with
      | .first => "FIRST"
      | .last => "LAST")),
    ("interval", .num (.int timeframe.interval))]

namespace Entity

/-- What the entity declares: each field with the name of its type, which is empty when it has
none. -/
def IsDeclaration (entity : Entity) (document : Json) : Prop :=
  document = .obj [("entity", .str entity.name), ("file", .str entity.file),
    ("fields", .arr (entity.fields.map fun field => .obj [("name", .str field.name),
      ("type", .str (if field.type = .none then "" else field.type.name))]))]

/-- A request for all fields of the entity. -/
def IsSkeleton (timezone : String) (entity : Entity) (document : Json) : Prop :=
  document = .obj [("timezone", .str timezone), ("entities", .arr [
    .obj [("entity", .str entity.name), ("file", .str entity.file),
      ("fields", .arr (entity.fields.map fun field => .str field.name))]])]

/-- The task to upload the file of the entity, with an attribute for each field, in order. -/
inductive IsUploadTask (pid : String) (entity : Entity) : Json → Prop where
  | task {attributes : List Json}
      (made : List.Forall₂ Field.IsAttribute entity.fields attributes) :
      IsUploadTask pid entity (.obj [("uploadTask", .obj [("entity", .str entity.name),
        ("file", .str ("/uploads/" ++ pid ++ "/" ++ Destination.fileName entity.file)),
        ("attributes", .arr attributes)])])

/-- Read maps as a document has them: as they are, or as text on one line. -/
def written (maps : Json) : ReadMapStyle → Json
  | .structured => maps
  | .inline => .str maps.compact

/-- The task to read the entity for its timeframes, with a column for each field, in order.  The
first field of the highest rank is the key. -/
inductive IsReadTask (pid : String) (style : ReadMapStyle) (entity : Entity) : Json → Prop where
  | task {identifier : Field} {columns : List Json} (identifies : 0 < identifier.rank)
      (first : FirstOfHighest Field.rank entity.fields identifier)
      (timeframes : entity.timeframes ≠ [])
      (made : List.Forall₂ Field.IsColumn entity.fields columns) :
      IsReadTask pid style entity (.obj [("readTask", .obj [("entity", .str entity.name),
        ("timezone", .str entity.timezone),
        ("readMap", written (.arr [
          .obj [("file", .str ("/out_" ++ pid ++ "_" ++ entity.name ++ "/"
              ++ Destination.fileName entity.file)),
            ("populates", .str identifier.name), ("columns", .arr columns)]]) style),
        ("computedStreams", .str "[\x7b\"type\":\"computed\",\"ops\":[]\x7d]"),
        ("timeFrames", .arr (entity.timeframes.map Timeframe.document))])])

end Entity

end StoreTasks
