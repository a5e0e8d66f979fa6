import StoreTasks.Extract.Request
import StoreTasks.Load

/-!
# Extract

Entities to read, resolved against a load.

Each selection of a request becomes one entity.  A requested field is the declared field of that
name if there is one, else the computed field that the name is a keyword for, else a historic
id given by an object with the only key `hid`.  The timeframes of a selection count before those
of the request, and the file of a selection before that of the first declaration.
-/

namespace StoreTasks

open Calendar Document

/-- Resolved entities, with the timeframes and the timezone of the request. -/
structure Extract where
  entities : List Entity
  /-- The timeframes of entities that have none of their own. -/
  timeframes : List Timeframe
  timezone : String
deriving DecidableEq

namespace Extract

/-! ### Fields -/

/-- The value, or the refusal when there is none. -/
def require (value : Option α) (refusal : Refusal) : Except Refusal α :=
  match value with
  | some value => .ok value
  | none => .error refusal

/-- The historic-id field of a request for an entity. -/
def hidField (entity : String) (spec : Json) : Except Refusal Field := do
  let request ← (HidRequest.ofJson spec).mapError (.hidMalformed entity)
  let source ← require request.fromEntity (.hidWithoutFromEntity entity)
  let fields ← require request.fromFields (.hidWithoutFromFields entity)
  Field.ofHidOrigin ⟨source, fields, request.connectedThrough⟩

/-- The field that a request means within the merged entity. -/
def resolveField (merged : Entity) (request : Json) : Except Refusal Field :=
  match request with
  | .str name =>
    match merged.field? name <|> Field.ofKeyword? name with
    | some field => .ok field
    | none => .error (.unresolvedField merged.name request)
  | .obj members =>
    match Json.lookup "hid" members with
    | none => .error (.unresolvedField merged.name request)
    | some spec =>
      if members.length = 1 then hidField merged.name spec
      else .error (.hidNotAlone merged.name request)
  | _ => .error (.unresolvedField merged.name request)

/-! ### Entities -/

/-- The timeframes of a selection: its own if it has any, else those of the request. -/
def timeframesFor (entity : String) (own : Option (List Timeframe)) (default : List Timeframe) :
    Except Refusal (List Timeframe) :=
  match own.getD [], default with
  | [], [] => .error (.timeframeUndefined entity)
  | [], default => .ok default
  | own, _ => .ok own

/-- The file of a selection, else that of the first declaration. -/
def fileFor (load : Load) (merged : Entity) (selection : Selection) : String :=
  selection.file.getD (((load.entity? merged.name).map Entity.file).getD merged.file)

/-- The entity that a selection means. -/
def resolveSelection (load : Load) (default : List Timeframe) (timezone : String) (today : Date)
    (selection : Selection) : Except Refusal Entity := do
  let name ← require selection.entity .selectionWithoutEntity
  let merged ← load.merged name
  let requested ← require selection.fields (.selectionWithoutFields name)
  let fields ← requested.mapM (resolveField merged)
  let own ← Timeframe.listOfJson? selection.timeframes today
  let timeframes ← timeframesFor name own default
  let entity ← Entity.declare name (fileFor load merged selection) fields
  return (entity.withTimeframes timeframes).withTimezone timezone

/-! ### Requests -/

/-- The timeframes of a request, by default the latest. -/
def defaultTimeframes (request : Request) (today : Date) : Except Refusal (List Timeframe) := do
  match ← Timeframe.listOfJson? request.timeframes today with
  | some timeframes => return timeframes
  | none => return [← Timeframe.latest today]

/-- The extract that a request means for a load, with relative dates as seen from today. -/
def resolve (request : Request) (load : Load) (today : Date) : Except Refusal Extract := do
  let timeframes ← defaultTimeframes request today
  let timezone := request.timezone.getD defaultTimezone
  let selections ← require request.entities .noEntities
  let entities ← selections.mapM (resolveSelection load timeframes timezone today)
  return { entities, timeframes, timezone }

/-- The extract of a specification. -/
def ofJson (spec : Json) (load : Load) (today : Date) : Except Refusal Extract := do
  let request ← (Request.ofJson spec).mapError .extractMalformed
  resolve request load today

/-- The first entity of a name. -/
def entity? (extract : Extract) (name : String) : Option Entity :=
  extract.entities.find? (·.name = name)

/-- The tasks to read the entities for a process, in order. -/
def readTasks (extract : Extract) (pid : String) (style : ReadMapStyle) :
    Except Refusal (List ReadTask) :=
  extract.entities.mapM (·.readTask pid style)

end Extract

end StoreTasks
