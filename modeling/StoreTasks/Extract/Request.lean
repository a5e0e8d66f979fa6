import StoreTasks.Json.Shape

/-!
# Extract — Request

What an extract asks for, as it is specified: which entities, which of their fields, and for
which timeframes.  Reading a request fixes the kinds of its members only; fields and timeframes
stay values until they are resolved against a load.
-/

namespace StoreTasks.Extract

open Json Shape

/-- An entity that is asked for. -/
structure Selection where
  entity : Option String
  fields : Option (List Json)
  timeframes : Option Json
  file : Option String
deriving DecidableEq

namespace Selection

/-- The name of the record in messages. -/
def recordName : String :=
  "EntitySelection"

/-- The selection that a value holds. -/
def ofJson : Json → Except ShapeError Selection
  | .obj members => do
    let entity ← optional text (lookup "entity" members)
    let fields ← optional (list any) (lookup "fields" members)
    let file ← optional text (lookup "file" members)
    let timeframes ← optional any (lookup "timeframes" members)
    return { entity, fields, timeframes, file }
  | .arr items => do
    let entity ← optional text items[0]?
    let fields ← optional (list any) items[1]?
    let timeframes ← optional any items[2]?
    let file ← optional text items[3]?
    atMost 4 items
    return { entity, fields, timeframes, file }
  | value => .error (.unexpected value (.record recordName))

end Selection

/-- What an extract asks for. -/
structure Request where
  timezone : Option String
  timeframes : Option Json
  entities : Option (List Selection)
deriving DecidableEq

namespace Request

/-- The name of the record in messages. -/
def recordName : String :=
  "ExtractSpec"

/-- The request that a value holds. -/
def ofJson : Json → Except ShapeError Request
  | .obj members => do
    let entities ← optional (list Selection.ofJson) (lookup "entities" members)
    let timeframes ← optional any (lookup "timeframes" members)
    let timezone ← optional text (lookup "timezone" members)
    return { timezone, timeframes, entities }
  | .arr items => do
    let timezone ← optional text items[0]?
    let timeframes ← optional any items[1]?
    let entities ← optional (list Selection.ofJson) items[2]?
    atMost 3 items
    return { timezone, timeframes, entities }
  | value => .error (.unexpected value (.record recordName))

end Request

/-- A historic-id field that is asked for. -/
structure HidRequest where
  fromEntity : Option String
  fromFields : Option (List String)
  connectedThrough : Option String
deriving DecidableEq

namespace HidRequest

/-- The name of the record in messages. -/
def recordName : String :=
  "HidSpec"

/-- The request that a value holds.  As a list it has at least one item. -/
def ofJson : Json → Except ShapeError HidRequest
  | .obj members => do
    let connectedThrough ← optional text (lookup "connected_through" members)
    let fromEntity ← optional text (lookup "from_entity" members)
    let fromFields ← optional (list text) (lookup "from_fields" members)
    return { fromEntity, fromFields, connectedThrough }
  | .arr [] => .error (.tooShort recordName 3)
  | .arr items => do
    let fromEntity ← optional text items[0]?
    let fromFields ← optional (list text) items[1]?
    let connectedThrough ← optional text items[2]?
    atMost 3 items
    return { fromEntity, fromFields, connectedThrough }
  | value => .error (.unexpected value (.record recordName))

end HidRequest

end StoreTasks.Extract
