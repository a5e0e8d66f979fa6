import StoreTasks.Document.Tree
import StoreTasks.Json.Printer

/-!
# Document — Read task

The document that tells an extract service which columns of one entity to read, for which
timeframes, and into which file.
-/

namespace StoreTasks.Document

/-- The columns of one file. -/
structure ReadMap where
  file : String
  /-- The name of the column that identifies a row. -/
  populates : String
  columns : List Column
deriving DecidableEq, Repr

/-- A read map as an object. -/
def ReadMap.toJson (map : ReadMap) : Json :=
  .obj [("file", .str map.file), ("populates", .str map.populates),
    ("columns", .arr (map.columns.map Column.toJson))]

/-- Whether read maps are written as they are or as a string that holds their JSON text. -/
inductive ReadMapStyle where
  | structured
  | inline
deriving DecidableEq, Repr

/-- Read maps as a list of objects. -/
def ReadMap.listToJson (maps : List ReadMap) : Json :=
  .arr (maps.map ReadMap.toJson)

/-- Read maps in a style; the inline text is on one line. -/
def ReadMapStyle.render : ReadMapStyle → List ReadMap → Json
  | .structured, maps => ReadMap.listToJson maps
  | .inline, maps => .str (ReadMap.listToJson maps).compact

/-- A timeframe as documents show it. -/
structure Window where
  endDate : String
  startDate : String
  intervalUnit : String
  dayWithinPeriod : String
  interval : Nat
deriving DecidableEq, Repr

/-- A timeframe as an object. -/
def Window.toJson (window : Window) : Json :=
  .obj [("endDate", .str window.endDate), ("startDate", .str window.startDate),
    ("intervalUnit", .str window.intervalUnit), ("dayWithinPeriod", .str window.dayWithinPeriod),
    ("interval", .num (.int window.interval))]

/-- The streams computed by every read task: none. -/
def noComputedStreams : String :=
  "[\x7b\"type\":\"computed\",\"ops\":[]\x7d]"

/-- The task to read one entity. -/
structure ReadTask where
  entity : String
  timezone : String
  style : ReadMapStyle
  readMap : List ReadMap
  timeframes : List Window
deriving DecidableEq, Repr

/-- A read task as a document. -/
def ReadTask.toJson (task : ReadTask) : Json :=
  .obj [("readTask", .obj [("entity", .str task.entity), ("timezone", .str task.timezone),
    ("readMap", task.style.render task.readMap),
    ("computedStreams", .str noComputedStreams),
    ("timeFrames", .arr (task.timeframes.map Window.toJson))])]

end StoreTasks.Document
