import StoreTasks.Json.Basic

/-!
# Document — Upload task

The document that tells a load service what the columns of one uploaded file are.
-/

namespace StoreTasks.Document

/-- A column of an uploaded file. -/
structure Attribute where
  name : String
  type : String
deriving DecidableEq, Repr

/-- An attribute as an object. -/
def Attribute.toJson (a : Attribute) : Json :=
  .obj [("name", .str a.name), ("type", .str a.type)]

/-- The task to load one file. -/
structure UploadTask where
  entity : String
  file : String
  attributes : List Attribute
deriving DecidableEq, Repr

/-- An upload task as a document. -/
def UploadTask.toJson (task : UploadTask) : Json :=
  .obj [("uploadTask", .obj [("entity", .str task.entity), ("file", .str task.file),
    ("attributes", .arr (task.attributes.map Attribute.toJson))])]

end StoreTasks.Document
