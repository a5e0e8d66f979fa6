import StoreTasks.Json.Basic

/-!
# Document — Skeleton

The skeleton of an extract: a request for all fields of an entity, to be cut down by hand.  The
document has the shape of an extract specification.
-/

namespace StoreTasks.Document

/-- An entity of a skeleton, with its fields by name. -/
structure SkeletonEntity where
  entity : String
  file : String
  fields : List String
deriving DecidableEq, Repr

/-- An entity of a skeleton as an object. -/
def SkeletonEntity.toJson (entity : SkeletonEntity) : Json :=
  .obj [("entity", .str entity.entity), ("file", .str entity.file),
    ("fields", .strings entity.fields)]

/-- The skeleton of an extract. -/
structure Skeleton where
  timezone : String
  entities : List SkeletonEntity
deriving DecidableEq, Repr

/-- A skeleton as an object. -/
def Skeleton.toJson (skeleton : Skeleton) : Json :=
  .obj [("timezone", .str skeleton.timezone),
    ("entities", .arr (skeleton.entities.map SkeletonEntity.toJson))]

end StoreTasks.Document
