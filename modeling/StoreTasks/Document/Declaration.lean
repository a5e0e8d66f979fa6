import StoreTasks.Json.Basic

/-!
# Document — Declaration

What a load declares, as a document: entities with their files, and fields with the names of their
types.  The document has the shape of a load specification.
-/

namespace StoreTasks.Document

/-- The declaration of a field. -/
structure FieldDeclaration where
  name : String
  /-- The name of the type, empty when there is none. -/
  type : String
deriving DecidableEq, Repr

/-- The declaration of a field as an object. -/
def FieldDeclaration.toJson (declaration : FieldDeclaration) : Json :=
  .obj [("name", .str declaration.name), ("type", .str declaration.type)]

/-- The declaration of an entity. -/
structure Declaration where
  entity : String
  file : String
  fields : List FieldDeclaration
deriving DecidableEq, Repr

/-- The declaration of an entity as an object. -/
def Declaration.toJson (declaration : Declaration) : Json :=
  .obj [("entity", .str declaration.entity), ("file", .str declaration.file),
    ("fields", .arr (declaration.fields.map FieldDeclaration.toJson))]

/-- Declarations as a list of objects. -/
def Declaration.listToJson (declarations : List Declaration) : Json :=
  .arr (declarations.map Declaration.toJson)

end StoreTasks.Document
