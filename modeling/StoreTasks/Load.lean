import StoreTasks.Entity

/-!
# Load

The entities that a store is loaded with.  Several of them may have the same name; they are then
the parts of one entity that is spread over several files, and the fields of the parts, one
after another, are the merged entity.  A load that `ofEntities` accepts has a merged entity for
every name in it.
-/

namespace StoreTasks

open Document

/-- Declared entities, in order. -/
structure Load where
  entities : List Entity
deriving DecidableEq

/-- The strings of a list, each where it occurs first. -/
def distinct : List String → List String
  | [] => []
  | name :: rest => name :: (distinct rest).filter (· ≠ name)

namespace Load

/-- What stands in the place of the file of a merged entity. -/
def mergedMark : String :=
  "MERGED"

/-- The names of the entities, each once. -/
def names (load : Load) : List String :=
  distinct (load.entities.map Entity.name)

/-- The entities of a name. -/
def parts (load : Load) (name : String) : List Entity :=
  load.entities.filter (·.name = name)

/-- The first entity of a name. -/
def entity? (load : Load) (name : String) : Option Entity :=
  load.entities.find? (·.name = name)

/-- The entity with the fields of all entities of a name. -/
def merged (load : Load) (name : String) : Except Refusal Entity :=
  match load.parts name with
  | [] => .error (.unableToMerge name)
  | parts => Entity.declare name mergedMark (parts.flatMap Entity.fields)

/-! ### Making loads -/

/-- The load of some entities, if every name among them has a merged entity. -/
def ofEntities (entities : List Entity) : Except Refusal Load := do
  let load : Load := ⟨entities⟩
  load.names.forM fun name => discard (load.merged name)
  return load

/-- The entities of a list of declarations, or of a single one. -/
def entitiesOfJson (spec : Json) : Except Refusal (List Entity) :=
  match spec with
  | .arr items => items.mapM Entity.ofJson
  | .obj _ => (Entity.ofJson spec).map ([·])
  | _ => .error (.loadNotList spec)

/-- The load of several specifications, taken as one. -/
def ofFragments (fragments : List Json) : Except Refusal Load := do
  let entities ← fragments.mapM entitiesOfJson
  ofEntities entities.flatten

/-- The load of a specification. -/
def ofJson (spec : Json) : Except Refusal Load := do
  ofEntities (← entitiesOfJson spec)

/-! ### Rendering -/

/-- The entities of some names, all of them when no names are given; every name has to be
there. -/
def select (load : Load) (names : List String) : Except Refusal (List Entity) :=
  match names.find? fun name => (load.entity? name).isNone with
  | some unknown => .error (.unableToMerge unknown)
  | none => .ok (load.entities.filter fun entity => names.isEmpty || entity.name ∈ names)

/-- The tasks to load the files of the selected entities, one for each. -/
def uploadTasks (load : Load) (pid : String) (names : List String) :
    Except Refusal (List UploadTask) := do
  let selected ← load.select names
  selected.mapM (·.uploadTask pid)

/-- The skeletons of extracts, one for each entity. -/
def skeletons (load : Load) (timezone : String) : List Skeleton :=
  load.entities.map fun entity => (entity.withTimezone timezone).skeleton

/-- What the load declares. -/
def declarations (load : Load) : List Declaration :=
  load.entities.map Entity.declaration

/-- What the load declares as a value that is a specification of it. -/
def toJson (load : Load) : Json :=
  Declaration.listToJson load.declarations

end Load

end StoreTasks
