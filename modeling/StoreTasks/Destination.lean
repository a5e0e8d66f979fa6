import StoreTasks.Calendar.Written

/-!
# Destination

The paths that rendered documents refer to, and the names of extract results on the local side.

The name of a path is its last component.  A slash separates components; empty components do not
count, and neither does `.`, but a path that has `..` as its last component has no name.  In a
name, the extension follows the last dot, unless that dot comes first.
-/

namespace StoreTasks.Destination

open Calendar

/-! ### Names -/

/-- The components of a path that count. -/
def components (path : List Char) : List (List Char) :=
  (path.splitOnP (· == '/')).filter fun c => c ≠ [] ∧ c ≠ ['.']

/-- The name of a path, empty when it has none. -/
def baseName (path : List Char) : List Char :=
  match (components path).getLast? with
  | none => []
  | some name => if name = ['.', '.'] then [] else name

/-- The part of a name before the last dot, and the extension after it. -/
def splitExtension (name : List Char) : List Char × Option (List Char) :=
  let extension := (name.reverse.takeWhile (· ≠ '.')).reverse
  let stem := name.take (name.length - extension.length - 1)
  if '.' ∈ name ∧ stem ≠ [] then (stem, some extension) else (name, none)

/-- The name of a path, empty when it has none. -/
def fileName (path : String) : String :=
  String.ofList (baseName path.toList)

/-! ### Remote paths -/

/-- The directory that extracts of an entity are written to. -/
def extractDirectory (pid entity : String) : String :=
  "/out_" ++ pid ++ "_" ++ entity

/-- The directory that uploads are read from. -/
def uploadDirectory (pid : String) : String :=
  "/uploads/" ++ pid

/-- The file that an extract of an entity is written to. -/
def ofExtract (pid entity source : String) : String :=
  extractDirectory pid entity ++ "/" ++ fileName source

/-- The file that an upload is read from. -/
def ofUpload (pid source : String) : String :=
  uploadDirectory pid ++ "/" ++ fileName source

/-! ### Local names -/

/-- What the local names of extract results are marked with. -/
structure Marks where
  /-- The time of the extract. -/
  withDate : Bool
  /-- The word `deleted`. -/
  deleted : Bool
deriving DecidableEq, Repr

/-- The marks that come after the stem of a local name. -/
def Marks.suffix (marks : Marks) (moment : Moment) : List Char :=
  (if marks.deleted then "_deleted".toList else [])
    ++ (if marks.withDate then '_' :: moment.chars else [])

/-- The local name of an extract result. -/
def Marks.localName (marks : Marks) (source : String) (moment : Moment) : String :=
  let (stem, extension) := splitExtension (baseName source.toList)
  String.ofList <| stem ++ marks.suffix moment ++
    match extension with
    | some extension => '.' :: extension
    | none => []

end StoreTasks.Destination
