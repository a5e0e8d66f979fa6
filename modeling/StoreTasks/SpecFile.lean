import StoreTasks.Failure
import StoreTasks.FileTree
import StoreTasks.Json.Printer
import StoreTasks.Json.Reader
import StoreTasks.Load

/-!
# SpecFile

Specifications in files.  A load may be spread over several files, and is written to one.
-/

namespace StoreTasks

/-- The value that a specification file holds. -/
def SpecFile.read (lookup : String → Entry) (path : String) : Except Failure Json :=
  match (lookup path).text? with
  | none => .error (.during (.readSpecFile path) .file)
  | some text =>
    match Json.read? text with
    | none => .error (.during (.parseSpecFile path) .notJson)
    | some value => .ok value

namespace Load

/-- The load that several files specify.  All files are read before the load is made. -/
def ofFiles (lookup : String → Entry) (paths : List String) : Except Failure Load := do
  let fragments ← paths.mapM (SpecFile.read lookup)
  (ofFragments fragments).mapError fun refusal => .during (.checkLoad paths) (.refused refusal)

/-- The tree after the declarations of a load are written to a file, without a line end after
them.  A relative path starts from the directory `start`. -/
def save (load : Load) (tree : FileTree) (path : String) (start : Location := []) :
    Except Failure FileTree :=
  match tree.write? start path load.toJson.pretty with
  | some tree => .ok tree
  | none => .error (.during (.writeLoad path) .file)

end Load

end StoreTasks
