import StoreTasks.Text.Utf8

/-!
# FileTree

A tree of directories with files, as programs see it.  A path starts at the root, or where the
program runs, and leads through directories; `.` stays where it is and `..` goes up, which at the
root leads nowhere else.

A directory exists when it is recorded, or when anything is recorded below it.
-/

namespace StoreTasks

/-- The names that lead from the root to a file or directory. -/
abbrev Location :=
  List String

/-- What a path leads to. -/
inductive Entry where
  /-- Nothing that can be opened. -/
  | missing
  /-- A directory: it can be opened but not read. -/
  | directory
  | file (contents : List UInt8)
deriving DecidableEq

/-- The text of a file in UTF-8. -/
def Entry.text? : Entry → Option String
  | file contents => Text.decodeUtf8? contents
  | _ => none

/-- What is recorded at a location. -/
inductive Node where
  | directory
  | file (contents : List UInt8)
deriving DecidableEq

/-- A node, for a path that leads to it. -/
def Node.entry : Node → Entry
  | directory => .directory
  | file contents => .file contents

/-- Directories and files, each at its location. -/
structure FileTree where
  nodes : List (Location × Node)
deriving DecidableEq

namespace FileTree

/-! ### Paths -/

/-- The names between the slashes of a path. -/
def pathNames (path : String) : List String :=
  (path.toList.splitOnP (· == '/')).map String.ofList

/-- The tree of some files, each given by a path from the root without `..`. -/
def ofFiles (files : List (String × List UInt8)) : FileTree :=
  ⟨files.map fun (path, contents) =>
    ((pathNames path).filter fun name => name ≠ "" ∧ name ≠ ".", .file contents)⟩

/-- What stands at a location. -/
def entryAt (tree : FileTree) (location : Location) : Entry :=
  match tree.nodes.lookup location with
  | some node => node.entry
  | none =>
    if location = [] ∨ tree.nodes.any fun (l, _) => location.isPrefixOf l then .directory
    else .missing

/-- One step of a path, which has to start from a directory. -/
def step? (tree : FileTree) (location : Location) (name : String) : Option Location :=
  if tree.entryAt location ≠ .directory then none
  else if name = "" ∨ name = "." then some location
  else if name = ".." then some location.dropLast
  else some (location ++ [name])

/-- Where a path starts, for a program that runs in the directory `start`. -/
def origin (start : Location) (path : String) : Location :=
  if path.toList.head? = some '/' then [] else start

/-- The location that a path leads to from a directory; only its last name need not exist. -/
def locate? (tree : FileTree) (start : Location) (path : String) : Option Location :=
  if path = "" ∨ '\x00' ∈ path.toList then none
  else (pathNames path).foldlM tree.step? (origin start path)

/-! ### Reading and writing -/

/-- What a path leads to from a directory. -/
def lookupFrom (tree : FileTree) (start : Location) (path : String) : Entry :=
  match tree.locate? start path with
  | some location => tree.entryAt location
  | none => .missing

/-- What a path leads to from the root. -/
def lookup (tree : FileTree) (path : String) : Entry :=
  tree.lookupFrom [] path

/-- The tree with a file at a location. -/
def put (tree : FileTree) (location : Location) (contents : List UInt8) : FileTree :=
  if tree.nodes.any (·.1 = location) then
    ⟨tree.nodes.map fun (l, node) => (l, if l = location then .file contents else node)⟩
  else ⟨tree.nodes ++ [(location, .file contents)]⟩

/-- The tree after a text is written to a path, if the path leads to a file or a free place in
a directory. -/
def write? (tree : FileTree) (start : Location) (path text : String) : Option FileTree := do
  let location ← tree.locate? start path
  if tree.entryAt location = .directory then none
  else some (tree.put location (Text.encodeUtf8 text))

/-- The files of a tree that an earlier tree does not have, or has with other contents, by their
paths from the root. -/
def changesSince (tree earlier : FileTree) : List (String × List UInt8) :=
  tree.nodes.filterMap fun (location, node) =>
    match node with
    | .directory => none
    | .file contents =>
      if earlier.nodes.lookup location = some node then none
      else some ("/".intercalate location, contents)

end FileTree

end StoreTasks
