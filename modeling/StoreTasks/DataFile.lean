import StoreTasks.Failure
import StoreTasks.FileTree

/-!
# DataFile

Source files of entities, of which only the number of lines matters: a header and the rows after
it.  Lines end at a line feed, and the lines that are looked at have to be UTF-8.
-/

namespace StoreTasks.DataFile

/-- The first line of some bytes, with its end, and the bytes after it. -/
def splitLine (bytes : List UInt8) : List UInt8 × List UInt8 :=
  let size := (bytes.takeWhile (· ≠ 10)).length + 1
  (bytes.take size, bytes.drop size)

/-- The bytes are UTF-8. -/
def isText (bytes : List UInt8) : Bool :=
  (Text.decodeUtf8? bytes).isSome

/-- The bytes hold at least two lines; `none` when a line that is looked at is not UTF-8. -/
def hasTwoLines? (bytes : List UInt8) : Option Bool :=
  let (first, rest) := splitLine bytes
  let (second, _) := splitLine rest
  if bytes.isEmpty then some false
  else if !isText first then none
  else if rest.isEmpty then some false
  else if !isText second then none
  else some true

/-- The file holds a header and at least one row. -/
def hasRows (lookup : String → Entry) (path : String) : Except Failure Bool :=
  match lookup path with
  | .missing => .error (.during (.openSource path) .file)
  | .directory => .error (.during (.readSource path) .file)
  | .file contents =>
    match hasTwoLines? contents with
    | none => .error (.during (.readSource path) .file)
    | some rows => .ok rows

end StoreTasks.DataFile
