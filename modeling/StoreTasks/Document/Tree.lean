import StoreTasks.Json.Basic

/-!
# Document — Tree

Column definitions are trees of operations.  A node has a type, perhaps a literal, and the
operations below it.
-/

namespace StoreTasks.Document

/-- The literal of a node: the name of a stream or an entity, or a constant. -/
inductive Literal where
  | text (s : String)
  | number (n : Int)
deriving DecidableEq, Repr

/-- A literal as a value. -/
def Literal.toJson : Literal → Json
  | .text s => .str s
  | .number n => .num (.int n)

/-- An operation and the operations below it. -/
inductive Op where
  | node (type : String) (data : Option Literal) (ops : List Op)
deriving Repr

namespace Op

mutual

/-- Operations can be told apart. -/
def decEq : (a b : Op) → Decidable (a = b)
  | .node s d as, .node t e bs =>
    if h : s = t ∧ d = e then
      match decEqList as bs with
      | isTrue hs => isTrue (by rw [h.1, h.2, hs])
      | isFalse hs => isFalse fun e => hs (Op.node.inj e).2.2
    else isFalse fun e => h ⟨(Op.node.inj e).1, (Op.node.inj e).2.1⟩

/-- Lists of operations can be told apart. -/
def decEqList : (as bs : List Op) → Decidable (as = bs)
  | [], [] => isTrue rfl
  | [], _ :: _ | _ :: _, [] => isFalse nofun
  | a :: as, b :: bs =>
    match decEq a b, decEqList as bs with
    | isTrue h, isTrue hs => isTrue (h ▸ hs ▸ rfl)
    | isFalse h, _ => isFalse fun e => h (List.cons.inj e).1
    | _, isFalse hs => isFalse fun e => hs (List.cons.inj e).2

end

instance : DecidableEq Op := decEq

/-- An operation on a literal. -/
def leaf (type data : String) : Op :=
  .node type (some (.text data)) []

/-- A constant. -/
def const (n : Int) : Op :=
  .node "const" (some (.number n)) []

/-- An operation on other operations. -/
def branch (type : String) (ops : List Op) : Op :=
  .node type none ops

mutual

/-- An operation as an object; a missing literal and an empty list of operations are left out. -/
def toJson : Op → Json
  | .node type data ops =>
    .obj ([("type", .str type)]
      ++ (match data with
        | none => []
        | some literal => [("data", literal.toJson)])
      ++ (match ops with
        | [] => []
        | op :: rest => [("ops", .arr (op.toJson :: toJsonList rest))]))

/-- Operations as a list of objects. -/
def toJsonList : List Op → List Json
  | [] => []
  | op :: rest => op.toJson :: toJsonList rest

end

end Op

/-- A column of a read map. -/
structure Column where
  name : String
  preferred : String
  definition : Op
deriving DecidableEq, Repr

/-- A column as an object. -/
def Column.toJson (column : Column) : Json :=
  .obj [("name", .str column.name), ("preferred", .str column.preferred),
    ("definition", column.definition.toJson)]

end StoreTasks.Document
