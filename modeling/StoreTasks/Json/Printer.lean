import StoreTasks.Json.Basic

/-!
# Json — Printer

The text of a value, on one line or indented.  Members are written in the order in which the
value holds them.  In strings only the quote, the backslash and the controls below U+0020 are
escaped; every other character stands as it is.
-/

namespace StoreTasks.Json

/-- How the parts of a text are set apart. -/
inductive Layout where
  /-- All on one line, without blanks. -/
  | compact
  /-- Each item and member on a line of its own, two spaces per level; the number is the level
  of the line that the value starts on. -/
  | pretty (level : Nat)
deriving DecidableEq, Repr

namespace Layout

/-- The layout of the items of a list or object. -/
def inner : Layout → Layout
  | .compact => .compact
  | .pretty level => .pretty (level + 1)

/-- The start of a new line. -/
def newLine : Layout → List Char
  | .compact => []
  | .pretty level => '\n' :: List.replicate (2 * level) ' '

/-- What stands between a key and its value. -/
def colon : Layout → List Char
  | .compact => [':']
  | .pretty _ => [':', ' ']

end Layout

/-- Four hexadecimal digits in lower case for a code below U+0020. -/
def controlDigits (code : Nat) : List Char :=
  ['0', '0', Nat.digitChar (code / 16), Nat.digitChar (code % 16)]

/-- A character inside a string. -/
def escapeChar (c : Char) : List Char :=
  match c with
  | '"' => ['\\', '"']
  | '\\' => ['\\', '\\']
  | '\x08' => ['\\', 'b']
  | '\x0c' => ['\\', 'f']
  | '\n' => ['\\', 'n']
  | '\r' => ['\\', 'r']
  | '\t' => ['\\', 't']
  | c => if c.toNat < 0x20 then '\\' :: 'u' :: controlDigits c.toNat else [c]

/-- A string between quotes. -/
def stringText (s : String) : List Char :=
  '"' :: s.toList.flatMap escapeChar ++ ['"']

mutual

/-- The text of a value. -/
def chars (layout : Layout) : Json → List Char
  | .null => ['n', 'u', 'l', 'l']
  | .bool true => ['t', 'r', 'u', 'e']
  | .bool false => ['f', 'a', 'l', 's', 'e']
  | .num n => n.text
  | .str s => stringText s
  | .arr [] => ['[', ']']
  | .arr (v :: rest) =>
    '[' :: layout.inner.newLine ++ chars layout.inner v ++ itemsTail layout rest
  | .obj [] => ['\x7b', '\x7d']
  | .obj ((k, v) :: rest) =>
    '\x7b' :: layout.inner.newLine ++ stringText k ++ layout.colon ++ chars layout.inner v
      ++ membersTail layout rest

/-- The items after the first one, and the end of the list. -/
def itemsTail (layout : Layout) : List Json → List Char
  | [] => layout.newLine ++ [']']
  | v :: rest => ',' :: layout.inner.newLine ++ chars layout.inner v ++ itemsTail layout rest

/-- The members after the first one, and the end of the object. -/
def membersTail (layout : Layout) : List (String × Json) → List Char
  | [] => layout.newLine ++ ['\x7d']
  | (k, v) :: rest =>
    ',' :: layout.inner.newLine ++ stringText k ++ layout.colon ++ chars layout.inner v
      ++ membersTail layout rest

end

/-- The value on one line. -/
def compact (value : Json) : String :=
  String.ofList (value.chars .compact)

/-- The value over indented lines, without a final line end. -/
def pretty (value : Json) : String :=
  String.ofList (value.chars (.pretty 0))

/-- How a value is shown in a message: on one line, keys in order. -/
def shown (value : Json) : String :=
  value.canonical.compact

end StoreTasks.Json
