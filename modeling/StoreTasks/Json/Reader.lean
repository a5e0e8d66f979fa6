import StoreTasks.Json.Basic

/-!
# Json — Reader

Reading JSON texts.  The grammar is strict: no comments, no trailing commas, no controls inside
strings, and every escaped surrogate is one of a pair.  Lists and objects may nest up to a
given number of levels.  Of several members with one key the last counts, and the members of
an object that was read are in order of their keys.

Each function reads one part from the start of a text and returns the rest of the text, or
`none` when the part is malformed.
-/

namespace StoreTasks.Json

/-- Lists and objects may nest this deep. -/
def maxLevels : Nat := 127

/-- The character may stand between tokens. -/
def isSpace (c : Char) : Bool :=
  c == ' ' || c == '\n' || c == '\t' || c == '\r'

/-- The text without the space it starts with. -/
def skipSpace (text : List Char) : List Char :=
  text.dropWhile isSpace

/-! ### Strings -/

/-- The value of a hexadecimal digit. -/
def hexValue? (c : Char) : Option Nat :=
  if '0' ≤ c ∧ c ≤ '9' then some (c.toNat - '0'.toNat)
  else if 'a' ≤ c ∧ c ≤ 'f' then some (c.toNat - 'a'.toNat + 10)
  else if 'A' ≤ c ∧ c ≤ 'F' then some (c.toNat - 'A'.toNat + 10)
  else none

/-- The number that four hexadecimal digits write. -/
def hexQuad? (a b c d : Char) : Option Nat := do
  let a ← hexValue? a
  let b ← hexValue? b
  let c ← hexValue? c
  let d ← hexValue? d
  some (((a * 16 + b) * 16 + c) * 16 + d)

/-- The character that a short escape stands for. -/
def shortEscape? : Char → Option Char
  | '"' => some '"'
  | '\\' => some '\\'
  | '/' => some '/'
  | 'b' => some '\x08'
  | 'f' => some '\x0c'
  | 'n' => some '\n'
  | 'r' => some '\r'
  | 't' => some '\t'
  | _ => none

/-- The code is the first half of a surrogate pair. -/
def isHighSurrogate (code : Nat) : Bool :=
  0xD800 ≤ code && code < 0xDC00

/-- The code is the second half of a surrogate pair. -/
def isLowSurrogate (code : Nat) : Bool :=
  0xDC00 ≤ code && code < 0xE000

/-- The character of a surrogate pair. -/
def pairChar (high low : Nat) : Char :=
  Char.ofNat (0x10000 + (high - 0xD800) * 0x400 + (low - 0xDC00))

/-- The contents of a string after its opening quote. -/
def readStringTail : List Char → Option (List Char × List Char)
  | [] => none
  | '"' :: rest => some ([], rest)
  | '\\' :: 'u' :: a :: b :: c :: d :: rest =>
    match hexQuad? a b c d with
    | none => none
    | some code =>
      if isHighSurrogate code then
        match rest with
        | '\\' :: 'u' :: a :: b :: c :: d :: rest =>
          match hexQuad? a b c d with
          | none => none
          | some low =>
            if isLowSurrogate low then
              (readStringTail rest).map fun (s, rest) => (pairChar code low :: s, rest)
            else none
        | _ => none
      else if isLowSurrogate code then none
      else (readStringTail rest).map fun (s, rest) => (Char.ofNat code :: s, rest)
  | '\\' :: c :: rest =>
    match shortEscape? c with
    | none => none
    | some c => (readStringTail rest).map fun (s, rest) => (c :: s, rest)
  | c :: rest =>
    if c.toNat < 0x20 ∨ c = '\\' then none
    else (readStringTail rest).map fun (s, rest) => (c :: s, rest)

/-- A string with its opening quote. -/
def readString (text : List Char) : Option (String × List Char) :=
  match text with
  | '"' :: rest => (readStringTail rest).map fun (s, rest) => (String.ofList s, rest)
  | _ => none

/-- The colon after a key. -/
def readColon (text : List Char) : Option (List Char) :=
  match skipSpace text with
  | ':' :: rest => some rest
  | _ => none

/-! ### Values -/

mutual

/-- A value, with at most `levels` levels of lists and objects. -/
def readValue (fuel levels : Nat) (text : List Char) : Option (Json × List Char) :=
  match fuel with
  | 0 => none
  | fuel + 1 =>
    match skipSpace text with
    | 'n' :: 'u' :: 'l' :: 'l' :: rest => some (.null, rest)
    | 't' :: 'r' :: 'u' :: 'e' :: rest => some (.bool true, rest)
    | 'f' :: 'a' :: 'l' :: 's' :: 'e' :: rest => some (.bool false, rest)
    | '"' :: rest => (readString ('"' :: rest)).map fun (s, rest) => (.str s, rest)
    | '[' :: rest =>
      match levels with
      | 0 => none
      | levels + 1 =>
        match skipSpace rest with
        | ']' :: rest => some (.arr [], rest)
        | rest => (readItems fuel levels rest).map fun (items, rest) => (.arr items, rest)
    | '\x7b' :: rest =>
      match levels with
      | 0 => none
      | levels + 1 =>
        match skipSpace rest with
        | '\x7d' :: rest => some (.obj [], rest)
        | rest =>
          (readMembers fuel levels rest).map fun (members, rest) =>
            (.obj (sortMembers members), rest)
    | rest => (Number.read rest).map fun (n, rest) => (.num n, rest)

/-- The items of a list from the next one on, with the closing bracket. -/
def readItems (fuel levels : Nat) (text : List Char) : Option (List Json × List Char) :=
  match fuel with
  | 0 => none
  | fuel + 1 =>
    match readValue fuel levels text with
    | none => none
    | some (v, rest) =>
      match skipSpace rest with
      | ',' :: rest => (readItems fuel levels rest).map fun (vs, rest) => (v :: vs, rest)
      | ']' :: rest => some ([v], rest)
      | _ => none

/-- The members of an object from the next one on, with the closing brace. -/
def readMembers (fuel levels : Nat) (text : List Char) :
    Option (List (String × Json) × List Char) :=
  match fuel with
  | 0 => none
  | fuel + 1 =>
    match (readString (skipSpace text)).bind fun (k, rest) =>
        (readColon rest).map fun rest => (k, rest) with
    | none => none
    | some (k, rest) =>
      match readValue fuel levels rest with
      | none => none
      | some (v, rest) =>
        match skipSpace rest with
        | ',' :: rest =>
          (readMembers fuel levels rest).map fun (members, rest) => ((k, v) :: members, rest)
        | '\x7d' :: rest => some ([(k, v)], rest)
        | _ => none

end

/-- Steps that suffice for a text: every two steps consume a character. -/
def readingSteps (text : List Char) : Nat :=
  2 * text.length + 2

/-- A value at the start of the text. -/
def readPart (levels : Nat) (text : List Char) : Option (Json × List Char) :=
  readValue (readingSteps text) levels text

/-- The value that a text holds, with nothing after it. -/
def readChars? (levels : Nat) (text : List Char) : Option Json :=
  match readPart levels text with
  | some (v, rest) => if (skipSpace rest).isEmpty then some v else none
  | none => none

/-- The value that a text holds, or `none` when the text is not JSON. -/
def read? (text : String) : Option Json :=
  readChars? maxLevels text.toList

end StoreTasks.Json
