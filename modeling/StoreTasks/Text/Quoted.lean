import StoreTasks.Text.Combining
import StoreTasks.Text.Printable

/-!
# Text — Quoted

A text in double quotes, as messages show it.  The quote, the backslash and the four usual
controls have a short escape; every other character that is unprintable or combining is
written as its code point in hexadecimal.
-/

namespace StoreTasks.Text

/-- How one character stands between quotes. -/
def quotedChar (c : Char) : List Char :=
  match c with
  | '"' => ['\\', '"']
  | '\\' => ['\\', '\\']
  | '\n' => ['\\', 'n']
  | '\r' => ['\\', 'r']
  | '\t' => ['\\', 't']
  | '\x00' => ['\\', '0']
  | c =>
    if isPrintable c && !isCombining c then [c]
    else ['\\', 'u', '\x7b'] ++ Nat.toDigits 16 c.toNat ++ ['\x7d']

/-- The text between double quotes. -/
def quoted (s : String) : String :=
  String.ofList ('"' :: s.toList.flatMap quotedChar ++ ['"'])

example : quoted "a\u0301\"" = "\"a\\u\x7b301\x7d\\\"\"" := by decide +kernel

end StoreTasks.Text
