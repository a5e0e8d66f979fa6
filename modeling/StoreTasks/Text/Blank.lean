/-!
# Text — Blank

White space, and the words between it.  Texts are handled as lists of characters.

Blank characters are the 25 code points with the property `White_Space`.  A text is trimmed by
dropping blanks at both ends, and its words are the longest runs of characters that are not
blank.
-/

namespace StoreTasks.Text

/-- The character has the property `White_Space`. -/
def isBlank (c : Char) : Bool :=
  let n := c.toNat
  (0x09 ≤ n && n ≤ 0x0D) || n == 0x20 || n == 0x85 || n == 0xA0 || n == 0x1680
    || (0x2000 ≤ n && n ≤ 0x200A) || n == 0x2028 || n == 0x2029 || n == 0x202F
    || n == 0x205F || n == 0x3000

/-- The text without the blanks it starts with. -/
def trimStart (text : List Char) : List Char :=
  text.dropWhile isBlank

/-- The text without the blanks it starts or ends with. -/
def trim (text : List Char) : List Char :=
  (trimStart (trimStart text).reverse).reverse

/-- The words of a text, in order. -/
def words (text : List Char) : List (List Char) :=
  (text.splitOnP isBlank).filter (!·.isEmpty)

/-- The string holds no character that is not blank; the empty string is blank. -/
def blank (s : String) : Bool :=
  s.toList.all isBlank

end StoreTasks.Text
