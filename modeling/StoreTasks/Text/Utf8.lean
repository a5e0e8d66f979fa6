/-!
# Text — UTF-8

Strings as bytes in UTF-8 and back.  Bytes are handled as lists.
-/

namespace StoreTasks.Text

/-- The bytes of a string. -/
def encodeUtf8 (s : String) : List UInt8 :=
  s.toUTF8.data.toList

/-- The string of some bytes, unless they are malformed. -/
def decodeUtf8? (bytes : List UInt8) : Option String :=
  String.fromUTF8? ⟨⟨bytes⟩⟩

end StoreTasks.Text
