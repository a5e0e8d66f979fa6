/-!
# Text — Lower case

Lower case as far as English words need it.  Besides the ASCII capitals only the Kelvin sign has
an ASCII letter alone as its lower case, so a text whose every other character is left as it is
spells an English word exactly when its full lower case does.
-/

namespace StoreTasks.Text

/-- The lower case of an ASCII capital or of the Kelvin sign; another character itself. -/
def lowerChar (c : Char) : Char :=
  if 'A' ≤ c ∧ c ≤ 'Z' then Char.ofNat (c.toNat + 32)
  else if c = '\u212a' then 'k'
  else c

/-- The text in lower case. -/
def lower (text : List Char) : List Char :=
  text.map lowerChar

end StoreTasks.Text
