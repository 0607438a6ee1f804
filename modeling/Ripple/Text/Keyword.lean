/-!
# Keywords in any case

A keyword consists of ASCII letters and punctuation. A text spells it when the text's lower-case
form is the keyword. Of the characters outside ASCII only the Kelvin sign has a lower-case form that
is a single ASCII character, so no other one can take part in a keyword.
-/

namespace Ripple.Text

/-- The lower-case form of a character, as far as it is a single ASCII character; every other
character stays as it is. -/
def lowerToAscii (c : Char) : Char :=
  if 'A' ≤ c ∧ c ≤ 'Z' then Char.ofNat (c.toNat + 32)
  else if c = '\u212A' then 'k'
  else c

/-- The text is the keyword, written in any mixture of upper and lower case. -/
def spells (keyword : String) (text : List Char) : Bool :=
  text.map lowerToAscii == keyword.toList

end Ripple.Text
