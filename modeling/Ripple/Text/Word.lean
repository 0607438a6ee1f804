import Ripple.Text.Alphabetic
import Ripple.Text.Mark
import Ripple.Text.Number

/-!
# Word characters

Word characters are letters, marks, decimal digits, connector punctuation such as the underscore,
and the two join controls, all as version 16 of Unicode has them. An alphanumeric character is a
letter or a number of any category in version 17.
-/

namespace Ripple.Text

/-- The code points of category Pc. -/
def connectorRanges : CodeRanges := [
  (0x5F, 0x5F), (0x203F, 0x2040), (0x2054, 0x2054), (0xFE33, 0xFE34), (0xFE4D, 0xFE4F),
  (0xFF3F, 0xFF3F)]

/-- The zero width non-joiner and joiner. -/
def joinControlRanges : CodeRanges := [(0x200C, 0x200D)]

/-- The character may stand in a word. -/
def isWordChar (c : Char) : Bool :=
  isAlphabetic c || isMark c || isDecimalDigit c || connectorRanges.has c.toNat ||
    joinControlRanges.has c.toNat

/-- The character is a letter or a number. The letter numbers of category Nl are letters. -/
def isAlphanumeric (c : Char) : Bool :=
  isAlphabetic c || newAlphabeticRanges.has c.toNat || isDecimalDigit c ||
    newDecimalDigitRanges.has c.toNat || otherNumberRanges.has c.toNat

end Ripple.Text
