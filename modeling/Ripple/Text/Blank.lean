import Ripple.Text.CodeRanges
import Ripple.Text.Split

/-!
# Blank characters

A character is blank when it has Unicode's White_Space property. `trim` takes the blank characters
off both ends of a text and `words` cuts a text into its runs of characters that are not blank.
-/

namespace Ripple.Text

/-- The code points with the White_Space property. -/
def blankRanges : CodeRanges := [
  (0x9, 0xD), (0x20, 0x20), (0x85, 0x85), (0xA0, 0xA0), (0x1680, 0x1680), (0x2000, 0x200A),
  (0x2028, 0x2029), (0x202F, 0x202F), (0x205F, 0x205F), (0x3000, 0x3000)]

/-- The character has the White_Space property. -/
def isBlank (c : Char) : Bool := blankRanges.has c.toNat

/-- The text without the blank characters it begins with. -/
def trimStart (text : List Char) : List Char := text.dropWhile isBlank

/-- The text without the blank characters it ends with. -/
def trimEnd (text : List Char) : List Char := (text.reverse.dropWhile isBlank).reverse

/-- The text without the blank characters at either end. -/
def trim (text : List Char) : List Char := trimEnd (trimStart text)

def isAllBlank (text : List Char) : Bool := text.all isBlank

/-- The runs of characters that are not blank, in order. -/
def words (text : List Char) : List (List Char) := (splitWhere isBlank text).filter (· ≠ [])

end Ripple.Text
