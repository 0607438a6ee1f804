import Ripple.Text.Split

/-!
# Lines

A line ends at a line feed, and one carriage return directly before that line feed belongs to the
line end as well. What stands after the last line feed is a line too unless it is empty, and keeps a
carriage return at its end. `joinLines` puts a line feed between lines and none after the last.
-/

namespace Ripple.Text

/-- The line without the carriage return of its line end. -/
def dropReturn (line : List Char) : List Char :=
  if line.getLast? = some '\r' then line.dropLast else line

/-- The lines of a text, without their line ends. -/
def lines (text : List Char) : List (List Char) :=
  let pieces := splitWhere (· == '\n') text
  pieces.dropLast.map dropReturn ++ pieces.getLast?.toList.filter (· ≠ [])

/-- The lines with a line feed between each two. -/
def joinLines (lines : List (List Char)) : List Char := ['\n'].intercalate lines

end Ripple.Text
