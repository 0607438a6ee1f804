import Ripple.Path
import Ripple.Text.Keyword

/-!
# Source languages

The two languages of compilation units. A header is no compilation unit, so its extension names no
language. Extensions are told apart by case, names given by a user are not.
-/

namespace Ripple

open Text

/-- The language of a compilation unit. -/
inductive Language
  | c
  | cpp
  deriving DecidableEq, Repr

namespace Language

def name : Language → String
  | c => "c"
  | cpp => "cpp"

def all : List Language := [c, cpp]

/-- The language whose files have the extension. -/
def ofExtension? (extension : List Char) : Option Language :=
  if extension = "c".toList then some c
  else if ["cpp", "cc", "cxx", "c++"].any (·.toList == extension) then some cpp
  else none

/-- The language of the compilation unit at the path. -/
def ofPath? (path : String) : Option Language := (Path.extension? path.toList).bind ofExtension?

/-- The language that a user asks for. -/
def parse? (text : String) : Option Language :=
  if spells "c" text.toList then some c
  else if ["cpp", "c++", "cxx"].any (spells · text.toList) then some cpp
  else none

/-- The complaint about a text that names no language. -/
def unknown (text : String) : String := "Unknown language: " ++ text

end Language

end Ripple
