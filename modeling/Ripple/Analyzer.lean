import Ripple.Text.Blank
import Ripple.Text.Keyword

/-!
# Analyzers

The three external analyzers, by the names that reports and settings give them. A user may write a
name in any case, with blanks around it, and with an underscore or nothing in the place of the
hyphen.
-/

namespace Ripple

open Text

/-- An external analyzer. -/
inductive Analyzer
  | cppcheck
  | clangTidy
  | clangFormat
  deriving DecidableEq, Repr

namespace Analyzer

/-- The analyzers in the order in which they are listed. -/
def all : List Analyzer := [cppcheck, clangTidy, clangFormat]

/-- The name that stands in reports. -/
def name : Analyzer → String
  | cppcheck => "cppcheck"
  | clangTidy => "clang-tidy"
  | clangFormat => "clang-format"

/-- The ways to write the name, in lower case. -/
def spellings : Analyzer → List String
  | cppcheck => ["cppcheck"]
  | clangTidy => ["clang-tidy", "clang_tidy", "clangtidy"]
  | clangFormat => ["clang-format", "clang_format", "clangformat"]

/-- The analyzer that a user names. -/
def parse? (text : String) : Option Analyzer :=
  all.find? fun analyzer => analyzer.spellings.any (spells · (trim text.toList))

/-- The complaint about a text that names no analyzer. -/
def unknown (text : String) : String := "Unknown tool: " ++ text

end Analyzer

end Ripple
