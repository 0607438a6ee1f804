import Ripple.Finding
import Ripple.Language
import Ripple.Tool.Command

/-!
# Verdicts

A scanner is asked about a file in a language and answers with a verdict: whether the file passes,
what the analyzer wrote, and the findings in it. A scanner has no other way to answer, so every
difficulty with an analyzer is a verdict too: one that does not pass and whose output says why.
-/

namespace Ripple

/-- A file to scan. -/
structure ScanRequest where
  path : String
  language : Language
  deriving DecidableEq, Repr

/-- What a scanner says about a file. -/
structure Verdict where
  tool : String
  success : Bool
  output : String
  findings : List Finding
  deriving DecidableEq, Repr

namespace Verdict

/-- The verdict when the analyzer could not do its work. -/
def failure (tool output : String) : Verdict := ⟨tool, false, output, []⟩

/-- The verdict says that the analyzer was stopped for taking too long. -/
def timedOut (v : Verdict) : Bool := !v.success && timeoutMarker.toList.isPrefixOf v.output.toList

end Verdict

end Ripple
