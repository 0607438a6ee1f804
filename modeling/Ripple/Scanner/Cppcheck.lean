import Ripple.Analyzer
import Ripple.Headers
import Ripple.Text.Search
import Ripple.Verdict

/-!
# The defect checker

Of what the checker writes, blank lines, progress lines and the note about missing system headers
are left out. A file passes when the run ends with exit code zero and what is left names none of the
blocking severities. A run that ends otherwise without saying anything of use is reported as one
that failed.
-/

namespace Ripple.Cppcheck

open Text

def arguments (request : ScanRequest) (headers : SystemHeaders) : List String :=
  ["--enable=all",
    "--inconclusive",
    match request.language with
    | .c => "--std=c11"
    | .cpp => "--std=c++17",
    "--suppress=missingIncludeSystem",
    "--suppress=unmatchedSuppression",
    "--suppress=checkersReport",
    "--force",
    "-I" ++ headers.directory,
    request.path]

/-- How the checker writes its findings. -/
def style : LineStyle := ⟨["style", "error", "warning", "information"], isWordChar, false⟩

/-- The note about system headers that were not found. -/
def missingHeadersNote : String := "Cppcheck cannot find all the include files"

/-- What a progress line begins with. -/
def progressMark : String := "Checking "

/-- The line is blank, a progress line, or the note about missing headers. -/
def isNoise (line : List Char) : Bool :=
  isAllBlank line || progressMark.toList.isPrefixOf line || occursIn missingHeadersNote.toList line

/-- The lines that are no noise. -/
def filterOutput (text : List Char) : List Char :=
  joinLines ((lines text).filter fun line => !isNoise line)

/-- The severities that keep a file from passing. -/
def blockingSeverities : List String := ["error", "warning", "performance", "portability", "style"]

/-- How blocking severities show: between a colon with one blank and another colon. -/
def blockingMarks : List (List Char) :=
  blockingSeverities.map fun severity => (": " ++ severity ++ ":").toList

/-- A blocking severity begins the text. -/
def beginsBlocking (text : List Char) : Bool := blockingMarks.any (·.isPrefixOf text)

/-- The text names a blocking severity somewhere. -/
def blocks (text : List Char) : Bool := anySuffix beginsBlocking text

def tool : String := Analyzer.cppcheck.name

def judge (run : Completion) : Verdict :=
  let filtered := filterOutput run.combined.toList
  let blocking := blocks filtered
  let findings := style.findings filtered
  if ¬ run.succeeded ∧ ¬ blocking ∧ findings = [] then
    .failure tool
      (if filtered = [] then "cppcheck failed with " ++ run.description else String.ofList filtered)
  else ⟨tool, !blocking && run.succeeded, String.ofList filtered, findings⟩

end Ripple.Cppcheck
