import Ripple.Analyzer
import Ripple.Verdict

/-!
# The format checker

Two runs. The first only checks and decides: exit code zero means that the file is formatted well,
one that it is not, and anything else that the checker could not do its work. The second run formats
the file and is only shown; whether it succeeds does not change the verdict.
-/

namespace Ripple.ClangFormat

def checkArguments (request : ScanRequest) : List String := ["--dry-run", "--Werror", request.path]

def formatArguments (request : ScanRequest) : List String := [request.path]

def tool : String := Analyzer.clangFormat.name

/-- What the output begins with when a run went wrong. -/
def errorHeading : String := "[clang-format] execution error:"

/-- The message of the finding on a file that is not formatted well. -/
def mismatch : String :=
  "[clang-format] code style does not match; reformat the file with clang-format"

/-- The output when a run ended with an exit code that it should not have. -/
def executionError (run : Completion) : String :=
  errorHeading ++ (if run.out = "" then "" else "\n" ++ run.out) ++
    (if run.err = "" then "" else "\n" ++ run.err) ++ "\n" ++ run.description

/-- Whether the file is formatted well, as the first run says; or why there is no answer. `report`
gives the words for a run that took too long and `message` those for one that was not started. -/
def compliance (report message : RunFailure → String) : Run → Except String Bool
  | .ok run =>
    if run.exit = some 0 then .ok true
    else if run.exit = some 1 then .ok false
    else .error (executionError run)
  | .error .overran => .error (report .overran)
  | .error failure => .error (errorHeading ++ "\n" ++ message failure)

/-- What the second run has to show. -/
def formatted (report : RunFailure → String) : Run → String
  | .ok run => if run.succeeded then run.out else executionError run
  | .error failure => report failure

/-- The finding on a file that is not formatted well. -/
def mismatchFinding (request : ScanRequest) : Finding :=
  ⟨request.path, 0, 0, "style", mismatch, tool⟩

/-- The verdict once the first run has given an answer. -/
def judge (request : ScanRequest) (compliant : Bool) (output : String) : Verdict :=
  ⟨tool, compliant, output, if compliant then [] else [mismatchFinding request]⟩

end Ripple.ClangFormat
