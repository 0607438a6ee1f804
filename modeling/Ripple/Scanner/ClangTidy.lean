import Ripple.Analyzer
import Ripple.Headers
import Ripple.Verdict

/-!
# The linter

The exit code decides. The output of a run that passes is both streams; of one that does not, the
first stream that is not blank. The findings are those of both streams either way.
-/

namespace Ripple.ClangTidy

open Text

def arguments (request : ScanRequest) (headers : SystemHeaders) : List String :=
  [request.path,
    "--",
    match request.language with
    | .c => "-std=c11"
    | .cpp => "-std=c++17"] ++ headers.clangFlags

/-- The character may stand in the name of a check. -/
def isCheckChar (c : Char) : Bool := isWordChar c || c == '.' || c == ',' || c == '-'

/-- How the linter writes its findings. -/
def style : LineStyle := ⟨["error", "warning", "note"], isCheckChar, true⟩

def tool : String := Analyzer.clangTidy.name

/-- The output of a run that does not pass. -/
def failureOutput (run : Completion) : String :=
  if ¬ isAllBlank run.out.toList then run.out
  else if ¬ isAllBlank run.err.toList then run.err
  else "clang-tidy failed with " ++ run.description

def judge (run : Completion) : Verdict :=
  ⟨tool, run.succeeded, if run.succeeded then run.combined else failureOutput run,
    style.findings run.combined.toList⟩

end Ripple.ClangTidy
