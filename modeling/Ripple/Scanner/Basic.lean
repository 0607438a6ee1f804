import Ripple.Scanner.ClangFormat
import Ripple.Scanner.ClangTidy
import Ripple.Scanner.Cppcheck

/-!
# Scanners

A scanner is an analyzer together with the command that runs it, a time limit for each run and the
place of the system headers, of which the format checker has no need.
-/

namespace Ripple

/-- An analyzer, ready to run. -/
structure Scanner where
  analyzer : Analyzer
  command : Command
  /-- The time limit of a run in milliseconds. -/
  limit : Nat
  headers : SystemHeaders
  deriving DecidableEq, Repr

namespace Scanner

/-- The place of the system headers, as far as the analyzer is told about it. -/
def headers? (s : Scanner) : Option SystemHeaders :=
  match s.analyzer with
  | .cppcheck | .clangTidy => some s.headers
  | .clangFormat => none

/-- The words for a run that did not complete. -/
def message (s : Scanner) (failure : RunFailure) : String :=
  failure.message s.command.program s.limit

/-- The words for a run that did not complete, marked when it took too long. -/
def report (s : Scanner) (failure : RunFailure) : String :=
  failure.report s.command.program s.limit

/-- Runs the analyzer on a file and judges what comes of it. -/
def scan (s : Scanner) (programs : Programs) (request : ScanRequest) : Verdict :=
  match s.analyzer with
  | .cppcheck =>
    match s.command.run programs (Cppcheck.arguments request s.headers) with
    | .ok run => Cppcheck.judge run
    | .error failure => .failure Cppcheck.tool (s.report failure)
  | .clangTidy =>
    match s.command.run programs (ClangTidy.arguments request s.headers) with
    | .ok run => ClangTidy.judge run
    | .error failure => .failure ClangTidy.tool (s.report failure)
  | .clangFormat =>
    let check := s.command.run programs (ClangFormat.checkArguments request)
    match ClangFormat.compliance s.report s.message check with
    | .error reason => .failure ClangFormat.tool reason
    | .ok compliant =>
      let format := s.command.run programs (ClangFormat.formatArguments request)
      ClangFormat.judge request compliant (ClangFormat.formatted s.report format)

end Scanner

end Ripple
