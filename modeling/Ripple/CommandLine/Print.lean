import Ripple.Exchange.Results
import Ripple.Failure
import Ripple.Json.Writer
import Ripple.Settings.Key
import Ripple.Text.Decimal

/-!
# What the command line prints

Every output is a list of lines. A report has a heading for each file, a line for each tool and,
under a tool that did not pass, its findings, or the beginning of its output when there are none. A
message about a failure names what led to it underneath, numbered when there are several causes.
-/

namespace Ripple.CommandLine

open Text

def count (n : Nat) : String := String.ofList (decimal n)

/-- The text with a character repeated. -/
def rule (c : Char) (width : Nat) : String := String.ofList (List.replicate width c)

/-- The lines, each with a line feed behind it. -/
def joined (lines : List String) : String := String.join (lines.map (· ++ "\n"))

/-- A value as JSON on several lines. -/
def jsonLines (value : Json) : List String := [String.ofList (Json.writePretty value)]

/-! ## Reports -/

/-- How many lines of output are shown. -/
def shownLines : Nat := 10

def detail (line : String) : String := "      " ++ line

/-- What is shown about a verdict that does not pass: its findings, as found in the submitted file,
or the beginning of the output. -/
def details (file : String) (v : Verdict) : List String :=
  if v.findings = [] then ((lines v.output.toList).take shownLines).map (detail ∘ String.ofList)
  else v.findings.map fun finding => detail { finding with file := file }.render

def toolLines (file : String) : String × Verdict → List String
  | (tool, v) =>
    if v.success then ["   ✓ " ++ tool]
    else
      let remark := if v.timedOut then "timed out" else count v.findings.length ++ " issues"
      ("   ✗ " ++ tool ++ " (" ++ remark ++ ")") :: details file v

def fileLines (r : FileReport) : List String :=
  ((if r.passed then "✅ " else "❌ ") ++ r.file) :: r.results.toList.flatMap (toolLines r.file)

def reportLines (r : Report) : List String := r.files.flatMap fileLines

def summaryLines (s : Summary) : List String :=
  ["", rule '─' 50,
    "📊 " ++ count s.files ++ " files: " ++ count s.passedFiles ++ " passed, " ++
      count s.failedFiles ++ " failed, " ++ count s.findings ++ " issues"] ++
    s.toolFailures.toList.map fun (tool, n) => "   " ++ tool ++ ": " ++ count n ++ " failing"

/-! ## Answers -/

def affectedLines (json : Bool) (a : AffectedAnswer) : List String :=
  if json then jsonLines a.toJson else a.affected

/-- An analysis. The JSON form is that of the report alone. -/
def analysisLines (json : Bool) (a : AnalysisAnswer) : List String :=
  if json then jsonLines a.report.toJson
  else reportLines a.report ++ summaryLines a.summary ++ ["⏱️  " ++ count a.millis ++ " ms"]

def impactLines (json : Bool) (a : ImpactAnswer) : List String :=
  if json then jsonLines a.toJson
  else
    ["🔍 Affected:  " ++ count a.affected.length ++ " paths",
      "📄 Analyzed:  " ++ count a.analyzed.length ++ " sources"] ++
      (if a.missing = [] then [] else ["⚠️  Missing:   " ++ ", ".intercalate a.missing]) ++ [""] ++
      if a.report.isEmpty then ["No affected sources to analyze"]
      else reportLines a.report ++ summaryLines a.summary

/-! ## Settings -/

/-- A command with the arguments that come before all others. -/
def commandText (c : Command) : String := " ".intercalate (c.program :: c.prefixArguments)

def settingsLines (s : Settings) (path : String) : List String :=
  ["Change-Impact Configuration", rule '-' 40,
    "Tool Timeout:        " ++ s.value .timeout ++ " s",
    "Artifact Directory:  " ++ s.value .stagingDirectory,
    "Concurrent Files:    " ++ s.value .concurrentFiles,
    "Tools:               " ++ s.value .analyzers,
    "cppcheck:            " ++ commandText s.cppcheck,
    "clang-tidy:          " ++ commandText s.clangTidy,
    "clang-format:        " ++ commandText s.clangFormat,
    "",
    "Config file: " ++ path]

/-! ## Failures -/

/-- A message and what led to it, the nearest cause first. -/
structure Complaint where
  message : String
  causes : List String
  deriving DecidableEq, Repr

/-- The complaint about a failure. -/
def Complaint.ofFailure (failure : Failure) : Complaint := ⟨failure.message, failure.cause?.toList⟩

/-- The complaint that a failure is the cause of. -/
def Complaint.dueTo (message : String) (failure : Failure) : Complaint :=
  ⟨message, failure.message :: failure.cause?.toList⟩

/-- A text with a mark before its first line and blanks of the same width before the others. -/
def hanging (mark : String) (text : String) : List String :=
  match splitWhere (· == '\n') text.toList with
  | [] => []
  | first :: rest =>
    (mark ++ String.ofList first) ::
      rest.map fun line => rule ' ' mark.length ++ String.ofList line

def numberMark (n : Nat) : String :=
  let digits := decimal n
  rule ' ' (5 - digits.length) ++ String.ofList digits ++ ": "

/-- The lines on the causes. -/
def causeLines : List String → List String
  | [] => []
  | [cause] => ["", "Caused by:"] ++ hanging "    " cause
  | causes =>
    ["", "Caused by:"] ++ (causes.zipIdx.flatMap fun (cause, n) => hanging (numberMark n) cause)

def complaintLines (c : Complaint) : List String := ("Error: " ++ c.message) :: causeLines c.causes

/-! ## Usage -/

def usageLines : List String :=
  ["Usage: impact [OPTIONS] <COMMAND>",
    "",
    "Commands:",
    "  affected --deps DIR [--json] PATH...",
    "  analyze [--language LANGUAGE] [--json] [--strict] FILE...",
    "  analyze --batch FILE [--language LANGUAGE] [--json] [--strict]",
    "  scan --deps DIR [--root DIR] [--json] [--strict] PATH...",
    "  config show | set KEY VALUE | get KEY | reset | path",
    "",
    "Options:",
    "  -v, --verbose  say more about the work",
    "  -q, --quiet    say nothing about the work but errors",
    "  -h, --help     show this text",
    "  -V, --version  show the version"]

def versionLines : List String := ["impact 0.1.0"]

end Ripple.CommandLine
