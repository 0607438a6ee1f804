import Ripple.Names
import Ripple.Verdict

/-!
# Reports

A report lists the inspected files in the order in which they were asked for, with one verdict for
each tool. A file passes when all its verdicts do. The summary counts files, findings and, for each
tool that failed somewhere, the files it failed on.
-/

namespace Ripple

/-- The verdicts on one file, by tool. -/
structure FileReport where
  file : String
  results : NameTable Verdict
  deriving DecidableEq

/-- The reports on the files of a batch. -/
structure Report where
  files : List FileReport
  deriving DecidableEq

/-- What a report comes to. -/
structure Summary where
  files : Nat
  passedFiles : Nat
  failedFiles : Nat
  findings : Nat
  /-- On how many files each tool failed, for the tools that failed. -/
  toolFailures : NameTable Nat
  deriving DecidableEq

namespace FileReport

/-- The verdicts, in ascending order of the tools. -/
def verdicts (r : FileReport) : List Verdict := r.results.toList.map (·.2)

def passed (r : FileReport) : Bool := r.verdicts.all (·.success)

/-- The tools that did not pass, in ascending order. -/
def failedTools (r : FileReport) : List String :=
  (r.results.toList.filter fun (_, verdict) => !verdict.success).map (·.1)

/-- The tools that were stopped for taking too long, in ascending order. -/
def overdueTools (r : FileReport) : List String :=
  (r.results.toList.filter fun (_, verdict) => verdict.timedOut).map (·.1)

/-- The findings of all tools, in ascending order of the tools. -/
def findings (r : FileReport) : List Finding := r.verdicts.flatMap (·.findings)

def findingCount (r : FileReport) : Nat := r.findings.length

end FileReport

namespace Report

def size (r : Report) : Nat := r.files.length

def isEmpty (r : Report) : Bool := r.files.isEmpty

/-- The first report on a file of that name. -/
def file? (r : Report) (name : String) : Option FileReport := r.files.find? (·.file == name)

def allPassed (r : Report) : Bool := r.files.all (·.passed)

/-- Counts one more occurrence of the tool. -/
def countTool (counts : NameTable Nat) (tool : String) : NameTable Nat :=
  counts.insert tool ((counts[tool]?).getD 0 + 1)

def summary (r : Report) : Summary where
  files := r.size
  passedFiles := r.files.countP (·.passed)
  failedFiles := r.size - r.files.countP (·.passed)
  findings := (r.files.flatMap (·.findings)).length
  toolFailures := (r.files.flatMap (·.failedTools)).foldl countTool ∅

end Report

end Ripple
