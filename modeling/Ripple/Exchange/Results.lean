import Ripple.Exchange.Inputs

/-!
# JSON forms of what comes out

Findings, verdicts, reports, summaries and answers.

A file report is one object: next to the member `file` every member is a tool with its verdict. When
it is read, the members are kept until all of them are known, and that is only done for values that
are plain and not nested too deeply.
-/

namespace Ripple

/-- Counts are below this bound. -/
def countBound : Nat := UInt64.size

namespace Finding

def toJson (f : Finding) : Json :=
  .record [("file", .text f.file), ("line", .nat f.line.toNat), ("column", .nat f.column.toNat),
    ("severity", .text f.severity), ("message", .text f.message), ("checker", .text f.checker)]

/-- The number of a line or a column. -/
def place? (j : Json) : Option UInt32 := (j.toNat? UInt32.size).map UInt32.ofNat

def ofJson? (j : Json) : Option Finding := do
  let [file, line, column, severity, message, checker] ←
    j.fields? ["file", "line", "column", "severity", "message", "checker"] | none
  some ⟨← Json.need Json.toText? file, ← Json.need place? line, ← Json.need place? column,
    ← Json.need Json.toText? severity, ← Json.need Json.toText? message,
    ← Json.need Json.toText? checker⟩

end Finding

namespace Verdict

def toJson (v : Verdict) : Json :=
  .record [("tool", .text v.tool), ("success", .bool v.success), ("output", .text v.output),
    ("issues", .array (v.findings.map Finding.toJson))]

def ofJson? (j : Json) : Option Verdict := do
  let [tool, success, output, findings] ← j.fields? ["tool", "success", "output", "issues"] | none
  some ⟨← Json.need Json.toText? tool, ← Json.need Json.toBool? success,
    ← Json.need Json.toText? output, ← Json.orElse [] (Json.toList? Finding.ofJson?) findings⟩

end Verdict

namespace FileReport

/-- The key of the file's name among the tools. -/
def fileKey : String := "file"

/-- How deep the value of a tool may be nested, together with what is around it. -/
def maxDepth : Nat := 127

def toJson (r : FileReport) : Json :=
  .record ((fileKey, .text r.file) :: r.results.toList.map fun (tool, v) => (tool, v.toJson))

/-- The member belongs to the file's name. -/
def isFileMember (m : LiteralText × Json) : Bool := m.1 == some fileKey

/-- A member that can be kept inside `level` arrays and objects. -/
def isKeepable (level : Nat) (m : LiteralText × Json) : Bool :=
  m.2.plain && level + m.2.depth ≤ maxDepth

/-- The file report with the given JSON form, inside `level` arrays and objects. -/
def ofJson? (level : Nat) : Json → Option FileReport
  | .object members =>
    match members.filter isFileMember with
    | [(_, file)] =>
      let tools := members.filter (!isFileMember ·)
      if tools.all (isKeepable (level + 1)) then do
        some ⟨← file.toText?, ← (Json.object tools).toMap? Verdict.ofJson?⟩
      else none
    | _ => none
  | _ => none

end FileReport

namespace Report

/-- A report is written as the array of its file reports. -/
def toJson (r : Report) : Json := .array (r.files.map FileReport.toJson)

/-- The report with the given JSON form, inside `level` arrays and objects. -/
def ofJson? (level : Nat) (j : Json) : Option Report :=
  (j.toList? (FileReport.ofJson? (level + 1))).map Report.mk

end Report

namespace Summary

def toJson (s : Summary) : Json :=
  .record [("files", .nat s.files), ("passed_files", .nat s.passedFiles),
    ("failed_files", .nat s.failedFiles), ("issues", .nat s.findings),
    ("tool_failures", .record (s.toolFailures.toList.map fun (tool, n) => (tool, .nat n)))]

def count? : Json → Option Nat := Json.toNat? countBound

def ofJson? (j : Json) : Option Summary := do
  let [files, passed, failed, findings, failures] ←
    j.fields? ["files", "passed_files", "failed_files", "issues", "tool_failures"] | none
  some ⟨← Json.need count? files, ← Json.need count? passed, ← Json.need count? failed,
    ← Json.need count? findings, ← Json.orElse ∅ (Json.toMap? count?) failures⟩

end Summary

namespace AffectedAnswer

def toJson (a : AffectedAnswer) : Json :=
  .record [("affected_files", .texts a.affected), ("changed_count", .nat a.changedCount),
    ("target_count", .nat a.targetCount)]

def ofJson? (j : Json) : Option AffectedAnswer := do
  let [affected, changed, targets] ←
    j.fields? ["affected_files", "changed_count", "target_count"] | none
  some ⟨← Json.need Json.toTexts? affected, ← Json.need Summary.count? changed,
    ← Json.need Summary.count? targets⟩

end AffectedAnswer

namespace AnalysisAnswer

def toJson (a : AnalysisAnswer) : Json :=
  .record [("report", a.report.toJson), ("summary", a.summary.toJson),
    ("duration_ms", .nat a.millis)]

def ofJson? (j : Json) : Option AnalysisAnswer := do
  let [report, summary, millis] ← j.fields? ["report", "summary", "duration_ms"] | none
  some ⟨← Json.need (Report.ofJson? 1) report, ← Json.need Summary.ofJson? summary,
    ← Json.need Summary.count? millis⟩

end AnalysisAnswer

namespace ImpactAnswer

def toJson (a : ImpactAnswer) : Json :=
  .record [("affected_files", .texts a.affected), ("analyzed_files", .texts a.analyzed),
    ("missing_files", .texts a.missing), ("report", a.report.toJson), ("summary", a.summary.toJson)]

def ofJson? (j : Json) : Option ImpactAnswer := do
  let [affected, analyzed, missing, report, summary] ←
    j.fields? ["affected_files", "analyzed_files", "missing_files", "report", "summary"] | none
  some ⟨← Json.need Json.toTexts? affected, ← Json.need Json.toTexts? analyzed,
    ← Json.orElse [] Json.toTexts? missing, ← Json.need (Report.ofJson? 1) report,
    ← Json.need Summary.ofJson? summary⟩

end ImpactAnswer

end Ripple
