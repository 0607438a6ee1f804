import Ripple.Report
import Ripple.Scanner.Basic
import Ripple.Staging

/-!
# Batches

A batch of sources is inspected file by file, in order. Each source is staged, all inspectors look
at the staged file, and the file is removed again, whatever came of it. The batch ends early at the
first source that cannot be staged or whose inspection crashes; nothing after it is staged or
inspected.

Several inspectors may report under the same tool, and then the last one has the say.
-/

namespace Ripple

open Text

/-- A source text submitted for inspection. -/
structure Source where
  name : String
  content : String
  language : Language
  deriving DecidableEq, Repr

/-- Something that looks at a file and reports under the name of a tool. Instead of giving a verdict
it may crash; `ε` is what is known about a crash, so an `Inspector Empty` always gives a verdict. -/
structure Inspector (ε : Type) where
  tool : String
  inspect : FileTree → ScanRequest → Except ε Verdict

/-- The inspector that runs a scanner. -/
def Inspector.ofScanner (programs : FileTree → Programs) (scanner : Scanner) : Inspector Empty :=
  ⟨scanner.analyzer.name, fun t request => .ok (scanner.scan (programs t) request)⟩

/-- Why a batch ends early. -/
inductive Interruption (ε : Type)
  | unstaged (failure : StagingFailure)
  | crashed (crash : ε)
  deriving DecidableEq, Repr

/-- Inspectors, the directory in which they find the staged files, and the stamp for each place in a
batch. -/
structure Workbench (ε : Type) where
  inspectors : List (Inspector ε)
  directory : String
  stamps : Nat → Stamp

namespace Workbench

def tools (w : Workbench ε) : List String := w.inspectors.map (·.tool)

/-- The verdict of an inspector on a file, next to the tool. -/
def entry (t : FileTree) (request : ScanRequest) (i : Inspector ε) : Except ε (String × Verdict) :=
  (i.inspect t request).map (i.tool, ·)

/-- The verdicts of all inspectors on a file, unless one crashes. -/
def verdicts (w : Workbench ε) (t : FileTree) (request : ScanRequest) :
    Except ε (NameTable Verdict) :=
  (w.inspectors.mapM (entry t request)).map NameTable.ofList

/-- Stages the source at some place of a batch, has it inspected and removes it again. -/
def report (w : Workbench ε) (t : FileTree) (place : Nat) (source : Source) :
    FileTree × Except (Interruption ε) FileReport :=
  match t.stage w.directory (w.stamps place) source.name source.content with
  | (t, .error failure) => (t, .error (.unstaged failure))
  | (t, .ok path) =>
    (t.unstage path,
      match w.verdicts t ⟨path, source.language⟩ with
      | .ok results => .ok ⟨source.name, results⟩
      | .error crash => .error (.crashed crash))

/-- The reports on the sources from some place of a batch on. -/
def reportsFrom (w : Workbench ε) (t : FileTree) (place : Nat) :
    List Source → FileTree × Except (Interruption ε) (List FileReport)
  | [] => (t, .ok [])
  | source :: rest =>
    match w.report t place source with
    | (t, .error interruption) => (t, .error interruption)
    | (t, .ok report) =>
      let (t, reports) := reportsFrom w t (place + 1) rest
      (t, reports.map (report :: ·))

def inspect (w : Workbench ε) (t : FileTree) (batch : List Source) :
    FileTree × Except (Interruption ε) Report :=
  let (t, reports) := w.reportsFrom t 0 batch
  (t, reports.map Report.mk)

end Workbench

end Ripple
