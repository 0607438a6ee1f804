import Ripple.Failure
import Ripple.Graph.Directory
import Ripple.Impact
import Ripple.Session.Messages
import Ripple.Batch.Schedule

/-!
# Sessions

A session answers three kinds of questions: what a change affects; how submitted sources fare with
the analyzers; and how the compilation units that a change affects do. The last one puts the first
two together. Of the affected units those that are regular files are read and inspected, in
ascending order; the others are listed as missing. A unit that is there and cannot be read ends the
session's work.

As many sources are in flight at the same time as the settings allow. In which order things happen
to them is not up to the session: it is one of the things that a session finds.
-/

namespace Ripple

open Text

/-- The settings, the place of the system headers, how programs behave next to the files of a tree,
the stamps for staged files, and the order in which things happen to the sources of a batch. -/
structure Session where
  settings : Settings
  headers : SystemHeaders
  programs : FileTree → Programs
  stamps : Nat → Stamp
  order : List Event := []

namespace Session

/-- The inspectors that the settings ask for, at work in the directory for staged files. -/
def workbench (s : Session) : Workbench Empty where
  inspectors := (s.settings.scanners s.headers).map (Inspector.ofScanner s.programs)
  directory := s.settings.stagingDirectory
  stamps := s.stamps

def graph (t : FileTree) (directory : String) : Except Failure DependencyGraph :=
  match DependencyGraph.ofDirectory? t directory with
  | some g => .ok g
  | none => .error (.noRecords directory)

def affected (t : FileTree) (request : AffectedRequest) : Except Failure AffectedAnswer :=
  (graph t request.directory).map fun g =>
    let changed := Names.ofList request.changed
    ⟨(Impact.affected changed.toList g).toList, changed.size, g.size⟩

/-- The failure that an interruption is. The inspectors of a session do not crash. -/
def failure : Interruption Empty → Failure
  | .unstaged f => .staging f

/-- How many sources may be in flight. -/
def filesInFlight (s : Session) : Nat := s.settings.concurrentFiles.toNat

/-- A whole batch, in the order of the session. -/
def progress (s : Session) (t : FileTree) (batch : List Source) : Progress Empty :=
  .complete s.workbench s.filesInFlight t batch s.order

def inspect (s : Session) (t : FileTree) (batch : List Source) : FileTree × Except Failure Report :=
  let p := s.progress t batch
  (p.tree, p.result.mapError failure)

/-- How submitted sources fare, after the given number of milliseconds. -/
def analyze (s : Session) (t : FileTree) (millis : Nat) (batch : List Source) :
    FileTree × Except Failure AnalysisAnswer :=
  let (t, report) := s.inspect t batch
  (t, report.map fun r => ⟨r, r.summary, millis⟩)

/-- The compilation units that are affected or that the record of an affected target lists. -/
def affectedUnits (affected : Names) (g : DependencyGraph) : Names :=
  Names.ofList ((Impact.sourceFiles affected.toList).toList ++
    (Impact.sourcesOfTargets affected.toList g).toList)

/-- Reads the compilation units under `root`: the sources that are there, and the paths of those
that are missing. -/
def readUnits (t : FileTree) (root : String) :
    List String → Except Failure (List Source × List String)
  | [] => .ok ([], [])
  | unit :: rest =>
    match Language.ofPath? unit with
    | none => readUnits t root rest
    | some language =>
      let path := String.ofList (Path.join root.toList unit.toList)
      if t.isFile (bytesOf path) then
        match t.readText (bytesOf path) with
        | .error reason => .error (.unreadable path reason)
        | .ok content =>
          (readUnits t root rest).map fun (sources, missing) =>
            (⟨unit, content, language⟩ :: sources, missing)
      else (readUnits t root rest).map fun (sources, missing) => (sources, unit :: missing)

/-- How the compilation units that a change affects fare. -/
def impact (s : Session) (t : FileTree) (request : ImpactRequest) :
    FileTree × Except Failure ImpactAnswer :=
  match graph t request.directory with
  | .error failure => (t, .error failure)
  | .ok g =>
    let affected := Impact.affected request.changed g
    match readUnits t request.root (affectedUnits affected g).toList with
    | .error failure => (t, .error failure)
    | .ok (sources, missing) =>
      let (t, report) := s.inspect t sources
      (t, report.map fun r => ⟨affected.toList, sources.map (·.name), missing, r, r.summary⟩)

end Session

end Ripple
