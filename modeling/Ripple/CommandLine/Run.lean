import Ripple.CommandLine.Print
import Ripple.CommandLine.Task
import Ripple.Environment.File
import Ripple.Session.Basic
import Ripple.Settings.Store

/-!
# Running the command line

A run starts in a world: a file tree, an environment, the standard input, the way programs behave,
the clock, and the order in which things happen to the sources of a batch. It ends with an exit code
and texts on the two output streams, and may have changed the tree.

Arguments that ask for nothing in particular end a run with exit code two. Before all other work
the environment file is read; if it leaves no environment, the run is broken off with exit code 101.
Settings are loaded except where they are to be reset or only their path is asked for. A failure
makes the exit code one, and so does a file that does not pass when the report is strict.
-/

namespace Ripple.CommandLine

open Text

/-- What a run finds. -/
structure World where
  tree : FileTree
  environment : Environment
  input : Bytes
  programs : Environment → FileTree → Programs
  stamps : Nat → Stamp
  /-- How many milliseconds an analysis takes. -/
  millis : Nat
  /-- In which order things happen to the sources of a batch. -/
  order : List Event := []

/-- How a run ends. -/
structure Ending where
  exit : UInt8
  out : String
  err : String
  deriving DecidableEq, Repr

namespace Ending

def success (lines : List String) : Ending := ⟨0, joined lines, ""⟩

/-- A run that prints a report. It fails if the report is strict and does not pass. -/
def report (passed strict : Bool) (lines : List String) : Ending :=
  ⟨if strict && !passed then 1 else 0, joined lines, ""⟩

def failure (c : Complaint) : Ending := ⟨1, "", joined (complaintLines c)⟩

def usage : Ending := ⟨2, "", joined usageLines⟩

/-- A run that is broken off because there is no environment for it. -/
def abandoned : Ending := ⟨101, "", joined ["a variable cannot have a value with a NUL character"]⟩

/-- The ending of a piece of work that yields lines to print. -/
def ofResult : Except Complaint (List String) → Ending
  | .ok lines => success lines
  | .error c => failure c

end Ending

namespace World

/-- The world in which a task is carried out. The variables of the environment file are added,
unless the program only tells about itself. -/
def preparedFor (w : World) : Task → Option World
  | .help | .version => some w
  | _ => (w.environment.withFile w.tree).map fun e => { w with environment := e }

def settings (w : World) : Except Complaint Settings :=
  (Settings.load w.environment w.tree).mapError (Complaint.dueTo "Failed to load configuration")

def session (w : World) (s : Settings) : Session :=
  ⟨s, .generic, w.programs w.environment, w.stamps, w.order⟩

/-! ## Sources -/

/-- The text of a batch. -/
def batchText (w : World) (path : String) : Except Complaint String :=
  if Path.same path.toList ['-'] then
    match stringOf? w.input with
    | some text => .ok text
    | none => .error ⟨"Failed to read batch request from stdin", [Fault.notUtf8.message]⟩
  else
    (w.tree.readText (bytesOf path)).mapError fun reason =>
      ⟨"Failed to read batch request " ++ path, [reason.message]⟩

def batchOf (text : String) : Except Complaint (List Source) :=
  match (Json.read? text.toList).bind Source.batchOfJson? with
  | some batch => .ok batch
  | none => .error ⟨"Invalid batch request", [Failure.jsonMessage]⟩

/-- The source in a file. -/
def sourceAt (w : World) (language : Option Language) (path : String) : Except Complaint Source :=
  match language.or (Language.ofPath? path) with
  | none =>
    .error ⟨"Cannot detect the language of " ++ path ++ "; pass --language c|cpp", []⟩
  | some language =>
    match w.tree.readText (bytesOf path) with
    | .ok content => .ok ⟨path, content, language⟩
    | .error reason => .error ⟨"Failed to read " ++ path, [reason.message]⟩

/-- The sources to analyze. -/
def sources (w : World) : Input → Except Complaint (List Source)
  | .batch path => (w.batchText path).bind batchOf
  | .files paths language => paths.mapM (w.sourceAt language)

/-! ## Tasks -/

def runAffected (w : World) (request : AffectedRequest) (json : Bool) : Ending :=
  .ofResult <| ((Session.affected w.tree request).map (affectedLines json)).mapError .ofFailure

def runAnalyze (w : World) (s : Settings) (input : Input) (options : ReportOptions) :
    FileTree × Ending :=
  match w.sources input with
  | .error c => (w.tree, .failure c)
  | .ok batch =>
    match (w.session s).analyze w.tree w.millis batch with
    | (t, .error failure) => (t, .failure (.ofFailure failure))
    | (t, .ok answer) =>
      (t, .report answer.report.allPassed options.strict (analysisLines options.json answer))

def runScan (w : World) (s : Settings) (request : ImpactRequest) (options : ReportOptions) :
    FileTree × Ending :=
  match (w.session s).impact w.tree request with
  | (t, .error failure) => (t, .failure (.ofFailure failure))
  | (t, .ok answer) =>
    (t, .report answer.report.allPassed options.strict (impactLines options.json answer))

/-- Saves settings and prints lines if that succeeds. -/
def saveAnd (w : World) (s : Settings) (lines : List String) : FileTree × Ending :=
  match s.save w.environment w.tree with
  | (t, .ok ()) => (t, .success lines)
  | (t, .error failure) => (t, .failure (.ofFailure failure))

/-- The complaint about a value that a setting cannot have. -/
def settingComplaint (fault : SettingsFault) : Complaint :=
  ⟨(Failure.settings fault).message ++ ". Valid keys: " ++
    ", ".intercalate (SettingKey.all.map (·.name)), []⟩

def runSet (w : World) (s : Settings) (key value : String) : FileTree × Ending :=
  match s.set key value with
  | .error fault => (w.tree, .failure (settingComplaint fault))
  | .ok changed => w.saveAnd changed ["Set " ++ key ++ " to: " ++ value]

def runGet (s : Settings) (key : String) : Ending :=
  match s.get? key with
  | some value => .success [value]
  | none => .failure ⟨(SettingsFault.unknownKey key).message, []⟩

/-- Carries out a task that goes by the settings in effect. -/
def withSettings (w : World) (work : Settings → FileTree × Ending) : FileTree × Ending :=
  match w.settings with
  | .error c => (w.tree, .failure c)
  | .ok s => work s

def runTask (w : World) : Task → FileTree × Ending
  | .help => (w.tree, .success usageLines)
  | .version => (w.tree, .success versionLines)
  | .affected directory changed json =>
    w.withSettings fun _ => (w.tree, w.runAffected ⟨changed, directory⟩ json)
  | .analyze input options => w.withSettings fun s => w.runAnalyze s input options
  | .scan directory root changed options =>
    w.withSettings fun s => w.runScan s ⟨changed, directory, root⟩ options
  | .settings .print =>
    w.withSettings fun s =>
      (w.tree, .success (settingsLines s (Settings.path w.environment)))
  | .settings (.set key value) => w.withSettings fun s => w.runSet s key value
  | .settings (.get key) => w.withSettings fun s => (w.tree, runGet s key)
  | .settings .reset =>
    w.saveAnd (Settings.standardIn w.environment) ["Configuration reset to defaults"]
  | .settings .path => (w.tree, .success [Settings.path w.environment])

def run (w : World) (arguments : List String) : FileTree × Ending :=
  match Task.read arguments with
  | none => (w.tree, .usage)
  | some task =>
    match w.preparedFor task with
    | none => (w.tree, .abandoned)
    | some prepared => prepared.runTask task

end World

end Ripple.CommandLine
