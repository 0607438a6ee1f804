import Ripple.Analyzer
import Ripple.Headers
import Ripple.Scanner.Basic

/-!
# Settings

How analyzers are run: the time limit of a run, the directory for staged files, how many files are
inspected at once, which analyzers there are and which commands run them. Settings can be used when
both numbers are positive and the two analyzers that no report goes without are there.
-/

namespace Ripple

/-- How analyzers are run. -/
structure Settings where
  /-- The time limit of a run in seconds. -/
  timeout : UInt64
  stagingDirectory : String
  /-- How many files of a batch are inspected at once. -/
  concurrentFiles : UInt64
  /-- The analyzers in the order in which they report. -/
  analyzers : List Analyzer
  cppcheck : Command
  clangTidy : Command
  clangFormat : Command
  deriving DecidableEq, Repr

/-- What is wrong with settings, or with a change of them. -/
inductive SettingsFault
  | noTimeout
  | noFiles
  | missing (analyzer : Analyzer)
  | unknownAnalyzer (text : String)
  | invalidNumber (text : String)
  | unknownKey (key : String)
  deriving DecidableEq, Repr

/-- The words for what is wrong. -/
def SettingsFault.message : SettingsFault → String
  | noTimeout => "tool_timeout_secs must be at least 1"
  | noFiles => "max_concurrent_files must be at least 1"
  | missing analyzer =>
    "tools must include cppcheck and clang-tidy (missing " ++ analyzer.name ++ ")"
  | unknownAnalyzer text => Analyzer.unknown text
  | invalidNumber text => "Invalid number: " ++ text
  | unknownKey key => "Unknown config key: " ++ key

namespace Settings

/-- The settings of a system with the given directory for temporary files. -/
def standard (temporaryDirectory : String) : Settings where
  timeout := 30
  stagingDirectory := temporaryDirectory
  concurrentFiles := 1
  analyzers := Analyzer.all
  cppcheck := .ofProgram Analyzer.cppcheck.name
  clangTidy := .ofProgram Analyzer.clangTidy.name
  clangFormat := .ofProgram Analyzer.clangFormat.name

/-- The analyzers that no report goes without. -/
def required : List Analyzer := [.cppcheck, .clangTidy]

/-- The first thing that is wrong with the settings, if they cannot be used. -/
def fault? (s : Settings) : Option SettingsFault :=
  if s.timeout = 0 then some .noTimeout
  else if s.concurrentFiles = 0 then some .noFiles
  else (required.find? (· ∉ s.analyzers)).map .missing

/-- The settings, if they can be used. -/
def checked (s : Settings) : Except SettingsFault Settings :=
  match s.fault? with
  | some fault => .error fault
  | none => .ok s

def command (s : Settings) : Analyzer → Command
  | .cppcheck => s.cppcheck
  | .clangTidy => s.clangTidy
  | .clangFormat => s.clangFormat

/-- The time limit of a run in milliseconds, as a 64-bit number. -/
def limit (s : Settings) : Nat := (s.timeout * 1000).toNat

/-- A scanner for each analyzer. -/
def scanners (s : Settings) (headers : SystemHeaders) : List Scanner :=
  s.analyzers.map fun analyzer => ⟨analyzer, s.command analyzer, s.limit, headers⟩

end Settings

end Ripple
