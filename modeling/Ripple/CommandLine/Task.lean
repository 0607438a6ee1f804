import Ripple.CommandLine.Arguments
import Ripple.Language

/-!
# Tasks

What the command line asks for:

    impact affected --deps DIR [--json] PATH...
    impact analyze [--language LANGUAGE] [--json] [--strict] FILE...
    impact analyze --batch FILE [--language LANGUAGE] [--json] [--strict]
    impact scan --deps DIR [--root DIR] [--json] [--strict] PATH...
    impact config (show | set KEY VALUE | get KEY | reset | path)

The options for more or less to be said about the work, `--verbose` and `--quiet`, may stand at
every place, and so may `--help`; `--version` stands in front of everything else. Paths of
directories and files must not be empty, whereas changed paths may be any text.
-/

namespace Ripple.CommandLine

/-- Where the sources to analyze come from. -/
inductive Input
  /-- From files, in the language given or the one that their names tell. -/
  | files (paths : List String) (language : Option Language)
  /-- From a batch in a file or, if the path is a hyphen, on the standard input. -/
  | batch (path : String)
  deriving DecidableEq, Repr

/-- How a report is asked for. -/
structure ReportOptions where
  json : Bool
  /-- A file that does not pass makes the command fail. -/
  strict : Bool
  deriving DecidableEq, Repr

/-- What to do with the settings. -/
inductive SettingsTask
  | print
  | set (key value : String)
  | get (key : String)
  | reset
  | path
  deriving DecidableEq, Repr

/-- What the command line asks for. -/
inductive Task
  | help
  | version
  | affected (directory : String) (changed : List String) (json : Bool)
  | analyze (input : Input) (options : ReportOptions)
  | scan (directory root : String) (changed : List String) (options : ReportOptions)
  | settings (task : SettingsTask)
  deriving DecidableEq, Repr

/-! ## Options -/

def helpOption : OptionSpec := ⟨"help", some 'h', .last⟩

def versionOption : OptionSpec := ⟨"version", some 'V', .last⟩

/-- The options that may stand at every place. -/
def commonOptions : List OptionSpec :=
  [⟨"verbose", some 'v', .flag⟩, ⟨"quiet", some 'q', .flag⟩, helpOption]

def depsOption : OptionSpec := ⟨"deps", some 'd', .valued .path⟩

def rootOption : OptionSpec := ⟨"root", some 'r', .valued .path⟩

def batchOption : OptionSpec := ⟨"batch", some 'b', .valued .path⟩

def languageOption : OptionSpec := ⟨"language", some 'l', .valued .language⟩

def jsonOption : OptionSpec := ⟨"json", none, .flag⟩

def strictOption : OptionSpec := ⟨"strict", none, .flag⟩

/-- Whether an answer is asked for in JSON, and whether strictly. -/
def ReportOptions.of (a : Arguments) : ReportOptions :=
  ⟨a.has jsonOption.name, a.has strictOption.name⟩

/-! ## Reading a task -/

/-- At least one word. -/
def someWords (a : Arguments) : Option (List String) :=
  if a.words = [] then none else some a.words

/-- The task that the arguments of a command ask for, unless they ask for help. -/
def taskOf (options : List OptionSpec) (words : WordSpec) (texts : List String)
    (task? : Arguments → Option Task) : Option Task := do
  let a ← Arguments.read (commonOptions ++ options) words texts
  if a.has helpOption.name then some .help else task? a

def affected? (a : Arguments) : Option Task := do
  some (.affected (← a.value? depsOption.name) (← someWords a) (a.has jsonOption.name))

/-- The language that the option gives, if it is there. -/
def languageOf (a : Arguments) : Option Language :=
  (a.value? languageOption.name).bind Language.parse?

/-- Where the sources come from: a batch, or files, but not both. -/
def inputOf (a : Arguments) : Option Input :=
  match a.value? batchOption.name with
  | some path => if a.words = [] then some (.batch path) else none
  | none => (someWords a).map (.files · (languageOf a))

def analyze? (a : Arguments) : Option Task := do some (.analyze (← inputOf a) (.of a))

def scan? (a : Arguments) : Option Task := do
  let directory ← a.value? depsOption.name
  some (.scan directory ((a.value? rootOption.name).getD ".") (← someWords a) (.of a))

/-- Splits arguments at the first word, in front of which there may only be the given options. The
arguments in front are read, unless they say that only words follow. -/
def splitCommand (options : List OptionSpec) (texts : List String) :
    Option (Arguments × List String) :=
  let front := texts.takeWhile looksLikeOption
  match Arguments.read options (.many .text) front with
  | none => none
  | some a =>
    if "--" ∈ front ∧ ¬ endsWith options a.given then none
    else some (a, texts.dropWhile looksLikeOption)

/-- What to do with the settings, as a command and its words say. -/
def settingsTask? (command : String) (a : Arguments) : Option Task :=
  match command, a.words with
  | "show", [] => some (.settings .print)
  | "set", [key, value] => some (.settings (.set key value))
  | "get", [key] => some (.settings (.get key))
  | "reset", [] => some (.settings .reset)
  | "path", [] => some (.settings .path)
  | _, _ => none

/-- The commands for the settings, each with the number of its words. -/
def settingsCommands : List (String × Nat) :=
  [("show", 0), ("set", 2), ("get", 1), ("reset", 0), ("path", 0)]

def readSettings (texts : List String) : Option Task := do
  let (front, rest) ← splitCommand commonOptions texts
  if front.has helpOption.name then some .help
  else match rest with
    | [] => none
    | command :: rest => do
      let count ← settingsCommands.lookup command
      taskOf [] (.atMost count) rest (settingsTask? command)

def Task.read (texts : List String) : Option Task := do
  let (front, rest) ← splitCommand (commonOptions ++ [versionOption]) texts
  if front.has helpOption.name then some .help
  else if front.has versionOption.name then some .version
  else match rest with
    | [] => none
    | command :: rest =>
      match command with
      | "affected" => taskOf [depsOption, jsonOption] (.many .text) rest affected?
      | "analyze" =>
        taskOf [batchOption, languageOption, jsonOption, strictOption] (.many .path) rest analyze?
      | "scan" =>
        taskOf [depsOption, rootOption, jsonOption, strictOption] (.many .text) rest scan?
      | "config" => readSettings rest
      | _ => none

end Ripple.CommandLine
