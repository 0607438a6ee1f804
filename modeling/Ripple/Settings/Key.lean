import Ripple.Settings.Basic
import Ripple.Text.Decimal

/-!
# Settings by name

Every setting has a key and a value that is a text. A text becomes a number, a list of names with
commas between them, or a program that is called without arguments of its own. Setting a key
succeeds only if the settings can be used afterwards.
-/

namespace Ripple

open Text

/-- The name of a setting. -/
inductive SettingKey
  | timeout
  | stagingDirectory
  | concurrentFiles
  | analyzers
  | command (analyzer : Analyzer)
  deriving DecidableEq, Repr

namespace SettingKey

/-- The keys in the order in which they are listed. -/
def all : List SettingKey :=
  [timeout, stagingDirectory, concurrentFiles, analyzers] ++ Analyzer.all.map command

/-- How a key is written. -/
def name : SettingKey → String
  | timeout => "tool_timeout_secs"
  | stagingDirectory => "artifact_dir"
  | concurrentFiles => "max_concurrent_files"
  | analyzers => "tools"
  | command .cppcheck => "cppcheck"
  | command .clangTidy => "clang_tidy"
  | command .clangFormat => "clang_format"

/-- The key that is written that way. -/
def ofName? (text : String) : Option SettingKey := all.find? (·.name == text)

end SettingKey

/-- Leaves out every element that occurs earlier. -/
def distinct [DecidableEq α] (xs : List α) : List α :=
  xs.foldl (fun seen x => if x ∈ seen then seen else seen ++ [x]) []

namespace Settings

/-- The number that a text writes. -/
def number (text : String) : Except SettingsFault UInt64 :=
  match readNumber UInt64.size text.toList with
  | some n => .ok (UInt64.ofNat n)
  | none => .error (.invalidNumber text)

/-- The analyzer that a piece of a list names. -/
def analyzer (piece : List Char) : Except SettingsFault Analyzer :=
  let text := String.ofList piece
  match Analyzer.parse? text with
  | some analyzer => .ok analyzer
  | none => .error (.unknownAnalyzer text)

/-- The analyzers that a list with commas names, each once. Blank pieces count for nothing. -/
def analyzerList (text : String) : Except SettingsFault (List Analyzer) :=
  (((splitWhere (· == ',') text.toList).filter (!isAllBlank ·)).mapM analyzer).map distinct

/-- The settings with another command for an analyzer. -/
def withCommand (s : Settings) (command : Command) : Analyzer → Settings
  | .cppcheck => { s with cppcheck := command }
  | .clangTidy => { s with clangTidy := command }
  | .clangFormat => { s with clangFormat := command }

/-- The value of a setting as a text. Arguments of a command are left out. -/
def value (s : Settings) : SettingKey → String
  | .timeout => String.ofList (decimal s.timeout.toNat)
  | .stagingDirectory => s.stagingDirectory
  | .concurrentFiles => String.ofList (decimal s.concurrentFiles.toNat)
  | .analyzers => ",".intercalate (s.analyzers.map (·.name))
  | .command analyzer => (s.command analyzer).program

/-- The settings with another value for a key, whether or not they can be used. -/
def assign (s : Settings) (key : SettingKey) (text : String) : Except SettingsFault Settings :=
  match key with
  | .timeout => (number text).map fun n => { s with timeout := n }
  | .stagingDirectory => .ok { s with stagingDirectory := text }
  | .concurrentFiles => (number text).map fun n => { s with concurrentFiles := n }
  | .analyzers => (analyzerList text).map fun list => { s with analyzers := list }
  | .command analyzer => .ok (s.withCommand (.ofProgram text) analyzer)

/-- The settings with another value for a key. -/
def setKey (s : Settings) (key : SettingKey) (text : String) : Except SettingsFault Settings :=
  match s.assign key text with
  | .ok changed => changed.checked
  | .error fault => .error fault

/-- The value of the setting with the given name. -/
def get? (s : Settings) (name : String) : Option String := (SettingKey.ofName? name).map s.value

/-- The settings with another value for the setting with the given name. -/
def set (s : Settings) (name text : String) : Except SettingsFault Settings :=
  match SettingKey.ofName? name with
  | some key => s.setKey key text
  | none => .error (.unknownKey name)

end Settings

end Ripple
