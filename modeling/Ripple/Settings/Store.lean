import Ripple.Environment.Basic
import Ripple.Exchange.Settings
import Ripple.Failure
import Ripple.Files.Change
import Ripple.Json.Reader
import Ripple.Json.Writer

/-!
# Where settings come from

Settings are kept in a file as JSON. When they are loaded, variables of the environment take
precedence over the file, one after the other, and without a file the standard settings are the
start. Saving writes the settings as they are.
-/

namespace Ripple.Settings

open Text

/-! ## Text -/

/-- The settings that a text writes as JSON, whether or not they can be used. -/
def parse (standard : Settings) (text : String) : Except Failure Settings :=
  match (Json.read? text.toList).bind (ofJson? standard) with
  | some s => .ok s
  | none => .error .json

/-- The settings, if they can be used. -/
def usable (s : Settings) : Except Failure Settings := s.checked.mapError .settings

/-- The usable settings that a text writes as JSON. -/
def read (standard : Settings) (text : String) : Except Failure Settings :=
  (parse standard text).bind usable

/-- The text that is kept in a file. -/
def fileText (s : Settings) : String := String.ofList (Json.writePretty s.toJson)

/-! ## Environment -/

/-- The variables that take precedence over the file, each with the setting that it gives a value
to, in the order in which they are looked at. -/
def overrides : List (String × SettingKey) :=
  [("IMPACT_TOOL_TIMEOUT_SECS", .timeout),
    ("IMPACT_ARTIFACT_DIR", .stagingDirectory),
    ("IMPACT_MAX_CONCURRENT_FILES", .concurrentFiles),
    ("IMPACT_CPPCHECK", .command .cppcheck),
    ("IMPACT_CLANG_TIDY", .command .clangTidy),
    ("IMPACT_CLANG_FORMAT", .command .clangFormat)]

/-- Takes over the values of variables that are set. The first value that does not lead to usable
settings ends this, and what was taken over before it stays. -/
def overrideFrom (environment : Environment) :
    List (String × SettingKey) → Settings → Settings × Except SettingsFault Unit
  | [], s => (s, .ok ())
  | (name, key) :: rest, s =>
    match environment[name]? with
    | none => overrideFrom environment rest s
    | some text =>
      match s.setKey key text with
      | .ok changed => overrideFrom environment rest changed
      | .error fault => (s, .error fault)

/-- Takes over the values of all variables that are set. -/
def override (s : Settings) (environment : Environment) : Settings × Except SettingsFault Unit :=
  overrideFrom environment overrides s

/-! ## File -/

/-- The standard settings in an environment. -/
def standardIn (environment : Environment) : Settings := standard environment.temporaryDirectory

/-- The path of the file with the settings. -/
def path (environment : Environment) : String :=
  ((environment["IMPACT_CONFIG"]?).filter (· ≠ "")).getD <|
    Environment.under (Environment.under environment.configurationDirectory "impact") "config.json"

/-- The settings in the file, or the standard ones when there is no file. -/
def stored (environment : Environment) (t : FileTree) : Except Failure Settings :=
  let path := bytesOf (path environment)
  if t.exists? path then
    match t.readText path with
    | .ok text => parse (standardIn environment) text
    | .error reason => .error (.file reason)
  else .ok (standardIn environment)

/-- The settings in effect. -/
def load (environment : Environment) (t : FileTree) : Except Failure Settings :=
  match stored environment t with
  | .error failure => .error failure
  | .ok s =>
    match s.override environment with
    | (_, .error fault) => .error (.settings fault)
    | (s, .ok ()) => s.usable

/-- Writes the settings to the file; the directory it stands in is made if it is missing. -/
def save (s : Settings) (environment : Environment) (t : FileTree) :
    FileTree × Except Failure Unit :=
  let path := path environment
  let directory := (Path.parent? path.toList).getD []
  match t.makeDirectories (String.ofList directory) with
  | (t, .error reason) => (t, .error (.file reason))
  | (t, .ok ()) =>
    let (t, written) := t.write (bytesOf path) (bytesOf s.fileText)
    (t, written.mapError .file)

end Ripple.Settings
