import Ripple.Settings.Basic
import Ripple.Staging

/-!
# Failures

Why an operation ends without an answer. Difficulties with an analyzer are none of these reasons,
since they show in its verdict.
-/

namespace Ripple

/-- Why an operation ends without an answer. -/
inductive Failure
  /-- There is no directory of dependency records at the path. -/
  | noRecords (path : String)
  | staging (failure : StagingFailure)
  /-- A compilation unit could not be read. -/
  | unreadable (path : String) (reason : Fault)
  /-- Some other file operation failed. -/
  | file (reason : Fault)
  /-- A text is not the JSON that is expected in its place. -/
  | json
  | settings (fault : SettingsFault)
  deriving DecidableEq, Repr

namespace Failure

/-- What is said about a text that is not the JSON that is expected. -/
def jsonMessage : String := "the text that starts at line 1 is not the JSON expected"

/-- The words for a failure. -/
def message : Failure → String
  | noRecords path => "No dependency directory found at " ++ path
  | staging f => "Failed to write analysis artifact " ++ f.path ++ ": " ++ f.reason.message
  | unreadable path reason => "Failed to read source file " ++ path ++ ": " ++ reason.message
  | file reason => "IO error: " ++ reason.message
  | json => "JSON error: " ++ jsonMessage
  | settings fault => "Configuration error: " ++ fault.message

/-- The path that a failure is about. -/
def path? : Failure → Option String
  | noRecords path => some path
  | staging f => some f.path
  | unreadable path _ => some path
  | _ => none

/-- What led to the failure. -/
def cause? : Failure → Option String
  | staging f => some f.reason.message
  | unreadable _ reason => some reason.message
  | file reason => some reason.message
  | json => some jsonMessage
  | _ => none

end Failure

end Ripple
