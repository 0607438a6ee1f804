import Ripple.Files.Access

/-!
# Commands and their runs

A command is a program with arguments that come before all others. A run of it is started without
input and ends in one of three ways: it is not started at all, it is stopped because it takes longer
than its time limit, or it completes with an exit code, which is missing when a signal ended it, and
with what it wrote to its two output streams.

How programs behave is a parameter: a function from the program and all its arguments to a run.
-/

namespace Ripple

open Text

/-- A program and the arguments that come before all others. -/
structure Command where
  program : String
  prefixArguments : List String
  deriving DecidableEq, Repr

/-- A run that ended by itself. -/
structure Completion where
  /-- The exit code, unless a signal ended the run. -/
  exit : Option UInt8
  out : String
  err : String
  deriving DecidableEq, Repr

/-- Why a run did not complete. -/
inductive RunFailure
  | notStarted (reason : Fault)
  | overran
  deriving DecidableEq, Repr

/-- How a run ends. -/
abbrev Run := Except RunFailure Completion

/-- How each program behaves, called with all its arguments. -/
abbrev Programs := String → List String → Run

/-- What a verdict on a run that took too long begins with. -/
def timeoutMarker : String := "[timeout]"

namespace Completion

/-- The run that wrote the bytes to its two streams. Bytes that are no text are replaced. -/
def ofBytes (exit : Option UInt8) (out err : Bytes) : Completion :=
  ⟨exit, stringOfLossy out, stringOfLossy err⟩

def succeeded (c : Completion) : Bool := c.exit == some 0

/-- Both streams together: the other one when one is empty, else the two with a line feed
between. -/
def combined (c : Completion) : String :=
  if c.err = "" then c.out
  else if c.out = "" then c.err
  else c.out ++ "\n" ++ c.err

/-- The words for how the run ended. -/
def description (c : Completion) : String :=
  match c.exit with
  | some code => "exit code " ++ toString code.toNat
  | none => "terminated by signal"

end Completion

namespace RunFailure

/-- The words for a failure of the program under a limit in milliseconds. -/
def message (program : String) (limit : Nat) : RunFailure → String
  | notStarted reason => "failed to start " ++ program ++ ": " ++ reason.message
  | overran => program ++ " timed out after " ++ toString limit ++ "ms"

/-- The message, marked when the run took too long. -/
def report (program : String) (limit : Nat) (failure : RunFailure) : String :=
  match failure with
  | notStarted _ => failure.message program limit
  | overran => timeoutMarker ++ " " ++ failure.message program limit

end RunFailure

namespace Command

/-- The command that runs a program without further arguments. -/
def ofProgram (program : String) : Command := ⟨program, []⟩

/-- The texts that the operating system gets to see. -/
def texts (c : Command) (arguments : List String) : List String :=
  c.program :: (c.prefixArguments ++ arguments)

/-- Runs the command with further arguments. A NUL character in one of its texts cannot be passed
on. -/
def run (c : Command) (programs : Programs) (arguments : List String) : Run :=
  if (c.texts arguments).any (·.toList.contains '\x00') then .error (.notStarted .nulInArgument)
  else programs c.program (c.prefixArguments ++ arguments)

end Command

end Ripple
