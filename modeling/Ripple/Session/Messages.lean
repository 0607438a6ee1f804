import Ripple.Report

/-!
# Requests and answers

What a session is asked and what it answers.
-/

namespace Ripple

/-- Asks for everything that a change affects, as the records in a directory tell. -/
structure AffectedRequest where
  changed : List String
  directory : String
  deriving DecidableEq, Repr

/-- Everything that a change affects, in ascending order; the number of different changed paths, and
the number of targets with a record. -/
structure AffectedAnswer where
  affected : List String
  changedCount : Nat
  targetCount : Nat
  deriving DecidableEq, Repr

/-- The report on submitted sources, and the milliseconds that it took. -/
structure AnalysisAnswer where
  report : Report
  summary : Summary
  millis : Nat
  deriving DecidableEq

/-- Asks for a report on the compilation units that a change affects. Relative paths of units are
looked up under `root`. -/
structure ImpactRequest where
  changed : List String
  directory : String
  root : String
  deriving DecidableEq, Repr

/-- Everything that a change affects; the affected compilation units that were inspected and those
that are not there; the report on the inspected ones. -/
structure ImpactAnswer where
  affected : List String
  analyzed : List String
  missing : List String
  report : Report
  summary : Summary
  deriving DecidableEq

end Ripple
