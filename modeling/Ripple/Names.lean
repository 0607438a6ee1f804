import Std.Data.ExtTreeMap
import Std.Data.ExtTreeSet

/-!
# Sets and tables of names

Targets, dependencies, changed paths and tools are plain texts. Sets of them, and tables with one
value for each, are kept in ascending order of code points, which is also the ascending order of
their UTF-8 bytes. Two tables with the same value for each name are equal.
-/

namespace Ripple

/-- A finite set of names in ascending order. -/
abbrev Names := Std.ExtTreeSet String

/-- A value for each of finitely many names, in ascending order of the names. -/
abbrev NameTable (α : Type) := Std.ExtTreeMap String α

/-- The set of the names in a list. -/
def Names.ofList (names : List String) : Names := Std.ExtTreeSet.ofList names

@[simp] theorem Names.mem_ofList {name : String} {names : List String} :
    name ∈ Names.ofList names ↔ name ∈ names := by
  simp [Names.ofList]

/-- The table of the entries in a list; a later entry for a name replaces an earlier one. -/
def NameTable.ofList (entries : List (String × α)) : NameTable α :=
  entries.foldl (fun table (name, value) => table.insert name value) ∅

end Ripple
