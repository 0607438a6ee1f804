import Ripple.Depfile

/-!
# Dependency graphs

A graph holds at most one record for each target: inserting a record replaces the one the target
had. `reverse` turns the graph round, from each dependency to the targets whose records list it.
-/

namespace Ripple

/-- The dependencies of each target. -/
structure DependencyGraph where
  records : NameTable Names
  deriving DecidableEq

/-- The targets that depend on each path. -/
structure Dependents where
  lists : NameTable Names
  deriving DecidableEq

namespace Dependents

def empty : Dependents := ⟨∅⟩

/-- The targets that list the path as a dependency. -/
def of (d : Dependents) (path : String) : Names := (d.lists[path]?).getD ∅

/-- One more target that lists the path. -/
def add (d : Dependents) (path target : String) : Dependents :=
  ⟨d.lists.insert path ((d.of path).insert target)⟩

def size (d : Dependents) : Nat := d.lists.size

def isEmpty (d : Dependents) : Bool := d.lists.isEmpty

end Dependents

namespace DependencyGraph

def empty : DependencyGraph := ⟨∅⟩

/-- Puts the record in the place of any that its target has. -/
def insert (g : DependencyGraph) (record : DependencyRecord) : DependencyGraph :=
  ⟨g.records.insert record.target record.dependencies⟩

/-- The graph of the records, inserted in order. -/
def ofRecords (records : List DependencyRecord) : DependencyGraph := records.foldl insert empty

/-- The dependencies of a target that has a record. -/
def get? (g : DependencyGraph) (target : String) : Option Names := g.records[target]?

def toList (g : DependencyGraph) : List (String × Names) := g.records.toList

def targets (g : DependencyGraph) : List String := g.records.keys

def size (g : DependencyGraph) : Nat := g.records.size

def isEmpty (g : DependencyGraph) : Bool := g.records.isEmpty

/-- Each target next to each of its dependencies, in ascending order. -/
def edges (g : DependencyGraph) : List (String × String) :=
  g.toList.flatMap fun (target, dependencies) => dependencies.toList.map (target, ·)

/-- The number of dependencies of all records together. -/
def edgeCount (g : DependencyGraph) : Nat := g.edges.length

/-- The targets that list each dependency. -/
def reverse (g : DependencyGraph) : Dependents :=
  g.edges.foldl (fun d (target, dependency) => d.add dependency target) .empty

end DependencyGraph

end Ripple
