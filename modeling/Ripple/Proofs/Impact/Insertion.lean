import Ripple.Proofs.Impact.Closure

/-!
# What a new record affects

A record that is put into a graph has an effect of its own on what a change affects: if one of its
dependencies is affected without it, its target is affected too, and whatever depends on the target
with it. Nothing else changes, whichever record the target had before (`affected_insert`).

What an affected path depends on may lead through the new record several times, but only the last
time matters (`affected_insert_cases`).
-/

namespace Ripple

namespace DependencyGraph

/-- The graph with no record of the target. -/
def without (g : DependencyGraph) (target : String) : DependencyGraph :=
  ⟨g.records.erase target⟩

variable {g : DependencyGraph} {record : DependencyRecord} {target other dependency : String}

theorem get?_insert :
    (g.insert record).get? target =
      if record.target = target then some record.dependencies else g.get? target := by
  simp [get?, insert, Std.ExtTreeMap.getElem?_insert]

theorem get?_without :
    (g.without other).get? target = if other = target then none else g.get? target := by
  simp [get?, without, Std.ExtTreeMap.getElem?_erase]

theorem eq_of_get? {g' : DependencyGraph} (h : ∀ target, g.get? target = g'.get? target) :
    g = g' := by
  obtain ⟨records⟩ := g
  obtain ⟨records'⟩ := g'
  obtain rfl : records = records' := Std.ExtTreeMap.ext_getElem? h
  rfl

/-- A graph with no record of the target is not changed by leaving it out. -/
theorem without_eq_self (h : g.get? target = none) : g.without target = g := by
  refine eq_of_get? fun t => ?_
  rw [get?_without]
  split
  · next heq => rw [← heq, h]
  · rfl

/-- No trace is left of the record that the target had. -/
theorem insert_insert (dependencies : Names) :
    (g.insert ⟨record.target, dependencies⟩).insert record = g.insert record := by
  refine eq_of_get? fun t => ?_
  simp only [get?_insert]
  split <;> rfl

theorem lists_insert_iff :
    (g.insert record).Lists target dependency ↔
      target = record.target ∧ dependency ∈ record.dependencies ∨
        (g.without record.target).Lists target dependency := by
  unfold Lists
  rw [get?_insert, get?_without]
  by_cases h : record.target = target
  · simp [h]
  · have hne : ¬target = record.target := fun heq => h heq.symm
    simp [h, hne]

end DependencyGraph

namespace Impact

variable {g : DependencyGraph} {record : DependencyRecord} {changed : List String} {path : String}

/-- What is affected without the record is affected with it. -/
theorem Affected.insert (h : Affected (g.without record.target) changed path) :
    Affected (g.insert record) changed path := by
  induction h with
  | change hmem => exact .change hmem
  | listed hlists _ ih =>
    exact .listed (DependencyGraph.lists_insert_iff.mpr (.inr hlists)) ih

/-- What is affected with the record is affected without it, or because a dependency in the record
is affected and the path depends on the target. -/
theorem affected_insert_cases (h : Affected (g.insert record) changed path) :
    Affected (g.without record.target) changed path ∨
      (∃ d ∈ record.dependencies, Affected (g.without record.target) changed d) ∧
        Affected (g.without record.target) [record.target] path := by
  induction h with
  | change hmem => exact .inl (.change hmem)
  | @listed target dependency hlists _ ih =>
    rcases DependencyGraph.lists_insert_iff.mp hlists with ⟨rfl, hmem⟩ | hold
    · -- at the target itself: how its dependency came to be affected no longer matters
      have htarget : Affected (g.without record.target) [record.target] record.target :=
        .change (List.mem_singleton_self _)
      rcases ih with hbefore | ⟨hreached, -⟩
      · exact .inr ⟨⟨dependency, hmem, hbefore⟩, htarget⟩
      · exact .inr ⟨hreached, htarget⟩
    · rcases ih with hbefore | ⟨hreached, hbehind⟩
      · exact .inl (.listed hold hbefore)
      · exact .inr ⟨hreached, .listed hold hbehind⟩

/-- If a dependency in the record is affected, so is what depends on the target. -/
theorem Affected.through_record {d : String}
    (hbefore : Affected (g.without record.target) changed d) (hd : d ∈ record.dependencies)
    (h : Affected (g.without record.target) [record.target] path) :
    Affected (g.insert record) changed path := by
  induction h with
  | change hmem =>
    obtain rfl := List.mem_singleton.mp hmem
    exact .listed (DependencyGraph.lists_insert_iff.mpr (.inl ⟨rfl, hd⟩)) hbefore.insert
  | listed hlists _ ih =>
    exact .listed (DependencyGraph.lists_insert_iff.mpr (.inr hlists)) ih

theorem mem_affected_insert_iff :
    path ∈ affected changed (g.insert record) ↔
      path ∈ affected changed (g.without record.target) ∨
        (∃ d ∈ record.dependencies, d ∈ affected changed (g.without record.target)) ∧
          path ∈ affected [record.target] (g.without record.target) := by
  simp only [mem_affected]
  constructor
  · exact affected_insert_cases
  · rintro (hbefore | ⟨⟨d, hd, hreached⟩, hbehind⟩)
    · exact hbefore.insert
    · exact hreached.through_record hd hbehind

instance instDecidableReaches (names paths : Names) : Decidable (∃ d ∈ names, d ∈ paths) :=
  decidable_of_iff (∃ d ∈ names.toList, d ∈ paths) (by simp)

/-- **A record has exactly its own effect.** With the graph that has no record of its target, what
is affected stays affected; what the target alone affects is added if a dependency in the record is
affected, and nothing is added otherwise. So a record of a new target takes nothing away, and the
record that the target had before makes no difference. -/
theorem affected_insert (g : DependencyGraph) (record : DependencyRecord) (changed : List String) :
    affected changed (g.insert record) =
        (if ∃ d ∈ record.dependencies, d ∈ affected changed (g.without record.target) then
          affected changed (g.without record.target) ∪
            affected [record.target] (g.without record.target)
        else affected changed (g.without record.target)) ∧
      (g.get? record.target = none →
        ∀ path ∈ affected changed g, path ∈ affected changed (g.insert record)) ∧
      ∀ dependencies : Names,
        affected changed ((g.insert ⟨record.target, dependencies⟩).insert record) =
          affected changed (g.insert record) := by
  refine ⟨Std.ExtTreeSet.ext_mem fun path => ?_, fun hnew path hpath => ?_, fun dependencies => ?_⟩
  · rw [mem_affected_insert_iff]
    split
    · next hreached => rw [Std.ExtTreeSet.mem_union_iff, and_iff_right hreached]
    · next hreached => rw [or_iff_left fun h => hreached h.1]
  · rw [mem_affected_insert_iff, DependencyGraph.without_eq_self hnew]
    exact .inl hpath
  · rw [DependencyGraph.insert_insert]

/-- A program and what it is linked from. The header of the object file has no record. -/
def generatorGraph : DependencyGraph :=
  .ofRecords [⟨"gen.o", Names.ofList ["gen.c", "gen.h"]⟩, ⟨"gen", Names.ofList ["gen.o"]⟩]

/-- The header is made by the program that it goes into. -/
def headerRecord : DependencyRecord := ⟨"gen.h", Names.ofList ["gen", "gen.in"]⟩

/-- What the header is made from affects the whole circle now, and nothing is taken away. -/
theorem affected_insert_headerRecord :
    generatorGraph.get? "gen.h" = none ∧
      "gen" ∈ affected ["gen.c"] generatorGraph ∧
      "gen" ∈ affected ["gen.c"] (generatorGraph.insert headerRecord) ∧
      affected ["gen.in"] generatorGraph = Names.ofList ["gen.in"] ∧
      affected ["gen.in"] (generatorGraph.insert headerRecord) =
        Names.ofList ["gen", "gen.h", "gen.in", "gen.o"] := by
  have hnew : generatorGraph.get? headerRecord.target = none := by decide
  have hbefore : "gen" ∈ affected ["gen.c"] generatorGraph := by decide +kernel
  obtain ⟨-, hkept, -⟩ := affected_insert generatorGraph headerRecord ["gen.c"]
  obtain ⟨heffect, -, -⟩ := affected_insert generatorGraph headerRecord ["gen.in"]
  exact ⟨hnew, hbefore, hkept hnew _ hbefore, by decide +kernel, heffect.trans (by decide +kernel)⟩

end Impact

end Ripple
