import Ripple.Graph

/-!
# The edges of a dependency graph

`DependencyGraph.Lists` is the relation that a graph stands for: the record of a target lists a
dependency. The list of edges and the reversed graph both hold exactly this relation
(`mem_edges`, `mem_of_reverse`), so what follows may speak of the relation alone.
-/

namespace Ripple

/-- Each name of a table of sets next to each member of its set. -/
def NameTable.pairs (table : NameTable Names) : List (String × String) :=
  table.toList.flatMap fun (name, members) => members.toList.map (name, ·)

theorem NameTable.mem_pairs {table : NameTable Names} {name member : String} :
    (name, member) ∈ table.pairs ↔ ∃ members, table[name]? = some members ∧ member ∈ members := by
  unfold pairs
  simp only [List.mem_flatMap, List.mem_map, Prod.exists, Prod.mk.injEq,
    Std.ExtTreeMap.mem_toList_iff_getElem?_eq_some, Std.ExtTreeSet.mem_toList]
  constructor
  · rintro ⟨n, members, hget, m, hm, rfl, rfl⟩
    exact ⟨members, hget, hm⟩
  · rintro ⟨members, hget, hm⟩
    exact ⟨name, members, hget, member, hm, rfl, rfl⟩

/-- The record of the target lists the dependency. -/
def DependencyGraph.Lists (g : DependencyGraph) (target dependency : String) : Prop :=
  ∃ dependencies, g.get? target = some dependencies ∧ dependency ∈ dependencies

/-! ## Dependents -/

namespace Dependents

@[simp] theorem not_mem_of_empty {path target : String} : target ∉ empty.of path := by
  simp [of, empty]

/-- One more dependent of a path; those of other paths stay as they are. -/
theorem mem_of_add {d : Dependents} {path target p t : String} :
    t ∈ (d.add path target).of p ↔ (p = path ∧ t = target) ∨ t ∈ d.of p := by
  unfold add of
  by_cases h : path = p
  · subst h
    rw [Std.ExtTreeMap.getElem?_insert_self, Option.getD_some, Std.ExtTreeSet.mem_insert,
      Std.LawfulEqCmp.compare_eq_iff_eq, eq_comm]
    simp
  · have hp : ¬p = path := fun he => h he.symm
    simp [Std.ExtTreeMap.getElem?_insert, h, hp]

/-- Adding edges one by one adds just these. -/
theorem mem_of_foldl_add {edges : List (String × String)} {d : Dependents} {p t : String} :
    t ∈ (edges.foldl (fun d (target, dependency) => d.add dependency target) d).of p ↔
      (t, p) ∈ edges ∨ t ∈ d.of p := by
  induction edges generalizing d with
  | nil => simp
  | cons edge rest ih =>
    obtain ⟨target, dependency⟩ := edge
    rw [List.foldl_cons, ih, mem_of_add]
    simp only [List.mem_cons, Prod.mk.injEq]
    constructor
    · rintro (h | ⟨rfl, rfl⟩ | h)
      · exact Or.inl (Or.inr h)
      · exact Or.inl (Or.inl ⟨rfl, rfl⟩)
      · exact Or.inr h
    · rintro ((⟨rfl, rfl⟩ | h) | h)
      · exact Or.inr (Or.inl ⟨rfl, rfl⟩)
      · exact Or.inl h
      · exact Or.inr (Or.inr h)

end Dependents

/-! ## Both ways round -/

namespace DependencyGraph

variable {g : DependencyGraph} {target dependency : String}

theorem mem_edges : (target, dependency) ∈ g.edges ↔ g.Lists target dependency :=
  NameTable.mem_pairs

/-- **The dependents of a path are the targets whose records list it.** -/
theorem mem_of_reverse : target ∈ g.reverse.of dependency ↔ g.Lists target dependency := by
  unfold reverse
  rw [Dependents.mem_of_foldl_add, mem_edges]
  simp

end DependencyGraph

end Ripple
