import Mathlib.Data.List.Dedup
import Mathlib.Data.Set.Card
import Ripple.Proofs.Graph.Edges
import Ripple.Proofs.Text.ByteOrder

/-!
# Graphs turned round

The edges of a graph are the pairs of its records (`NameTable.pairs`), and those of the reversed
graph are the same pairs with their ends exchanged, each once (`pairs_reverse_perm`). A path has a
list of dependents only if something depends on it (`mem_reverse_iff`). So the reversed graph holds
every edge and nothing else, whether it is asked or counted (`reverse_inverts`).
-/

namespace Ripple

/-! ## Counting pairs -/

namespace NameTable

/-- No pair is listed twice. -/
theorem nodup_pairs (table : NameTable Names) : table.pairs.Nodup := by
  refine List.nodup_flatMap.mpr ⟨?_, ?_⟩
  · rintro ⟨name, members⟩ -
    exact members.ascending_toList.nodup.map (Prod.mk_right_injective name)
  · -- pairs from different entries differ in the name
    refine List.Pairwise.imp ?_ Std.ExtTreeMap.distinct_keys_toList
    rintro ⟨name, members⟩ ⟨other, others⟩ hne pair hpair hother
    obtain ⟨m, -, rfl⟩ := List.mem_map.mp hpair
    obtain ⟨m', -, heq⟩ := List.mem_map.mp hother
    exact hne (Std.LawfulEqCmp.compare_eq_iff_eq.mpr (Prod.mk.inj heq).1.symm)

end NameTable

namespace Dependents

variable {d : Dependents} {path target p : String}

theorem mem_of_iff_pairs : target ∈ d.of path ↔ (path, target) ∈ d.lists.pairs := by
  rw [NameTable.mem_pairs, of]
  cases d.lists[path]? <;> simp

/-- The lists of dependents have as many members together as there are pairs. -/
theorem sum_sizes (d : Dependents) :
    (d.lists.keys.map fun path => (d.of path).size).sum = d.lists.pairs.length := by
  have hsizes : ∀ entry ∈ d.lists.toList, (d.of entry.1).size = entry.2.size := by
    rintro ⟨path, targets⟩ hentry
    rw [of, Std.ExtTreeMap.mem_toList_iff_getElem?_eq_some.mp hentry, Option.getD_some]
  calc (d.lists.keys.map fun path => (d.of path).size).sum
      = (d.lists.toList.map fun entry => (d.of entry.1).size).sum := by
        rw [← Std.ExtTreeMap.map_fst_toList_eq_keys, List.map_map]
        rfl
    _ = (d.lists.toList.map fun entry => entry.2.size).sum := by
        rw [List.map_congr_left hsizes]
    _ = d.lists.pairs.length := by
        unfold NameTable.pairs
        simp only [List.length_flatMap, List.length_map, Std.ExtTreeSet.length_toList]

/-! ## Paths with a list of dependents -/

theorem mem_lists_add : p ∈ (d.add path target).lists ↔ p = path ∨ p ∈ d.lists := by
  rw [add, Std.ExtTreeMap.mem_insert, Std.LawfulEqCmp.compare_eq_iff_eq, eq_comm]

/-- Adding edges one by one gives lists to their dependencies. -/
theorem mem_lists_foldl_add {edges : List (String × String)} :
    p ∈ (edges.foldl (fun d (target, dependency) => d.add dependency target) d).lists ↔
      (∃ target, (target, p) ∈ edges) ∨ p ∈ d.lists := by
  induction edges generalizing d with
  | nil => simp
  | cons edge rest ih =>
    obtain ⟨target, dependency⟩ := edge
    rw [List.foldl_cons, ih, mem_lists_add]
    simp only [List.mem_cons, Prod.mk.injEq]
    constructor
    · rintro (⟨t, ht⟩ | rfl | h)
      · exact Or.inl ⟨t, Or.inr ht⟩
      · exact Or.inl ⟨target, Or.inl ⟨rfl, rfl⟩⟩
      · exact Or.inr h
    · rintro (⟨t, ⟨-, rfl⟩ | ht⟩ | h)
      · exact Or.inr (Or.inl rfl)
      · exact Or.inl ⟨t, ht⟩
      · exact Or.inr (Or.inr h)

end Dependents

/-! ## The reversed graph -/

namespace DependencyGraph

variable {g : DependencyGraph} {path : String}

/-- Something depends on a path exactly if it has a list of dependents. -/
theorem mem_reverse_iff : path ∈ g.reverse.lists ↔ ∃ target, g.Lists target path := by
  unfold reverse
  rw [Dependents.mem_lists_foldl_add]
  simp only [mem_edges]
  exact or_iff_left Std.ExtTreeMap.not_mem_empty

/-- **The reversed graph has the edges the other way round**, each once. -/
theorem pairs_reverse_perm (g : DependencyGraph) :
    (g.reverse.lists.pairs.map Prod.swap).Perm g.edges := by
  have hpairs : (g.reverse.lists.pairs.map Prod.swap).Nodup :=
    (NameTable.nodup_pairs _).map Prod.swap_injective
  have hedges : g.edges.Nodup := NameTable.nodup_pairs g.records
  refine (List.perm_ext_iff_of_nodup hpairs hedges).mpr ?_
  rintro ⟨target, path⟩
  rw [mem_edges, ← mem_of_reverse, Dependents.mem_of_iff_pairs]
  constructor
  · intro h
    obtain ⟨⟨p, t⟩, hmem, heq⟩ := List.mem_map.mp h
    obtain ⟨rfl, rfl⟩ := Prod.mk.inj heq
    exact hmem
  · intro h
    exact List.mem_map.mpr ⟨(path, target), h, rfl⟩

/-- The reversed graph has as many lists as there are different dependencies. -/
theorem size_reverse (g : DependencyGraph) :
    (g.reverse.size : ℕ∞) = {path | ∃ target, g.Lists target path}.encard := by
  have hkeys : {path | ∃ target, g.Lists target path} = ↑g.reverse.lists.keys.toFinset := by
    ext path
    rw [Set.mem_ofPred_eq, ← mem_reverse_iff, Finset.mem_coe, List.mem_toFinset,
      Std.ExtTreeMap.mem_keys]
  rw [hkeys, Set.encard_coe_eq_coe_finsetCard,
    List.toFinset_card_of_nodup Std.ExtTreeMap.nodup_keys, Std.ExtTreeMap.length_keys]
  rfl

/-- **Turning a graph round keeps every edge and adds none.** The dependents of a path are the
targets that list it, in ascending order; there is a list for each different dependency, the lists
have as many members together as the graph has edges, and there is none exactly if no target has a
dependency. -/
theorem reverse_inverts (g : DependencyGraph) :
    (∀ path target, target ∈ (g.reverse.of path).toList ↔
      ∃ dependencies, g.get? target = some dependencies ∧ path ∈ dependencies) ∧
    (∀ path, Ascending (g.reverse.of path).toList) ∧
    (g.reverse.size : ℕ∞) = {path | ∃ target, g.Lists target path}.encard ∧
    (g.reverse.lists.keys.map fun path => (g.reverse.of path).size).sum = g.edgeCount ∧
    (g.reverse.isEmpty = true ↔ ∀ target path, ¬g.Lists target path) := by
  refine ⟨?_, fun path => Names.ascending_toList _, size_reverse g, ?_, ?_⟩
  · intro path target
    rw [Std.ExtTreeSet.mem_toList]
    exact mem_of_reverse
  · rw [Dependents.sum_sizes, ← List.length_map Prod.swap, (pairs_reverse_perm g).length_eq]
    rfl
  · rw [Dependents.isEmpty, Std.ExtTreeMap.isEmpty_iff,
      Std.ExtTreeMap.eq_empty_iff_forall_not_mem]
    simp only [mem_reverse_iff, not_exists]
    exact forall_comm

/-- A target without dependencies has no part in it. -/
example : (ofRecords [⟨"main.o", Names.ofList []⟩]).reverse.isEmpty = true := by decide

end DependencyGraph

end Ripple
