import Mathlib.Data.List.Chain
import Mathlib.Order.Bounds.Basic
import Ripple.Impact
import Ripple.Proofs.Graph.Edges

/-!
# The affected set is a closure

`Impact.Affected` says by rules what a change affects: the changed paths, and every target whose
record lists an affected path. The worklist computes exactly this set, on every graph.

What carries the proof is `Worklist.Explores`: whatever has been seen is affected, and the
dependents of a seen path have been seen too unless the path still waits in the queue. A step keeps
it, and once the queue is empty the seen paths are closed under dependents.
-/

namespace Ripple

namespace Impact

/-- A changed path, or a target whose record lists an affected path. -/
inductive Affected (g : DependencyGraph) (changed : List String) : String → Prop
  | change {path : String} : path ∈ changed → Affected g changed path
  | listed {target dependency : String} :
    g.Lists target dependency → Affected g changed dependency → Affected g changed target

/-- The set holds the changed paths, and every target whose record lists one of its paths. -/
structure Closed (g : DependencyGraph) (changed : List String) (paths : Set String) : Prop where
  change : ∀ path ∈ changed, path ∈ paths
  listed : ∀ target dependency, g.Lists target dependency → dependency ∈ paths → target ∈ paths

variable {g : DependencyGraph} {changed : List String}

/-- The affected paths are the least closed set. -/
theorem isLeast_affected : IsLeast {paths | Closed g changed paths} {p | Affected g changed p} := by
  refine ⟨⟨fun _ hp => Affected.change hp, fun _ _ hl hd => Affected.listed hl hd⟩, ?_⟩
  intro paths hclosed path haff
  induction haff with
  | change hmem => exact hclosed.change _ hmem
  | listed hlists _ ih => exact hclosed.listed _ _ hlists ih

/-! ## Chains of dependents -/

/-- Each path of the chain is a dependency of the next one, and the first one is changed. -/
def IsImpactChain (g : DependencyGraph) (changed chain : List String) : Prop :=
  (∃ c ∈ changed, chain.head? = some c) ∧ chain.IsChain fun p q => g.Lists q p

/-- What a chain leads to from an affected path is affected. -/
theorem Affected.of_isChain {chain : List String} {first last : String}
    (hfirst : Affected g changed first) (hhead : chain.head? = some first)
    (hchain : chain.IsChain fun p q => g.Lists q p) (hlast : chain.getLast? = some last) :
    Affected g changed last := by
  induction chain generalizing first with
  | nil => simp at hhead
  | cons p rest ih =>
    obtain rfl : p = first := by simpa using hhead
    cases rest with
    | nil =>
      obtain rfl : p = last := by simpa using hlast
      exact hfirst
    | cons q rest =>
      obtain ⟨hlists, hrest⟩ := List.isChain_cons_cons.mp hchain
      exact ih (Affected.listed hlists hfirst) rfl hrest (by simpa using hlast)

/-- A path is affected when a chain of dependents leads to it from a changed path. -/
theorem affected_iff_chain {path : String} :
    Affected g changed path ↔
      ∃ chain, IsImpactChain g changed chain ∧ chain.getLast? = some path := by
  constructor
  · intro haff
    induction haff with
    | @change path hmem =>
      exact ⟨[path], ⟨⟨path, hmem, rfl⟩, List.isChain_singleton _⟩, rfl⟩
    | @listed target dependency hlists _ ih =>
      -- the target goes behind the chain that leads to its dependency
      obtain ⟨chain, ⟨⟨c, hc, hhead⟩, hchain⟩, hlast⟩ := ih
      refine ⟨chain ++ [target], ⟨⟨c, hc, ?_⟩, ?_⟩, by simp⟩
      · rw [List.head?_append, hhead, Option.some_or]
      · refine List.isChain_append.mpr ⟨hchain, List.isChain_singleton _, ?_⟩
        intro last hl next hn
        obtain rfl : last = dependency := by simpa [hlast, eq_comm] using hl
        obtain rfl : target = next := by simpa using hn
        exact hlists
  · rintro ⟨chain, ⟨⟨c, hc, hhead⟩, hchain⟩, hlast⟩
    exact (Affected.change hc).of_isChain hhead hchain hlast

end Impact

/-! ## The worklist -/

namespace Worklist

/-- Seeing a list of paths: the new ones among them join the queue, each once. -/
theorem foldl_visit (paths : List String) (w : Worklist) :
    (∀ p, p ∈ (paths.foldl visit w).seen ↔ p ∈ w.seen ∨ p ∈ paths) ∧
      ∃ new : List String, (paths.foldl visit w).queue = w.queue ++ new ∧ new.Nodup ∧
        ∀ p, p ∈ new ↔ p ∈ paths ∧ p ∉ w.seen := by
  -- a path that is seen now counts as seen for those after it, so `w` has to be any worklist
  induction paths generalizing w with
  | nil => exact ⟨by simp, [], by simp⟩
  | cons path rest ih =>
    obtain ⟨hseen, new, hqueue, hnodup, hnew⟩ := ih (w.visit path)
    rw [List.foldl_cons]
    by_cases h : path ∈ w.seen
    · have hvisit : w.visit path = w := if_pos h
      rw [hvisit] at hseen hqueue hnew ⊢
      refine ⟨fun p => ?_, new, hqueue, hnodup, fun p => ?_⟩
      · rw [hseen, List.mem_cons]
        exact ⟨fun hp => hp.imp_right Or.inr, fun hp => by grind⟩
      · rw [hnew, List.mem_cons]
        exact ⟨fun hp => ⟨Or.inr hp.1, hp.2⟩, fun hp => by grind⟩
    · have hvisit : w.visit path = ⟨w.seen.insert path, w.queue ++ [path]⟩ := if_neg h
      rw [hvisit] at hseen hqueue hnew ⊢
      simp only [Std.ExtTreeSet.mem_insert, Std.LawfulEqCmp.compare_eq_iff_eq] at hseen hnew
      refine ⟨fun p => ?_, path :: new, by simpa using hqueue, ?_, fun p => ?_⟩
      · rw [hseen, List.mem_cons]
        grind
      · exact List.nodup_cons.mpr ⟨fun hp => ((hnew path).mp hp).2 (Or.inl rfl), hnodup⟩
      · rw [List.mem_cons, hnew, List.mem_cons]
        grind

/-- What a worklist knows on the way: the changed paths have been seen, only affected paths have,
and only those in the queue may have dependents that have not. -/
structure Explores (g : DependencyGraph) (changed : List String) (w : Worklist) : Prop where
  change : ∀ path ∈ changed, path ∈ w.seen
  sound : ∀ path ∈ w.seen, Impact.Affected g changed path
  queued : ∀ path ∈ w.queue, path ∈ w.seen
  closed : ∀ path ∈ w.seen, path ∉ w.queue → ∀ target, g.Lists target path → target ∈ w.seen

variable {g : DependencyGraph} {changed : List String} {w : Worklist}

theorem explores_start : Explores g changed (start changed) := by
  obtain ⟨hseen, new, hqueue, -, hnew⟩ := foldl_visit changed ⟨∅, []⟩
  simp only [Std.ExtTreeSet.not_mem_empty, false_or, not_false_eq_true, and_true,
    List.nil_append] at hseen hqueue hnew
  refine ⟨fun p hp => (hseen p).mpr hp, fun p hp => .change ((hseen p).mp hp), ?_, ?_⟩
  · intro p hp
    rw [start, hqueue, hnew] at hp
    exact (hseen p).mpr hp
  · intro p hp hnq
    rw [start, hqueue, hnew] at hnq
    exact absurd ((hseen p).mp hp) hnq

/-- A step keeps what the worklist knows. -/
theorem Explores.step (h : Explores g changed w) : Explores g changed (w.step g.reverse) := by
  unfold Worklist.step
  cases hq : w.queue with
  | nil => exact h
  | cons path rest =>
    have hpath : path ∈ w.seen := h.queued path (by simp [hq])
    obtain ⟨hseen, new, hqueue, -, hnew⟩ :=
      foldl_visit (g.reverse.of path).toList ⟨w.seen, rest⟩
    simp only [Std.ExtTreeSet.mem_toList, DependencyGraph.mem_of_reverse] at hseen hnew
    refine ⟨fun p hp => (hseen p).mpr (Or.inl (h.change p hp)), ?_, ?_, ?_⟩
    · intro p hp
      rcases (hseen p).mp hp with hold | hlists
      · exact h.sound p hold
      · exact Impact.Affected.listed hlists (h.sound path hpath)
    · intro p hp
      rw [hqueue, List.mem_append, hnew] at hp
      rcases hp with hold | ⟨hlists, -⟩
      · exact (hseen p).mpr (Or.inl (h.queued p (by simp [hq, hold])))
      · exact (hseen p).mpr (Or.inr hlists)
    · intro p hp hnq target hlists
      rw [hqueue, List.mem_append, hnew, not_or] at hnq
      -- a path off the queue is the one just taken, or was off it before
      by_cases hpp : p = path
      · exact (hseen target).mpr (Or.inr (hpp ▸ hlists))
      · rcases (hseen p).mp hp with hold | hl
        · have hoff : p ∉ w.queue := by simp [hq, hpp, hnq.1]
          exact (hseen target).mpr (Or.inl (h.closed p hold hoff target hlists))
        · by_cases hs : p ∈ w.seen
          · have hoff : p ∉ w.queue := by simp [hq, hpp, hnq.1]
            exact (hseen target).mpr (Or.inl (h.closed p hs hoff target hlists))
          · exact absurd ⟨hl, hs⟩ hnq.2

theorem run_of_queue_eq_nil {d : Dependents} {w : Worklist} (h : w.queue = []) : w.run d = w := by
  rw [run, if_pos h]

theorem run_of_queue_ne_nil {d : Dependents} {w : Worklist} (h : w.queue ≠ []) :
    w.run d = (w.step d).run d := by
  rw [run, if_neg h]

/-- The run is a finite number of steps, after which the queue is empty. -/
theorem exists_run_eq_iterate (d : Dependents) (w : Worklist) :
    ∃ n, w.run d = (Worklist.step d)^[n] w ∧ (w.run d).queue = [] := by
  -- along the recursion of `run`, which ends because every step leaves fewer targets pending
  induction w using run.induct (d := d) with
  | case1 w hq =>
    rw [run_of_queue_eq_nil hq]
    exact ⟨0, rfl, hq⟩
  | case2 w hq ih =>
    rw [run_of_queue_ne_nil hq]
    obtain ⟨n, hrun, hempty⟩ := ih
    exact ⟨n + 1, by rw [hrun, Function.iterate_succ_apply], hempty⟩

/-- What is kept by a step is kept by a number of steps. -/
theorem Explores.iterate (h : Explores g changed w) (n : Nat) :
    Explores g changed ((Worklist.step g.reverse)^[n] w) := by
  induction n generalizing w with
  | zero => exact h
  | succ n ih => exact ih h.step

/-- With an empty queue the seen paths are the affected ones. -/
theorem Explores.mem_seen_iff (h : Explores g changed w) (hq : w.queue = []) {path : String} :
    path ∈ w.seen ↔ Impact.Affected g changed path := by
  refine ⟨h.sound path, fun haff => ?_⟩
  induction haff with
  | change hmem => exact h.change _ hmem
  | listed hlists _ ih => exact h.closed _ ih (by simp [hq]) _ hlists

end Worklist

namespace Impact

variable {g : DependencyGraph} {changed : List String}

/-- The computed set holds the affected paths and no others. -/
theorem mem_affected {path : String} : path ∈ affected changed g ↔ Affected g changed path := by
  obtain ⟨n, hrun, hempty⟩ := Worklist.exists_run_eq_iterate g.reverse (Worklist.start changed)
  have hexp : Worklist.Explores g changed ((Worklist.start changed).run g.reverse) := by
    rw [hrun]
    exact Worklist.explores_start.iterate n
  exact hexp.mem_seen_iff hempty

/-- **The affected set is the least set that holds the changed paths and is closed under
dependents**, and the worklist finds it in finitely many steps. A path is in it when a chain of
dependents leads there from a changed path. -/
theorem affected_isLeast (g : DependencyGraph) (changed : List String) :
    (∃ n, ((Worklist.step g.reverse)^[n] (Worklist.start changed)).queue = [] ∧
      ((Worklist.step g.reverse)^[n] (Worklist.start changed)).seen = affected changed g) ∧
    IsLeast {paths | Closed g changed paths} {p | p ∈ affected changed g} ∧
    ∀ path, path ∈ affected changed g ↔
      ∃ chain, IsImpactChain g changed chain ∧ chain.getLast? = some path := by
  refine ⟨?_, ?_, fun path => mem_affected.trans affected_iff_chain⟩
  · obtain ⟨n, hrun, hempty⟩ := Worklist.exists_run_eq_iterate g.reverse (Worklist.start changed)
    exact ⟨n, by rw [← hrun]; exact hempty, by rw [← hrun]; rfl⟩
  · have hset : {p | p ∈ affected changed g} = {p | Affected g changed p} :=
      Set.ext fun _ => mem_affected
    rw [hset]
    exact isLeast_affected

end Impact

end Ripple
