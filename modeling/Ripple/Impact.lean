import Ripple.Graph
import Ripple.Language

/-!
# What a change affects

A changed path is affected, and so is every target whose record lists an affected path. The affected
set is found with a worklist: a path enters the queue when it is seen for the first time, and leaves
it when the targets that depend on it have been looked at.

The loop ends because each step takes one path off the queue and every path it puts there is a
target that had not been seen; `Worklist.pending` counts the unseen targets and the queue together.
-/

namespace Ripple

/-- The paths seen so far, and those among them whose dependents are still to be looked at. -/
structure Worklist where
  seen : Names
  queue : List String

namespace Worklist

/-- Sees a path; one that is new joins the end of the queue. -/
def visit (w : Worklist) (path : String) : Worklist :=
  if path ∈ w.seen then w else ⟨w.seen.insert path, w.queue ++ [path]⟩

/-- The worklist of the changed paths. -/
def start (changed : List String) : Worklist := changed.foldl visit ⟨∅, []⟩

/-- Takes the first path off the queue and sees the targets that depend on it. -/
def step (d : Dependents) (w : Worklist) : Worklist :=
  match w.queue with
  | [] => w
  | path :: rest => (d.of path).toList.foldl visit ⟨w.seen, rest⟩

end Worklist

/-- Every target that depends on something, once for each path it depends on. -/
def Dependents.targets (d : Dependents) : List String := d.lists.toList.flatMap (·.2.toList)

theorem Dependents.mem_targets_of_mem_of {d : Dependents} {path target : String}
    (h : target ∈ d.of path) : target ∈ d.targets := by
  unfold Dependents.of at h
  cases hp : d.lists[path]? with
  | none => simp [hp] at h
  | some names =>
    simp only [hp, Option.getD_some] at h
    refine List.mem_flatMap.mpr ⟨(path, names), ?_, ?_⟩
    · exact Std.ExtTreeMap.mem_toList_iff_getElem?_eq_some.mpr hp
    · exact Std.ExtTreeSet.mem_toList.mpr h

namespace Worklist

/-- The targets not yet seen and the paths in the queue, counted together. -/
def pending (d : Dependents) (w : Worklist) : Nat :=
  d.targets.countP (· ∉ w.seen) + w.queue.length

theorem countP_insert_lt {seen : Names} {path : String} (hseen : path ∉ seen)
    {targets : List String} (hmem : path ∈ targets) :
    targets.countP (· ∉ seen.insert path) < targets.countP (· ∉ seen) := by
  induction targets with
  | nil => simp at hmem
  | cons target rest ih =>
    have hle : rest.countP (· ∉ seen.insert path) ≤ rest.countP (· ∉ seen) := by
      refine List.countP_mono_left fun x _ hx => ?_
      simp only [decide_eq_true_eq, Std.ExtTreeSet.mem_insert, not_or] at hx ⊢
      exact hx.2
    simp only [List.countP_cons]
    rcases List.mem_cons.mp hmem with rfl | hrest
    · rw [if_neg (by simp), if_pos (by simpa using hseen)]
      omega
    · have hlt := ih hrest
      have hhead : (if decide (target ∉ seen.insert path) = true then 1 else 0)
          ≤ if decide (target ∉ seen) = true then 1 else 0 := by
        by_cases hs : target ∈ seen <;> simp [hs, Std.ExtTreeSet.mem_insert]
        split <;> omega
      omega

/-- Seeing a target never leaves more to do. -/
theorem pending_visit_le {d : Dependents} {w : Worklist} {path : String} (h : path ∈ d.targets) :
    (w.visit path).pending d ≤ w.pending d := by
  unfold visit
  split
  · exact Nat.le_refl _
  · rename_i hseen
    have hlt := countP_insert_lt hseen h
    simp only [pending, List.length_append, List.length_cons, List.length_nil]
    omega

theorem pending_foldl_visit_le {d : Dependents} {paths : List String}
    (h : ∀ path ∈ paths, path ∈ d.targets) (w : Worklist) :
    (paths.foldl visit w).pending d ≤ w.pending d := by
  induction paths generalizing w with
  | nil => exact Nat.le_refl _
  | cons path rest ih =>
    exact Nat.le_trans (ih (fun p hp => h p (List.mem_cons_of_mem _ hp)) _)
      (pending_visit_le (h path List.mem_cons_self))

/-- A step leaves less to do. -/
theorem pending_step_lt {d : Dependents} {w : Worklist} (h : w.queue ≠ []) :
    (w.step d).pending d < w.pending d := by
  unfold step
  cases hq : w.queue with
  | nil => exact absurd hq h
  | cons path rest =>
    have hle := @pending_foldl_visit_le d (d.of path).toList
      (fun p hp => Dependents.mem_targets_of_mem_of (Std.ExtTreeSet.mem_toList.mp hp))
      ⟨w.seen, rest⟩
    simp only [pending, hq, List.length_cons] at hle ⊢
    omega

/-- Steps until the queue is empty. -/
def run (d : Dependents) (w : Worklist) : Worklist :=
  if w.queue = [] then w else run d (w.step d)
termination_by w.pending d
decreasing_by exact pending_step_lt (by assumption)

end Worklist

namespace Impact

/-- The changed paths and everything that depends on them, directly or through others. -/
def affected (changed : List String) (graph : DependencyGraph) : Names :=
  ((Worklist.start changed).run graph.reverse).seen

/-- The compilation units among the paths. -/
def sourceFiles (paths : List String) : Names :=
  Names.ofList (paths.filter fun path => (Language.ofPath? path).isSome)

/-- The compilation units that the records of the targets list. -/
def sourcesOfTargets (targets : List String) (graph : DependencyGraph) : Names :=
  Names.ofList ((targets.filterMap graph.get?).flatMap fun dependencies =>
    (sourceFiles dependencies.toList).toList)

end Impact

end Ripple
