import Mathlib.Data.List.Nodup
import Mathlib.Data.List.Perm.Subperm
import Mathlib.Logic.Relation
import Ripple.Proofs.Impact.Closure
import Ripple.Proofs.Text.ByteOrder

/-!
# What goes through the queue

A search for affected paths, taken apart into the smallest moves it makes (`Search.Move`): a path is
looked at and joins the queue if it is new, or, when no path is left to look at, the first one in
the queue is taken off. A record is kept of the paths that have joined and of those that have been
taken off. At every moment the queue holds the former without the latter, no path has joined twice,
and the paths that have joined are those that have been seen (`Search.Balanced`). The steps of the
worklist are made of such moves (`reaches_step`), so a search takes off every affected path once and
ends with the last of them (`each_path_once`).
-/

namespace Ripple

namespace Worklist

/-- A search at some moment: the worklist, the paths to be looked at before the next one is taken
off the queue, and the paths that have joined the queue and have been taken off it so far. -/
structure Search where
  worklist : Worklist
  due : List String
  joined : List String
  taken : List String

namespace Search

/-- What a search does next. -/
inductive Move (d : Dependents) : Search → Search → Prop
  | pass {w : Worklist} {path : String} {due joined taken : List String} :
    path ∈ w.seen → Move d ⟨w, path :: due, joined, taken⟩ ⟨w.visit path, due, joined, taken⟩
  | join {w : Worklist} {path : String} {due joined taken : List String} :
    path ∉ w.seen →
      Move d ⟨w, path :: due, joined, taken⟩ ⟨w.visit path, due, joined ++ [path], taken⟩
  | take {seen : Names} {path : String} {rest joined taken : List String} :
    Move d ⟨⟨seen, path :: rest⟩, [], joined, taken⟩
      ⟨⟨seen, rest⟩, (d.of path).toList, joined, taken ++ [path]⟩

/-- A number of moves. -/
abbrev Reaches (d : Dependents) : Search → Search → Prop := Relation.ReflTransGen (Move d)

/-- The search for what the changed paths affect, before it has looked at any of them. -/
def start (changed : List String) : Search := ⟨⟨∅, []⟩, changed, [], []⟩

/-! ## What every move keeps -/

/-- The queue holds what has joined it and has not been taken off, no path has joined twice, the
paths that have joined are the seen ones, and only affected paths are seen or to be looked at. -/
structure Balanced (g : DependencyGraph) (changed : List String) (s : Search) : Prop where
  queue : s.joined = s.taken ++ s.worklist.queue
  nodup : s.joined.Nodup
  mem_joined : ∀ path, path ∈ s.joined ↔ path ∈ s.worklist.seen
  seen : ∀ path ∈ s.worklist.seen, Impact.Affected g changed path
  due : ∀ path ∈ s.due, Impact.Affected g changed path

variable {g : DependencyGraph} {changed : List String} {s s' : Search}

theorem balanced_start : Balanced g changed (start changed) where
  queue := rfl
  nodup := List.nodup_nil
  mem_joined := by simp [start]
  seen := by simp [start]
  due _ hpath := .change hpath

theorem Balanced.move (h : Balanced g changed s) (hmove : Move g.reverse s s') :
    Balanced g changed s' := by
  cases hmove with
  | @pass w path due joined taken hseen =>
    have hvisit : w.visit path = w := if_pos hseen
    rw [hvisit]
    exact ⟨h.queue, h.nodup, h.mem_joined, h.seen, (List.forall_mem_cons.mp h.due).2⟩
  | @join w path due joined taken hnew =>
    obtain ⟨hpath, hdue⟩ := List.forall_mem_cons.mp h.due
    have hvisit : w.visit path = ⟨w.seen.insert path, w.queue ++ [path]⟩ := if_neg hnew
    rw [hvisit]
    refine ⟨?_, ?_, ?_, ?_, hdue⟩
    · show joined ++ [path] = taken ++ (w.queue ++ [path])
      rw [← List.append_assoc]
      exact congrArg (· ++ [path]) h.queue
    · show (joined ++ [path]).Nodup
      rw [← List.concat_eq_append]
      exact h.nodup.concat fun hjoined => hnew ((h.mem_joined path).mp hjoined)
    · intro p
      show p ∈ joined ++ [path] ↔ p ∈ w.seen.insert path
      have hmem : p ∈ joined ↔ p ∈ w.seen := h.mem_joined p
      rw [List.mem_append, hmem, List.mem_singleton, Std.ExtTreeSet.mem_insert,
        Std.LawfulEqCmp.compare_eq_iff_eq, or_comm, eq_comm]
    · intro p hp
      rcases Std.ExtTreeSet.mem_insert.mp hp with heq | hold
      · rw [← Std.LawfulEqCmp.compare_eq_iff_eq.mp heq]
        exact hpath
      · exact h.seen p hold
  | @take seen path rest joined taken =>
    have hqueue : joined = taken ++ path :: rest := h.queue
    have hpath : path ∈ seen := (h.mem_joined path).mp (by simp [hqueue])
    refine ⟨?_, h.nodup, h.mem_joined, h.seen, ?_⟩
    · show joined = taken ++ [path] ++ rest
      rw [hqueue, List.append_assoc, List.singleton_append]
    · intro target htarget
      have hlists := DependencyGraph.mem_of_reverse.mp (Std.ExtTreeSet.mem_toList.mp htarget)
      exact .listed hlists (h.seen path hpath)

theorem Balanced.reaches (h : Balanced g changed s) (hreaches : Reaches g.reverse s s') :
    Balanced g changed s' := by
  induction hreaches with
  | refl => exact h
  | tail _ hmove ih => exact ih.move hmove

/-- What has been taken off the queue or is in it counts towards the affected paths. -/
theorem Balanced.length_le (h : Balanced g changed s) :
    s.taken.length + s.worklist.queue.length ≤ (Impact.affected changed g).size := by
  have hsub : s.joined ⊆ (Impact.affected changed g).toList := by
    intro path hpath
    have haffected := h.seen path ((h.mem_joined path).mp hpath)
    exact Std.ExtTreeSet.mem_toList.mpr (Impact.mem_affected.mpr haffected)
  calc s.taken.length + s.worklist.queue.length = s.joined.length := by
        rw [h.queue, List.length_append]
    _ ≤ (Impact.affected changed g).toList.length := (h.nodup.subperm hsub).length_le
    _ = (Impact.affected changed g).size := Std.ExtTreeSet.length_toList

/-- Once the queue is empty, every affected path has been taken off it, each once. -/
theorem Balanced.taken_perm (h : Balanced g changed s) (hexplores : Explores g changed s.worklist)
    (hempty : s.worklist.queue = []) : s.taken.Perm (Impact.affected changed g).toList := by
  have hjoined : s.joined = s.taken := by rw [h.queue, hempty, List.append_nil]
  have htaken : s.taken.Nodup := hjoined ▸ h.nodup
  refine (List.perm_ext_iff_of_nodup htaken (Names.ascending_toList _).nodup).mpr ?_
  intro path
  rw [← hjoined, h.mem_joined, hexplores.mem_seen_iff hempty, Std.ExtTreeSet.mem_toList,
    Impact.mem_affected]

/-! ## The moves of a step -/

variable {d : Dependents}

/-- Seeing a list of paths is looking at one after the other. -/
theorem reaches_foldl_visit (due : List String) (w : Worklist) (joined taken : List String) :
    ∃ later, Reaches d ⟨w, due, joined, taken⟩ ⟨due.foldl visit w, [], later, taken⟩ := by
  induction due generalizing w joined with
  | nil => exact ⟨joined, .refl⟩
  | cons path rest ih =>
    rw [List.foldl_cons]
    by_cases hseen : path ∈ w.seen
    · obtain ⟨later, hrest⟩ := ih (w.visit path) joined
      exact ⟨later, .head (.pass hseen) hrest⟩
    · obtain ⟨later, hrest⟩ := ih (w.visit path) (joined ++ [path])
      exact ⟨later, .head (.join hseen) hrest⟩

/-- A step takes the first path off the queue and looks at its dependents. -/
theorem reaches_step {w : Worklist} {path : String} {rest : List String}
    (hqueue : w.queue = path :: rest) (joined taken : List String) :
    ∃ later, Reaches d ⟨w, [], joined, taken⟩ ⟨w.step d, [], later, taken ++ [path]⟩ := by
  obtain ⟨seen, queue⟩ := w
  obtain rfl : queue = path :: rest := hqueue
  obtain ⟨later, hlater⟩ :=
    reaches_foldl_visit (d := d) (d.of path).toList ⟨seen, rest⟩ joined (taken ++ [path])
  exact ⟨later, .head .take hlater⟩

/-- A number of steps takes as many paths off the queue, unless the queue is empty before. -/
theorem reaches_iterate (d : Dependents) (changed : List String) (n : Nat) :
    ∃ joined taken,
      Reaches d (start changed)
        ⟨(Worklist.step d)^[n] (Worklist.start changed), [], joined, taken⟩ ∧
      taken.length ≤ n ∧
      (((Worklist.step d)^[n] (Worklist.start changed)).queue ≠ [] → taken.length = n) := by
  induction n with
  | zero =>
    obtain ⟨joined, hstart⟩ := reaches_foldl_visit (d := d) changed ⟨∅, []⟩ [] []
    exact ⟨joined, [], hstart, Nat.le_refl 0, fun _ => rfl⟩
  | succ n ih =>
    obtain ⟨joined, taken, hreaches, hle, hlength⟩ := ih
    rw [Function.iterate_succ_apply']
    generalize (Worklist.step d)^[n] (Worklist.start changed) = w at hreaches hlength ⊢
    cases hqueue : w.queue with
    | nil =>
      have hsame : w.step d = w := by rw [Worklist.step, hqueue]
      rw [hsame]
      exact ⟨joined, taken, hreaches, Nat.le_succ_of_le hle, fun hne => absurd hqueue hne⟩
    | cons path rest =>
      obtain ⟨later, hstep⟩ := reaches_step (d := d) hqueue joined taken
      have htaken : taken.length = n := hlength (by simp [hqueue])
      refine ⟨later, taken ++ [path], hreaches.trans hstep, ?_, fun _ => ?_⟩
      · simp [htaken]
      · simp [htaken]

/-- The queue is empty after as many steps as there are affected paths, and not before. -/
theorem queue_iterate_eq_nil_iff (g : DependencyGraph) (changed : List String) (n : Nat) :
    ((Worklist.step g.reverse)^[n] (Worklist.start changed)).queue = [] ↔
      (Impact.affected changed g).size ≤ n := by
  obtain ⟨joined, taken, hreaches, hle, hlength⟩ := reaches_iterate g.reverse changed n
  have h := (balanced_start (g := g)).reaches hreaches
  have hbound : taken.length +
      ((Worklist.step g.reverse)^[n] (Worklist.start changed)).queue.length ≤
        (Impact.affected changed g).size := h.length_le
  constructor
  · intro hempty
    have hperm : taken.Perm (Impact.affected changed g).toList :=
      h.taken_perm (explores_start.iterate n) hempty
    rw [← Std.ExtTreeSet.length_toList, ← hperm.length_eq]
    exact hle
  · intro hsize
    by_contra hne
    have hpos := List.length_pos_iff.mpr hne
    have htaken := hlength hne
    omega

/-- **Every affected path goes through the queue once.** At no moment of a search has a path joined
the queue twice, the queue is what has joined it without what has been taken off, and it holds
affected paths only. At the end just the affected paths have been taken off, each once, and so the
queue is empty after as many steps as there are affected paths, and not before. -/
theorem each_path_once (g : DependencyGraph) (changed : List String) :
    (∀ s, Reaches g.reverse (start changed) s →
      s.joined.Nodup ∧ s.joined = s.taken ++ s.worklist.queue ∧ s.worklist.queue.Nodup ∧
        ∀ path ∈ s.worklist.queue, path ∈ Impact.affected changed g) ∧
    (∃ joined taken,
      Reaches g.reverse (start changed)
        ⟨(Worklist.start changed).run g.reverse, [], joined, taken⟩ ∧
      ((Worklist.start changed).run g.reverse).queue = [] ∧
      taken.Perm (Impact.affected changed g).toList) ∧
    ∀ n, ((Worklist.step g.reverse)^[n] (Worklist.start changed)).queue = [] ↔
      (Impact.affected changed g).size ≤ n := by
  have hbalanced {s : Search} (hs : Reaches g.reverse (start changed) s) :
      Balanced g changed s := balanced_start.reaches hs
  refine ⟨fun s hs => ?_, ?_, queue_iterate_eq_nil_iff g changed⟩
  · have h := hbalanced hs
    have hjoined := h.nodup
    rw [h.queue] at hjoined
    refine ⟨h.nodup, h.queue, (List.nodup_append.mp hjoined).2.1, fun path hpath => ?_⟩
    have hmem : path ∈ s.joined := by
      rw [h.queue]
      exact List.mem_append_right _ hpath
    exact Impact.mem_affected.mpr (h.seen path ((h.mem_joined path).mp hmem))
  · obtain ⟨n, hrun, hempty⟩ := exists_run_eq_iterate g.reverse (Worklist.start changed)
    obtain ⟨joined, taken, hreaches, -⟩ := reaches_iterate g.reverse changed n
    rw [hrun] at hempty ⊢
    exact ⟨joined, taken, hreaches, hempty,
      (hbalanced hreaches).taken_perm (explores_start.iterate n) hempty⟩

/-- Two targets that depend on each other. -/
def circle : DependencyGraph :=
  .ofRecords [⟨"a.o", Names.ofList ["b.o"]⟩, ⟨"b.o", Names.ofList ["a.o"]⟩]

/-- A search in the circle that has taken one path off the queue and looked at the other one. -/
def halfway : Search :=
  ⟨(⟨(((⟨∅, []⟩ : Worklist).visit "a.o").visit "a.o").seen, []⟩ : Worklist).visit "b.o", [],
    ["a.o", "b.o"], ["a.o"]⟩

theorem reaches_halfway : Reaches circle.reverse (start ["a.o", "a.o"]) halfway := by
  refine .head (.join (by decide)) (.head (.pass (by decide)) (.head .take ?_))
  have hdue : (circle.reverse.of "a.o").toList = ["b.o"] := by decide
  rw [hdue]
  exact .single (.join (by decide))

/-- A path that is changed twice and depends on itself goes through the queue once all the same. -/
theorem each_path_once_halfway :
    Reaches circle.reverse (start ["a.o", "a.o"]) halfway ∧
      halfway.worklist.queue = ["b.o"] ∧ halfway.joined.Nodup ∧
      "b.o" ∈ Impact.affected ["a.o", "a.o"] circle ∧
      ((Worklist.step circle.reverse)^[1] (Worklist.start ["a.o", "a.o"])).queue ≠ [] ∧
      ((Worklist.step circle.reverse)^[2] (Worklist.start ["a.o", "a.o"])).queue = [] := by
  obtain ⟨halways, -, hsteps⟩ := each_path_once circle ["a.o", "a.o"]
  obtain ⟨hnodup, -, -, haffected⟩ := halways halfway reaches_halfway
  have hqueue : halfway.worklist.queue = ["b.o"] := by decide
  have hsize : (Impact.affected ["a.o", "a.o"] circle).size = 2 := by decide +kernel
  refine ⟨reaches_halfway, hqueue, hnodup, ?_, ?_, ?_⟩
  · exact haffected "b.o" (by rw [hqueue]; exact List.mem_singleton_self _)
  · rw [ne_eq, hsteps 1, hsize]
    omega
  · rw [hsteps 2, hsize]

end Search

end Worklist

end Ripple
