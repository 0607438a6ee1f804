import Ripple.Proofs.Batch.Refusals
import Ripple.Proofs.Batch.Schedule

/-!
# What a batch that has ended early leaves

When a batch ends, the files of all jobs are removed, but a write that has been submitted is carried
out nevertheless. So the files that remain are those of the jobs that were about to be written at
the end, as far as their names are not too long (`remains_iff`). Inspectors may crash here.
-/

namespace Ripple

open Text

variable {ε : Type} {w : Workbench ε}

namespace Progress

variable {t base : FileTree} {location : Location} {items : List Item} {batch : List Source}
  {limit : Nat} {p p' q : Progress ε} {event : Event} {events : List Event}

/-! ## After the end -/

/-- The batch has ended. When everything is over, the files of these items will be there and no
others. -/
def WillLeave (w : Workbench ε) (t base : FileTree) (location : Location) (items : List Item)
    (limit : Nat) (remaining : Item → Prop) (p : Progress ε) : Prop :=
  p.outcome ≠ none ∧ ∃ written pending, Leaves w t base location items limit written pending p ∧
    ∀ x, remaining x ↔ x ∈ written ∨ x ∈ pending ∧ w.ItemFits x

section Desk

variable {remaining : Item → Prop} (d : w.Desk base location items)

include d

/-- A late write does not change what will be there. -/
theorem WillLeave.step (h : WillLeave w t base location items limit remaining p)
    (hstep : p.step w limit event = some p') :
    WillLeave w t base location items limit remaining p' := by
  obtain ⟨hended, written, pending, hleaves, hremaining⟩ := h
  obtain ⟨outcome, hover⟩ := Option.ne_none_iff_exists'.mp hended
  obtain ⟨write, rest, hlate, rfl⟩ := writeLate_of_step hstep hover
  obtain ⟨x, rest, rfl, hleaves'⟩ := hleaves.writeLate d hlate
  refine ⟨hended, _, rest, hleaves', fun y => ?_⟩
  rw [hremaining y]
  split
  · next hfits =>
    constructor
    · rintro (hy | ⟨hy, hfits⟩)
      · exact .inl (List.mem_cons_of_mem _ hy)
      · rcases List.mem_cons.mp hy with rfl | hy
        · exact .inl List.mem_cons_self
        · exact .inr ⟨hy, hfits⟩
    · rintro (hy | ⟨hy, hfits⟩)
      · rcases List.mem_cons.mp hy with rfl | hy
        · exact .inr ⟨List.mem_cons_self, hfits⟩
        · exact .inl hy
      · exact .inr ⟨List.mem_cons_of_mem _ hy, hfits⟩
  · next hfits =>
    refine or_congr_right ⟨fun ⟨hy, hfits'⟩ => ⟨?_, hfits'⟩, fun ⟨hy, hfits'⟩ => ⟨?_, hfits'⟩⟩
    · rcases List.mem_cons.mp hy with rfl | hy
      · exact absurd hfits' hfits
      · exact hy
    · exact List.mem_cons_of_mem _ hy

/-- When everything is over, the files are there. -/
theorem WillLeave.exists?_iff (hmake : t.makeDirectories w.directory = (base, .ok ()))
    (h : WillLeave w t base location items limit remaining p) (hover : p.isOver = true) {x : Item}
    (hx : x ∈ items) : p.tree.exists? (bytesOf (w.itemPath x)) = true ↔ remaining x := by
  obtain ⟨-, written, pending, hleaves, hremaining⟩ := h
  have hpending : pending = [] := by
    have hlate := hleaves.late
    simp only [isOver, Bool.and_eq_true, List.isEmpty_iff] at hover
    rw [hover.2] at hlate
    exact List.map_eq_nil_iff.mp hlate.symm
  have hheld : ∀ y ∈ written, y ∈ items ∧ w.ItemFits y := fun y hy =>
    ⟨hleaves.mem_items y (List.mem_append_left _ hy), hleaves.fits y hy⟩
  rw [hremaining x, hpending]
  simp only [List.not_mem_nil, false_and, or_false]
  rcases hleaves.tree with ⟨htree, hnil⟩ | hholding
  · have hnone := List.countP_eq_zero.mp (d.countP_exists_eq_zero hmake) x hx
    rw [htree, (List.append_eq_nil_iff.mp hnil).1]
    simpa using hnone
  · exact d.exists?_iff hholding hheld hx

end Desk

/-- Without a directory for staged files nothing is there when everything is over, and nothing has
been submitted before. -/
theorem remains_iff_of_denied {fault : Fault} {later : List Event}
    (hmake : t.makeDirectories w.directory = (base, .error fault))
    (hrun : run w limit (.start t batch) events = some p) (hopen : p.outcome = none)
    (hlater : p.run w limit later = some q) {x : Item} (hx : x ∈ batch.zipIdx) :
    ¬q.tree.exists? (bytesOf (w.itemPath x)) = true ∧
      ¬∃ job ∈ p.jobs, job.item = x ∧ job.submitted?.isSome = true := by
  constructor
  · obtain ⟨-, hcount, -⟩ := (stuckSoFar_of_run hmake (run_append hrun hlater)).agrees hmake
    exact List.countP_eq_zero.mp hcount x hx
  · rintro ⟨job, hjob, -, hsome⟩
    cases stuckSoFar_of_run hmake hrun with
    | underWay _ h =>
      have hpath := h.phases job hjob
      unfold Job.submitted? at hsome
      split at hsome
      · next path hphase => simp [Job.path?, hphase] at hpath
      · cases hsome
    | ended hended => cases hopen.symm.trans hended

/-- **What a batch leaves.** When a batch has ended and everything is over, the staged file of a
source is there exactly if its write had been submitted and not been carried out at the end, and its
name and its path are not too long. -/
theorem remains_iff {later : List Event} (hfresh : w.Fresh t batch)
    (hrun : run w limit (.start t batch) events = some p) (hopen : p.outcome = none)
    (hend : p.step w limit event = some p') (hended : p'.outcome ≠ none)
    (hlater : p'.run w limit later = some q) (hover : q.isOver = true) {x : Item}
    (hx : x ∈ batch.zipIdx) :
    q.tree.exists? (bytesOf (w.itemPath x)) = true ↔
      (∃ job ∈ p.jobs, job.item = x ∧ job.submitted?.isSome = true) ∧ w.ItemFits x := by
  have hmove := move_of_step hend hopen
  obtain ⟨outcome, rfl⟩ : ∃ outcome, p' = p.finish outcome :=
    hmove.outcome_eq_or_finish.resolve_left fun heq => hended (heq.trans hopen)
  rcases hmake : t.makeDirectories w.directory with ⟨base, fault | _⟩
  · have hrest : p.run w limit (event :: later) = some q := by
      rw [run, List.foldlM_cons, hend]
      exact hlater
    obtain ⟨hgone, hidle⟩ := remains_iff_of_denied hmake hrun hopen hrest hx
    exact iff_of_false hgone fun hleft => hidle hleft.1
  · obtain ⟨location, hopens⟩ := FileTree.makeDirectories_ok hmake
    have d := hfresh.desk hmake hopens
    have horderly := orderly_of_run d hmake hrun hopen
    have hleaves := horderly.tidy.finish d horderly.order.sublist horderly.order.room outcome
    have hwill : WillLeave w t base location batch.zipIdx limit
        (fun x => x ∈ pendingItems p.jobs ∧ w.ItemFits x) q := by
      refine run_induction (fun _ h hstep => h.step d hstep) ?_ hlater
      exact ⟨hended, [], _, hleaves, by simp⟩
    rw [hwill.exists?_iff d hmake hover hx]
    simp only [pendingItems, List.mem_map, List.mem_filter, and_comm, and_left_comm]

/-- A workbench whose only inspector crashes. -/
def crashWorkbench : Workbench String :=
  ⟨[⟨"crash", fun _ _ => .error "crash"⟩], "staged", fun place => ⟨place, 0⟩⟩

/-- Both sources are about to be written, the first one is, and the inspector crashes on it. -/
def crashOrder : List Event :=
  [.takeUp, .takeUp, .operate 0, .operate 1, .operate 0, .inspected 0 0, .writeLate]

/-- **A file can be left behind.** The second source is written after its file has been removed. -/
theorem left_behind_by_crash :
    ∃ q, run crashWorkbench 2 (.start ⟨∅, [], ∅⟩ sizeBatch) crashOrder = some q ∧
      q.isOver = true ∧ q.tree.exists? (bytesOf "staged/1-00000000-b.c") = true := by
  have hleft : (run crashWorkbench 2 (.start ⟨∅, [], ∅⟩ sizeBatch) crashOrder).any
      (fun q => q.isOver && q.tree.exists? (bytesOf "staged/1-00000000-b.c")) = true := by
    decide +kernel
  obtain ⟨q, hrun, hq⟩ := (Option.any_eq_true ..).mp hleft
  exact ⟨q, hrun, Bool.and_eq_true_iff.mp hq⟩

end Progress

end Ripple
