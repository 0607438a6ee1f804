import Ripple.Proofs.Batch.Queue
import Ripple.Proofs.MapM
import Mathlib.Algebra.GroupWithZero.Nat

/-!
# A batch goes on until it is over

As long as a batch is not over, what is next can happen (`isSome_step_next`), and every event brings
it nearer to its end (`length_le_of_run`). So a batch that goes through any order of events and then
on is over in the end (`isOver_complete`). What happens to it is a run (`run_happened`), and every
run that is over is what happens in the order of its own events (`complete_eq_of_run`).
-/

namespace Ripple

variable {ε : Type} {w : Workbench ε}

namespace Progress

variable {limit : Nat} {p p' : Progress ε} {event : Event} {items : List Item}
  {R : Item → Except StagingFailure FileReport → Prop}

/-! ## There is always something that can happen -/

/-- A job waits for a file operation if it is not done and no inspector is missing. -/
theorem isSome_operate (w : Workbench ε) (t : FileTree) {job : Job}
    (hphase : ∀ result, job.phase ≠ .done result)
    (hall : ∀ path verdicts, job.phase = .inspecting path verdicts →
      ∀ verdict ∈ verdicts, verdict.isSome = true) : (job.operate w t).isSome = true := by
  unfold Job.operate
  split
  · split <;> rfl
  · split <;> rfl
  · rfl
  · next path verdicts hjob =>
    rw [Option.isSome_map, isSome_mapM_id, List.all_map, List.all_eq_true]
    exact hall path verdicts hjob
  · next result hjob => exact absurd hjob (hphase result)

/-- An inspector that is missing can look at the staged file. -/
theorem isSome_inspected (t : FileTree) {job : Job} (hslots : job.Slotted w) {path : String}
    {verdicts : List (Option Verdict)} (hphase : job.phase = .inspecting path verdicts)
    {index : Nat} (hindex : verdicts[index]? = some none) :
    (job.inspected w t index).isSome = true := by
  have hlt : index < w.inspectors.length := by
    rw [← hslots path verdicts hphase]
    exact (List.getElem?_eq_some_iff.mp hindex).1
  simp [Job.inspected, hphase, List.getElem?_eq_getElem hlt, hindex]

/-- **What is next can happen**, as long as the batch has not ended: whatever the other jobs wait
for, the first one never waits for another job. -/
theorem InOrder.isSome_step_next (h : InOrder w R items limit p) (hopen : p.outcome = none) :
    (p.step w limit p.next).isSome = true := by
  cases hjobs : p.jobs with
  | nil =>
    cases hwaiting : p.waiting with
    | nil => simp [step, next, hopen, handOver, hjobs, hwaiting]
    | cons x rest =>
      have hroom : 0 < max limit 1 := Nat.lt_of_lt_of_le Nat.zero_lt_one (Nat.le_max_right ..)
      simp [step, next, hopen, takeUp, hjobs, hwaiting, hroom]
  | cons job rest =>
    have hoperate (hphase : ∀ result, job.phase ≠ .done result)
        (hall : ∀ path verdicts, job.phase = .inspecting path verdicts →
          ∀ verdict ∈ verdicts, verdict.isSome = true) :
        (p.step w limit (.operate 0)).isSome = true := by
      obtain ⟨moved, hmoved⟩ := Option.isSome_iff_exists.mp (isSome_operate w p.tree hphase hall)
      simp [step, hopen, operate, hjobs, hmoved]
    cases hphase : job.phase with
    | entering | writing | spoilt =>
      simp only [next, hopen, hjobs, hphase]
      exact hoperate (by simp [hphase]) (by simp [hphase])
    | done result => cases result <;> simp [step, next, hopen, handOver, hjobs, hphase]
    | inspecting path verdicts =>
      simp only [next, hopen, hjobs, hphase]
      cases hindex : verdicts.findIdx? (·.isNone) with
      | none =>
        refine hoperate (by simp [hphase]) fun _ _ hphase' verdict hverdict => ?_
        obtain ⟨rfl, rfl⟩ := Phase.inspecting.inj (hphase.symm.trans hphase')
        have hnone := List.findIdx?_eq_none_iff.mp hindex verdict hverdict
        rwa [Option.isNone_eq_false_iff] at hnone
      | some index =>
        obtain ⟨hlt, hnone, -⟩ := List.findIdx?_eq_some_iff_getElem.mp hindex
        have hslots := h.slots job (by simp [hjobs])
        have hopenAt : verdicts[index]? = some none := by
          rw [List.getElem?_eq_getElem hlt, Option.isNone_iff_eq_none.mp hnone]
        obtain ⟨result, hresult⟩ :=
          Option.isSome_iff_exists.mp (isSome_inspected p.tree hslots hphase hopenAt)
        cases result <;> simp [step, hopen, inspected, hjobs, hresult]

/-- **A batch that has not ended goes on.** -/
theorem InOrder.exists_step (h : InOrder w R items limit p) (hopen : p.outcome = none) :
    ∃ event p', p.step w limit event = some p' :=
  ⟨p.next, Option.isSome_iff_exists.mp (h.isSome_step_next hopen)⟩

/-- A batch that has ended goes on until there is no late write. -/
theorem isSome_step_next_of_ended {outcome : Except (Interruption ε) Report}
    (hended : p.outcome = some outcome) (hover : p.isOver = false) :
    (p.step w limit p.next).isSome = true := by
  have hlate : p.late ≠ [] := by
    rintro hnone
    simp [isOver, hended, hnone] at hover
  obtain ⟨write, rest, hlate⟩ := List.exists_cons_of_ne_nil hlate
  simp [step, next, hended, writeLate, hlate]

/-- When a batch is over nothing happens any more. -/
theorem step_of_isOver (hover : p.isOver = true) : p.step w limit event = none := by
  obtain ⟨hended, hlate⟩ := Bool.and_eq_true_iff.mp hover
  obtain ⟨outcome, hended⟩ := Option.isSome_iff_exists.mp hended
  cases hstep : p.step w limit event with
  | none => rfl
  | some p' =>
    obtain ⟨write, rest, hlate', -⟩ := writeLate_of_step hstep hended
    simp [hlate'] at hlate

/-! ## Only finitely much happens -/

section Effort

/-- A bound on what can still happen to a job, for a number of inspectors. -/
def jobEffort (inspectors : Nat) (job : Job) : Nat :=
  match job.phase with
  | .entering => inspectors + 4
  | .writing _ => inspectors + 3
  | .spoilt _ _ => 2
  | .inspecting _ verdicts => verdicts.countP (·.isNone) + 2
  | .done _ => 1

/-- A bound on what can still happen to a batch. -/
def effort (w : Workbench ε) (p : Progress ε) : Nat :=
  p.waiting.length * (w.inspectors.length + 5) +
    (p.jobs.map (jobEffort w.inspectors.length)).sum + p.late.length +
    if p.outcome = none then 1 else 0

theorem one_le_jobEffort (inspectors : Nat) (job : Job) : 1 ≤ jobEffort inspectors job := by
  unfold jobEffort
  split <;> omega

theorem jobEffort_operation {t t' : FileTree} {job job' : Job} (h : job.Operation w t t' job') :
    jobEffort w.inspectors.length job' < jobEffort w.inspectors.length job := by
  unfold jobEffort
  cases h with
  | enter hphase | shut hphase | spoil hphase | clear hphase | report hphase => simp [hphase]
  | write hphase => simp [hphase, List.countP_replicate]

theorem jobEffort_glance {t : FileTree} {job job' : Job} {index : Nat}
    (h : job.Glance w t index (.ok job')) (inspectors : Nat) :
    jobEffort inspectors job' < jobEffort inspectors job := by
  cases h with
  | @verdict _ verdicts _ verdict hphase _ hopen =>
    obtain ⟨hlt, hget⟩ := List.getElem?_eq_some_iff.mp hopen
    have hcount := List.countP_set (p := (·.isNone)) (a := some verdict) hlt
    have hpos : 0 < verdicts.countP (·.isNone) :=
      List.countP_pos_iff.mpr ⟨none, List.mem_of_getElem? hopen, rfl⟩
    simp only [hget, Option.isNone_none, ↓reduceIte, Option.isNone_some,
      Bool.false_eq_true] at hcount
    simp only [jobEffort, hphase]
    omega

/-- Ending a batch leaves at most one late write for each job. -/
theorem length_late_finish (inspectors : Nat) (p : Progress ε)
    (outcome : Except (Interruption ε) Report) :
    (p.finish outcome).late.length ≤ (p.jobs.map (jobEffort inspectors)).sum := by
  rw [finish]
  simp only []
  induction p.jobs with
  | nil => simp
  | cons job jobs ih =>
    have hjob := one_le_jobEffort inspectors job
    rw [List.map_cons, List.sum_cons, List.filterMap_cons]
    cases job.submitted? with
    | none => exact ih.trans (Nat.le_add_left _ _)
    | some write =>
      simp only [List.length_cons]
      omega

theorem effort_finish (w : Workbench ε) (hopen : p.outcome = none)
    (outcome : Except (Interruption ε) Report) :
    (p.finish outcome).effort w < p.effort w := by
  have hlate := length_late_finish w.inspectors.length p outcome
  unfold effort
  rw [if_pos hopen, if_neg (by simp [finish])]
  simp only [finish, List.map_nil, List.sum_nil] at hlate ⊢
  omega

/-- **A move brings the batch nearer to its end.** -/
theorem effort_move (hopen : p.outcome = none) (hmove : Move w limit p event p') :
    p'.effort w < p.effort w := by
  cases hmove with
  | takeUp hwaiting =>
    -- an item that waits counts for one more than a job that has just been taken up
    simp only [effort, hopen, hwaiting, ↓reduceIte, List.map_append, List.sum_append, List.map_cons,
      List.map_nil, List.sum_cons, List.sum_nil, List.length_cons, jobEffort, Nat.add_mul]
    omega
  | operate hjobs hop =>
    have hjob := jobEffort_operation hop
    simp only [effort, hopen, hjobs, ↓reduceIte, List.map_append, List.sum_append, List.map_cons,
      List.sum_cons]
    omega
  | inspect hjobs hglance =>
    have hjob := jobEffort_glance hglance w.inspectors.length
    simp only [effort, hopen, hjobs, ↓reduceIte, List.map_append, List.sum_append, List.map_cons,
      List.sum_cons]
    omega
  | handOver hjobs hphase =>
    simp only [effort, hopen, hjobs, ↓reduceIte, List.map_cons, List.sum_cons, jobEffort, hphase]
    omega
  | crash | fail | complete => exact effort_finish w hopen _

theorem effort_step (h : p.step w limit event = some p') :
    p'.effort w < p.effort w := by
  cases hover : p.outcome with
  | none => exact effort_move hover (move_of_step h hover)
  | some outcome =>
    obtain ⟨write, rest, hlate, rfl⟩ := writeLate_of_step h hover
    simp only [effort, hlate, List.length_cons]
    omega

/-- **A batch takes a bounded number of steps**, late writes included. -/
theorem length_le_of_run {events : List Event} (h : p.run w limit events = some p') :
    events.length + p'.effort w ≤ p.effort w := by
  induction events generalizing p with
  | nil =>
    obtain rfl := Option.some.inj h
    simp
  | cons event events ih =>
    obtain ⟨next, hstep, hrest⟩ := exists_step_of_run_cons h
    have hdown := effort_step hstep
    have hrun := ih hrest
    rw [List.length_cons]
    omega

end Effort

/-! ## Going through an order -/

variable {t : FileTree} {batch : List Source} {events order : List Event}

/-- A batch that has not ended is in order. -/
theorem inOrder_of_run (hrun : run w limit (.start t batch) events = some p)
    (hopen : p.outcome = none) : InOrder w (fun _ _ => True) batch.zipIdx limit p := by
  refine run_induction (I := fun p => p.outcome = none → InOrder w (fun _ _ => True) _ limit p)
    (fun {q event q'} _ h hstep hopen' => ?_) (fun _ => .start w _ limit t batch) hrun hopen
  have hopen := open_of_step hstep hopen'
  have hmove := move_of_step hstep hopen
  rcases (h hopen).move_or_crash hopen hmove fun _ _ _ _ _ _ _ _ => trivial with
    ⟨-, horder⟩ | ⟨outcome, hended, -⟩ | ⟨_, _, _, crash, -, rfl⟩
  · exact horder
  · cases hopen'.symm.trans hended
  · cases hopen'

/-- **What is next can happen** to a batch that is not over. -/
theorem isSome_step_next (hrun : run w limit (.start t batch) events = some p)
    (hover : p.isOver = false) : (p.step w limit p.next).isSome = true := by
  cases hended : p.outcome with
  | none => exact (inOrder_of_run hrun hended).isSome_step_next hended
  | some outcome => exact isSome_step_next_of_ended hended hover

/-- The events of an order that happen. -/
def followed (w : Workbench ε) (limit : Nat) (p : Progress ε) : List Event → List Event
  | [] => []
  | event :: order =>
    match p.step w limit event with
    | some p' => event :: p'.followed w limit order
    | none => p.followed w limit order

/-- The events that happen if a batch goes on for a number of times. -/
def wentOn (w : Workbench ε) (limit : Nat) (p : Progress ε) : Nat → List Event
  | 0 => []
  | steps + 1 =>
    match p.step w limit p.next with
    | some p' => p.next :: p'.wentOn w limit steps
    | none => p.wentOn w limit steps

/-- What happens to a whole batch. -/
def happened (w : Workbench ε) (limit : Nat) (t : FileTree) (batch : List Source)
    (order : List Event) : List Event :=
  (start t batch).followed w limit order ++
    ((start t batch).follow w limit order).wentOn w limit (steps w batch)

theorem attempt_of_step (h : p.step w limit event = some p') : p.attempt w limit event = p' := by
  rw [attempt, h]
  rfl

theorem attempt_of_step_eq_none (h : p.step w limit event = none) :
    p.attempt w limit event = p := by
  rw [attempt, h]
  rfl

theorem run_cons (h : p.step w limit event = some p') (events : List Event) :
    p.run w limit (event :: events) = p'.run w limit events := by
  rw [run, List.foldlM_cons, h]
  rfl

theorem run_followed (w : Workbench ε) (limit : Nat) (p : Progress ε) (order : List Event) :
    p.run w limit (p.followed w limit order) = some (p.follow w limit order) := by
  induction order generalizing p with
  | nil => rfl
  | cons event order ih =>
    rw [followed, follow, List.foldl_cons]
    cases hstep : p.step w limit event with
    | none =>
      rw [attempt_of_step_eq_none hstep]
      exact ih p
    | some p' =>
      rw [attempt_of_step hstep]
      exact (run_cons hstep _).trans (ih p')

theorem run_wentOn (w : Workbench ε) (limit : Nat) (p : Progress ε) (n : Nat) :
    p.run w limit (p.wentOn w limit n) = some (p.goOn w limit n) := by
  induction n generalizing p with
  | zero => rfl
  | succ n ih =>
    rw [wentOn, goOn]
    cases hstep : p.step w limit p.next with
    | none =>
      rw [attempt_of_step_eq_none hstep]
      exact ih p
    | some p' =>
      rw [attempt_of_step hstep]
      exact (run_cons hstep _).trans (ih p')

/-- **A whole batch is a run** of the events that happen to it. -/
theorem run_happened (w : Workbench ε) (limit : Nat) (t : FileTree) (batch : List Source)
    (order : List Event) :
    run w limit (.start t batch) (happened w limit t batch order) =
      some (complete w limit t batch order) :=
  run_append (run_followed w limit _ order) (run_wentOn w limit _ _)

theorem goOn_of_isOver (hover : p.isOver = true) (n : Nat) : p.goOn w limit n = p := by
  induction n with
  | zero => rfl
  | succ n ih => rw [goOn, attempt_of_step_eq_none (step_of_isOver hover), ih]

/-- A batch that goes on for long enough is over in the end. -/
theorem isOver_goOn {n : Nat} (hrun : run w limit (.start t batch) events = some p)
    (heffort : p.effort w ≤ n) : (p.goOn w limit n).isOver = true := by
  induction n generalizing p events with
  | zero =>
    by_contra hover
    obtain ⟨p', hstep⟩ :=
      Option.isSome_iff_exists.mp (isSome_step_next hrun (Bool.not_eq_true _ ▸ hover))
    have hdown := effort_step hstep
    omega
  | succ n ih =>
    cases hover : p.isOver with
    | true => rwa [goOn_of_isOver hover]
    | false =>
      obtain ⟨p', hstep⟩ := Option.isSome_iff_exists.mp (isSome_step_next hrun hover)
      rw [goOn, attempt_of_step hstep]
      have hdown := effort_step hstep
      exact ih (run_append hrun (run_singleton hstep)) (by omega)

theorem effort_start (w : Workbench ε) (t : FileTree) (batch : List Source) :
    (start t batch).effort w = steps w batch := by
  simp [effort, start, steps]

/-- **In whatever order things happen, a whole batch is over in the end.** -/
theorem isOver_complete (w : Workbench ε) (limit : Nat) (t : FileTree) (batch : List Source)
    (order : List Event) : (complete w limit t batch order).isOver = true := by
  have hfollowed := run_followed w limit (.start t batch) order
  refine isOver_goOn hfollowed ?_
  have hlength := length_le_of_run hfollowed
  rw [effort_start] at hlength
  omega

/-- What happens in the order of a run is that run. -/
theorem follow_of_run (hrun : p.run w limit events = some p') : p.follow w limit events = p' := by
  induction events generalizing p with
  | nil => exact Option.some.inj hrun
  | cons event events ih =>
    obtain ⟨next, hstep, hrest⟩ := exists_step_of_run_cons hrun
    rw [follow, List.foldl_cons, attempt_of_step hstep]
    exact ih hrest

/-- **Every run that is over is a whole batch**, in the order of its own events. -/
theorem complete_eq_of_run (hrun : run w limit (.start t batch) events = some p)
    (hover : p.isOver = true) : complete w limit t batch events = p := by
  rw [complete, follow_of_run hrun, goOn_of_isOver hover]

/-- A whole batch comes to its outcome. -/
theorem result_eq_iff (w : Workbench ε) (limit : Nat) (t : FileTree) (batch : List Source)
    (order : List Event) {outcome : Except (Interruption ε) Report} :
    (complete w limit t batch order).result = outcome ↔
      (complete w limit t batch order).outcome = some outcome := by
  obtain ⟨hended, -⟩ := Bool.and_eq_true_iff.mp (isOver_complete w limit t batch order)
  obtain ⟨outcome', hended⟩ := Option.isSome_iff_exists.mp hended
  rw [result, hended, Option.getD_some, Option.some.injEq]

end Progress

end Ripple
