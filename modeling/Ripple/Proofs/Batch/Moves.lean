import Ripple.Batch.Schedule
import Ripple.Proofs.Batch.Staged
import Mathlib.Data.List.Induction

/-!
# What can happen to a batch under way

`Operation` lists what the file operation of a job can do, `Glance` what an inspector that is done
with a job leads to and `Move` what an event does to a batch that has not ended. They say all there
is to know about a step (`move_of_step`), so that nothing else has to look into it.
-/

namespace Ripple

open Text

variable {ε : Type}

namespace Job

/-- The source of a job and its place. -/
def item (job : Job) : Item := (job.source, job.place)

/-- What the file operation of a job does to the tree and to the job. -/
inductive Operation (w : Workbench ε) (t : FileTree) (job : Job) : FileTree → Job → Prop
  | enter {t' : FileTree} (hphase : job.phase = .entering)
    (hmake : t.makeDirectories w.directory = (t', .ok ())) :
    Operation w t job t' { job with phase := .writing (w.itemPath job.item) }
  | shut {t' : FileTree} {reason : Fault} (hphase : job.phase = .entering)
    (hmake : t.makeDirectories w.directory = (t', .error reason)) :
    Operation w t job t' { job with phase := .done (.error ⟨w.directory, reason⟩) }
  | write {t' : FileTree} {path : String} (hphase : job.phase = .writing path)
    (hwrite : t.write (bytesOf path) (bytesOf job.source.content) = (t', .ok ())) :
    Operation w t job t'
      { job with phase := .inspecting path (w.inspectors.map fun _ => none) }
  | spoil {t' : FileTree} {path : String} {reason : Fault} (hphase : job.phase = .writing path)
    (hwrite : t.write (bytesOf path) (bytesOf job.source.content) = (t', .error reason)) :
    Operation w t job t' { job with phase := .spoilt path reason }
  | clear {path : String} {reason : Fault} (hphase : job.phase = .spoilt path reason) :
    Operation w t job (t.unstage path) { job with phase := .done (.error ⟨path, reason⟩) }
  | report {path : String} {verdicts : List (Option Verdict)} {all : List Verdict}
    (hphase : job.phase = .inspecting path verdicts) (hall : verdicts.mapM id = some all) :
    Operation w t job (t.unstage path)
      { job with phase := .done (.ok ⟨job.source.name, NameTable.ofList (w.tools.zip all)⟩) }

theorem operation_of_operate {w : Workbench ε} {t t' : FileTree} {job job' : Job}
    (h : job.operate w t = some (t', job')) : Operation w t job t' job' := by
  unfold operate at h
  split at h
  · next hphase =>
    split at h
    · next hmake =>
      obtain ⟨rfl, rfl⟩ := Prod.mk.inj (Option.some.inj h)
      exact .enter hphase hmake
    · next hmake =>
      obtain ⟨rfl, rfl⟩ := Prod.mk.inj (Option.some.inj h)
      exact .shut hphase hmake
  · next path hphase =>
    split at h
    · next hwrite =>
      obtain ⟨rfl, rfl⟩ := Prod.mk.inj (Option.some.inj h)
      exact .write hphase hwrite
    · next hwrite =>
      obtain ⟨rfl, rfl⟩ := Prod.mk.inj (Option.some.inj h)
      exact .spoil hphase hwrite
  · next path reason hphase =>
    obtain ⟨rfl, rfl⟩ := Prod.mk.inj (Option.some.inj h)
    exact .clear hphase
  · next path verdicts hphase =>
    obtain ⟨all, hall, h⟩ := Option.map_eq_some_iff.mp h
    obtain ⟨rfl, rfl⟩ := Prod.mk.inj h
    exact .report hphase hall
  · cases h

/-- What an inspector that is done with the staged file of a job leads to. -/
inductive Glance (w : Workbench ε) (t : FileTree) (job : Job) (index : Nat) : Except ε Job → Prop
  | verdict {path : String} {verdicts : List (Option Verdict)} {i : Inspector ε}
    {verdict : Verdict} (hphase : job.phase = .inspecting path verdicts)
    (hinspector : w.inspectors[index]? = some i) (hopen : verdicts[index]? = some none)
    (hinspect : i.inspect t ⟨path, job.source.language⟩ = .ok verdict) :
    Glance w t job index
      (.ok { job with phase := .inspecting path (verdicts.set index (some verdict)) })
  | crash {path : String} {verdicts : List (Option Verdict)} {i : Inspector ε} {crash : ε}
    (hphase : job.phase = .inspecting path verdicts)
    (hinspector : w.inspectors[index]? = some i)
    (hinspect : i.inspect t ⟨path, job.source.language⟩ = .error crash) :
    Glance w t job index (.error crash)

theorem glance_of_inspected {w : Workbench ε} {t : FileTree} {job : Job} {index : Nat}
    {result : Except ε Job} (h : job.inspected w t index = some result) :
    Glance w t job index result := by
  unfold inspected at h
  split at h
  · next path verdicts i hphase hinspector =>
    split at h
    · next hopen =>
      obtain rfl := Option.some.inj h
      cases hinspect : i.inspect t ⟨path, job.source.language⟩ with
      | ok verdict => exact .verdict hphase hinspector hopen hinspect
      | error crash => exact .crash hphase hinspector hinspect
    · cases h
  · cases h

end Job

namespace Progress

/-- What an event does to a batch that has not ended. -/
inductive Move (w : Workbench ε) (limit : Nat) (p : Progress ε) : Event → Progress ε → Prop
  | takeUp {source : Source} {place : Nat} {rest : List Item}
    (hwaiting : p.waiting = (source, place) :: rest) (hroom : p.jobs.length < max limit 1) :
    Move w limit p .takeUp
      { p with waiting := rest, jobs := p.jobs ++ [⟨place, source, .entering⟩] }
  | operate {before after : List Job} {job job' : Job} {t : FileTree}
    (hjobs : p.jobs = before ++ job :: after) (hoperation : job.Operation w p.tree t job') :
    Move w limit p (.operate before.length) { p with tree := t, jobs := before ++ job' :: after }
  | inspect {before after : List Job} {job job' : Job} {index : Nat}
    (hjobs : p.jobs = before ++ job :: after) (hglance : job.Glance w p.tree index (.ok job')) :
    Move w limit p (.inspected before.length index) { p with jobs := before ++ job' :: after }
  | crash {before after : List Job} {job : Job} {index : Nat} {crash : ε}
    (hjobs : p.jobs = before ++ job :: after)
    (hglance : job.Glance w p.tree index (.error crash)) :
    Move w limit p (.inspected before.length index) (p.finish (.error (.crashed crash)))
  | handOver {job : Job} {rest : List Job} {report : FileReport} (hjobs : p.jobs = job :: rest)
    (hphase : job.phase = .done (.ok report)) :
    Move w limit p .handOver { p with jobs := rest, reports := p.reports ++ [report] }
  | fail {job : Job} {rest : List Job} {failure : StagingFailure} (hjobs : p.jobs = job :: rest)
    (hphase : job.phase = .done (.error failure)) :
    Move w limit p .handOver (p.finish (.error (.unstaged failure)))
  | complete (hjobs : p.jobs = []) (hwaiting : p.waiting = []) :
    Move w limit p .handOver (p.finish (.ok ⟨p.reports⟩))

variable {w : Workbench ε} {limit : Nat} {p p' : Progress ε} {event : Event}

theorem exists_append_of_getElem? {α : Type} {xs : List α} {index : Nat} {x : α}
    (h : xs[index]? = some x) (y : α) :
    ∃ before after, xs = before ++ x :: after ∧ before.length = index ∧
      xs.set index y = before ++ y :: after := by
  obtain ⟨hlt, rfl⟩ := List.getElem?_eq_some_iff.mp h
  refine ⟨xs.take index, xs.drop (index + 1), ?_, List.length_take_of_le hlt.le, ?_⟩
  · rw [List.getElem_cons_drop, List.take_append_drop]
  · rw [List.set_eq_take_append_cons_drop, if_pos hlt]

/-- **A step of a batch that has not ended is a move.** -/
theorem move_of_step (h : p.step w limit event = some p') (hopen : p.outcome = none) :
    Move w limit p event p' := by
  unfold step at h
  rw [hopen] at h
  cases event with
  | takeUp =>
    simp only [takeUp] at h
    split at h
    · cases h
    · next source place rest hwaiting =>
      split at h
      · next hroom =>
        obtain rfl := Option.some.inj h
        exact .takeUp hwaiting hroom
      · cases h
  | operate index =>
    obtain ⟨job, hjob, h⟩ := Option.bind_eq_some_iff.mp h
    obtain ⟨⟨t, job'⟩, hoperate, h⟩ := Option.bind_eq_some_iff.mp h
    obtain rfl := Option.some.inj h
    obtain ⟨before, after, hjobs, rfl, hset⟩ := exists_append_of_getElem? hjob job'
    rw [hset]
    exact .operate hjobs (Job.operation_of_operate hoperate)
  | inspected index inspector =>
    obtain ⟨job, hjob, h⟩ := Option.bind_eq_some_iff.mp h
    obtain ⟨result, hinspected, h⟩ := Option.bind_eq_some_iff.mp h
    have hglance := Job.glance_of_inspected hinspected
    cases result with
    | ok job' =>
      obtain rfl := Option.some.inj h
      obtain ⟨before, after, hjobs, rfl, hset⟩ := exists_append_of_getElem? hjob job'
      rw [hset]
      exact .inspect hjobs hglance
    | error crash =>
      obtain rfl := Option.some.inj h
      obtain ⟨before, after, hjobs, rfl, -⟩ := exists_append_of_getElem? hjob job
      exact .crash hjobs hglance
  | handOver =>
    simp only [handOver] at h
    split at h
    · next hjobs hwaiting =>
      obtain rfl := Option.some.inj h
      exact .complete hjobs hwaiting
    · cases h
    · next job rest _ hjobs =>
      split at h
      · next hphase =>
        obtain rfl := Option.some.inj h
        exact .handOver hjobs hphase
      · next hphase =>
        obtain rfl := Option.some.inj h
        exact .fail hjobs hphase
      · cases h
  | writeLate => cases h

/-- A move ends the batch or leaves it open. -/
theorem Move.outcome_eq_or_finish (h : Move w limit p event p') :
    p'.outcome = p.outcome ∨ ∃ outcome, p' = p.finish outcome := by
  cases h with
  | takeUp | operate | inspect | handOver => exact .inl rfl
  | crash | fail | complete => exact .inr ⟨_, rfl⟩

section Jobs

variable {P : Job → Prop} {jobs before after : List Job} {job job' : Job}

/-- What holds of the jobs holds of them after a job of which it holds has been taken up. -/
theorem forall_mem_takeUp (h : ∀ other ∈ jobs, P other) (hnew : P job') :
    ∀ other ∈ jobs ++ [job'], P other :=
  List.forall_mem_append.mpr ⟨h, List.forall_mem_singleton.mpr hnew⟩

/-- What holds of the jobs holds of them after one has become a job of which it holds. -/
theorem forall_mem_replace (hjobs : jobs = before ++ job :: after) (h : ∀ other ∈ jobs, P other)
    (hnew : P job') : ∀ other ∈ before ++ job' :: after, P other := by
  rw [hjobs] at h
  obtain ⟨hbefore, hrest⟩ := List.forall_mem_append.mp h
  exact List.forall_mem_append.mpr
    ⟨hbefore, List.forall_mem_cons.mpr ⟨hnew, (List.forall_mem_cons.mp hrest).2⟩⟩

end Jobs

/-- Once a batch has ended, only late writes happen. -/
theorem writeLate_of_step {outcome : Except (Interruption ε) Report}
    (h : p.step w limit event = some p') (hover : p.outcome = some outcome) :
    ∃ write rest, p.late = write :: rest ∧
      p' = { p with
        tree := (p.tree.write (bytesOf write.path) (bytesOf write.content)).1, late := rest } := by
  unfold step at h
  rw [hover] at h
  cases event with
  | writeLate =>
    simp only [writeLate] at h
    split at h
    · cases h
    · next write rest hlate => exact ⟨write, rest, hlate, (Option.some.inj h).symm⟩
  | takeUp | operate | inspected | handOver => cases h

/-- A step that leaves a batch open has found it open. -/
theorem open_of_step (hstep : p.step w limit event = some p') (hopen : p'.outcome = none) :
    p.outcome = none := by
  cases hover : p.outcome with
  | none => rfl
  | some outcome =>
    obtain ⟨write, rest, -, rfl⟩ := writeLate_of_step hstep hover
    exact absurd (hover.symm.trans hopen) (by simp)

/-! ## Runs -/

/-- In the course of these events the event happens to a batch that has come as far as `q`. -/
def Happens (w : Workbench ε) (limit : Nat) (p : Progress ε) (events : List Event)
    (q : Progress ε) (event : Event) : Prop :=
  ∃ past future, events = past ++ event :: future ∧ p.run w limit past = some q

/-- In the course of these events the batch comes as far as `q`. -/
def Passes (w : Workbench ε) (limit : Nat) (p : Progress ε) (events : List Event)
    (q : Progress ε) : Prop :=
  ∃ past future, events = past ++ future ∧ p.run w limit past = some q

variable {q r : Progress ε} {events later : List Event}

/-- A run that goes on is one run. -/
theorem run_append (hrun : p.run w limit events = some q) (hlater : q.run w limit later = some r) :
    p.run w limit (events ++ later) = some r := by
  unfold run at hrun ⊢
  rw [List.foldlM_append, hrun]
  exact hlater

theorem run_singleton (h : p.step w limit event = some p') :
    p.run w limit [event] = some p' := by
  rw [run, List.foldlM_cons, h]
  rfl

/-- A run through two lists of events comes by the end of the first one. -/
theorem exists_run_of_append (hrun : p.run w limit (events ++ later) = some r) :
    ∃ q, p.run w limit events = some q ∧ q.run w limit later = some r := by
  rw [run, List.foldlM_append] at hrun
  exact Option.bind_eq_some_iff.mp hrun

theorem exists_step_of_run_cons (hrun : p.run w limit (event :: events) = some r) :
    ∃ q, p.step w limit event = some q ∧ q.run w limit events = some r := by
  rw [run, List.foldlM_cons] at hrun
  exact Option.bind_eq_some_iff.mp hrun

theorem Passes.run (hrun : p.run w limit events = some r) : Passes w limit p events r :=
  ⟨events, [], (List.append_nil _).symm, hrun⟩

theorem Happens.passes (h : Happens w limit p events q event) : Passes w limit p events q := by
  obtain ⟨past, future, hevents, hpast⟩ := h
  exact ⟨past, event :: future, hevents, hpast⟩

/-- What happens in the course of a run can happen, and the run goes on from there. -/
theorem Happens.step (h : Happens w limit p events q event)
    (hrun : p.run w limit events = some r) :
    ∃ q', q.step w limit event = some q' ∧ Passes w limit p events q' := by
  obtain ⟨past, future, rfl, hpast⟩ := h
  obtain ⟨q₁, hpast', hrest⟩ := exists_run_of_append hrun
  obtain rfl := Option.some.inj (hpast.symm.trans hpast')
  obtain ⟨q', hstep, -⟩ := exists_step_of_run_cons hrest
  exact ⟨q', hstep, past ++ [event], future, by simp, run_append hpast (run_singleton hstep)⟩

/-- What every event of a run keeps holds at every moment of it. -/
theorem passes_induction {I : Progress ε → Prop}
    (hstep : ∀ {q event q'}, Happens w limit p events q event → I q →
      step w limit q event = some q' → I q')
    (h : I p) (hpasses : Passes w limit p events q) : I q := by
  obtain ⟨past, future, hevents, hpast⟩ := hpasses
  induction past using List.reverseRecOn generalizing q future with
  | nil =>
    obtain rfl := Option.some.inj hpast
    exact h
  | append_singleton past event ih =>
    obtain ⟨before, hbefore, hlast⟩ := exists_run_of_append hpast
    obtain ⟨q', hevent, hnil⟩ := exists_step_of_run_cons hlast
    obtain rfl := Option.some.inj hnil
    rw [List.append_assoc] at hevents
    exact hstep ⟨past, future, hevents, hbefore⟩ (ih _ hevents hbefore) hevent

/-- What every event of a run keeps holds at the end of it. -/
theorem run_induction {I : Progress ε → Prop}
    (hstep : ∀ {q event q'}, Happens w limit p events q event → I q →
      step w limit q event = some q' → I q')
    (h : I p) (hrun : p.run w limit events = some p') : I p' :=
  passes_induction hstep h (.run hrun)

end Progress

end Ripple
