import Ripple.Batch.Schedule
import Ripple.Proofs.MapM
import Mathlib.Data.List.Forall2

/-!
# Batches that differ in verdicts only

What inspectors say has no influence on what happens to a batch, as long as none of them crashes.
Two batches go abreast if they differ in verdicts only (`Progress.Abreast`). In the same order of
events they stay abreast, even if other inspectors look at the files (`abreast_complete`).
-/

namespace Ripple

open Text

/-- The workbenches differ in what their inspectors are and say only. -/
structure Workbench.Alike (w w' : Workbench Empty) : Prop where
  directory : w.directory = w'.directory
  stamps : w.stamps = w'.stamps
  inspectors : w.inspectors.length = w'.inspectors.length

/-- The phases differ in verdicts only; the same ones are missing. -/
inductive Phase.Abreast : Phase → Phase → Prop
  | entering : Abreast .entering .entering
  | writing (path : String) : Abreast (.writing path) (.writing path)
  | spoilt (path : String) (reason : Fault) : Abreast (.spoilt path reason) (.spoilt path reason)
  | inspecting (path : String) {verdicts verdicts' : List (Option Verdict)}
    (h : verdicts.map (·.isSome) = verdicts'.map (·.isSome)) :
    Abreast (.inspecting path verdicts) (.inspecting path verdicts')
  | reported (file file' : FileReport) : Abreast (.done (.ok file)) (.done (.ok file'))
  | failed (failure : StagingFailure) :
    Abreast (.done (.error failure)) (.done (.error failure))

/-- The jobs differ in verdicts only. -/
structure Job.Abreast (job job' : Job) : Prop where
  place : job.place = job'.place
  source : job.source = job'.source
  phase : job.phase.Abreast job'.phase

/-- What a batch has come to, without the reports. -/
def Progress.ending (p : Progress Empty) : Option (Except (Interruption Empty) Unit) :=
  p.outcome.map fun outcome => outcome.map fun _ => ()

/-- The batches differ in verdicts only. -/
structure Progress.Abreast (p p' : Progress Empty) : Prop where
  tree : p.tree = p'.tree
  waiting : p.waiting = p'.waiting
  jobs : List.Forall₂ Job.Abreast p.jobs p'.jobs
  ending : p.ending = p'.ending
  late : p.late = p'.late

section Options

variable {α β γ δ : Type} {R : α → β → Prop} {S : γ → δ → Prop}

theorem optionRel_bind {x : Option α} {y : Option β} {f : α → Option γ} {g : β → Option δ}
    (h : Option.Rel R x y) (hfg : ∀ a b, R a b → Option.Rel S (f a) (g b)) :
    Option.Rel S (x.bind f) (y.bind g) := by
  cases h with
  | some h => exact hfg _ _ h
  | none => exact .none

theorem optionRel_getElem? {xs : List α} {ys : List β} (h : List.Forall₂ R xs ys) (index : Nat) :
    Option.Rel R xs[index]? ys[index]? := by
  induction h generalizing index with
  | nil => exact .none
  | cons hxy _ ih =>
    cases index with
    | zero => exact .some hxy
    | succ index => exact ih index

theorem forall₂_set {xs : List α} {ys : List β} (h : List.Forall₂ R xs ys) (index : Nat) {a : α}
    {b : β} (hab : R a b) : List.Forall₂ R (xs.set index a) (ys.set index b) := by
  induction h generalizing index with
  | nil => exact .nil
  | cons hxy h ih =>
    cases index with
    | zero => exact .cons hab h
    | succ index => exact .cons hxy (ih index)

end Options

/-! ## Jobs -/

/-- An inspector that cannot crash gives a verdict. -/
theorem exists_verdict (i : Inspector Empty) (t : FileTree) (request : ScanRequest) :
    ∃ verdict, i.inspect t request = .ok verdict := by
  cases hinspect : i.inspect t request with
  | ok verdict => exact ⟨verdict, rfl⟩
  | error crash => cases crash

theorem getElem?_eq_some_none_iff {verdicts : List (Option Verdict)} {index : Nat} :
    verdicts[index]? = some none ↔ (verdicts.map (·.isSome))[index]? = some false := by
  rw [List.getElem?_map]
  cases verdicts[index]? with
  | none => simp
  | some verdict => cases verdict <;> simp

namespace Job

variable {job job' : Job} {w w' : Workbench Empty}

theorem Abreast.path?_eq (h : job.Abreast job') : job.path? = job'.path? := by
  obtain ⟨place, source, phase⟩ := job
  obtain ⟨place', source', phase'⟩ := job'
  cases h.phase <;> rfl

theorem Abreast.submitted?_eq (h : job.Abreast job') : job.submitted? = job'.submitted? := by
  obtain ⟨place, source, phase⟩ := job
  obtain ⟨place', source', phase'⟩ := job'
  obtain rfl := h.source
  cases h.phase <;> rfl

/-- **A file operation keeps jobs abreast** and does the same to the tree. -/
theorem Abreast.operate (h : job.Abreast job') (halike : w.Alike w') (t : FileTree) :
    Option.Rel (fun moved moved' => moved.1 = moved'.1 ∧ moved.2.Abreast moved'.2)
      (job.operate w t) (job'.operate w' t) := by
  obtain ⟨place, source, phase⟩ := job
  obtain ⟨place', source', phase'⟩ := job'
  obtain rfl := h.place
  obtain rfl := h.source
  have hphase := h.phase
  simp only [Job.operate]
  cases hphase with
  | entering =>
    simp only [halike.directory, halike.stamps]
    rcases t.makeDirectories w'.directory with ⟨t', reason | _⟩
    · exact .some ⟨rfl, rfl, rfl, .failed _⟩
    · exact .some ⟨rfl, rfl, rfl, .writing _⟩
  | writing path =>
    simp only []
    rcases t.write (bytesOf path) (bytesOf source.content) with ⟨t', reason | _⟩
    · exact .some ⟨rfl, rfl, rfl, .spoilt path reason⟩
    · refine .some ⟨rfl, rfl, rfl, .inspecting path ?_⟩
      simp [halike.inspectors]
  | spoilt path reason => exact .some ⟨rfl, rfl, rfl, .failed _⟩
  | @inspecting path verdicts verdicts' hsome =>
    have hall : (verdicts.mapM id).isSome = (verdicts'.mapM id).isSome := by
      rw [isSome_mapM_id, isSome_mapM_id, hsome]
    simp only []
    cases hverdicts : verdicts.mapM id <;> cases hverdicts' : verdicts'.mapM id <;>
      rw [hverdicts, hverdicts'] at hall
    · exact .none
    · cases hall
    · cases hall
    · exact .some ⟨rfl, rfl, rfl, .reported _ _⟩
  | reported | failed => exact .none

/-- Inspectors that look at jobs abreast keep them abreast. -/
theorem Abreast.inspected (h : job.Abreast job') (halike : w.Alike w') (t : FileTree)
    (index : Nat) :
    Option.Rel (fun result result' => ∃ next next', result = .ok next ∧ result' = .ok next' ∧
        next.Abreast next')
      (job.inspected w t index) (job'.inspected w' t index) := by
  obtain ⟨place, source, phase⟩ := job
  obtain ⟨place', source', phase'⟩ := job'
  obtain rfl := h.place
  obtain rfl := h.source
  have hphase := h.phase
  simp only [Job.inspected]
  cases hphase with
  | entering | writing | spoilt | reported | failed => exact .none
  | @inspecting path verdicts verdicts' hsome =>
    have hmissing : verdicts[index]? = some none ↔ verdicts'[index]? = some none := by
      rw [getElem?_eq_some_none_iff, hsome, ← getElem?_eq_some_none_iff]
    have hthere : (w.inspectors[index]?).isSome = (w'.inspectors[index]?).isSome := by
      rw [Bool.eq_iff_iff, isSome_getElem?, isSome_getElem?, halike.inspectors]
    cases hi : w.inspectors[index]? <;> cases hi' : w'.inspectors[index]? <;>
      rw [hi, hi'] at hthere
    · exact .none
    · cases hthere
    · cases hthere
    · next i i' =>
      simp only [hmissing]
      split
      · obtain ⟨verdict, hverdict⟩ := exists_verdict i t ⟨path, source.language⟩
        obtain ⟨verdict', hverdict'⟩ := exists_verdict i' t ⟨path, source.language⟩
        rw [hverdict, hverdict']
        refine .some ⟨_, _, rfl, rfl, rfl, rfl, .inspecting path ?_⟩
        rw [List.map_set, List.map_set, hsome]
        rfl
      · exact .none

end Job

/-! ## Batches -/

namespace Progress

variable {p p' : Progress Empty} {w w' : Workbench Empty}

theorem Abreast.filterMap_eq {α : Type} {f : Job → Option α} {jobs jobs' : List Job}
    (h : List.Forall₂ Job.Abreast jobs jobs')
    (hf : ∀ job job', job.Abreast job' → f job = f job') :
    jobs.filterMap f = jobs'.filterMap f := by
  induction h with
  | nil => rfl
  | cons hjob _ ih => rw [List.filterMap_cons, List.filterMap_cons, hf _ _ hjob, ih]

/-- The ends of batches abreast are abreast. -/
theorem Abreast.finish (h : p.Abreast p') {outcome outcome' : Except (Interruption Empty) Report}
    (hending : (outcome.map fun _ => ()) = outcome'.map fun _ => ()) :
    (p.finish outcome).Abreast (p'.finish outcome') where
  tree := by
    simp only [Progress.finish]
    rw [h.tree, filterMap_eq h.jobs fun _ _ => Job.Abreast.path?_eq]
  waiting := h.waiting
  jobs := .nil
  ending := congrArg some hending
  late := filterMap_eq h.jobs fun _ _ => Job.Abreast.submitted?_eq

/-- Jobs abreast may take the place of jobs abreast. -/
theorem Abreast.withJobs (h : p.Abreast p') (t : FileTree) {jobs jobs' : List Job}
    (hjobs : List.Forall₂ Job.Abreast jobs jobs') :
    ({ p with tree := t, jobs := jobs } : Progress Empty).Abreast
      { p' with tree := t, jobs := jobs' } :=
  ⟨rfl, h.waiting, hjobs, h.ending, h.late⟩

theorem Abreast.outcome_eq_none_iff (h : p.Abreast p') : p.outcome = none ↔ p'.outcome = none := by
  have hending := h.ending
  unfold Progress.ending at hending
  cases hp : p.outcome <;> cases hp' : p'.outcome <;> simp_all

theorem Abreast.exists_outcome (h : p.Abreast p')
    {outcome : Except (Interruption Empty) Report} (hended : p.outcome = some outcome) :
    ∃ outcome', p'.outcome = some outcome' := by
  rw [← Option.ne_none_iff_exists', ne_eq, ← h.outcome_eq_none_iff, hended]
  simp

/-- **The same event keeps batches abreast**, or it can happen to neither of them. -/
theorem Abreast.step (h : p.Abreast p') (halike : w.Alike w') (limit : Nat) (event : Event) :
    Option.Rel Abreast (p.step w limit event) (p'.step w' limit event) := by
  cases hended : p.outcome with
  | some outcome =>
    obtain ⟨outcome', hended'⟩ := h.exists_outcome hended
    simp only [Progress.step, hended, hended']
    cases event with
    | writeLate =>
      simp only [writeLate, h.late, h.tree]
      cases p'.late with
      | nil => exact .none
      | cons write rest => exact .some ⟨rfl, h.waiting, h.jobs, h.ending, rfl⟩
    | takeUp | operate | inspected | handOver => exact .none
  | none =>
    have hended' := h.outcome_eq_none_iff.mp hended
    simp only [Progress.step, hended, hended']
    cases event with
    | takeUp =>
      simp only [takeUp, h.waiting, h.jobs.length_eq]
      split
      · exact .none
      · split
        · next source place rest _ _ =>
          refine .some ⟨h.tree, rfl, ?_, h.ending, h.late⟩
          exact List.rel_append h.jobs (.cons ⟨rfl, rfl, .entering⟩ .nil)
        · exact .none
    | operate index =>
      refine optionRel_bind (optionRel_getElem? h.jobs index) fun job job' hjob => ?_
      have hoperate := hjob.operate halike p.tree
      rw [h.tree] at hoperate ⊢
      refine optionRel_bind hoperate fun moved moved' hmoved => ?_
      obtain ⟨t, next⟩ := moved
      obtain ⟨t', next'⟩ := moved'
      obtain ⟨rfl, hnext⟩ := hmoved
      exact .some (h.withJobs t (forall₂_set h.jobs index hnext))
    | inspected index inspector =>
      refine optionRel_bind (optionRel_getElem? h.jobs index) fun job job' hjob => ?_
      have hinspected := hjob.inspected halike p.tree inspector
      rw [h.tree] at hinspected ⊢
      refine optionRel_bind hinspected fun result result' hresult => ?_
      obtain ⟨next, next', rfl, rfl, hnext⟩ := hresult
      exact .some ⟨rfl, h.waiting, forall₂_set h.jobs index hnext, h.ending, h.late⟩
    | handOver =>
      cases hjobs : p.jobs with
      | nil =>
        have hjobs' : p'.jobs = [] := List.forall₂_nil_left_iff.mp (hjobs ▸ h.jobs)
        simp only [handOver, hjobs, hjobs', h.waiting]
        cases p'.waiting with
        | nil => exact .some (h.finish rfl)
        | cons x rest => exact .none
      | cons job rest =>
        obtain ⟨job', rest', hjob, hrest, hjobs'⟩ := List.forall₂_cons_left_iff.mp (hjobs ▸ h.jobs)
        simp only [handOver, hjobs, hjobs']
        have hphase := hjob.phase
        generalize job.phase = phase at hphase ⊢
        generalize job'.phase = phase' at hphase ⊢
        cases hphase with
        | entering | writing | spoilt | inspecting => exact .none
        | reported => exact .some ⟨h.tree, h.waiting, hrest, h.ending, h.late⟩
        | failed => exact .some (h.finish rfl)
    | writeLate => exact .none

/-- The same is next for batches abreast. -/
theorem Abreast.next_eq (h : p.Abreast p') : p.next = p'.next := by
  cases hended : p.outcome with
  | some outcome =>
    obtain ⟨outcome', hended'⟩ := h.exists_outcome hended
    simp only [next, hended, hended']
  | none =>
    have hended' := h.outcome_eq_none_iff.mp hended
    cases hjobs : p.jobs with
    | nil =>
      have hjobs' : p'.jobs = [] := List.forall₂_nil_left_iff.mp (hjobs ▸ h.jobs)
      simp only [next, hended, hended', hjobs, hjobs', h.waiting]
    | cons job rest =>
      obtain ⟨job', rest', hjob, hrest, hjobs'⟩ := List.forall₂_cons_left_iff.mp (hjobs ▸ h.jobs)
      simp only [next, hended, hended', hjobs, hjobs']
      have hphase := hjob.phase
      generalize job.phase = phase at hphase ⊢
      generalize job'.phase = phase' at hphase ⊢
      cases hphase with
      | entering | writing | spoilt | reported | failed => rfl
      | @inspecting path verdicts verdicts' hsome =>
        have hfind (verdicts : List (Option Verdict)) :
            verdicts.findIdx? (·.isNone) = (verdicts.map (·.isSome)).findIdx? (!·) := by
          rw [List.findIdx?_map]
          congr
          funext verdict
          cases verdict <;> rfl
        simp only [hfind, hsome]

theorem Abreast.attempt (h : p.Abreast p') (halike : w.Alike w') (limit : Nat) (event : Event) :
    (p.attempt w limit event).Abreast (p'.attempt w' limit event) := by
  have hstep := h.step halike limit event
  simp only [Progress.attempt]
  generalize p.step w limit event = next at hstep ⊢
  generalize p'.step w' limit event = next' at hstep ⊢
  cases hstep with
  | some hnext => exact hnext
  | none => exact h

theorem Abreast.follow (h : p.Abreast p') (halike : w.Alike w') (limit : Nat)
    (order : List Event) : (p.follow w limit order).Abreast (p'.follow w' limit order) := by
  induction order generalizing p p' with
  | nil => exact h
  | cons event order ih => exact ih (h.attempt halike limit event)

theorem Abreast.goOn (h : p.Abreast p') (halike : w.Alike w') (limit n : Nat) :
    (p.goOn w limit n).Abreast (p'.goOn w' limit n) := by
  induction n generalizing p p' with
  | zero => exact h
  | succ n ih =>
    rw [Progress.goOn, Progress.goOn, h.next_eq]
    exact ih (h.attempt halike limit _)

/-- **In the same order, the same batch goes the same way** whatever inspectors say of it: the trees
are the same at the end, and it comes to reports or to the same failure. -/
theorem abreast_complete (halike : w.Alike w') (limit : Nat) (t : FileTree) (batch : List Source)
    (order : List Event) :
    (complete w limit t batch order).Abreast (complete w' limit t batch order) := by
  have hstart : (start t batch : Progress Empty).Abreast (start t batch) :=
    ⟨rfl, rfl, .nil, rfl, rfl⟩
  have hsteps : steps w batch = steps w' batch := by rw [steps, steps, halike.inspectors]
  rw [complete, complete, hsteps]
  exact (hstart.follow halike limit order).goOn halike limit _

end Progress

end Ripple
