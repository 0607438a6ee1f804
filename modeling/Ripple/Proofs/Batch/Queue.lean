import Ripple.Proofs.Batch.Moves
import Ripple.Proofs.MapM

/-!
# The order of a batch under way

Whatever order things happen in, the items of a batch are those whose reports have been handed over,
then those in flight, then those that wait (`InOrder`), so the reports and the failure that a batch
comes to are those of the items in their order (`concluded_of_run`).
-/

namespace Ripple

open Text

variable {ε : Type} {w : Workbench ε}

namespace Job

variable {t t' : FileTree} {job job' : Job} {index : Nat}

theorem Operation.item_eq (h : job.Operation w t t' job') : job'.item = job.item := by
  cases h <;> rfl

theorem Glance.item_eq (h : job.Glance w t index (.ok job')) : job'.item = job.item := by
  cases h
  rfl

/-- A job whose file is inspected has a place for the verdict of each inspector. -/
def Slotted (w : Workbench ε) (job : Job) : Prop :=
  ∀ path verdicts, job.phase = .inspecting path verdicts →
    verdicts.length = w.inspectors.length

theorem Operation.slotted (h : job.Operation w t t' job') : job'.Slotted w := by
  rintro path verdicts hphase
  cases h <;> cases hphase
  rw [List.length_map]

theorem Glance.slotted (hslots : job.Slotted w) (h : job.Glance w t index (.ok job')) :
    job'.Slotted w := by
  rintro path verdicts hphase
  cases h with
  | verdict hbefore =>
    cases hphase
    rw [List.length_set]
    exact hslots _ _ hbefore

/-- When all verdicts on a file are there, there is one of each inspector. -/
theorem Slotted.all {path : String} {verdicts : List (Option Verdict)} {all : List Verdict}
    (hslots : job.Slotted w) (hphase : job.phase = .inspecting path verdicts)
    (hall : verdicts.mapM id = some all) :
    verdicts = all.map some ∧ all.length = w.inspectors.length := by
  have hverdicts : verdicts = all.map some := by
    rw [← mapM_eq_some_iff.mp hall, List.map_id]
  refine ⟨hverdicts, ?_⟩
  rw [← hslots path verdicts hphase, hverdicts, List.length_map]

end Job

namespace Progress

variable {limit : Nat} {p p' : Progress ε} {event : Event} {items : List Item}
  {R : Item → Except StagingFailure FileReport → Prop}

/-! ## Order -/

/-- The items are the reported ones, those in flight and the waiting ones, in this order; there are
not too many in flight, and `R` holds of everything that has come of an item. -/
structure InOrder (w : Workbench ε) (R : Item → Except StagingFailure FileReport → Prop)
    (items : List Item) (limit : Nat) (p : Progress ε) : Prop where
  queue : ∃ front, items = front ++ (p.jobs.map Job.item ++ p.waiting) ∧
    List.Forall₂ (fun x report => R x (.ok report)) front p.reports
  room : p.jobs.length ≤ max limit 1
  slots : ∀ job ∈ p.jobs, job.Slotted w
  results : ∀ job ∈ p.jobs, ∀ result, job.phase = .done result → R job.item result

/-- What a batch comes to if `R` says what comes of its items: the reports on all of them, or the
failure of the first one that cannot be staged. -/
inductive Concluded (R : Item → Except StagingFailure FileReport → Prop) (items : List Item) :
    Except (Interruption ε) Report → Prop
  | complete {reports : List FileReport}
    (h : List.Forall₂ (fun x report => R x (.ok report)) items reports) :
    Concluded R items (.ok ⟨reports⟩)
  | unstaged {front rest : List Item} {x : Item} {reports : List FileReport}
    {failure : StagingFailure} (hitems : items = front ++ x :: rest)
    (hfront : List.Forall₂ (fun x report => R x (.ok report)) front reports)
    (hfailure : R x (.error failure)) : Concluded R items (.error (.unstaged failure))

theorem InOrder.start (w : Workbench ε) (R : Item → Except StagingFailure FileReport → Prop)
    (limit : Nat) (t : FileTree) (batch : List Source) :
    InOrder w R batch.zipIdx limit (.start t batch) where
  queue := ⟨[], by rw [Progress.start]; rfl, .nil⟩
  room := Nat.zero_le _
  slots := by simp [Progress.start]
  results := by simp [Progress.start]

/-- The items in flight come in the order of the batch. -/
theorem InOrder.sublist (h : InOrder w R items limit p) :
    (p.jobs.map Job.item).Sublist items := by
  obtain ⟨front, hitems, -⟩ := h.queue
  rw [hitems]
  exact (List.sublist_append_left _ _).trans (List.sublist_append_right _ _)

/-- A job may be replaced by what has become of it. -/
theorem InOrder.replace {before after : List Job} {job job' : Job} {t : FileTree}
    (h : InOrder w R items limit p) (hjobs : p.jobs = before ++ job :: after)
    (hitem : job'.item = job.item) (hslots : job'.Slotted w)
    (hresult : ∀ result, job'.phase = .done result → R job.item result) :
    InOrder w R items limit { p with tree := t, jobs := before ++ job' :: after } where
  queue := by
    obtain ⟨front, hitems, hfront⟩ := h.queue
    refine ⟨front, ?_, hfront⟩
    rw [hitems, hjobs]
    simp [hitem]
  room := by
    have hroom := h.room
    rw [hjobs] at hroom
    simpa using hroom
  slots := forall_mem_replace hjobs h.slots hslots
  results := by
    refine forall_mem_replace hjobs h.results ?_
    rw [hitem]
    exact hresult

/-- **A move keeps the order, or it ends the batch with what comes of the items in order, or an
inspector crashes**, provided that what a file operation ends with is what comes of the item. -/
theorem InOrder.move_or_crash (h : InOrder w R items limit p) (hopen : p.outcome = none)
    (hmove : Move w limit p event p')
    (hoperation : ∀ job ∈ p.jobs, ∀ t job', job.Operation w p.tree t job' → job' ∈ p'.jobs →
      ∀ result, job'.phase = .done result → R job.item result) :
    p'.outcome = none ∧ InOrder w R items limit p' ∨
      (∃ outcome, p'.outcome = some outcome ∧ Concluded R items outcome) ∨
      ∃ job ∈ p.jobs, ∃ index crash, job.Glance w p.tree index (.error crash) ∧
        p' = p.finish (.error (.crashed crash)) := by
  obtain ⟨front, hitems, hfront⟩ := h.queue
  cases hmove with
  | @takeUp source place rest hwaiting hroom =>
    refine .inl ⟨hopen, ⟨front, ?_, hfront⟩, ?_, ?_, ?_⟩
    · rw [hitems, hwaiting]
      simp [Job.item]
    · rw [List.length_append]
      exact hroom
    · exact forall_mem_takeUp h.slots (by rintro _ _ ⟨⟩)
    · exact forall_mem_takeUp h.results (by rintro _ ⟨⟩)
  | @operate before after job job' t hjobs hop =>
    exact .inl ⟨hopen, h.replace hjobs hop.item_eq hop.slotted
      (hoperation job (by simp [hjobs]) t job' hop (by simp))⟩
  | @inspect before after job job' index hjobs hglance =>
    refine .inl ⟨hopen, h.replace hjobs hglance.item_eq
      (hglance.slotted (h.slots job (by simp [hjobs]))) ?_⟩
    intro result hphase
    cases hglance
    cases hphase
  | @crash before after job index crash hjobs hglance =>
    exact .inr (.inr ⟨job, by simp [hjobs], index, crash, hglance, rfl⟩)
  | @handOver job rest report hjobs hphase =>
    have hreport := h.results job (by simp [hjobs]) _ hphase
    refine .inl ⟨hopen, ⟨front ++ [job.item], ?_, ?_⟩, ?_, ?_, ?_⟩
    · rw [hitems, hjobs]
      simp
    · exact List.rel_append hfront (.cons hreport .nil)
    · have hroom := h.room
      rw [hjobs, List.length_cons] at hroom
      exact Nat.le_of_succ_le hroom
    · exact fun other hother => h.slots other (by simp [hjobs, hother])
    · exact fun other hother => h.results other (by simp [hjobs, hother])
  | @fail job rest failure hjobs hphase =>
    have hfailure := h.results job (by simp [hjobs]) _ hphase
    rw [hjobs, List.map_cons, List.cons_append] at hitems
    exact .inr (.inl ⟨_, rfl, .unstaged hitems hfront hfailure⟩)
  | complete hjobs hwaiting =>
    rw [hjobs, hwaiting, List.map_nil, List.append_nil, List.append_nil] at hitems
    exact .inr (.inl ⟨_, rfl, .complete (hitems ▸ hfront)⟩)

/-- If no inspector crashes, a move keeps the order or ends the batch with what comes of the items
in order. -/
theorem InOrder.move (h : InOrder w R items limit p) (hopen : p.outcome = none)
    (hmove : Move w limit p event p')
    (hoperation : ∀ job ∈ p.jobs, ∀ t job', job.Operation w p.tree t job' → job' ∈ p'.jobs →
      ∀ result, job'.phase = .done result → R job.item result)
    (hcalm : ∀ job ∈ p.jobs, ∀ index crash, ¬ job.Glance w p.tree index (.error crash)) :
    p'.outcome = none ∧ InOrder w R items limit p' ∨
      ∃ outcome, p'.outcome = some outcome ∧ Concluded R items outcome := by
  rcases h.move_or_crash hopen hmove hoperation with
    horder | hconcluded | ⟨job, hjob, index, crash, hglance, -⟩
  · exact .inl horder
  · exact .inr hconcluded
  · exact absurd hglance (hcalm job hjob index crash)

/-- **A run that has ended comes to what comes of the items in order, or an inspector has crashed**,
provided that whatever happens in the course of it, what a file operation ends with is what comes of
the item. -/
theorem concluded_of_run {t : FileTree} {batch : List Source} {events : List Event}
    {outcome : Except (Interruption ε) Report}
    (hoperation : ∀ {q q' : Progress ε} {event : Event},
      Happens w limit (.start t batch) events q event → q.step w limit event = some q' →
        q.outcome = none → ∀ {job job' : Job} {t' : FileTree}, job ∈ q.jobs → job.Slotted w →
          job.Operation w q.tree t' job' → job' ∈ q'.jobs →
            ∀ result, job'.phase = .done result → R job.item result)
    (hrun : run w limit (.start t batch) events = some p) (hended : p.outcome = some outcome) :
    Concluded R batch.zipIdx outcome ∨ ∃ crash, outcome = .error (.crashed crash) := by
  have h := run_induction (I := fun p => p.outcome = none ∧ InOrder w R batch.zipIdx limit p ∨
    ∃ outcome, p.outcome = some outcome ∧
      (Concluded R batch.zipIdx outcome ∨ ∃ crash, outcome = .error (.crashed crash)))
    (fun {q event q'} hhappens h hstep => ?_) (.inl ⟨rfl, .start w R limit t batch⟩) hrun
  · rcases h with ⟨hopen, -⟩ | ⟨outcome', hended', h⟩
    · cases hopen.symm.trans hended
    · obtain rfl := Option.some.inj (hended.symm.trans hended')
      exact h
  rcases h with ⟨hopen, horder⟩ | ⟨outcome', hended', h⟩
  · rcases horder.move_or_crash hopen (move_of_step hstep hopen) fun job hjob t' job' hop =>
        hoperation hhappens hstep hopen hjob (horder.slots job hjob) hop with
      horder | ⟨outcome', hended', h⟩ | ⟨_, _, _, crash, -, rfl⟩
    · exact .inl horder
    · exact .inr ⟨outcome', hended', .inl h⟩
    · exact .inr ⟨_, rfl, .inr ⟨crash, rfl⟩⟩
  · obtain ⟨_, _, -, rfl⟩ := writeLate_of_step hstep hended'
    exact .inr ⟨outcome', hended', h⟩

/-- A batch comes to a report if nothing can come of an item but a report. -/
theorem Concluded.report {outcome : Except (Interruption ε) Report} (h : Concluded R items outcome)
    (hall : ∀ x ∈ items, ∀ failure, ¬R x (.error failure)) :
    ∃ report : Report, outcome = .ok report ∧
      List.Forall₂ (fun x file => R x (.ok file)) items report.files := by
  cases h with
  | complete hreports => exact ⟨_, rfl, hreports⟩
  | unstaged hitems _ hfailure => exact absurd hfailure (hall _ (by simp [hitems]) _)

/-- A batch ends at the first item of which no report can come. -/
theorem Concluded.failure {outcome : Except (Interruption ε) Report}
    (h : Concluded R items outcome) {before after : List Item} {x : Item}
    (hitems : items = before ++ x :: after)
    (hbefore : ∀ y ∈ before, ∀ failure, ¬R y (.error failure))
    (hx : ∀ file, ¬R x (.ok file)) :
    ∃ failure, outcome = .error (.unstaged failure) ∧ R x (.error failure) := by
  -- of an item that comes before the end there is a report
  have hreported {xs : List Item} {files : List FileReport}
      (h : List.Forall₂ (fun x file => R x (.ok file)) xs files) :
      ∀ y ∈ xs, ∃ file, R y (.ok file) := by
    induction h with
    | nil => simp
    | cons hfile _ ih => exact List.forall_mem_cons.mpr ⟨⟨_, hfile⟩, ih⟩
  have hnone {xs : List Item} (h : ∀ y ∈ xs, ∃ file, R y (.ok file)) : x ∉ xs := fun hmem =>
    (h x hmem).elim hx
  cases h with
  | complete hreports => exact absurd (by simp [hitems]) (hnone (hreported hreports))
  | @unstaged front rest x' reports failure hitems' hfront hfailure =>
    rw [hitems] at hitems'
    rcases List.append_eq_append_iff.mp hitems' with ⟨between, rfl, hrest⟩ | ⟨between, rfl, hrest⟩
    · cases between with
      | nil =>
        obtain ⟨rfl, -⟩ := List.cons.inj hrest
        exact ⟨failure, rfl, hfailure⟩
      | cons y between =>
        obtain ⟨rfl, -⟩ := List.cons.inj hrest
        exact absurd (by simp) (hnone (hreported hfront))
    · cases between with
      | nil =>
        obtain ⟨rfl, -⟩ := List.cons.inj hrest
        exact ⟨failure, rfl, hfailure⟩
      | cons y between =>
        obtain ⟨rfl, -⟩ := List.cons.inj hrest
        exact absurd hfailure (hbefore _ (by simp) failure)

end Progress

end Ripple
