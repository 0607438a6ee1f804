import Ripple.Proofs.Batch.Completion
import Ripple.Proofs.MapM
import Ripple.Proofs.Names
import Ripple.Proofs.Report.Summary

/-!
# What inspectors see of a batch

In the course of a run items are staged, or their staging fails, and inspectors look at the staged
files (`Stages`, `FailsToStage`, `Looks`). Every verdict in a report has been given by an inspector
that has looked (`seen_of_run`), and neither a failure nor a bad verdict is ever lost
(`Blemished.of_passes`). So a batch comes to a report exactly if every item is staged and no staging
fails (`exists_report_iff`), and the report passes exactly if every inspector has looked at every
item and has found nothing wrong (`allPassed_iff`).
-/

namespace Ripple

variable {ε : Type} {w : Workbench ε}

namespace Progress

/-- In the course of the events the item is staged and waits for inspectors. -/
def Stages (w : Workbench ε) (limit : Nat) (p : Progress ε) (events : List Event) (x : Item) :
    Prop :=
  ∃ q, Passes w limit p events q ∧ ∃ job ∈ q.jobs, job.item = x ∧
    ∃ path verdicts, job.phase = .inspecting path verdicts

/-- In the course of the events it turns out that the item cannot be staged. -/
def FailsToStage (w : Workbench ε) (limit : Nat) (p : Progress ε) (events : List Event)
    (x : Item) : Prop :=
  ∃ q, Passes w limit p events q ∧ ∃ job ∈ q.jobs, job.item = x ∧
    ∃ failure, job.phase = .done (.error failure)

/-- In the course of the events an inspector looks at the staged file of the item, which stands in
the tree. -/
def Looks (w : Workbench ε) (limit : Nat) (p : Progress ε) (events : List Event) (x : Item)
    (index : Nat) (t : FileTree) : Prop :=
  ∃ q place job, Happens w limit p events q (.inspected place index) ∧
    q.jobs[place]? = some job ∧ job.item = x ∧ q.tree = t

/-- In the course of the events an inspector gives a verdict on the staged file of the item. -/
def Says (w : Workbench ε) (limit : Nat) (p : Progress ε) (events : List Event) (x : Item)
    (index : Nat) (verdict : Verdict) : Prop :=
  ∃ t i, Looks w limit p events x index t ∧ w.inspectors[index]? = some i ∧
    i.inspect t ⟨w.itemPath x, x.1.language⟩ = .ok verdict

variable {limit : Nat} {t : FileTree} {batch : List Source} {events : List Event}
  {p p' q : Progress ε} {event : Event} {x : Item}

/-! ## Verdicts come from inspectors -/

/-- The staged file of the job is that of its item, and its verdicts have been given. -/
structure Told (w : Workbench ε) (limit : Nat) (p : Progress ε) (events : List Event) (job : Job) :
    Prop where
  path : ∀ path, job.path? = some path → path = w.itemPath job.item
  verdicts : ∀ path verdicts, job.phase = .inspecting path verdicts →
    ∀ (index : Nat) (verdict : Verdict), verdicts[index]? = some (some verdict) →
      Says w limit p events job.item index verdict

theorem told_of_path?_eq_none {job : Job} (h : job.path? = none) : Told w limit p events job where
  path := by simp [h]
  verdicts path verdicts hphase := by simp [Job.path?, hphase] at h

theorem Told.operation {job job' : Job} {t t' : FileTree} (h : Told w limit p events job)
    (hop : job.Operation w t t' job') : Told w limit p events job' := by
  cases hop with
  | enter => exact ⟨by rintro _ ⟨⟩; rfl, nofun⟩
  | shut | clear | report => exact told_of_path?_eq_none rfl
  | @write _ path hphase =>
    refine ⟨?_, ?_⟩
    · rintro _ ⟨⟩
      exact h.path path (by rw [Job.path?, hphase])
    · rintro _ _ ⟨⟩ index verdict hverdict
      rw [List.getElem?_map] at hverdict
      cases hinspector : w.inspectors[index]? <;> simp [hinspector] at hverdict
  | @spoil _ path _ hphase =>
    refine ⟨?_, nofun⟩
    rintro _ ⟨⟩
    exact h.path path (by rw [Job.path?, hphase])

/-- **At every moment of a run the verdicts are those that inspectors have given.** -/
theorem told_of_passes (hpasses : Passes w limit (.start t batch) events q) :
    ∀ job ∈ q.jobs, Told w limit (.start t batch) events job := by
  refine passes_induction (I := fun q => ∀ job ∈ q.jobs, Told w limit (.start t batch) events job)
    (fun {q event q'} hhappens h hstep => ?_) (by simp [start]) hpasses
  cases hended : q.outcome with
  | some outcome =>
    obtain ⟨write, rest, -, rfl⟩ := writeLate_of_step hstep hended
    exact h
  | none =>
    cases move_of_step hstep hended with
    | takeUp => exact forall_mem_takeUp h (told_of_path?_eq_none rfl)
    | operate hjobs hop => exact forall_mem_replace hjobs h ((h _ (by simp [hjobs])).operation hop)
    | @inspect before after job job' index hjobs hglance =>
      have hjob := h job (by simp [hjobs])
      cases hglance with
      | @verdict path verdicts i verdict hphase hinspector hopen hinspect =>
        have hpath := hjob.path path (by rw [Job.path?, hphase])
        have hlooks : Looks w limit (.start t batch) events job.item index q.tree :=
          ⟨q, before.length, job, hhappens, by simp [hjobs], rfl, rfl⟩
        refine forall_mem_replace hjobs h ⟨?_, ?_⟩
        · rintro _ ⟨⟩
          exact hpath
        · rintro _ _ ⟨⟩ index' verdict' hverdict
          rw [List.getElem?_set] at hverdict
          split at hverdict
          · next heq =>
            split at hverdict
            · obtain rfl := Option.some.inj (Option.some.inj hverdict)
              rw [hpath] at hinspect
              exact ⟨q.tree, i, heq ▸ hlooks, heq ▸ hinspector, hinspect⟩
            · cases hverdict
          · exact hjob.verdicts path verdicts hphase index' verdict' hverdict
    | handOver hjobs => exact fun job hjob => h job (by simp [hjobs, hjob])
    | crash | fail | complete => simp [finish]

/-- The item has been staged, and the verdicts in the report have been given on it, one by each
inspector. -/
structure Seen (w : Workbench ε) (limit : Nat) (p : Progress ε) (events : List Event) (x : Item)
    (file : FileReport) : Prop where
  stages : Stages w limit p events x
  verdicts : ∃ all : List Verdict, all.length = w.inspectors.length ∧
    file.results = NameTable.ofList (w.tools.zip all) ∧
      ∀ (index : Nat) (verdict : Verdict), all[index]? = some verdict →
        Says w limit p events x index verdict

/-- An item comes to a report on what has been seen, or it has failed to be staged. -/
def Witnessed (w : Workbench ε) (limit : Nat) (p : Progress ε) (events : List Event) (x : Item)
    (result : Except StagingFailure FileReport) : Prop :=
  match result with
  | .ok file => Seen w limit p events x file
  | .error _ => FailsToStage w limit p events x

/-- **A batch comes to reports on what has been seen, or to a failure that has occurred**, or an
inspector has crashed. -/
theorem seen_of_run {outcome : Except (Interruption ε) Report}
    (hrun : run w limit (.start t batch) events = some p) (hended : p.outcome = some outcome) :
    Concluded (Witnessed w limit (.start t batch) events) batch.zipIdx outcome ∨
      ∃ crash, outcome = .error (.crashed crash) := by
  refine concluded_of_run ?_ hrun hended
  intro q q' event hhappens hstep _ job job' t' hjob hslots hop hjob' result hresult
  cases result with
  | error failure =>
    obtain ⟨r, hstep', hpasses⟩ := hhappens.step hrun
    obtain rfl := Option.some.inj (hstep.symm.trans hstep')
    exact ⟨q', hpasses, job', hjob', hop.item_eq, failure, hresult⟩
  | ok file =>
    cases hop with
    | enter | shut | write | spoil | clear => cases hresult
    | @report path verdicts all hphase hall =>
      cases hresult
      obtain ⟨hverdicts, hlength⟩ := hslots.all hphase hall
      refine ⟨⟨q, hhappens.passes, job, hjob, rfl, path, verdicts, hphase⟩, all, hlength, rfl,
        fun index verdict hverdict => ?_⟩
      have htold := told_of_passes hhappens.passes job hjob
      refine htold.verdicts path verdicts hphase index verdict ?_
      rw [hverdicts, List.getElem?_map, hverdict]
      rfl

/-! ## Nothing bad is lost -/

variable {P : Verdict → Prop}

/-- There is a verdict in the report that is not as it should be. -/
def BadReport (P : Verdict → Prop) (file : FileReport) : Prop :=
  ∃ (tool : String) (verdict : Verdict), file.results[tool]? = some verdict ∧ ¬P verdict

/-- A verdict on the job is not as it should be, or its item could not be staged. -/
inductive BadJob (P : Verdict → Prop) (job : Job) : Prop
  | verdict {path : String} {verdicts : List (Option Verdict)} {verdict : Verdict}
    (hphase : job.phase = .inspecting path verdicts) (hmem : some verdict ∈ verdicts)
    (hbad : ¬P verdict) : BadJob P job
  | report {file : FileReport} (hphase : job.phase = .done (.ok file)) (hbad : BadReport P file) :
    BadJob P job
  | failure {failure : StagingFailure} (hphase : job.phase = .done (.error failure)) : BadJob P job

/-- Something about the batch is not as it should be. -/
inductive Blemished (P : Verdict → Prop) (p : Progress ε) : Prop
  | job {job : Job} (hopen : p.outcome = none) (hjob : job ∈ p.jobs) (hbad : BadJob P job) :
    Blemished P p
  | report {file : FileReport} (hopen : p.outcome = none) (hfile : file ∈ p.reports)
    (hbad : BadReport P file) : Blemished P p
  | failed {interruption : Interruption ε} (hended : p.outcome = some (.error interruption)) :
    Blemished P p
  | reported {report : Report} {file : FileReport} (hended : p.outcome = some (.ok report))
    (hfile : file ∈ report.files) (hbad : BadReport P file) : Blemished P p

/-- No verdict that is not as it should be is lost in a report. -/
def Keeps (w : Workbench ε) (P : Verdict → Prop) : Prop :=
  ∀ all : List Verdict, all.length = w.inspectors.length → ∀ verdict ∈ all, ¬P verdict →
    ∃ (tool : String) (verdict : Verdict),
      (NameTable.ofList (w.tools.zip all))[tool]? = some verdict ∧ ¬P verdict

/-- If no tool has two inspectors, no verdict is lost. -/
theorem keeps_of_nodup (hnodup : w.tools.Nodup) (P : Verdict → Prop) : Keeps w P := by
  intro all hlength verdict hmem hbad
  obtain ⟨index, hindex, rfl⟩ := List.getElem_of_mem hmem
  have htools : w.tools.length = all.length := by rw [Workbench.tools, List.length_map, hlength]
  have htool : index < w.tools.length := htools ▸ hindex
  refine ⟨w.tools[index], all[index], NameTable.getElem?_ofList_of_mem ?_ ?_, hbad⟩
  · rwa [List.map_fst_zip htools.le]
  · have hzip : index < (w.tools.zip all).length := by
      rw [List.length_zip]
      omega
    have hpair := List.getElem_mem hzip
    rwa [List.getElem_zip] at hpair

theorem BadJob.operation {job job' : Job} {t t' : FileTree} (hkeeps : Keeps w P)
    (hslots : job.Slotted w) (h : BadJob P job) (hop : job.Operation w t t' job') :
    BadJob P job' := by
  cases hop with
  | enter hphase | shut hphase | write hphase | spoil hphase | clear hphase =>
    cases h with
    | verdict hphase' | report hphase' | failure hphase' => cases hphase.symm.trans hphase'
  | @report path verdicts all hphase hall =>
    cases h with
    | report hphase' | failure hphase' => cases hphase.symm.trans hphase'
    | @verdict path' verdicts' verdict hphase' hmem hbad =>
      obtain ⟨rfl, rfl⟩ := Phase.inspecting.inj (hphase.symm.trans hphase')
      obtain ⟨hverdicts, hlength⟩ := hslots.all hphase hall
      rw [hverdicts, List.mem_map] at hmem
      obtain ⟨_, hmem, ⟨⟩⟩ := hmem
      exact .report rfl (hkeeps all hlength verdict hmem hbad)

theorem BadJob.glance {job job' : Job} {t : FileTree} {index : Nat} (h : BadJob P job)
    (hglance : job.Glance w t index (.ok job')) : BadJob P job' := by
  cases hglance with
  | @verdict path verdicts i given hphase hinspector hopen hinspect =>
    cases h with
    | report hphase' | failure hphase' => cases hphase.symm.trans hphase'
    | @verdict path' verdicts' verdict hphase' hmem hbad =>
      obtain ⟨rfl, rfl⟩ := Phase.inspecting.inj (hphase.symm.trans hphase')
      -- only the place of a verdict that was missing has changed
      obtain ⟨index', hindex⟩ := List.mem_iff_getElem?.mp hmem
      have hne : index ≠ index' := by
        rintro rfl
        cases hopen.symm.trans hindex
      refine .verdict rfl (List.mem_of_getElem? (i := index') ?_) hbad
      rw [List.getElem?_set_ne hne, hindex]

/-- A job that is bad is still there when another one has changed or when it has changed itself. -/
theorem exists_badJob_replace {jobs before after : List Job} {job job' other : Job}
    (hjobs : jobs = before ++ job :: after) (hother : other ∈ jobs) (hbad : BadJob P other)
    (h : BadJob P job → BadJob P job') :
    ∃ new ∈ before ++ job' :: after, BadJob P new := by
  rw [hjobs, List.mem_append, List.mem_cons] at hother
  rcases hother with hother | rfl | hother
  · exact ⟨other, by simp [hother], hbad⟩
  · exact ⟨job', by simp, h hbad⟩
  · exact ⟨other, by simp [hother], hbad⟩

/-- **A step loses nothing bad.** -/
theorem Blemished.step (hkeeps : Keeps w P)
    (hslots : p.outcome = none → ∀ job ∈ p.jobs, job.Slotted w) (h : Blemished P p)
    (hstep : p.step w limit event = some p') : Blemished P p' := by
  cases hended : p.outcome with
  | some outcome =>
    obtain ⟨write, rest, -, rfl⟩ := writeLate_of_step hstep hended
    cases h with
    | job hopen | report hopen => cases hopen.symm.trans hended
    | failed hended' => exact .failed hended'
    | reported hended' hfile hbad => exact .reported hended' hfile hbad
  | none =>
    have hmove := move_of_step hstep hended
    cases h with
    | failed hended' | reported hended' => cases hended.symm.trans hended'
    | @job other _ hother hbad =>
      cases hmove with
      | takeUp => exact .job hended (List.mem_append_left _ hother) hbad
      | @operate before after job job' t hjobs hop =>
        have hslotted := hslots hended job (by simp [hjobs])
        obtain ⟨new, hnew, hbad⟩ := exists_badJob_replace hjobs hother hbad fun hbad =>
          hbad.operation hkeeps hslotted hop
        exact .job hended hnew hbad
      | inspect hjobs hglance =>
        obtain ⟨new, hnew, hbad⟩ := exists_badJob_replace hjobs hother hbad fun hbad =>
          hbad.glance hglance
        exact .job hended hnew hbad
      | @handOver job rest report hjobs hphase =>
        rw [hjobs, List.mem_cons] at hother
        rcases hother with rfl | hother
        · cases hbad with
          | verdict hphase' | failure hphase' => cases hphase.symm.trans hphase'
          | report hphase' hbad =>
            obtain rfl := Except.ok.inj (Phase.done.inj (hphase.symm.trans hphase'))
            exact .report hended (by simp) hbad
        · exact .job hended hother hbad
      | crash | fail => exact .failed rfl
      | complete hjobs => simp [hjobs] at hother
    | report _ hfile hbad =>
      cases hmove with
      | takeUp | operate | inspect => exact .report hended hfile hbad
      | handOver => exact .report hended (List.mem_append_left _ hfile) hbad
      | crash | fail => exact .failed rfl
      | complete => exact .reported rfl hfile hbad

/-- **A run loses nothing bad.** -/
theorem Blemished.of_passes (hkeeps : Keeps w P)
    (hrun : run w limit (.start t batch) events = some p)
    (hpasses : Passes w limit (.start t batch) events q) (h : Blemished P q) : Blemished P p := by
  obtain ⟨past, future, rfl, hpast⟩ := hpasses
  obtain ⟨q', hpast', hfuture⟩ := exists_run_of_append hrun
  obtain rfl := Option.some.inj (hpast.symm.trans hpast')
  refine run_induction (I := Blemished P) (fun {r event r'} hhappens h hstep => ?_) h hfuture
  refine h.step hkeeps (fun hopen => ?_) hstep
  obtain ⟨between, _, -, hbetween⟩ := hhappens
  exact (inOrder_of_run (run_append hpast hbetween) hopen).slots

/-- Jobs are there only as long as the batch has not ended. -/
theorem open_of_mem_jobs (hpasses : Passes w limit (.start t batch) events q) {job : Job}
    (hjob : job ∈ q.jobs) : q.outcome = none := by
  have h := passes_induction (I := fun q => q.outcome ≠ none → q.jobs = [])
    (fun {q event q'} _ h hstep hended' => ?_) (by simp [start]) hpasses
  · by_contra hended
    rw [h hended] at hjob
    cases hjob
  cases hended : q.outcome with
  | some outcome =>
    obtain ⟨write, rest, -, rfl⟩ := writeLate_of_step hstep hended
    exact h (by simp [hended])
  | none =>
    rcases (move_of_step hstep hended).outcome_eq_or_finish with heq | ⟨outcome, rfl⟩
    · exact absurd (heq.trans hended) hended'
    · rfl

/-- A batch one of whose items cannot be staged does not come to a report. -/
theorem ne_report_of_failsToStage (hrun : run w limit (.start t batch) events = some p)
    (h : FailsToStage w limit (.start t batch) events x) (report : Report) :
    p.outcome ≠ some (.ok report) := by
  intro hended
  obtain ⟨q, hpasses, job, hjob, -, failure, hphase⟩ := h
  -- of verdicts nothing is demanded here
  have hkeeps : Keeps w fun _ => True := fun _ _ _ _ hbad => absurd trivial hbad
  have hbad : Blemished (fun _ => True) q :=
    .job (open_of_mem_jobs hpasses hjob) hjob (.failure hphase)
  cases hbad.of_passes hkeeps hrun hpasses with
  | job hopen | report hopen => cases hopen.symm.trans hended
  | failed hended' => cases hended.symm.trans hended'
  | reported _ _ hbad =>
    obtain ⟨_, _, -, hbad⟩ := hbad
    exact hbad trivial

/-- **A batch comes to a report exactly if every item is staged and none fails to be**, unless an
inspector crashes. -/
theorem exists_report_iff {outcome : Except (Interruption ε) Report}
    (hrun : run w limit (.start t batch) events = some p) (hended : p.outcome = some outcome)
    (hcalm : ∀ crash, outcome ≠ .error (.crashed crash)) :
    (∃ report, outcome = .ok report) ↔ ∀ x ∈ batch.zipIdx,
      Stages w limit (.start t batch) events x ∧
        ¬FailsToStage w limit (.start t batch) events x := by
  have hconcluded : Concluded _ _ outcome :=
    (seen_of_run hrun hended).resolve_right fun ⟨crash, hcrash⟩ => hcalm crash hcrash
  constructor
  · rintro ⟨report, rfl⟩ x hx
    cases hconcluded with
    | @complete files hfiles =>
      refine ⟨?_, fun hfails => ne_report_of_failsToStage hrun hfails _ hended⟩
      obtain ⟨index, hindex, rfl⟩ := List.getElem_of_mem hx
      exact (hfiles.get hindex (hfiles.length_eq ▸ hindex)).stages
  · intro hall
    obtain ⟨report, houtcome, -⟩ :=
      hconcluded.report fun x hx failure hfails => (hall x hx).2 hfails
    exact ⟨report, houtcome⟩

/-- An inspector that finds something wrong leaves its mark. -/
theorem Blemished.of_looks {t' : FileTree} {index : Nat} {i : Inspector ε} {verdict : Verdict}
    (hkeeps : Keeps w P) (hrun : run w limit (.start t batch) events = some p)
    (hlooks : Looks w limit (.start t batch) events x index t')
    (hinspector : w.inspectors[index]? = some i)
    (hinspect : i.inspect t' ⟨w.itemPath x, x.1.language⟩ = .ok verdict) (hbad : ¬P verdict) :
    Blemished P p := by
  obtain ⟨q, place, job, hhappens, hjob, rfl, rfl⟩ := hlooks
  obtain ⟨q', hstep, hpasses⟩ := hhappens.step hrun
  refine Blemished.of_passes hkeeps hrun hpasses ?_
  have hopen := open_of_mem_jobs hhappens.passes (List.mem_of_getElem? hjob)
  have hpath := (told_of_passes hhappens.passes job (List.mem_of_getElem? hjob)).path
  cases move_of_step hstep hopen with
  | crash => exact .failed rfl
  | @inspect before after job₀ job' _ hjobs hglance =>
    obtain rfl : job₀ = job := by simpa [hjobs] using hjob
    cases hglance with
    | @verdict path verdicts i' verdict' hphase hinspector' hmissing hinspect' =>
      obtain rfl := Option.some.inj (hinspector.symm.trans hinspector')
      rw [hpath path (by rw [Job.path?, hphase])] at hinspect'
      obtain rfl := Except.ok.inj (hinspect.symm.trans hinspect')
      obtain ⟨hlt, -⟩ := List.getElem?_eq_some_iff.mp hmissing
      exact .job hopen (List.mem_append_right before List.mem_cons_self)
        (.verdict rfl (List.mem_set hlt _) hbad)

/-- **If no tool has two inspectors, a report passes exactly if every inspector has looked at every
item, and whatever it has seen, it has found nothing wrong.** -/
theorem allPassed_iff {report : Report} (hnodup : w.tools.Nodup)
    (hrun : run w limit (.start t batch) events = some p)
    (hended : p.outcome = some (.ok report)) :
    report.allPassed = true ↔ ∀ x ∈ batch.zipIdx, ∀ (index : Nat) (i : Inspector ε),
      w.inspectors[index]? = some i →
        (∃ t', Looks w limit (.start t batch) events x index t') ∧
          ∀ t', Looks w limit (.start t batch) events x index t' → ∀ verdict,
            i.inspect t' ⟨w.itemPath x, x.1.language⟩ = .ok verdict → verdict.success = true := by
  have hconcluded : Concluded _ _ (Except.ok report) :=
    (seen_of_run hrun hended).resolve_right fun ⟨crash, hcrash⟩ => by cases hcrash
  have hseen : List.Forall₂ (Seen w limit (.start t batch) events) batch.zipIdx report.files := by
    cases hconcluded with
    | complete hfiles => exact hfiles
  rw [Report.allPassed, List.all_eq_true]
  constructor
  · intro hpassed x hx index i hinspector
    constructor
    · obtain ⟨place, hplace, rfl⟩ := List.getElem_of_mem hx
      obtain ⟨all, hlength, -, hsays⟩ := (hseen.get hplace (hseen.length_eq ▸ hplace)).verdicts
      have hlt : index < all.length := by
        rw [hlength]
        exact (List.getElem?_eq_some_iff.mp hinspector).1
      obtain ⟨t', _, hlooks, -⟩ := hsays index all[index] (List.getElem?_eq_getElem hlt)
      exact ⟨t', hlooks⟩
    · intro t' hlooks verdict hinspect
      by_contra hbad
      have hkeeps := keeps_of_nodup hnodup fun verdict => verdict.success = true
      cases Blemished.of_looks hkeeps hrun hlooks hinspector hinspect hbad with
      | job hopen | report hopen => cases hopen.symm.trans hended
      | failed hended' => cases hended.symm.trans hended'
      | reported hended' hfile hbad =>
        obtain rfl := Except.ok.inj (Option.some.inj (hended.symm.trans hended'))
        obtain ⟨tool, verdict, hget, hbad⟩ := hbad
        exact hbad (FileReport.passed_iff.mp (hpassed _ hfile) tool verdict hget)
  · intro hall file hfile
    obtain ⟨place, hplace, rfl⟩ := List.getElem_of_mem hfile
    have hitem : place < batch.zipIdx.length := hseen.length_eq ▸ hplace
    obtain ⟨all, -, hresults, hsays⟩ := (hseen.get hitem hplace).verdicts
    refine FileReport.passed_iff.mpr fun tool verdict hget => ?_
    have hget : (NameTable.ofList (w.tools.zip all))[tool]? = some verdict := hresults ▸ hget
    obtain ⟨index, hindex⟩ := List.mem_iff_getElem?.mp
      (List.of_mem_zip (NameTable.mem_of_getElem?_ofList hget)).2
    obtain ⟨t', i, hlooks, hinspector, hinspect⟩ := hsays index verdict hindex
    exact (hall _ (List.getElem_mem hitem) index i hinspector).2 t' hlooks verdict hinspect

end Progress

end Ripple
