import Ripple.Proofs.Batch.Completion
import Ripple.Proofs.Batch.Sequential
import Ripple.Proofs.Batch.Tidy

/-!
# Batches in any order come to the same

A batch with several files in flight comes to what the same batch comes to file by file, whatever
order the file operations and the inspectors are done in, if the inspectors go by the file and do
not crash. `Sound` is what every step keeps where the directory for staged files can be made, and
`Stuck` where it cannot. `run_agrees_with_inspect` puts both together with the facts that hold
at every moment.
-/

namespace Ripple

open Text

variable {ε : Type} {w : Workbench ε} {judge : Workbench.Judge ε}

namespace Job

variable {t t' : FileTree} {job job' : Job} {index : Nat}

/-- The verdicts so far are those of the judge. -/
def Judged (w : Workbench ε) (judge : Workbench.Judge ε) (job : Job) : Prop :=
  ∀ path verdicts, job.phase = .inspecting path verdicts →
    ∀ (index : Nat) (verdict : Verdict), verdicts[index]? = some (some verdict) →
      ∃ i, w.inspectors[index]? = some i ∧
        verdict = judge i (w.itemPath job.item) job.source.content job.source.language

theorem Operation.judged (h : job.Operation w t t' job') : job'.Judged w judge := by
  rintro path verdicts hphase index verdict hverdict
  cases h <;> cases hphase
  rw [List.getElem?_map] at hverdict
  cases hinspector : w.inspectors[index]? <;> simp [hinspector] at hverdict

/-- An inspector gives the verdict of the judge on the staged file. -/
theorem Glance.judged (hjudge : w.JudgedBy judge) (hjudged : job.Judged w judge)
    (hlocated : job.Located w base location)
    (hread : t.readBytes (bytesOf (w.itemPath job.item)) = .ok (bytesOf job.source.content))
    (h : job.Glance w t index (.ok job')) : job'.Judged w judge := by
  cases h with
  | @verdict path verdicts i verdict hphase hinspector hopen hinspect =>
    rintro _ _ ⟨⟩ other verdict' hverdict
    rw [List.getElem?_set] at hverdict
    split at hverdict
    · next hindex =>
      split at hverdict
      · obtain rfl := Option.some.inj (Option.some.inj hverdict)
        have hpath := hlocated.path path (by rw [path?, hphase])
        have hmem := List.mem_of_getElem? hinspector
        rw [hpath, hjudge i hmem t _ _ _ hread] at hinspect
        exact ⟨i, by rw [← hindex, hinspector], (Except.ok.inj hinspect).symm⟩
      · cases hverdict
    · exact hjudged path verdicts hphase other verdict' hverdict

/-- No inspector crashes on a staged file. -/
theorem Glance.ne_crash (hjudge : w.JudgedBy judge) (hlocated : job.Located w base location)
    (hread : t.readBytes (bytesOf (w.itemPath job.item)) = .ok (bytesOf job.source.content))
    (crash : ε) : ¬ job.Glance w t index (.error crash) := by
  intro h
  cases h with
  | @crash path verdicts i crash hphase hinspector hinspect =>
    have hmem := List.mem_of_getElem? hinspector
    rw [hlocated.path path (by rw [path?, hphase]), hjudge i hmem t _ _ _ hread] at hinspect
    cases hinspect

/-- When all inspectors are done with a job, its report is that of the judge on the item. -/
theorem report_eq {path : String} {verdicts : List (Option Verdict)} {all : List Verdict}
    (hjudged : job.Judged w judge) (hslots : job.Slotted w)
    (hphase : job.phase = .inspecting path verdicts) (hall : verdicts.mapM id = some all) :
    (⟨job.source.name, NameTable.ofList (w.tools.zip all)⟩ : FileReport) =
      w.reportOn judge job.item := by
  obtain ⟨hverdicts, hlength⟩ := hslots.all hphase hall
  have hall' : all = w.inspectors.map fun i =>
      judge i (w.itemPath job.item) job.source.content job.source.language := by
    refine List.ext_getElem (by rw [hlength, List.length_map]) fun index hindex _ => ?_
    have hget : verdicts[index]? = some (some all[index]) := by
      rw [hverdicts, List.getElem?_map, List.getElem?_eq_getElem hindex]
      rfl
    obtain ⟨i, hinspector, hverdict⟩ := hjudged path verdicts hphase index all[index] hget
    obtain ⟨hlt, rfl⟩ := List.getElem?_eq_some_iff.mp hinspector
    rw [List.getElem_map, hverdict]
  rw [hall', Workbench.tools, List.zip_map', Workbench.reportOn]
  rfl

end Job

namespace Progress

variable {t base : FileTree} {location : Location} {batch : List Source} {limit : Nat}
  {p p' : Progress ε} {event : Event} {items : List Item}

/-! ## Where the directory can be made -/

/-- What holds of a batch under way in a directory that can be made. -/
structure Sound (w : Workbench ε) (judge : Workbench.Judge ε) (t base : FileTree)
    (location : Location) (items : List Item) (limit : Nat) (p : Progress ε) : Prop where
  order : InOrder w (fun x result => result = w.itemResult judge base location x) items limit p
  tidy : Tidy w t base location p
  judged : ∀ job ∈ p.jobs, job.Judged w judge

section Desk

variable (d : w.Desk base location items) (hjudge : w.JudgedBy judge)
  (hmake : t.makeDirectories w.directory = (base, .ok ()))

include d

/-- The file of a job under inspection is read as it was submitted. -/
theorem Sound.readBytes (h : Sound w judge t base location items limit p) {job : Job}
    {path : String} {verdicts : List (Option Verdict)} (hjob : job ∈ p.jobs)
    (hphase : job.phase = .inspecting path verdicts) :
    p.tree.readBytes (bytesOf (w.itemPath job.item)) = .ok (bytesOf job.source.content) := by
  have hfile : job.hasFile w = true := by simp [Job.hasFile, hphase]
  have hread := d.readBytes (h.tidy.holding hjob (by simp [hphase]))
    (h.tidy.heldItems h.order.sublist)
    (List.mem_map_of_mem (List.mem_filter.mpr ⟨hjob, hfile⟩))
  rwa [Workbench.itemContent_of_accepted ((h.tidy.located job hjob).accepted _ _ hphase)] at hread

include hjudge in
/-- The verdicts stay those of the judge. -/
theorem Sound.judged_of_move (h : Sound w judge t base location items limit p)
    (hopen : p'.outcome = none) (hmove : Move w limit p event p') :
    ∀ job ∈ p'.jobs, job.Judged w judge := by
  cases hmove with
  | takeUp => exact forall_mem_takeUp h.judged (by rintro _ _ ⟨⟩)
  | operate hjobs hop => exact forall_mem_replace hjobs h.judged hop.judged
  | @inspect before after old new index hjobs hglance =>
    have hold : old ∈ p.jobs := by simp [hjobs]
    refine forall_mem_replace hjobs h.judged ?_
    cases hglance with
    | verdict hphase hinspector hverdict hinspect =>
      exact Job.Glance.judged hjudge (h.judged old hold) (h.tidy.located old hold)
        (h.readBytes d hold hphase) (.verdict hphase hinspector hverdict hinspect)
  | handOver hjobs => exact fun job hjob => h.judged job (by simp [hjobs, hjob])
  | crash | fail | complete => simp [finish] at hopen

include hmake

/-- What the file operation of a job ends with is what comes of its item. -/
theorem Sound.result (h : Sound w judge t base location items limit p) {job job' : Job}
    {t' : FileTree} (hjob : job ∈ p.jobs) (hop : job.Operation w p.tree t' job')
    {result : Except StagingFailure FileReport} (hresult : job'.phase = .done result) :
    result = w.itemResult judge base location job.item := by
  cases result with
  | error failure =>
    obtain ⟨fault, hrefused, rfl⟩ := h.tidy.failure d hmake h.order.sublist hjob hop hresult
    rw [Workbench.itemResult_of_refused hrefused]
  | ok report =>
    cases hop with
    | enter | write | shut | spoil | clear => cases hresult
    | report hphase hall =>
      cases hresult
      have haccepted := (h.tidy.located job hjob).accepted _ _ hphase
      rw [Workbench.itemResult_of_accepted haccepted,
        Job.report_eq (h.judged job hjob) (h.order.slots job hjob) hphase hall]

include hjudge

/-- **A move keeps a batch sound, or ends it with what comes of its items in order.** -/
theorem Sound.move (h : Sound w judge t base location items limit p) (hopen : p.outcome = none)
    (hmove : Move w limit p event p') :
    p'.outcome = none ∧ Sound w judge t base location items limit p' ∨
      ∃ outcome, p'.outcome = some outcome ∧
        Concluded (fun x result => result = w.itemResult judge base location x) items outcome ∧
        ∃ written pending, Leaves w t base location items limit written pending p' := by
  have hcalm : ∀ job ∈ p.jobs, ∀ index crash, ¬ job.Glance w p.tree index (.error crash) := by
    intro job hjob index crash hglance
    have hlocated := h.tidy.located job hjob
    cases hglance with
    | crash hphase hinspector hinspect =>
      exact Job.Glance.ne_crash hjudge hlocated (h.readBytes d hjob hphase) crash
        (.crash hphase hinspector hinspect)
  have horder := h.order.move hopen hmove
    (fun job hjob t' job' hop _ result hresult => h.result d hmake hjob hop hresult) hcalm
  rcases horder with ⟨hopen', horder⟩ | ⟨outcome, hover, hconcluded⟩
  · refine .inl ⟨hopen', horder, h.tidy.move d hmake h.order.sublist hopen' hmove, ?_⟩
    exact h.judged_of_move d hjudge hopen' hmove
  · refine .inr ⟨outcome, hover, hconcluded, ?_⟩
    rcases hmove.outcome_eq_or_finish with heq | ⟨outcome', rfl⟩
    · rw [heq, hopen] at hover
      cases hover
    · exact ⟨_, _, h.tidy.finish d h.order.sublist h.order.room outcome'⟩

end Desk

/-! ## Where it cannot -/

/-- The directory cannot be made for this reason, at the first attempt or, when several jobs are in
flight, at the second. -/
def Denied (w : Workbench ε) (t base : FileTree) (limit : Nat) (reason : Fault) : Prop :=
  (t.makeDirectories w.directory).2 = .error reason ∨
    1 < limit ∧ (base.makeDirectories w.directory).2 = .error reason

/-- What comes of an item without a directory. -/
def DeniedResult (w : Workbench ε) (t base : FileTree) (limit : Nat) (_ : Item)
    (result : Except StagingFailure FileReport) : Prop :=
  ∃ reason, result = .error ⟨w.directory, reason⟩ ∧ Denied w t base limit reason

/-- What holds of a batch under way whose directory cannot be made: no job gets past it, and a job
that has tried is in flight until the end. -/
structure Stuck (w : Workbench ε) (t base : FileTree) (items : List Item) (limit : Nat)
    (p : Progress ε) : Prop where
  order : InOrder w (DeniedResult w t base limit) items limit p
  tree : p.tree = t ∨ p.tree = base ∧ ∃ job ∈ p.jobs, ∃ result, job.phase = .done result
  phases : ∀ job ∈ p.jobs, job.path? = none

theorem Stuck.tree_eq (h : Stuck w t base items limit p) : p.tree = t ∨ p.tree = base :=
  h.tree.imp_right And.left

theorem Stuck.not_inspecting (h : Stuck w t base items limit p) {job : Job} (hjob : job ∈ p.jobs)
    {path : String} {verdicts : List (Option Verdict)} :
    job.phase ≠ .inspecting path verdicts := by
  intro hphase
  have hpath := h.phases job hjob
  simp [Job.path?, hphase] at hpath

/-- Inspectors have nothing to look at. -/
theorem Stuck.not_glance (h : Stuck w t base items limit p) {job : Job} (hjob : job ∈ p.jobs)
    {index : Nat} {result : Except ε Job} : ¬ job.Glance w p.tree index result := by
  intro hglance
  cases hglance with
  | verdict hphase | crash hphase => exact h.not_inspecting hjob hphase

section Denied

variable {fault : Fault} (hmake : t.makeDirectories w.directory = (base, .error fault))

include hmake

/-- No attempt at making the directory gets further than the first one. -/
theorem makeDirectories_denied {tree : FileTree} (h : tree = t ∨ tree = base) :
    ∃ reason, tree.makeDirectories w.directory = (base, .error reason) := by
  rcases h with rfl | rfl
  · exact ⟨fault, hmake⟩
  · exact FileTree.makeDirectories_error hmake

theorem Stuck.operation (h : Stuck w t base items limit p) {job job' : Job} {t' : FileTree}
    (hjob : job ∈ p.jobs) (hop : job.Operation w p.tree t' job') :
    t' = base ∧ ∃ result, job'.phase = .done result ∧
      DeniedResult w t base limit job.item result := by
  have hpath := h.phases job hjob
  cases hop with
  | enter hphase hmakeP =>
    obtain ⟨reason, hdenied⟩ := makeDirectories_denied hmake h.tree_eq
    rw [hdenied] at hmakeP
    cases (Prod.mk.inj hmakeP).2
  | @shut _ reason hphase hmakeP =>
    obtain ⟨reason', hdenied⟩ := makeDirectories_denied hmake h.tree_eq
    have hbase : t' = base := by
      rw [hdenied] at hmakeP
      exact (Prod.mk.inj hmakeP).1.symm
    refine ⟨hbase, _, rfl, reason, rfl, ?_⟩
    rcases h.tree with htree | ⟨htree, other, hother, result, hdone⟩
    · exact .inl (by rw [← htree, hmakeP])
    · -- the job that has tried already is another one, so there is room for two
      refine .inr ⟨?_, by rw [← htree, hmakeP]⟩
      obtain ⟨before, after, hjobs⟩ := List.append_of_mem hjob
      have hne : other ≠ job := by
        rintro rfl
        rw [hdone] at hphase
        cases hphase
      have hroom := h.order.room
      have hpos : 0 < (before ++ after).length := by
        refine List.length_pos_of_mem (a := other) ?_
        rw [hjobs] at hother
        simpa [hne] using hother
      rw [hjobs, List.length_append, List.length_cons] at hroom
      rw [List.length_append] at hpos
      omega
  | write hphase | spoil hphase | clear hphase | report hphase =>
    simp [Job.path?, hphase] at hpath

/-- **A move keeps a batch stuck, or ends it for want of a directory.** -/
theorem Stuck.move (h : Stuck w t base items limit p) (hopen : p.outcome = none)
    (hmove : Move w limit p event p') :
    p'.outcome = none ∧ Stuck w t base items limit p' ∨
      ∃ outcome, p'.outcome = some outcome ∧
        Concluded (DeniedResult w t base limit) items outcome ∧
        (p'.tree = t ∨ p'.tree = base) ∧ p'.late = [] := by
  have horder := h.order.move hopen hmove
    (fun job hjob t' job' hop _ result hresult => by
      obtain ⟨-, result', hresult', hdenied⟩ := h.operation hmake hjob hop
      rw [hresult] at hresult'
      cases hresult'
      exact hdenied)
    (fun job hjob index crash => h.not_glance hjob)
  rcases horder with ⟨hopen', horder⟩ | ⟨outcome, hover, hconcluded⟩
  · suffices hrest : (p'.tree = t ∨
        p'.tree = base ∧ ∃ job ∈ p'.jobs, ∃ result, job.phase = .done result) ∧
        ∀ job ∈ p'.jobs, job.path? = none from .inl ⟨hopen', horder, hrest.1, hrest.2⟩
    cases hmove with
    | @takeUp source place rest hwaiting hroom =>
      refine ⟨h.tree.imp_right ?_, forall_mem_takeUp h.phases rfl⟩
      rintro ⟨htree, job, hjob, hdone⟩
      exact ⟨htree, job, List.mem_append_left _ hjob, hdone⟩
    | @operate before after old new t' hjobs hop =>
      obtain ⟨htree, result, hresult, -⟩ := h.operation hmake (by simp [hjobs]) hop
      refine ⟨.inr ⟨htree, new, by simp, result, hresult⟩, forall_mem_replace hjobs h.phases ?_⟩
      rw [Job.path?, hresult]
    | inspect hjobs hglance => exact absurd hglance (h.not_glance (by simp [hjobs]))
    | handOver hjobs hphase =>
      -- there are no reports to hand over
      obtain ⟨reason, hreason, -⟩ := h.order.results _ (by simp [hjobs]) _ hphase
      cases hreason
    | crash | fail | complete => simp [finish] at hopen'
  · refine .inr ⟨outcome, hover, hconcluded, ?_⟩
    rcases hmove.outcome_eq_or_finish with heq | ⟨outcome', rfl⟩
    · rw [heq, hopen] at hover
      cases hover
    · have hpaths : p.jobs.filterMap (·.path?) = [] := List.filterMap_eq_nil_iff.mpr h.phases
      have hwrites : p.jobs.filterMap (·.submitted?) = [] := by
        refine List.filterMap_eq_nil_iff.mpr fun job hjob => ?_
        have hpath := h.phases job hjob
        unfold Job.submitted?
        split
        · next hphase => simp [Job.path?, hphase] at hpath
        · rfl
      simp only [finish, hpaths, hwrites, List.foldl_nil]
      exact ⟨h.tree_eq, trivial⟩

/-- Without a directory there are no staged files. -/
theorem countP_exists_of_denied {tree : FileTree} (h : tree = t ∨ tree = base)
    (items : List Item) :
    items.countP (fun x => tree.exists? (bytesOf (w.itemPath x))) = 0 := by
  rw [List.countP_eq_zero]
  intro x _ hexists
  obtain ⟨location, hopens⟩ := Workbench.opens_of_exists hexists
  obtain ⟨reason, hdenied⟩ := makeDirectories_denied hmake h
  rw [hopens.makeDirectories] at hdenied
  cases (Prod.mk.inj hdenied).2

end Denied

/-! ## From steps to runs -/

/-- A batch in a directory that can be made: sound until it ends, and then only late writes are
left. -/
inductive SoundSoFar (w : Workbench ε) (judge : Workbench.Judge ε) (t base : FileTree)
    (location : Location) (items : List Item) (limit : Nat) (p : Progress ε) : Prop
  | underWay (hopen : p.outcome = none) (h : Sound w judge t base location items limit p)
  | ended {outcome : Except (Interruption ε) Report} {written pending : List Item}
    (hover : p.outcome = some outcome)
    (hconcluded : Concluded (fun x result => result = w.itemResult judge base location x) items
      outcome)
    (h : Leaves w t base location items limit written pending p)

theorem soundSoFar_of_run (d : w.Desk base location batch.zipIdx) (hjudge : w.JudgedBy judge)
    (hmake : t.makeDirectories w.directory = (base, .ok ())) {events : List Event}
    (hrun : run w limit (.start t batch) events = some p) :
    SoundSoFar w judge t base location batch.zipIdx limit p := by
  have hstart : SoundSoFar w judge t base location batch.zipIdx limit (.start t batch) :=
    .underWay rfl ⟨.start w _ limit t batch, .start w t base location batch, by simp [start]⟩
  refine run_induction (fun {p event p'} _ h hstep => ?_) hstart hrun
  cases h with
  | underWay hopen h =>
    rcases h.move d hjudge hmake hopen (move_of_step hstep hopen) with
      ⟨hopen', h⟩ | ⟨outcome, hover, hconcluded, written, pending, h⟩
    · exact .underWay hopen' h
    · exact .ended hover hconcluded h
  | ended hover hconcluded h =>
    obtain ⟨write, rest, hlate, rfl⟩ := writeLate_of_step hstep hover
    obtain ⟨_, _, -, h⟩ := h.writeLate d hlate
    exact .ended hover hconcluded h

/-- A batch whose directory cannot be made: stuck until it ends, and then nothing is left. -/
inductive StuckSoFar (w : Workbench ε) (t base : FileTree) (items : List Item) (limit : Nat)
    (p : Progress ε) : Prop
  | underWay (hopen : p.outcome = none) (h : Stuck w t base items limit p)
  | ended {outcome : Except (Interruption ε) Report} (hover : p.outcome = some outcome)
    (hconcluded : Concluded (DeniedResult w t base limit) items outcome)
    (htree : p.tree = t ∨ p.tree = base) (hlate : p.late = [])

theorem stuckSoFar_of_run {fault : Fault}
    (hmake : t.makeDirectories w.directory = (base, .error fault)) {events : List Event}
    (hrun : run w limit (.start t batch) events = some p) :
    StuckSoFar w t base batch.zipIdx limit p := by
  have hstart : StuckSoFar w t base batch.zipIdx limit (.start t batch) :=
    .underWay rfl ⟨.start w _ limit t batch, .inl rfl, by simp [start]⟩
  refine run_induction (fun {p event p'} _ h hstep => ?_) hstart hrun
  cases h with
  | underWay hopen h =>
    rcases h.move hmake hopen (move_of_step hstep hopen) with
      ⟨hopen', h⟩ | ⟨outcome, hover, hconcluded, htree, hlate⟩
    · exact .underWay hopen' h
    · exact .ended hover hconcluded htree hlate
  | ended hover hconcluded htree hnone =>
    obtain ⟨write, rest, hlate, rfl⟩ := writeLate_of_step hstep hover
    rw [hnone] at hlate
    cases hlate

/-! ## What a batch comes to -/

/-- What comes of the items in order is what comes of the batch file by file. -/
theorem Concluded.eq_inspect {outcome : Except (Interruption ε) Report}
    (d : w.Desk base location batch.zipIdx) (hjudge : w.JudgedBy judge)
    (hmake : t.makeDirectories w.directory = (base, .ok ()))
    (h : Concluded (fun x result => result = w.itemResult judge base location x) batch.zipIdx
      outcome) :
    outcome = (w.inspect t batch).2 := by
  have hreports {xs : List Item} {reports : List FileReport}
      (h : List.Forall₂ (fun x report => .ok report = w.itemResult judge base location x) xs
        reports) :
      (∀ x ∈ xs, w.itemOutcome judge base location x = .ok (w.reportOn judge x)) ∧
        reports = xs.map (w.reportOn judge) := by
    induction h with
    | nil => simp
    | @cons x report xs reports hx _ ih =>
      obtain ⟨haccepted, rfl⟩ := Workbench.itemResult_eq_ok hx.symm
      refine ⟨fun y hy => ?_, by rw [List.map_cons, ← ih.2]⟩
      rcases List.mem_cons.mp hy with rfl | hy
      · exact Workbench.itemOutcome_of_accepted haccepted
      · exact ih.1 y hy
  rw [d.inspect_eq hjudge hmake]
  cases h with
  | complete h =>
    obtain ⟨hall, rfl⟩ := hreports h
    rw [mapM_eq_ok hall]
    rfl
  | @unstaged front rest x reports failure hitems hfront hfailure =>
    have hx : w.itemOutcome judge base location x = .error (.unstaged failure) := by
      rw [Workbench.itemOutcome, ← hfailure]
      rfl
    rw [hitems, mapM_eq_error (hreports hfront).1 hx]
    rfl

/-- Two batches end because the directory for staged files cannot be made, one with the reason at
the first attempt and the other with the reason at the second. -/
def DeniedTwice (w : Workbench ε) (t : FileTree)
    (first second : Except (Interruption ε) Report) : Prop :=
  ∃ reason again, (t.makeDirectories w.directory).2 = .error reason ∧
    ((t.makeDirectories w.directory).1.makeDirectories w.directory).2 = .error again ∧
    first = .error (.unstaged ⟨w.directory, reason⟩) ∧
    second = .error (.unstaged ⟨w.directory, again⟩)

/-- Without a directory, a batch comes to what it comes to file by file, if not for the reason why
the directory cannot be made then for the reason at the next attempt. -/
theorem Concluded.eq_inspect_of_denied {outcome : Except (Interruption ε) Report} {fault : Fault}
    (hmake : t.makeDirectories w.directory = (base, .error fault))
    (h : Concluded (DeniedResult w t base limit) batch.zipIdx outcome) :
    outcome = (w.inspect t batch).2 ∨
      1 < limit ∧ DeniedTwice w t (w.inspect t batch).2 outcome := by
  have hfront {xs : List Item} {reports : List FileReport}
      (h : List.Forall₂ (fun x report => DeniedResult w t base limit x (.ok report)) xs reports) :
      xs = [] ∧ reports = [] := by
    cases h with
    | nil => exact ⟨rfl, rfl⟩
    | cons hx =>
      obtain ⟨reason, hreason, -⟩ := hx
      cases hreason
  cases h with
  | complete h =>
    obtain ⟨hitems, rfl⟩ := hfront h
    obtain rfl := List.zipIdx_eq_nil_iff.mp hitems
    exact .inl rfl
  | @unstaged front rest x reports failure hitems h hfailure =>
    have hbatch : batch ≠ [] := by
      rintro rfl
      simp at hitems
    obtain ⟨reason, hreason, hdenied⟩ := hfailure
    rw [Except.error.inj hreason, Workbench.inspect_of_makeDirectories_error hmake hbatch]
    rcases hdenied with hdenied | ⟨hlimit, hdenied⟩
    · rw [hmake] at hdenied
      exact .inl (by rw [Except.error.inj hdenied])
    · refine .inr ⟨hlimit, fault, reason, ?_, ?_, rfl, rfl⟩
      · rw [hmake]
      · rw [hmake, hdenied]

/-- A batch that has ended is over or has late writes to carry out. -/
theorem isOver_or_exists_step {outcome : Except (Interruption ε) Report}
    (hended : p.outcome = some outcome) :
    p.isOver = true ∨ ∃ event p', p.step w limit event = some p' := by
  cases hover : p.isOver with
  | true => exact .inl rfl
  | false =>
    exact .inr ⟨p.next, Option.isSome_iff_exists.mp (isSome_step_next_of_ended hended hover)⟩

/-- In a directory that can be made, a batch comes to what it comes to file by file, without too
many files at any moment, and goes on until it is over. -/
theorem SoundSoFar.agrees (d : w.Desk base location batch.zipIdx) (hjudge : w.JudgedBy judge)
    (hmake : t.makeDirectories w.directory = (base, .ok ()))
    (h : SoundSoFar w judge t base location batch.zipIdx limit p) :
    (∀ outcome, p.outcome = some outcome → outcome = (w.inspect t batch).2) ∧
      batch.zipIdx.countP (fun x => p.tree.exists? (bytesOf (w.itemPath x))) ≤ max limit 1 ∧
      (p.isOver = true ∨ ∃ event p', p.step w limit event = some p') := by
  cases h with
  | underWay hopen h =>
    refine ⟨fun outcome hover => ?_,
      h.tidy.countP_exists_le d hmake h.order.sublist h.order.room,
      .inr (h.order.exists_step hopen)⟩
    rw [hopen] at hover
    cases hover
  | ended hover hconcluded h =>
    refine ⟨fun outcome hover' => ?_, h.countP_exists_le d hmake, isOver_or_exists_step hover⟩
    rw [hover] at hover'
    rw [← Option.some.inj hover']
    exact hconcluded.eq_inspect d hjudge hmake

/-- If the directory cannot be made, a batch comes to what it comes to file by file at the first or
at the second attempt, without any file at any moment, and goes on until it is over. -/
theorem StuckSoFar.agrees {fault : Fault}
    (hmake : t.makeDirectories w.directory = (base, .error fault))
    (h : StuckSoFar w t base batch.zipIdx limit p) :
    (∀ outcome, p.outcome = some outcome →
        outcome = (w.inspect t batch).2 ∨
          1 < limit ∧ DeniedTwice w t (w.inspect t batch).2 outcome) ∧
      batch.zipIdx.countP (fun x => p.tree.exists? (bytesOf (w.itemPath x))) = 0 ∧
      (p.isOver = true ∨ ∃ event p', p.step w limit event = some p') := by
  cases h with
  | underWay hopen h =>
    refine ⟨fun outcome hover => ?_, countP_exists_of_denied hmake h.tree_eq _,
      .inr (h.order.exists_step hopen)⟩
    rw [hopen] at hover
    cases hover
  | ended hover hconcluded htree _ =>
    refine ⟨fun outcome hover' => ?_, countP_exists_of_denied hmake htree _,
      isOver_or_exists_step hover⟩
    rw [hover] at hover'
    rw [← Option.some.inj hover']
    exact hconcluded.eq_inspect_of_denied hmake

/-- **A batch comes to the same in every order.** Whatever the limit and whatever order things
happen in, a batch whose inspectors go by the file ends like the same batch inspected file by file:
with a report on each source, in order, if all of them can be staged, and else with the failure of
the first one that cannot. If the directory for staged files cannot be made and several sources are
in flight, the failure may give the reason of a second attempt, since a later source may have made
the first one. At no moment are more files there than sources may be in flight, and the batch goes
on until it is over, which it is after a bounded number of events. -/
theorem run_agrees_with_inspect {events : List Event} (hfresh : w.Fresh t batch)
    (hjudge : w.JudgedBy judge) (hrun : run w limit (.start t batch) events = some p) :
    (∀ outcome, p.outcome = some outcome →
      outcome = (w.inspect t batch).2 ∨
        1 < limit ∧ DeniedTwice w t (w.inspect t batch).2 outcome) ∧
    ((∀ x ∈ batch.zipIdx, ∃ path, (w.stageItem t x).2 = .ok path) →
      ∃ report, (w.inspect t batch).2 = .ok report ∧
        List.Forall₂ (w.ReportsOn judge) batch.zipIdx report.files) ∧
    (∀ before x after failure, batch.zipIdx = before ++ x :: after →
      (∀ y ∈ before, ∃ path, (w.stageItem t y).2 = .ok path) →
      (w.stageItem t x).2 = .error failure →
      (w.inspect t batch).2 = .error (.unstaged failure)) ∧
    batch.zipIdx.countP (fun x => p.tree.exists? (bytesOf (w.itemPath x))) ≤ max limit 1 ∧
    (p.isOver = true ∨ ∃ event p', p.step w limit event = some p') ∧
    events.length ≤ batch.length * (w.inspectors.length + 5) + 1 := by
  have hlength : events.length ≤ batch.length * (w.inspectors.length + 5) + 1 := by
    have hrunLength := length_le_of_run hrun
    simp only [effort, start, List.length_zipIdx, List.map_nil, List.sum_nil, List.length_nil,
      ↓reduceIte] at hrunLength
    omega
  obtain ⟨houtcome, hcount, hgoes⟩ : (∀ outcome, p.outcome = some outcome →
      outcome = (w.inspect t batch).2 ∨
        1 < limit ∧ DeniedTwice w t (w.inspect t batch).2 outcome) ∧
      batch.zipIdx.countP (fun x => p.tree.exists? (bytesOf (w.itemPath x))) ≤ max limit 1 ∧
      (p.isOver = true ∨ ∃ event p', p.step w limit event = some p') := by
    cases hmake : t.makeDirectories w.directory with
    | mk base made =>
      cases made with
      | ok =>
        obtain ⟨location, hopens⟩ := FileTree.makeDirectories_ok hmake
        have d := hfresh.desk hmake hopens
        obtain ⟨houtcome, hrest⟩ := (soundSoFar_of_run d hjudge hmake hrun).agrees d hjudge hmake
        exact ⟨fun outcome hover => .inl (houtcome outcome hover), hrest⟩
      | error fault =>
        obtain ⟨houtcome, hcount, hgoes⟩ := (stuckSoFar_of_run hmake hrun).agrees hmake
        refine ⟨houtcome, ?_, hgoes⟩
        rw [hcount]
        exact Nat.zero_le _
  refine ⟨houtcome, fun h => ?_, fun before x after failure hbatch hbefore hx => ?_, hcount, hgoes,
    hlength⟩
  · refine ⟨_, Workbench.inspect_of_staged hfresh hjudge h, ?_⟩
    rw [List.forall₂_map_right_iff]
    exact List.forall₂_same.mpr fun x _ => w.reportsOn_reportOn judge x
  · exact Workbench.inspect_of_unstaged hfresh hjudge hbatch hbefore hx

/-! ## A batch of two -/

/-- An inspector that passes short files. -/
def sizeInspector : Inspector Empty where
  tool := "size"
  inspect t request := .ok <|
    match t.readBytes (bytesOf request.path) with
    | .ok bytes => ⟨"size", decide (bytes.length < 4), "", []⟩
    | .error reason => .failure "size" reason.message

/-- What the inspector says. -/
def sizeJudge : Workbench.Judge Empty := fun _ _ content _ =>
  ⟨"size", decide ((bytesOf content).length < 4), "", []⟩

/-- A workbench with that inspector; the stamps count the places. -/
def sizeWorkbench : Workbench Empty := ⟨[sizeInspector], "staged", fun place => ⟨place, 0⟩⟩

/-- A batch of which the second source passes. -/
def sizeBatch : List Source := [⟨"a.c", "int a;", .c⟩, ⟨"b.c", "", .c⟩]

/-- The second source enters the directory first and is done first. -/
def sizeOrder : List Event :=
  [.takeUp, .takeUp, .operate 1, .operate 0, .operate 1, .inspected 1 0, .operate 1, .operate 0,
    .inspected 0 0, .operate 0, .handOver, .handOver, .handOver]

theorem sizeWorkbench_judgedBy : sizeWorkbench.JudgedBy sizeJudge := by
  intro i hi t path content language hread
  rw [List.mem_singleton.mp hi]
  simp only [sizeInspector, hread, sizeJudge]

theorem sizeWorkbench_fresh : sizeWorkbench.Fresh ⟨∅, [], ∅⟩ sizeBatch where
  nodup := by decide +kernel
  vacant := by
    have hall : ∀ x ∈ sizeBatch.zipIdx,
        (((⟨∅, [], ∅⟩ : FileTree).makeDirectories sizeWorkbench.directory).1.remove
          (bytesOf (sizeWorkbench.itemPath x))).2 = .error .notFound := by decide +kernel
    exact fun x hx => FileTree.vacant_of_remove (hall x hx) nofun

/-- The second source is done first, and the batch comes to what it comes to in order. -/
theorem run_agrees_with_inspect_second_first :
    ∃ p, run sizeWorkbench 2 (.start ⟨∅, [], ∅⟩ sizeBatch) sizeOrder = some p ∧
      p.outcome = some (sizeWorkbench.inspect ⟨∅, [], ∅⟩ sizeBatch).2 := by
  have hover : (run sizeWorkbench 2 (.start ⟨∅, [], ∅⟩ sizeBatch) sizeOrder).any
      (·.outcome.isSome) = true := by
    decide +kernel
  cases hrun : run sizeWorkbench 2 (.start ⟨∅, [], ∅⟩ sizeBatch) sizeOrder with
  | none => simp [hrun] at hover
  | some p =>
    rw [hrun] at hover
    obtain ⟨outcome, houtcome⟩ := Option.isSome_iff_exists.mp hover
    obtain ⟨hagrees, -⟩ := run_agrees_with_inspect sizeWorkbench_fresh sizeWorkbench_judgedBy hrun
    have hmake : ((⟨∅, [], ∅⟩ : FileTree).makeDirectories sizeWorkbench.directory).2 = .ok () := by
      decide +kernel
    rcases hagrees outcome houtcome with heq | ⟨-, reason, -, hdenied, -⟩
    · exact ⟨p, rfl, by rw [houtcome, heq]⟩
    · rw [hmake] at hdenied
      cases hdenied

/-- The workbench with a directory under a regular file, on a way through one that is missing. -/
def deniedWorkbench : Workbench Empty := ⟨[sizeInspector], "new/../file/x", fun place => ⟨place, 0⟩⟩

/-- A tree with that regular file. -/
def deniedTree : FileTree := ⟨Std.ExtTreeMap.ofList [([bytesOf "file"], Entry.file [])], [], ∅⟩

/-- The second source enters first. -/
def overtaking : List Event := [.takeUp, .takeUp, .operate 1, .operate 0, .handOver]

/-- Not every order leads to the same. Both sources are denied the directory, and the first one is
denied it for another reason if the second one comes before it and makes a part of the way. -/
theorem denied_for_another_reason :
    deniedWorkbench.Fresh deniedTree sizeBatch ∧ deniedWorkbench.JudgedBy sizeJudge ∧
      (deniedWorkbench.inspect deniedTree sizeBatch).2 =
        .error (.unstaged ⟨"new/../file/x", .alreadyExists⟩) ∧
      ∃ p, run deniedWorkbench 2 (.start deniedTree sizeBatch) overtaking = some p ∧
        p.outcome = some (.error (.unstaged ⟨"new/../file/x", .notDirectory⟩)) := by
  have hfresh : deniedWorkbench.Fresh deniedTree sizeBatch := by
    refine ⟨by decide +kernel, ?_⟩
    have hall : ∀ x ∈ sizeBatch.zipIdx,
        ((deniedTree.makeDirectories deniedWorkbench.directory).1.remove
          (bytesOf (deniedWorkbench.itemPath x))).2 = .error .notDirectory := by decide +kernel
    exact fun x hx => FileTree.vacant_of_remove (hall x hx) nofun
  have hinspect : (deniedWorkbench.inspect deniedTree sizeBatch).2 =
      .error (.unstaged ⟨"new/../file/x", .alreadyExists⟩) := by
    decide +kernel
  have hrun : (run deniedWorkbench 2 (.start deniedTree sizeBatch) overtaking).bind (·.outcome) =
      some (.error (.unstaged ⟨"new/../file/x", .notDirectory⟩)) := by
    decide +kernel
  exact ⟨hfresh, sizeWorkbench_judgedBy, hinspect, Option.bind_eq_some_iff.mp hrun⟩

end Progress

end Ripple
