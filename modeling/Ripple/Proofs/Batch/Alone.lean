import Ripple.Proofs.Batch.Schedule
import Ripple.Proofs.Files.Made

/-!
# Batches with one file in flight

When one file at a time is in flight, a batch needs nothing of the stamps but that no staged file
has the path of something that is there already: the file before has been removed when the next
one comes, so even the same stamp will do. `Alone` is what every step keeps where the directory can
be made; where it cannot, `Stuck` does. Either way nothing is left behind but the directory, however
the batch ends, and what comes after the item at which it ends is never taken up (`Moment`).
-/

namespace Ripple

open Text

variable {ε : Type} {w : Workbench ε} {t base : FileTree} {location : Location}
  {items : List Item} {x : Item}

namespace Workbench

/-- A tree that holds one item has one entry more. -/
theorem Holding.eq_put {held : FileTree} (h : w.Holding base location [x] held) :
    held = base.put (w.itemName x :: location) (.file (w.itemContent base location x)) := by
  refine FileTree.ext_getElem? h.workingDirectory h.limits fun place => ?_
  rw [FileTree.getElem?_put]
  split
  · next heq => rw [← heq, h.file x List.mem_cons_self]
  · next hne =>
    refine h.other place fun y hy => ?_
    rw [List.mem_singleton.mp hy]
    exact Ne.symm hne

/-- Once the directory for the staged files has been made, nothing stands where they are to be. -/
def Unoccupied (w : Workbench ε) (t : FileTree) (batch : List Source) : Prop :=
  ∀ x ∈ batch.zipIdx, (t.makeDirectories w.directory).1.Vacant (w.itemPath x)

/-- The batch cannot get past the item: it cannot be staged, or an inspector crashes on its staged
file. -/
inductive FailsAt (w : Workbench ε) (t : FileTree) (x : Item) : Interruption ε → Prop
  | unstaged {failure : StagingFailure} (hstage : (w.stageItem t x).2 = .error failure) :
    FailsAt w t x (.unstaged failure)
  | crashed {staged : FileTree} {path : String} {i : Inspector ε} {crash : ε}
    (hstage : w.stageItem t x = (staged, .ok path)) (hinspector : i ∈ w.inspectors)
    (hcrash : i.inspect staged ⟨path, x.1.language⟩ = .error crash) :
    FailsAt w t x (.crashed crash)

/-- How a batch ends before the items that still wait: with none of them, or with a failure at the
item before them. -/
inductive EndsBefore (w : Workbench ε) (t : FileTree) (items waiting : List Item) :
    Except (Interruption ε) Report → Prop
  | complete {report : Report} (hwaiting : waiting = []) : EndsBefore w t items waiting (.ok report)
  | fails {front : List Item} {x : Item} {interruption : Interruption ε}
    (hitems : items = front ++ x :: waiting) (hfails : w.FailsAt t x interruption) :
    EndsBefore w t items waiting (.error interruption)

end Workbench

open Workbench

namespace Progress

variable {limit : Nat} {p p' : Progress ε} {event : Event} {batch : List Source}

/-! ## Moments -/

/-- Nothing is there that was not there before but directories on the way to that for staged files
and the one staged file: in full while inspectors look at it, and perhaps in part if it could not be
written in full and has not been removed yet. -/
structure LeavesRest (w : Workbench ε) (t : FileTree) (p : Progress ε) : Prop where
  unwritten : (∀ job ∈ p.jobs, ∀ path, ¬job.Written path) → t.OnlyMade w.directory p.tree
  staged : ∀ job ∈ p.jobs, ∀ path verdicts, job.phase = .inspecting path verdicts →
    p.jobs = [job] ∧ path = w.itemPath job.item ∧
      p.tree.readBytes (bytesOf path) = .ok (bytesOf job.source.content) ∧
      ∃ made location, t.OnlyMade w.directory made ∧ made.Opens w.directory location ∧
        made.entries[w.itemName job.item :: location]? = none ∧
        p.tree = made.put (w.itemName job.item :: location) (.file (bytesOf job.source.content))
  spoilt : ∀ job ∈ p.jobs, ∀ path reason, job.phase = .spoilt path reason →
    p.jobs = [job] ∧ path = w.itemPath job.item ∧
      ∃ made location, t.OnlyMade w.directory made ∧ made.Opens w.directory location ∧
        (p.tree = made ∨ made.entries[w.itemName job.item :: location]? = none ∧
          ∃ part, part <+: bytesOf job.source.content ∧
            p.tree = made.put (w.itemName job.item :: location) (.file part))

/-- The batch has ended, and nothing is going on any more. -/
structure Ended (w : Workbench ε) (t : FileTree) (items : List Item) (p : Progress ε)
    (outcome : Except (Interruption ε) Report) : Prop where
  endsBefore : w.EndsBefore t items p.waiting outcome
  jobs : p.jobs = []
  late : p.late = []
  tree : t.OnlyMade w.directory p.tree

/-- The batch is under way and what is to hold meanwhile holds, or it has ended. -/
def UnlessEnded (w : Workbench ε) (t : FileTree) (items : List Item) (I : Progress ε → Prop)
    (p : Progress ε) : Prop :=
  p.outcome = none ∧ I p ∨ ∃ outcome, p.outcome = some outcome ∧ Ended w t items p outcome

/-- What holds at every moment of a batch with one file in flight. -/
structure Moment (w : Workbench ε) (t : FileTree) (items : List Item) (p : Progress ε) : Prop where
  rest : LeavesRest w t p
  queue : ∃ front, items = front ++ (p.jobs.map Job.item ++ p.waiting)
  ended : ∀ outcome, p.outcome = some outcome → Ended w t items p outcome

theorem Ended.moment {outcome : Except (Interruption ε) Report} (hover : p.outcome = some outcome)
    (h : Ended w t items p outcome) : Moment w t items p where
  rest := ⟨fun _ => h.tree, by simp [h.jobs], by simp [h.jobs]⟩
  queue := by
    rw [h.jobs]
    cases h.endsBefore with
    | complete hwaiting => exact ⟨items, by simp [hwaiting]⟩
    | @fails front x interruption hitems => exact ⟨front ++ [x], by simp [hitems]⟩
  ended outcome' hover' := by
    rw [hover] at hover'
    obtain rfl := Option.some.inj hover'
    exact h

/-- After the end nothing happens. -/
theorem Ended.not_step {outcome : Except (Interruption ε) Report}
    (hover : p.outcome = some outcome) (h : Ended w t items p outcome) :
    p.step w limit event ≠ some p' := by
  intro hstep
  obtain ⟨write, rest, hlate, -⟩ := writeLate_of_step hstep hover
  rw [h.late] at hlate
  cases hlate

/-- What every move keeps unless it ends the batch holds of a batch under way. -/
theorem unlessEnded_of_run {I : Progress ε → Prop} {events : List Event}
    (hmove : ∀ {p event p'}, I p → p.outcome = none → Move w limit p event p' →
      UnlessEnded w t items I p')
    (hopen : p.outcome = none) (h : I p) (hrun : p.run w limit events = some p') :
    UnlessEnded w t items I p' := by
  have hstart : UnlessEnded w t items I p := .inl ⟨hopen, h⟩
  refine run_induction (fun {p event p'} _ h hstep => ?_) hstart hrun
  rcases h with ⟨hopen, h⟩ | ⟨outcome, hover, h⟩
  · exact hmove h hopen (move_of_step hstep hopen)
  · exact absurd hstep (h.not_step hover)

theorem UnlessEnded.moment {I : Progress ε → Prop} (h : UnlessEnded w t items I p)
    (hmoment : p.outcome = none → I p → Moment w t items p) : Moment w t items p := by
  rcases h with ⟨hopen, h⟩ | ⟨outcome, hover, h⟩
  · exact hmoment hopen h
  · exact h.moment hover

/-! ## How a batch ends -/

theorem eq_singleton_of_mem {α : Type} {xs : List α} {a : α} (hmem : a ∈ xs)
    (hlength : xs.length ≤ 1) : xs = [a] := by
  obtain ⟨before, after, rfl⟩ := List.append_of_mem hmem
  simp only [List.length_append, List.length_cons] at hlength
  obtain rfl : before = [] := List.length_eq_zero_iff.mp (by omega)
  obtain rfl : after = [] := List.length_eq_zero_iff.mp (by omega)
  rfl

/-- A move that ends a batch with at most one job ends it before the items that wait. -/
theorem Move.endsBefore (hmove : Move w limit p event p') (hopen : p.outcome = none)
    {outcome : Except (Interruption ε) Report} (hover : p'.outcome = some outcome)
    (hroom : p.jobs.length ≤ 1)
    (hqueue : ∃ front, items = front ++ (p.jobs.map Job.item ++ p.waiting))
    (hfailure : ∀ job ∈ p.jobs, ∀ failure, job.phase = .done (.error failure) →
      (w.stageItem t job.item).2 = .error failure)
    (hcrash : ∀ job ∈ p.jobs, ∀ index crash, job.Glance w p.tree index (.error crash) →
      w.FailsAt t job.item (.crashed crash)) :
    w.EndsBefore t items p'.waiting outcome ∧ p'.jobs = [] ∧ p'.late = [] := by
  obtain ⟨front, hitems⟩ := hqueue
  cases hmove with
  | takeUp | operate | inspect | handOver => cases hopen.symm.trans hover
  | @crash before after job index crash hjobs hglance =>
    obtain rfl := Option.some.inj hover
    have hjob : job ∈ p.jobs := by simp [hjobs]
    have hjobs := eq_singleton_of_mem hjob hroom
    rw [hjobs] at hitems
    refine ⟨.fails hitems (hcrash job hjob index crash hglance), rfl, ?_⟩
    cases hglance with
    | crash hphase => simp [finish, hjobs, Job.submitted?, hphase]
  | @fail job rest failure hjobs hphase =>
    obtain rfl := Option.some.inj hover
    have hjob : job ∈ p.jobs := by simp [hjobs]
    have hjobs := eq_singleton_of_mem hjob hroom
    rw [hjobs] at hitems
    refine ⟨.fails hitems (.unstaged (hfailure job hjob failure hphase)), rfl, ?_⟩
    simp [finish, hjobs, Job.submitted?, hphase]
  | complete hjobs hwaiting =>
    obtain rfl := Option.some.inj hover
    refine ⟨.complete hwaiting, rfl, ?_⟩
    simp [finish, hjobs]

/-! ## Where the directory can be made -/

/-- What has been refused is what cannot be staged. -/
def Refusal (w : Workbench ε) (t : FileTree) (x : Item)
    (result : Except StagingFailure FileReport) : Prop :=
  ∀ failure, result = .error failure → (w.stageItem t x).2 = .error failure

/-- What holds of a batch under way, one file at a time, in a directory that can be made. -/
structure Alone (w : Workbench ε) (t base : FileTree) (location : Location) (items : List Item)
    (limit : Nat) (p : Progress ε) : Prop where
  order : InOrder w (Refusal w t) items limit p
  tidy : Tidy w t base location p

theorem InOrder.length_le_one {R : Item → Except StagingFailure FileReport → Prop}
    (h : InOrder w R items limit p) (hlimit : limit ≤ 1) : p.jobs.length ≤ 1 :=
  h.room.trans (Nat.max_le.mpr ⟨hlimit, Nat.le_refl 1⟩)

section Desk

variable (hlimit : limit ≤ 1) (hmake : t.makeDirectories w.directory = (base, .ok ()))
  (hopens : base.Opens w.directory location)
  (hvacant : ∀ x ∈ items, base.Vacant (w.itemPath x))

include hlimit in
/-- A job whose file has been written, in full or in part, is alone with it. -/
theorem Alone.written (h : Alone w t base location items limit p) {job : Job}
    (hjob : job ∈ p.jobs) {path : String} (hwritten : job.Written path) :
    p.jobs = [job] ∧ path = w.itemPath job.item ∧
      w.Holding base location (if w.ItemFits job.item then [job.item] else []) p.tree := by
  have hjobs := eq_singleton_of_mem hjob (h.order.length_le_one hlimit)
  have hlocated := h.tidy.located job hjob
  have hholding := h.tidy.holding hjob hwritten.ne_entering
  rw [hjobs, ← List.nil_append [job],
    Job.holding_iff_of_hasFile_eq (hlocated.hasFile_eq hwritten)] at hholding
  exact ⟨hjobs, hlocated.path path hwritten.path?, hholding⟩

include hlimit in
/-- A job whose file is inspected is alone with it. -/
theorem Alone.staged (h : Alone w t base location items limit p) {job : Job} (hjob : job ∈ p.jobs)
    {path : String} {verdicts : List (Option Verdict)}
    (hphase : job.phase = .inspecting path verdicts) :
    p.jobs = [job] ∧ path = w.itemPath job.item ∧
      w.Holding base location [job.item] p.tree ∧ w.refusal? base location job.item = none := by
  obtain ⟨hjobs, hpath, hholding⟩ := h.written hlimit hjob (.inl ⟨verdicts, hphase⟩)
  have haccepted := (h.tidy.located job hjob).accepted path verdicts hphase
  rw [if_pos (fits_of_accepted haccepted)] at hholding
  exact ⟨hjobs, hpath, hholding, haccepted⟩

include hlimit hopens hvacant

/-- The name of the staged file of a single job is not taken. -/
theorem Alone.desk (h : Alone w t base location items limit p) :
    w.Desk base location (p.jobs.map Job.item) where
  opens := hopens
  nodup := by
    have hroom := h.order.length_le_one hlimit
    match p.jobs, hroom with
    | [], _ => exact List.nodup_nil
    | [job], _ => exact List.nodup_singleton _
  vacant x hx := getElem?_of_vacant hopens (hvacant x (h.order.sublist.subset hx))

include hmake

theorem Alone.refusal (h : Alone w t base location items limit p) {job job' : Job} {t' : FileTree}
    (hjob : job ∈ p.jobs) (hop : job.Operation w p.tree t' job')
    {result : Except StagingFailure FileReport} (hphase' : job'.phase = .done result) :
    Refusal w t job.item result := by
  rintro failure rfl
  have d := h.desk hlimit hopens hvacant
  obtain ⟨fault, hrefused, rfl⟩ := h.tidy.failure d hmake (.refl _) hjob hop hphase'
  rw [(d.stageItem_eq hmake (List.mem_map_of_mem hjob)).2 fault hrefused]

/-- An inspector that crashes does so on the staged file. -/
theorem Alone.failsAt (h : Alone w t base location items limit p) {job : Job} {index : Nat}
    {crash : ε} (hjob : job ∈ p.jobs) (hglance : job.Glance w p.tree index (.error crash)) :
    w.FailsAt t job.item (.crashed crash) := by
  cases hglance with
  | @crash path verdicts i crash hphase hinspector hinspect =>
    obtain ⟨-, rfl, hholding, haccepted⟩ := h.staged hlimit hjob hphase
    have d := h.desk hlimit hopens hvacant
    obtain ⟨staged, hstage, hstaged⟩ :=
      (d.stageItem_eq hmake (List.mem_map_of_mem hjob)).1 haccepted
    rw [hholding.eq_put, ← hstaged.eq_put] at hinspect
    exact .crashed hstage (List.mem_of_getElem? hinspector) hinspect

/-- **A move keeps a single job alone with its file, or ends the batch and leaves nothing.** -/
theorem Alone.move (h : Alone w t base location items limit p) (hopen : p.outcome = none)
    (hmove : Move w limit p event p') :
    UnlessEnded w t items (Alone w t base location items limit) p' := by
  have d := h.desk hlimit hopens hvacant
  have horder := h.order.move_or_crash hopen hmove fun job hjob t' job' hop _ result hphase =>
    h.refusal hlimit hmake hopens hvacant hjob hop hphase
  have hends {outcome : Except (Interruption ε) Report} (hover : p'.outcome = some outcome) :
      Ended w t items p' outcome := by
    obtain ⟨hbefore, hjobs, hlate⟩ := hmove.endsBefore hopen hover
      (h.order.length_le_one hlimit) (h.order.queue.imp fun _ hfront => hfront.1)
      (fun job hjob failure hphase => h.order.results job hjob _ hphase failure rfl)
      (fun job hjob index crash hglance => h.failsAt hlimit hmake hopens hvacant hjob hglance)
    refine ⟨hbefore, hjobs, hlate, ?_⟩
    rcases hmove.outcome_eq_or_finish with heq | ⟨outcome', rfl⟩
    · cases hopen.symm.trans (heq.symm.trans hover)
    · -- the file of the job, if there is one, has been removed
      have hleaves := h.tidy.finish d (.refl _) h.order.room outcome'
      rcases hleaves.tree with ⟨htree, -⟩ | hholding
      · rw [htree]
        exact .refl t w.directory
      · have honly := t.onlyMade_makeDirectories w.directory
        rwa [hmake, ← hholding.eq_base] at honly
  rcases horder with ⟨hopen', horder⟩ | ⟨outcome, hover, -⟩ | ⟨job, hjob, index, crash, -, rfl⟩
  · exact .inl ⟨hopen', horder, h.tidy.move d hmake (.refl _) hopen' hmove⟩
  · exact .inr ⟨outcome, hover, hends hover⟩
  · exact .inr ⟨_, rfl, hends rfl⟩

theorem Alone.moment (h : Alone w t base location items limit p) (hopen : p.outcome = none) :
    Moment w t items p where
  rest := by
    have d := h.desk hlimit hopens hvacant
    have honly := FileTree.onlyMade_of_eq hmake (.inr rfl)
    refine ⟨fun hnone => ?_, fun job hjob path verdicts hphase => ?_,
      fun job hjob path reason hphase => ?_⟩
    · refine FileTree.onlyMade_of_eq hmake (h.tidy.tree.imp And.left fun hholding => ?_)
      rw [Job.heldItems_eq_nil fun job hjob => Job.hasFile_eq_false (hnone job hjob)] at hholding
      exact hholding.eq_base
    · obtain ⟨hjobs, rfl, hholding, haccepted⟩ := h.staged hlimit hjob hphase
      have hitem := List.mem_map_of_mem (f := Job.item) hjob
      have hfits := fits_of_accepted haccepted
      have hput := hholding.eq_put
      have hread := d.readBytes hholding (List.forall_mem_singleton.mpr ⟨hitem, hfits⟩)
        List.mem_cons_self
      rw [itemContent_of_accepted haccepted] at hput hread
      exact ⟨hjobs, rfl, hread, base, location, honly, hopens, d.vacant _ hitem hfits, hput⟩
    · obtain ⟨hjobs, hpath, hholding⟩ := h.written hlimit hjob (.inr ⟨reason, hphase⟩)
      refine ⟨hjobs, hpath, base, location, honly, hopens, ?_⟩
      split at hholding
      · next hfits =>
        have hvacant := d.vacant _ (List.mem_map_of_mem hjob) hfits
        exact .inr ⟨hvacant, _, base.kept_isPrefix _ _, hholding.eq_put⟩
      · exact .inl hholding.eq_base
  queue := h.order.queue.imp fun _ hfront => hfront.1
  ended outcome hover := by cases hopen.symm.trans hover

end Desk

/-! ## Where it cannot -/

section Denied

variable (hlimit : limit ≤ 1) {fault : Fault}
  (hmake : t.makeDirectories w.directory = (base, .error fault))

include hmake

theorem Stuck.moment (h : Stuck w t base items limit p) (hopen : p.outcome = none) :
    Moment w t items p where
  rest := by
    refine ⟨fun _ => FileTree.onlyMade_of_eq hmake h.tree_eq,
      fun job hjob path verdicts hphase => absurd hphase (h.not_inspecting hjob),
      fun job hjob path reason hphase => ?_⟩
    have hpath := h.phases job hjob
    simp [Job.path?, hphase] at hpath
  queue := h.order.queue.imp fun _ hfront => hfront.1
  ended outcome hover := by cases hopen.symm.trans hover

include hlimit in
/-- **A move keeps a batch stuck, or ends it and leaves nothing.** -/
theorem Stuck.move_alone (h : Stuck w t base items limit p) (hopen : p.outcome = none)
    (hmove : Move w limit p event p') :
    UnlessEnded w t items (Stuck w t base items limit) p' := by
  rcases h.move hmake hopen hmove with hstuck | ⟨outcome, hover, -, htree, -⟩
  · exact .inl hstuck
  · obtain ⟨hbefore, hjobs, hlate⟩ := hmove.endsBefore (t := t) hopen hover
      (h.order.length_le_one hlimit) (h.order.queue.imp fun _ hfront => hfront.1)
      (fun job hjob failure hphase => by
        obtain ⟨reason, hresult, hdenied⟩ := h.order.results job hjob _ hphase
        rcases hdenied with hdenied | ⟨htwo, -⟩
        · rw [hmake] at hdenied
          rw [Except.error.inj hresult, stageItem, FileTree.stage, hmake]
          rw [Except.error.inj hdenied]
        · omega)
      (fun job hjob index crash hglance => absurd hglance (h.not_glance hjob))
    exact .inr ⟨outcome, hover, hbefore, hjobs, hlate, FileTree.onlyMade_of_eq hmake htree⟩

end Denied

/-! ## Every moment -/

/-- **At every moment of a batch with one file in flight only that file is there.** -/
theorem moment_of_run {events : List Event} (hlimit : limit ≤ 1) (hvacant : w.Unoccupied t batch)
    (hrun : run w limit (.start t batch) events = some p) : Moment w t batch.zipIdx p := by
  cases hmake : t.makeDirectories w.directory with
  | mk base made =>
    rw [Unoccupied, hmake] at hvacant
    cases made with
    | ok =>
      obtain ⟨location, hopens⟩ := FileTree.makeDirectories_ok hmake
      have h := unlessEnded_of_run (fun h => h.move hlimit hmake hopens hvacant) rfl
        (⟨.start .., .start ..⟩ : Alone w t base location batch.zipIdx limit (.start t batch)) hrun
      exact h.moment fun hopen h => h.moment hlimit hmake hopens hvacant hopen
    | error fault =>
      have hstart : Stuck w t base batch.zipIdx limit (.start t batch) :=
        ⟨.start .., .inl rfl, by simp [start]⟩
      have h := unlessEnded_of_run (fun h => h.move_alone hlimit hmake) rfl hstart hrun
      exact h.moment fun hopen h => h.moment hmake hopen

/-- Items that wait are taken up in order. -/
theorem waiting_suffix_of_run {events : List Event} (hrun : p.run w limit events = some p') :
    p'.waiting <:+ p.waiting := by
  refine run_induction (I := fun q => q.waiting <:+ p.waiting) (fun {q event q'} _ h hstep => ?_)
    (List.suffix_refl _) hrun
  cases hover : q.outcome with
  | none =>
    cases move_of_step hstep hover with
    | takeUp hwaiting =>
      rw [hwaiting] at h
      exact (List.suffix_cons _ _).trans h
    | operate | inspect | crash | handOver | fail | complete => exact h
  | some outcome =>
    obtain ⟨write, rest, -, rfl⟩ := writeLate_of_step hstep hover
    exact h

theorem nodup_zipIdx (batch : List Source) : batch.zipIdx.Nodup := by
  refine List.Nodup.of_map Prod.snd ?_
  rw [List.zipIdx_map_snd]
  exact List.nodup_range'

/-- An item that still waits later is not in flight now. -/
theorem Moment.not_waiting (h : Moment w t batch.zipIdx p) {waiting : List Item}
    (hwaiting : waiting <:+ p.waiting) {job : Job} (hjob : job ∈ p.jobs) : job.item ∉ waiting := by
  obtain ⟨front, hitems⟩ := h.queue
  have hnodup := nodup_zipIdx batch
  rw [hitems] at hnodup
  intro hmem
  exact List.disjoint_of_nodup_append hnodup.of_append_right (List.mem_map_of_mem hjob)
    (hwaiting.subset hmem)

end Progress

/-! ## File by file -/

namespace Workbench

variable {batch : List Source} {place : Nat} {source : Source}

/-- What is there after a report is what is there once the directory has been made. -/
theorem report_fst
    (hvacant : (t.makeDirectories w.directory).1.Vacant (w.itemPath (source, place))) :
    (w.report t place source).1 = (t.makeDirectories w.directory).1 := by
  cases hmake : t.makeDirectories w.directory with
  | mk base made =>
    rw [hmake] at hvacant
    cases made with
    | error fault => simp only [report, FileTree.stage, hmake]
    | ok =>
      obtain ⟨location, hopens⟩ := FileTree.makeDirectories_ok hmake
      have d : w.Desk base location [(source, place)] :=
        ⟨hopens, List.nodup_singleton _, fun x hx hfits =>
          getElem?_of_vacant hopens (List.mem_singleton.mp hx ▸ hvacant) hfits⟩
      obtain ⟨hstaged, hrefused⟩ := d.stageItem_eq hmake List.mem_cons_self
      rw [stageItem] at hstaged hrefused
      cases hrefusal : w.refusal? base location (source, place) with
      | none =>
        obtain ⟨staged, hstage, hholding⟩ := hstaged hrefusal
        simp only [report, hstage]
        exact (d.unstage hholding (by simp [fits_of_accepted hrefusal]) (by simp)).eq_base
      | some fault => simp only [report, hrefused fault hrefusal]

/-- What is there after some reports is what was there, or what is there once the directory has been
made. -/
theorem reportsFrom_fst (hvacant : ∀ x ∈ batch.zipIdx place,
    (t.makeDirectories w.directory).1.Vacant (w.itemPath x)) :
    (w.reportsFrom t place batch).1 = t ∨
      (w.reportsFrom t place batch).1 = (t.makeDirectories w.directory).1 := by
  induction batch generalizing t place with
  | nil => exact .inl rfl
  | cons source rest ih =>
    rw [List.zipIdx_cons] at hvacant
    have hreport := report_fst (hvacant _ List.mem_cons_self)
    refine .inr ?_
    rw [reportsFrom]
    split
    · next t₁ interruption heq => rw [← hreport, heq]
    · next t₁ report heq =>
      -- the rest begins with the directory made, and then it is not made again
      obtain rfl : t₁ = (t.makeDirectories w.directory).1 := by rw [← hreport, heq]
      have hagain := FileTree.makeDirectories_again t w.directory
      have hrest := ih (by
        rw [hagain]
        exact fun x hx => hvacant x (List.mem_cons_of_mem _ hx))
      rwa [hagain, or_self] at hrest

/-- **A batch leaves nothing but the directory behind.** -/
theorem inspect_onlyMade (hvacant : w.Unoccupied t batch) :
    t.OnlyMade w.directory (w.inspect t batch).1 :=
  FileTree.onlyMade_of_eq rfl (reportsFrom_fst hvacant)

end Workbench

end Ripple
