import Ripple.Proofs.Batch.Queue

/-!
# The files of a batch under way

While a batch is under way, the tree is the one that it began with or that tree with the directory
for staged files, and then exactly the files of the jobs under inspection are there (`Tidy`). When
the batch ends, all of them are removed, and the writes that nobody waits for any more put back at
most one file for each job (`Leaves`). In both cases no more than `max limit 1` files are there.
-/

namespace Ripple

open Text

variable {ε : Type} {w : Workbench ε}

namespace Job

/-- The file of the job has been made: it is inspected, or a part of it has been written. -/
def hasFile (w : Workbench ε) (job : Job) : Bool :=
  match job.phase with
  | .inspecting _ _ => true
  | .spoilt _ _ => decide (w.ItemFits job.item)
  | .entering | .writing _ | .done _ => false

/-- The write of the job's file has been carried out, in full or in part. -/
def Written (job : Job) (path : String) : Prop :=
  (∃ verdicts, job.phase = .inspecting path verdicts) ∨ ∃ reason, job.phase = .spoilt path reason

theorem Written.path? {job : Job} {path : String} (h : job.Written path) :
    job.path? = some path := by
  rcases h with ⟨verdicts, hphase⟩ | ⟨reason, hphase⟩ <;> simp [Job.path?, hphase]

theorem Written.ne_entering {job : Job} {path : String} (h : job.Written path) :
    job.phase ≠ .entering := by
  rcases h with ⟨verdicts, hphase⟩ | ⟨reason, hphase⟩ <;> simp [hphase]

/-- The staged file of the job is that of its item, which has been accepted if it is inspected and
refused if it is spoilt. -/
structure Located (w : Workbench ε) (base : FileTree) (location : Location) (job : Job) :
    Prop where
  path : ∀ path, job.path? = some path → path = w.itemPath job.item
  accepted : ∀ path verdicts, job.phase = .inspecting path verdicts →
    w.refusal? base location job.item = none
  refused : ∀ path reason, job.phase = .spoilt path reason →
    w.refusal? base location job.item = some reason

theorem located_of_path?_eq_none {base : FileTree} {location : Location} {job : Job}
    (h : job.path? = none) : job.Located w base location where
  path := by simp [h]
  accepted path verdicts hphase := by simp [path?, hphase] at h
  refused path reason hphase := by simp [path?, hphase] at h

/-- The items whose files have been made. -/
def heldItems (w : Workbench ε) (jobs : List Job) : List Item :=
  (jobs.filter (·.hasFile w)).map Job.item

variable {base : FileTree} {location : Location} {before after jobs : List Job} {job : Job}
  {x : Item} {path : String}

theorem heldItems_sublist (w : Workbench ε) (jobs : List Job) :
    (heldItems w jobs).Sublist (jobs.map Job.item) := List.filter_sublist.map _

theorem heldItems_of_not_hasFile (h : job.hasFile w = false) :
    heldItems w (before ++ job :: after) = heldItems w (before ++ after) := by
  simp [heldItems, List.filter_append, h]

theorem mem_heldItems_of_hasFile (h : job.hasFile w = true) :
    x ∈ heldItems w (before ++ job :: after) ↔ x ∈ job.item :: heldItems w (before ++ after) := by
  simp only [heldItems, List.filter_append, List.filter_cons_of_pos h, List.map_append,
    List.map_cons, List.mem_append, List.mem_cons]
  constructor
  · rintro (hx | hx | hx) <;> simp [hx]
  · rintro (hx | hx | hx) <;> simp [hx]

theorem heldItems_eq_nil (h : ∀ job ∈ jobs, job.hasFile w = false) : heldItems w jobs = [] := by
  rw [heldItems, List.map_eq_nil_iff, List.filter_eq_nil_iff]
  intro job hjob
  simp [h job hjob]

/-- A job that has a file has an item that fits. -/
theorem Located.fits (h : job.Located w base location) (hfile : job.hasFile w = true) :
    w.ItemFits job.item := by
  unfold hasFile at hfile
  split at hfile
  · next path verdicts hphase => exact Workbench.fits_of_accepted (h.accepted path verdicts hphase)
  · exact of_decide_eq_true hfile
  · cases hfile
  · cases hfile
  · cases hfile

/-- Once its write has been carried out, a job has a file if its item fits. -/
theorem Located.hasFile_eq (h : job.Located w base location) (hwritten : job.Written path) :
    job.hasFile w = decide (w.ItemFits job.item) := by
  rcases hwritten with ⟨verdicts, hphase⟩ | ⟨reason, hphase⟩
  · have hfits := Workbench.fits_of_accepted (h.accepted path verdicts hphase)
    simp [hasFile, hphase, hfits]
  · simp [hasFile, hphase]

/-- A job whose write has not been carried out has no file. -/
theorem hasFile_eq_false (h : ∀ path, ¬job.Written path) : job.hasFile w = false := by
  unfold hasFile
  split
  · next path verdicts hphase => exact absurd (.inl ⟨verdicts, hphase⟩) (h path)
  · next path reason hphase => exact absurd (.inr ⟨reason, hphase⟩) (h path)
  · rfl
  · rfl
  · rfl

/-- Held items are items of the batch, and fit. -/
theorem heldItems_fit {items : List Item} (hlocated : ∀ job ∈ jobs, job.Located w base location)
    (hitems : (jobs.map Job.item).Sublist items) :
    ∀ x ∈ heldItems w jobs, x ∈ items ∧ w.ItemFits x := by
  intro x hx
  refine ⟨hitems.subset ((heldItems_sublist w _).subset hx), ?_⟩
  obtain ⟨job, hjob, rfl⟩ := List.mem_map.mp hx
  obtain ⟨hjob, hfile⟩ := List.mem_filter.mp hjob
  exact (hlocated job hjob).fits hfile

/-- Where a job has a file if its item fits, the item is held if it fits. -/
theorem holding_iff_of_hasFile_eq {t : FileTree}
    (h : job.hasFile w = decide (w.ItemFits job.item)) :
    w.Holding base location (heldItems w (before ++ job :: after)) t ↔
      w.Holding base location
        (if w.ItemFits job.item then job.item :: heldItems w (before ++ after)
          else heldItems w (before ++ after)) t := by
  split
  · next hfits =>
    rw [decide_eq_true hfits] at h
    exact ⟨fun hholding => hholding.congr fun x => (mem_heldItems_of_hasFile h).symm,
      fun hholding => hholding.congr fun x => mem_heldItems_of_hasFile h⟩
  · next hfits =>
    rw [decide_eq_false hfits] at h
    rw [heldItems_of_not_hasFile h]

/-- The item of a job is not among those of the others. -/
theorem item_not_mem_heldItems (w : Workbench ε)
    (h : ((before ++ job :: after).map Job.item).Nodup) :
    job.item ∉ heldItems w (before ++ after) := by
  intro hmem
  have hothers := (heldItems_sublist w _).subset hmem
  rw [List.map_append, List.map_cons, List.nodup_middle, List.nodup_cons] at h
  rw [List.map_append] at hothers
  exact h.1 hothers

end Job

/-- Jobs for different items of a batch have different items. -/
theorem Workbench.Desk.nodup_jobs {base : FileTree} {location : Location} {items : List Item}
    {jobs : List Job} (d : w.Desk base location items)
    (hitems : (jobs.map Job.item).Sublist items) : (jobs.map Job.item).Nodup :=
  hitems.nodup d.nodup.of_map

namespace Progress

open Job (heldItems)

variable {t base : FileTree} {location : Location} {items : List Item} {limit : Nat}
  {p p' : Progress ε} {event : Event}

/-! ## Before the end -/

/-- Either nothing has been done to the tree, or the directory is there and with it the files of the
jobs under inspection and nothing else. -/
structure Tidy (w : Workbench ε) (t base : FileTree) (location : Location) (p : Progress ε) :
    Prop where
  located : ∀ job ∈ p.jobs, job.Located w base location
  tree : p.tree = t ∧ (∀ job ∈ p.jobs, job.phase = .entering) ∨
    w.Holding base location (heldItems w p.jobs) p.tree

theorem Tidy.start (w : Workbench ε) (t base : FileTree) (location : Location)
    (batch : List Source) : Tidy w t base location (.start t batch) where
  located := by simp [Progress.start]
  tree := .inl ⟨rfl, by simp [Progress.start]⟩

theorem Tidy.heldItems (h : Tidy w t base location p)
    (hitems : (p.jobs.map Job.item).Sublist items) :
    ∀ x ∈ Job.heldItems w p.jobs, x ∈ items ∧ w.ItemFits x :=
  Job.heldItems_fit h.located hitems

/-- Once a job has got past its directory, the files are those under inspection. -/
theorem Tidy.holding (h : Tidy w t base location p) {job : Job} (hjob : job ∈ p.jobs)
    (hphase : job.phase ≠ .entering) :
    w.Holding base location (Job.heldItems w p.jobs) p.tree := by
  rcases h.tree with ⟨-, hall⟩ | hholding
  · exact absurd (hall job hjob) hphase
  · exact hholding

/-- A job may be replaced by what has become of it. -/
theorem Tidy.replace (h : Tidy w t base location p) {before after : List Job} {job job' : Job}
    {t' : FileTree} (hjobs : p.jobs = before ++ job :: after)
    (hlocated : job'.Located w base location)
    (hholding : w.Holding base location (Job.heldItems w (before ++ job' :: after)) t') :
    Tidy w t base location { p with tree := t', jobs := before ++ job' :: after } where
  located := forall_mem_replace hjobs h.located hlocated
  tree := .inr hholding

section Desk

variable (d : w.Desk base location items)

include d

/-- Entering the directory makes it, the first time. -/
theorem Tidy.enter (hmake : t.makeDirectories w.directory = (base, .ok ()))
    (h : Tidy w t base location p) (hitems : (p.jobs.map Job.item).Sublist items) :
    ∃ t', p.tree.makeDirectories w.directory = (t', .ok ()) ∧
      w.Holding base location (Job.heldItems w p.jobs) t' := by
  rcases h.tree with ⟨htree, hall⟩ | hholding
  · rw [Job.heldItems_eq_nil fun job hjob => by simp [Job.hasFile, hall job hjob], htree]
    exact ⟨base, hmake, .start⟩
  · have hopens := d.opens_of_holding hholding (h.heldItems hitems)
    exact ⟨p.tree, hopens.makeDirectories, hholding⟩

/-- What a write comes to: it fails if the item is refused, and the file is there if it fits. -/
theorem Tidy.write (h : Tidy w t base location p) (hitems : (p.jobs.map Job.item).Sublist items)
    {before after : List Job} {job : Job} {path : String}
    (hjobs : p.jobs = before ++ job :: after) (hphase : job.phase = .writing path) :
    path = w.itemPath job.item ∧ ∃ t',
      p.tree.write (bytesOf path) (bytesOf job.source.content) =
          (t', match w.refusal? base location job.item with
            | none => .ok ()
            | some reason => .error reason) ∧
        w.Holding base location
          (if w.ItemFits job.item then job.item :: Job.heldItems w (before ++ after)
            else Job.heldItems w (before ++ after)) t' := by
  have hjob : job ∈ p.jobs := by simp [hjobs]
  have hholding := h.holding hjob (by simp [hphase])
  have hheld := h.heldItems hitems
  obtain rfl := (h.located job hjob).path path (by simp [Job.path?, hphase])
  have hnot := Job.item_not_mem_heldItems w (hjobs ▸ d.nodup_jobs hitems)
  have hitem : job.item ∈ items := hitems.subset (List.mem_map_of_mem hjob)
  rw [hjobs, Job.heldItems_of_not_hasFile (by simp [Job.hasFile, hphase])] at hholding hheld
  exact ⟨rfl, d.write hholding hheld hitem hnot⟩

/-- Removing the file of a job whose write has been carried out leaves the other files. -/
theorem Tidy.unstage (h : Tidy w t base location p) (hitems : (p.jobs.map Job.item).Sublist items)
    {before after : List Job} {job : Job} {path : String} (hjobs : p.jobs = before ++ job :: after)
    (hwritten : job.Written path) :
    w.Holding base location (Job.heldItems w (before ++ after)) (p.tree.unstage path) := by
  have hjob : job ∈ p.jobs := by simp [hjobs]
  have hlocated := h.located job hjob
  have hholding := h.holding hjob hwritten.ne_entering
  have hheld := h.heldItems hitems
  obtain rfl := hlocated.path path hwritten.path?
  have hnot := Job.item_not_mem_heldItems w (hjobs ▸ d.nodup_jobs hitems)
  have hitem : job.item ∈ items := hitems.subset (List.mem_map_of_mem hjob)
  have hothers : (before ++ after).Sublist p.jobs := by
    rw [hjobs]
    exact (List.Sublist.refl before).append (List.sublist_cons_self job after)
  rw [hjobs, Job.holding_iff_of_hasFile_eq (hlocated.hasFile_eq hwritten)] at hholding
  exact d.unstage_written (fun y hy => hheld y (((hothers.filter _).map _).subset hy)) hitem hnot
    hholding

/-- **A file operation keeps the tree tidy.** -/
theorem Tidy.operation (hmake : t.makeDirectories w.directory = (base, .ok ()))
    (h : Tidy w t base location p) (hitems : (p.jobs.map Job.item).Sublist items)
    {before after : List Job} {job job' : Job} {t' : FileTree}
    (hjobs : p.jobs = before ++ job :: after) (hop : job.Operation w p.tree t' job') :
    Tidy w t base location { p with tree := t', jobs := before ++ job' :: after } := by
  cases hop with
  | enter hphase hmakeP =>
    obtain ⟨t'', hentered, hholding⟩ := h.enter d hmake hitems
    rw [hmakeP] at hentered
    obtain rfl := (Prod.mk.inj hentered).1
    refine h.replace hjobs ⟨by simp [Job.path?, Job.item], ?_, ?_⟩ ?_
    · rintro _ _ ⟨⟩
    · rintro _ _ ⟨⟩
    rw [hjobs, Job.heldItems_of_not_hasFile (by simp [Job.hasFile, hphase])] at hholding
    rwa [Job.heldItems_of_not_hasFile rfl]
  | shut hphase hmakeP =>
    obtain ⟨t'', hentered, -⟩ := h.enter d hmake hitems
    rw [hmakeP] at hentered
    cases (Prod.mk.inj hentered).2
  | write hphase hwrite =>
    obtain ⟨rfl, t'', hwritten, hholding⟩ := h.write d hitems hjobs hphase
    cases hrefusal : w.refusal? base location job.item with
    | none =>
      rw [hwrite, hrefusal] at hwritten
      obtain rfl := (Prod.mk.inj hwritten).1
      rw [if_pos (Workbench.fits_of_accepted hrefusal)] at hholding
      refine h.replace hjobs ⟨by simp [Job.path?, Job.item], fun _ _ _ => hrefusal, ?_⟩ ?_
      · rintro _ _ ⟨⟩
      exact hholding.congr fun x => Job.mem_heldItems_of_hasFile rfl
    | some fault =>
      rw [hwrite, hrefusal] at hwritten
      cases (Prod.mk.inj hwritten).2
  | @spoil t' path reason hphase hwrite =>
    obtain ⟨rfl, t'', hwritten, hholding⟩ := h.write d hitems hjobs hphase
    cases hrefusal : w.refusal? base location job.item with
    | none =>
      rw [hwrite, hrefusal] at hwritten
      cases (Prod.mk.inj hwritten).2
    | some fault =>
      rw [hwrite, hrefusal] at hwritten
      obtain ⟨rfl, hreason⟩ := Prod.mk.inj hwritten
      obtain rfl := Except.error.inj hreason
      refine h.replace hjobs ⟨by simp [Job.path?, Job.item], ?_, ?_⟩ ?_
      · rintro _ _ ⟨⟩
      · rintro _ _ ⟨⟩
        exact hrefusal
      · rwa [Job.holding_iff_of_hasFile_eq rfl]
  | clear hphase =>
    refine h.replace hjobs (Job.located_of_path?_eq_none rfl) ?_
    rw [Job.heldItems_of_not_hasFile rfl]
    exact h.unstage d hitems hjobs (.inr ⟨_, hphase⟩)
  | report hphase hall =>
    refine h.replace hjobs (Job.located_of_path?_eq_none rfl) ?_
    rw [Job.heldItems_of_not_hasFile rfl]
    exact h.unstage d hitems hjobs (.inl ⟨_, hphase⟩)

/-- Only a refusal of its item keeps a job from its report. -/
theorem Tidy.failure (hmake : t.makeDirectories w.directory = (base, .ok ()))
    (h : Tidy w t base location p) (hitems : (p.jobs.map Job.item).Sublist items)
    {job job' : Job} {t' : FileTree} {failure : StagingFailure} (hjob : job ∈ p.jobs)
    (hop : job.Operation w p.tree t' job') (hphase' : job'.phase = .done (.error failure)) :
    ∃ fault, w.refusal? base location job.item = some fault ∧
      failure = ⟨w.itemPath job.item, fault⟩ := by
  cases hop with
  | enter | write | spoil | report => cases hphase'
  | shut hphase hmakeP =>
    -- a directory that could be made once is there
    obtain ⟨t'', hentered, -⟩ := h.enter d hmake hitems
    rw [hmakeP] at hentered
    cases (Prod.mk.inj hentered).2
  | @clear path reason hphase =>
    cases hphase'
    have hlocated := h.located job hjob
    obtain rfl := hlocated.path path (by rw [Job.path?, hphase])
    exact ⟨reason, hlocated.refused _ reason hphase, rfl⟩

/-- **A move that does not end the batch keeps the tree tidy.** -/
theorem Tidy.move (hmake : t.makeDirectories w.directory = (base, .ok ()))
    (h : Tidy w t base location p) (hitems : (p.jobs.map Job.item).Sublist items)
    (hopen : p'.outcome = none) (hmove : Move w limit p event p') : Tidy w t base location p' := by
  cases hmove with
  | @takeUp source place rest hwaiting hroom =>
    refine ⟨forall_mem_takeUp h.located (Job.located_of_path?_eq_none rfl), ?_⟩
    rcases h.tree with ⟨htree, hall⟩ | hholding
    · exact .inl ⟨htree, forall_mem_takeUp hall rfl⟩
    · refine .inr ?_
      rw [Job.heldItems_of_not_hasFile rfl, List.append_nil]
      exact hholding
  | operate hjobs hop => exact h.operation d hmake hitems hjobs hop
  | @inspect before after job job' index hjobs hglance =>
    cases hglance with
    | verdict hphase =>
      have hjob : job ∈ p.jobs := by simp [hjobs]
      have hfile : job.hasFile w = true := by simp [Job.hasFile, hphase]
      have hholding := h.holding hjob (by simp [hphase])
      have hlocated := h.located job hjob
      have hpath := hlocated.path _ (by rw [Job.path?, hphase])
      refine h.replace hjobs ⟨?_, fun _ _ _ => hlocated.accepted _ _ hphase, nofun⟩ ?_
      · rintro _ ⟨⟩
        exact hpath
      · rw [hjobs] at hholding
        refine hholding.congr fun x => ?_
        rw [Job.mem_heldItems_of_hasFile hfile, Job.mem_heldItems_of_hasFile rfl]
        rfl
  | @handOver job rest report hjobs hphase =>
    have hothers : ∀ other ∈ rest, other ∈ p.jobs := fun other hother => by simp [hjobs, hother]
    refine ⟨fun other hother => h.located other (hothers other hother), ?_⟩
    rcases h.tree with ⟨htree, hall⟩ | hholding
    · exact .inl ⟨htree, fun other hother => hall other (hothers other hother)⟩
    · refine .inr ?_
      rw [hjobs, ← List.nil_append (job :: rest),
        Job.heldItems_of_not_hasFile (by simp [Job.hasFile, hphase])] at hholding
      exact hholding
  | crash | fail | complete => simp [finish] at hopen

/-- **No more than `max limit 1` files are there.** -/
theorem Tidy.countP_exists_le (hmake : t.makeDirectories w.directory = (base, .ok ()))
    (h : Tidy w t base location p) (hitems : (p.jobs.map Job.item).Sublist items)
    (hroom : p.jobs.length ≤ max limit 1) :
    items.countP (fun x => p.tree.exists? (bytesOf (w.itemPath x))) ≤ max limit 1 := by
  rcases h.tree with ⟨htree, -⟩ | hholding
  · rw [htree, d.countP_exists_eq_zero hmake]
    exact Nat.zero_le _
  · refine (d.countP_exists_le hholding (h.heldItems hitems)).trans (Nat.le_trans ?_ hroom)
    have hlength := (Job.heldItems_sublist w p.jobs).length_le
    rwa [List.length_map] at hlength

end Desk

/-! ## After the end -/

/-- The write that has been submitted for an item. -/
def lateWrite (w : Workbench ε) (x : Item) : LateWrite := ⟨w.itemPath x, x.1.content⟩

/-- The items whose writes have been submitted and not been carried out. -/
def pendingItems (jobs : List Job) : List Item :=
  (jobs.filter (·.submitted?.isSome)).map Job.item

/-- After the end, the files of the written items are there and nothing else, and the late writes
are those of the pending items. -/
structure Leaves (w : Workbench ε) (t base : FileTree) (location : Location) (items : List Item)
    (limit : Nat) (written pending : List Item) (p : Progress ε) : Prop where
  nodup : (written ++ pending).Nodup
  mem_items : ∀ x ∈ written ++ pending, x ∈ items
  room : (written ++ pending).length ≤ max limit 1
  fits : ∀ x ∈ written, w.ItemFits x
  late : p.late = pending.map (lateWrite w)
  tree : p.tree = t ∧ written ++ pending = [] ∨ w.Holding base location written p.tree

theorem submitted_eq {jobs : List Job} (h : ∀ job ∈ jobs, job.Located w base location) :
    jobs.filterMap (·.submitted?) = (pendingItems jobs).map (lateWrite w) := by
  induction jobs with
  | nil => rfl
  | cons job jobs ih =>
    have hrest := ih fun other hother => h other (List.mem_cons_of_mem _ hother)
    rw [List.filterMap_cons, pendingItems, List.filter_cons]
    cases hsubmitted : job.submitted? with
    | none =>
      simp only [Option.isSome_none, Bool.false_eq_true, ↓reduceIte]
      exact hrest
    | some write =>
      simp only [Option.isSome_some, ↓reduceIte, List.map_cons]
      have hwrite : write = lateWrite w job.item := by
        unfold Job.submitted? at hsubmitted
        split at hsubmitted
        · next path hphase =>
          obtain rfl := Option.some.inj hsubmitted
          have hpath := (h job List.mem_cons_self).path path (by rw [Job.path?, hphase])
          rw [hpath]
          rfl
        · cases hsubmitted
      rw [hwrite]
      exact congrArg _ hrest

/-- A batch with nothing submitted writes nothing late. -/
theorem pendingItems_eq_nil {jobs : List Job} (h : ∀ job ∈ jobs, job.phase = .entering) :
    pendingItems jobs = [] := by
  rw [pendingItems, List.map_eq_nil_iff, List.filter_eq_nil_iff]
  intro job hjob
  simp [Job.submitted?, h job hjob]

section Desk

variable (d : w.Desk base location items)

include d

/-- Removing the files of all jobs leaves the directory only. -/
theorem unstage_jobs {tree : FileTree} {jobs : List Job}
    (hlocated : ∀ job ∈ jobs, job.Located w base location)
    (hitems : (jobs.map Job.item).Sublist items)
    (h : w.Holding base location (Job.heldItems w jobs) tree) :
    (jobs.filterMap (·.path?)).foldl FileTree.unstage tree = base := by
  induction jobs generalizing tree with
  | nil => exact h.eq_base
  | cons job jobs ih =>
    have hjob := hlocated job List.mem_cons_self
    have hothers := fun other hother => hlocated other (List.mem_cons_of_mem job hother)
    have hsub : (jobs.map Job.item).Sublist items := (List.sublist_cons_self _ _).trans hitems
    have hnot : job.item ∉ Job.heldItems w ([] ++ jobs) :=
      Job.item_not_mem_heldItems w (d.nodup_jobs hitems)
    have hitem : job.item ∈ items := hitems.subset List.mem_cons_self
    have hheld := Job.heldItems_fit hothers hsub
    rw [← List.nil_append (job :: jobs)] at h
    rw [List.filterMap_cons]
    cases hpath : job.path? with
    | none =>
      have hfile : job.hasFile w = false := by
        unfold Job.path? at hpath
        unfold Job.hasFile
        split at hpath <;> simp_all
      rw [Job.heldItems_of_not_hasFile hfile] at h
      exact ih hothers hsub h
    | some path =>
      -- whatever has been written of the file, it is gone once it has been removed
      simp only [List.foldl_cons]
      rw [hjob.path path hpath]
      refine ih hothers hsub ?_
      by_cases hfile : job.hasFile w = true
      · have hholding := h.congr fun x => (Job.mem_heldItems_of_hasFile hfile).symm
        exact d.unstage hholding (List.forall_mem_cons.mpr ⟨⟨hitem, hjob.fits hfile⟩, hheld⟩) hnot
      · rw [Job.heldItems_of_not_hasFile (Bool.not_eq_true _ ▸ hfile)] at h
        rwa [d.unstage_vacant h hheld hitem hnot]

/-- **The end of a batch removes the files of all jobs.** -/
theorem Tidy.finish (h : Tidy w t base location p) (hitems : (p.jobs.map Job.item).Sublist items)
    (hroom : p.jobs.length ≤ max limit 1) (outcome : Except (Interruption ε) Report) :
    Leaves w t base location items limit [] (pendingItems p.jobs) (p.finish outcome) := by
  have hpending : (pendingItems p.jobs).Sublist (p.jobs.map Job.item) := List.filter_sublist.map _
  have hlength := hpending.length_le
  rw [List.length_map] at hlength
  refine ⟨(hpending.nodup (d.nodup_jobs hitems)), fun x hx => hitems.subset (hpending.subset hx),
    hlength.trans hroom, by simp, submitted_eq h.located, ?_⟩
  rcases h.tree with ⟨htree, hall⟩ | hholding
  · have hpaths : p.jobs.filterMap (·.path?) = [] := by
      rw [List.filterMap_eq_nil_iff]
      intro job hjob
      simp [Job.path?, hall job hjob]
    refine .inl ⟨?_, pendingItems_eq_nil hall⟩
    rw [Progress.finish]
    simp only [hpaths, List.foldl_nil, htree]
  · refine .inr ?_
    rw [Progress.finish]
    simp only []
    rw [unstage_jobs d h.located hitems hholding]
    exact .start

/-- A late write puts a file there, in full or in part, or nothing if its name is too long. -/
theorem Leaves.writeLate {written pending : List Item} {write : LateWrite} {rest : List LateWrite}
    (h : Leaves w t base location items limit written pending p) (hlate : p.late = write :: rest) :
    ∃ x pending', pending = x :: pending' ∧
      Leaves w t base location items limit (if w.ItemFits x then x :: written else written) pending'
        { p with
          tree := (p.tree.write (bytesOf write.path) (bytesOf write.content)).1
          late := rest } := by
  cases pending with
  | nil =>
    rw [h.late] at hlate
    cases hlate
  | cons x pending =>
    have hlate' := h.late
    rw [hlate, List.map_cons] at hlate'
    obtain ⟨rfl, rfl⟩ := List.cons.inj hlate'
    have hholding : w.Holding base location written p.tree := by
      rcases h.tree with ⟨-, hnil⟩ | hholding
      · simp at hnil
      · exact hholding
    have hheld : ∀ y ∈ written, y ∈ items ∧ w.ItemFits y := fun y hy =>
      ⟨h.mem_items y (List.mem_append_left _ hy), h.fits y hy⟩
    have hnodup := h.nodup
    rw [List.nodup_middle, List.nodup_cons, List.mem_append, not_or] at hnodup
    have hitem : x ∈ items := h.mem_items x (by simp)
    refine ⟨x, pending, rfl, ?_⟩
    obtain ⟨t', hwrite, hwritten⟩ := d.write hholding hheld hitem hnodup.1.1
    simp only [lateWrite, hwrite]
    -- a late write that fits makes its item a written one, any other one is dropped
    split
    · next hfits =>
      rw [if_pos hfits] at hwritten
      have hperm : List.Perm (x :: written ++ pending) (written ++ x :: pending) :=
        List.perm_middle.symm
      refine ⟨hperm.nodup_iff.mpr h.nodup, fun y hy => h.mem_items y (hperm.subset hy), ?_,
        List.forall_mem_cons.mpr ⟨hfits, h.fits⟩, rfl, .inr hwritten⟩
      rw [hperm.length_eq]
      exact h.room
    · next hfits =>
      rw [if_neg hfits] at hwritten
      have hsub : (written ++ pending).Sublist (written ++ x :: pending) :=
        (List.Sublist.refl written).append (List.sublist_cons_self x pending)
      exact ⟨hsub.nodup h.nodup, fun y hy => h.mem_items y (hsub.subset hy),
        hsub.length_le.trans h.room, h.fits, rfl, .inr hwritten⟩

/-- **Not even after the end are more than `max limit 1` files there.** -/
theorem Leaves.countP_exists_le {written pending : List Item}
    (hmake : t.makeDirectories w.directory = (base, .ok ()))
    (h : Leaves w t base location items limit written pending p) :
    items.countP (fun x => p.tree.exists? (bytesOf (w.itemPath x))) ≤ max limit 1 := by
  rcases h.tree with ⟨htree, -⟩ | hholding
  · rw [htree, d.countP_exists_eq_zero hmake]
    exact Nat.zero_le _
  · have hheld : ∀ y ∈ written, y ∈ items ∧ w.ItemFits y := fun y hy =>
      ⟨h.mem_items y (List.mem_append_left _ hy), h.fits y hy⟩
    have hlength := h.room
    rw [List.length_append] at hlength
    exact (d.countP_exists_le hholding hheld).trans
      ((Nat.le_add_right _ _).trans hlength)

end Desk

end Progress

end Ripple
