import Ripple.Proofs.Batch.Staged
import Ripple.Proofs.MapM
import Ripple.Proofs.Names

/-!
# Batches, file by file

In the report on a file there is one entry for each tool, however many inspectors report under it
(`keys_inspect`). If no inspector crashes and their verdicts depend on nothing but the file, a batch
comes to the reports on all sources, or to the failure of the first one that cannot be staged
(`inspect_eq`).
-/

namespace Ripple

open Text

namespace Workbench

variable {ε : Type} {w : Workbench ε}

/-- The verdicts on a file stand under the names of the tools. -/
theorem keys_verdicts {t : FileTree} {request : ScanRequest} {results : NameTable Verdict}
    (h : w.verdicts t request = .ok results) : results.keys.Perm w.tools.dedup := by
  obtain ⟨entries, hentries, rfl⟩ := map_eq_ok_iff.mp h
  have hnames : entries.map (·.1) = w.tools := by
    rw [mapM_eq_ok_iff] at hentries
    clear h
    rw [tools]
    generalize w.inspectors = inspectors at hentries
    induction hentries with
    | nil => rfl
    | cons hentry _ ih =>
      obtain ⟨verdict, -, rfl⟩ := map_eq_ok_iff.mp hentry
      rw [List.map_cons, List.map_cons, ih]
  rw [← hnames]
  exact NameTable.keys_ofList_perm entries

theorem keys_report {t : FileTree} {place : Nat} {source : Source} {file : FileReport}
    (h : (w.report t place source).2 = .ok file) : file.results.keys.Perm w.tools.dedup := by
  unfold Workbench.report at h
  split at h
  · cases h
  · next staged path _ =>
    cases hverdicts : w.verdicts staged ⟨path, source.language⟩ with
    | error crash =>
      rw [hverdicts] at h
      cases h
    | ok results =>
      rw [hverdicts] at h
      rw [← Except.ok.inj h]
      exact keys_verdicts hverdicts

theorem keys_reportsFrom {t : FileTree} {place : Nat} {batch : List Source}
    {files : List FileReport} (h : (w.reportsFrom t place batch).2 = .ok files) :
    ∀ file ∈ files, file.results.keys.Perm w.tools.dedup := by
  induction batch generalizing t place files with
  | nil =>
    obtain rfl := Except.ok.inj h
    simp
  | cons source rest ih =>
    rw [reportsFrom] at h
    split at h
    · cases h
    · next report hreport =>
      obtain ⟨others, hothers, rfl⟩ := map_eq_ok_iff.mp h
      exact List.forall_mem_cons.mpr ⟨keys_report (congrArg Prod.snd hreport), ih hothers⟩

/-- **File by file, a batch reports one entry for each tool.** -/
theorem keys_inspect {t : FileTree} {batch : List Source} {report : Report}
    (h : (w.inspect t batch).2 = .ok report) :
    ∀ file ∈ report.files, file.results.keys.Perm w.tools.dedup := by
  obtain ⟨files, hfiles, rfl⟩ := map_eq_ok_iff.mp h
  exact keys_reportsFrom hfiles

/-! ## Inspectors that go by the file -/

/-- A verdict for each inspector and each path, content and language of a file. -/
abbrev Judge (ε : Type) : Type := Inspector ε → String → String → Language → Verdict

/-- The inspectors do not crash, and give the verdicts that the judge gives on the file. -/
def JudgedBy (w : Workbench ε) (judge : Judge ε) : Prop :=
  ∀ i ∈ w.inspectors, ∀ (t : FileTree) (path content : String) (language : Language),
    t.readBytes (bytesOf path) = .ok (bytesOf content) →
      i.inspect t ⟨path, language⟩ = .ok (judge i path content language)

/-- The report on an item, if it can be staged. -/
def reportOn (w : Workbench ε) (judge : Judge ε) (x : Item) : FileReport :=
  ⟨x.1.name, NameTable.ofList (w.inspectors.map fun i =>
    (i.tool, judge i (w.itemPath x) x.1.content x.1.language))⟩

/-- Staging an item from a tree. -/
def stageItem (w : Workbench ε) (t : FileTree) (x : Item) :
    FileTree × Except StagingFailure String :=
  t.stage w.directory (w.stamps x.2) x.1.name x.1.content

/-- The report is on the item: it bears its name, and has for each tool the verdict of the last
inspector of that tool on the item. -/
structure ReportsOn (w : Workbench ε) (judge : Judge ε) (x : Item) (report : FileReport) :
    Prop where
  file : report.file = x.1.name
  results : ∀ tool : String, report.results[tool]? =
    ((w.inspectors.filter fun i => i.tool == tool).getLast?).map fun i =>
      judge i (w.itemPath x) x.1.content x.1.language

theorem reportsOn_reportOn (w : Workbench ε) (judge : Judge ε) (x : Item) :
    w.ReportsOn judge x (w.reportOn judge x) where
  file := rfl
  results tool := by
    rw [reportOn, NameTable.getElem?_ofList, List.filter_map, List.getLast?_map, Option.map_map]
    rfl

variable {judge : Judge ε} {t base : FileTree} {location : Location} {items : List Item}
  {x : Item} {batch : List Source}

/-- What the inspectors say of a file that stands at the path of an item. -/
theorem verdicts_eq (hjudge : w.JudgedBy judge)
    (hread : t.readBytes (bytesOf (w.itemPath x)) = .ok (bytesOf x.1.content)) :
    w.verdicts t ⟨w.itemPath x, x.1.language⟩ = .ok (w.reportOn judge x).results := by
  have hentries : ∀ i ∈ w.inspectors, entry t ⟨w.itemPath x, x.1.language⟩ i =
      .ok (i.tool, judge i (w.itemPath x) x.1.content x.1.language) := by
    intro i hi
    rw [entry, hjudge i hi t _ _ x.1.language hread]
    rfl
  rw [verdicts, mapM_eq_ok hentries]
  rfl

/-- In a directory that can be made, staging an item depends on the item only. -/
theorem Desk.stageItem_eq (d : w.Desk base location items)
    (hmake : t.makeDirectories w.directory = (base, .ok ())) (hx : x ∈ items) :
    (w.refusal? base location x = none → ∃ t', w.stageItem t x = (t', .ok (w.itemPath x)) ∧
        w.Holding base location [x] t') ∧
      ∀ fault, w.refusal? base location x = some fault →
        w.stageItem t x = (base, .error ⟨w.itemPath x, fault⟩) := by
  rw [stageItem, FileTree.stage, hmake]
  constructor
  · intro haccepted
    obtain ⟨t', hwrite, hholding⟩ := d.write_accepted .start (by simp) hx (by simp) haccepted
    rw [itemPath] at hwrite
    refine ⟨t', ?_, hholding⟩
    simp only [hwrite]
    rfl
  · intro fault hrefused
    obtain ⟨t', hwrite, hholding⟩ := d.write_refused .start (by simp) hx (by simp) hrefused
    have hbase := hholding.eq_base
    rw [itemPath] at hwrite hbase
    simp only [hwrite, hbase]
    rfl

/-- What comes of an item in a directory that is there. -/
def itemResult (w : Workbench ε) (judge : Judge ε) (base : FileTree) (location : Location)
    (x : Item) : Except StagingFailure FileReport :=
  match w.refusal? base location x with
  | none => .ok (w.reportOn judge x)
  | some fault => .error ⟨w.itemPath x, fault⟩

theorem itemResult_of_accepted (h : w.refusal? base location x = none) :
    w.itemResult judge base location x = .ok (w.reportOn judge x) := by
  rw [itemResult, h]

theorem itemResult_of_refused {fault : Fault} (h : w.refusal? base location x = some fault) :
    w.itemResult judge base location x = .error ⟨w.itemPath x, fault⟩ := by
  rw [itemResult, h]

/-- An item that comes to a report has been accepted. -/
theorem itemResult_eq_ok {report : FileReport}
    (h : w.itemResult judge base location x = .ok report) :
    w.refusal? base location x = none ∧ report = w.reportOn judge x := by
  cases hrefusal : w.refusal? base location x with
  | none =>
    rw [itemResult_of_accepted hrefusal] at h
    exact ⟨rfl, (Except.ok.inj h).symm⟩
  | some fault =>
    rw [itemResult_of_refused hrefusal] at h
    cases h

/-- What comes of an item, as far as the batch is concerned. -/
def itemOutcome (w : Workbench ε) (judge : Judge ε) (base : FileTree) (location : Location)
    (x : Item) : Except (Interruption ε) FileReport :=
  (w.itemResult judge base location x).mapError .unstaged

theorem itemOutcome_of_accepted (h : w.refusal? base location x = none) :
    w.itemOutcome judge base location x = .ok (w.reportOn judge x) := by
  rw [itemOutcome, itemResult_of_accepted h]
  rfl

theorem itemOutcome_of_refused {fault : Fault} (h : w.refusal? base location x = some fault) :
    w.itemOutcome judge base location x = .error (.unstaged ⟨w.itemPath x, fault⟩) := by
  rw [itemOutcome, itemResult_of_refused h]
  rfl

/-- A report on an item goes by what the inspectors say of its staged file, and leaves the directory
and nothing else behind. -/
theorem Desk.report_eq (d : w.Desk base location items) (hjudge : w.JudgedBy judge)
    (hmake : t.makeDirectories w.directory = (base, .ok ())) (hx : x ∈ items) :
    w.report t x.2 x.1 = (base, w.itemOutcome judge base location x) := by
  obtain ⟨hstaged, hrefused⟩ := d.stageItem_eq hmake hx
  rw [stageItem] at hstaged hrefused
  cases hrefusal : w.refusal? base location x with
  | none =>
    obtain ⟨staged, hstage, hholding⟩ := hstaged hrefusal
    have hheld : ∀ y ∈ [x], y ∈ items ∧ w.ItemFits y :=
      List.forall_mem_singleton.mpr ⟨hx, fits_of_accepted hrefusal⟩
    have hunstage := (d.unstage hholding hheld (by simp)).eq_base
    have hread := d.readBytes hholding hheld List.mem_cons_self
    rw [itemContent_of_accepted hrefusal] at hread
    rw [itemOutcome_of_accepted hrefusal]
    simp only [report, hstage, hunstage, verdicts_eq hjudge hread]
    rfl
  | some fault =>
    rw [itemOutcome_of_refused hrefusal]
    simp only [report, hrefused fault hrefusal]

/-- If it is known what comes of each item, it is known what comes of all of them. -/
theorem Desk.reportsFrom_eq_mapM (d : w.Desk base location items)
    {outcome : Item → Except (Interruption ε) FileReport}
    (hreport : ∀ {t : FileTree} {x : Item}, t.makeDirectories w.directory = (base, .ok ()) →
      x ∈ items → w.report t x.2 x.1 = (base, outcome x))
    (hmake : t.makeDirectories w.directory = (base, .ok ())) {place : Nat}
    (hitems : ∀ x ∈ batch.zipIdx place, x ∈ items) :
    (w.reportsFrom t place batch).2 = (batch.zipIdx place).mapM outcome := by
  induction batch generalizing t place with
  | nil => rfl
  | cons source rest ih =>
    -- the rest begins with the tree in which the directory is there and need not be made
    rw [List.zipIdx_cons] at hitems ⊢
    have hfirst := hreport hmake (hitems _ List.mem_cons_self)
    have hrest := ih d.opens.makeDirectories fun x hx => hitems x (List.mem_cons_of_mem _ hx)
    rw [List.mapM_cons, ← hrest]
    cases hresult : outcome (source, place) with
    | error interruption => simp only [reportsFrom, hfirst, hresult]; rfl
    | ok report =>
      simp only [reportsFrom, hfirst, hresult]
      cases (w.reportsFrom base (place + 1) rest).2 <;> rfl

theorem Desk.reportsFrom_eq (d : w.Desk base location items) (hjudge : w.JudgedBy judge)
    (hmake : t.makeDirectories w.directory = (base, .ok ())) {place : Nat}
    (hitems : ∀ x ∈ batch.zipIdx place, x ∈ items) :
    (w.reportsFrom t place batch).2 =
      (batch.zipIdx place).mapM (w.itemOutcome judge base location) :=
  d.reportsFrom_eq_mapM (fun hmake hx => d.report_eq hjudge hmake hx) hmake hitems

/-- **In a directory that can be made, a batch comes to what comes of its items, one after the
other.** -/
theorem Desk.inspect_eq (d : w.Desk base location batch.zipIdx) (hjudge : w.JudgedBy judge)
    (hmake : t.makeDirectories w.directory = (base, .ok ())) :
    (w.inspect t batch).2 =
      (batch.zipIdx.mapM (w.itemOutcome judge base location)).map Report.mk := by
  rw [inspect, ← d.reportsFrom_eq hjudge hmake fun x hx => hx]

/-- **Without a directory, a batch comes to nothing.** -/
theorem inspect_of_makeDirectories_error {fault : Fault} {t' : FileTree}
    (hmake : t.makeDirectories w.directory = (t', .error fault)) (hbatch : batch ≠ []) :
    (w.inspect t batch).2 = .error (.unstaged ⟨w.directory, fault⟩) := by
  cases batch with
  | nil => exact absurd rfl hbatch
  | cons source rest =>
    simp only [inspect, reportsFrom, report, FileTree.stage, hmake]
    rfl

/-! ## Batches of which everything or not everything can be staged -/

theorem makeDirectories_of_stageItem {path : String} (h : (w.stageItem t x).2 = .ok path) :
    ∃ base location, t.makeDirectories w.directory = (base, .ok ()) ∧
      base.Opens w.directory location := by
  cases hmake : t.makeDirectories w.directory with
  | mk base made =>
    cases made with
    | ok =>
      obtain ⟨location, hopens⟩ := FileTree.makeDirectories_ok hmake
      exact ⟨base, location, rfl, hopens⟩
    | error fault =>
      rw [stageItem, FileTree.stage, hmake] at h
      cases h

/-- An item that is staged has been accepted. -/
theorem Desk.accepted_of_stageItem (d : w.Desk base location items)
    (hmake : t.makeDirectories w.directory = (base, .ok ())) (hx : x ∈ items) {path : String}
    (h : (w.stageItem t x).2 = .ok path) : w.refusal? base location x = none := by
  cases hrefusal : w.refusal? base location x with
  | none => rfl
  | some fault =>
    rw [(d.stageItem_eq hmake hx).2 fault hrefusal] at h
    cases h

/-- A failure to stage an item in a directory that is there is what comes of the item. -/
theorem Desk.itemOutcome_of_stageItem_error (d : w.Desk base location items)
    (hmake : t.makeDirectories w.directory = (base, .ok ())) (hx : x ∈ items)
    {failure : StagingFailure} (h : (w.stageItem t x).2 = .error failure) :
    w.itemOutcome judge base location x = .error (.unstaged failure) := by
  obtain ⟨hstaged, hrefused⟩ := d.stageItem_eq hmake hx
  cases hrefusal : w.refusal? base location x with
  | none =>
    obtain ⟨t', hstage, -⟩ := hstaged hrefusal
    rw [hstage] at h
    cases h
  | some fault =>
    rw [hrefused fault hrefusal] at h
    rw [itemOutcome_of_refused hrefusal, Except.error.inj h]

/-- **If every item can be staged, a batch comes to the reports on all of them.** -/
theorem inspect_of_staged (hfresh : w.Fresh t batch) (hjudge : w.JudgedBy judge)
    (h : ∀ x ∈ batch.zipIdx, ∃ path, (w.stageItem t x).2 = .ok path) :
    (w.inspect t batch).2 = .ok ⟨batch.zipIdx.map (w.reportOn judge)⟩ := by
  cases hbatch : batch with
  | nil => rfl
  | cons source rest =>
    rw [← hbatch]
    obtain ⟨path, hfirst⟩ := h (source, 0) (by simp [hbatch])
    obtain ⟨base, location, hmake, hopens⟩ := makeDirectories_of_stageItem hfirst
    have d := hfresh.desk hmake hopens
    have hresults : ∀ x ∈ batch.zipIdx,
        w.itemOutcome judge base location x = .ok (w.reportOn judge x) := by
      intro x hx
      obtain ⟨path, hstaged⟩ := h x hx
      exact itemOutcome_of_accepted (d.accepted_of_stageItem hmake hx hstaged)
    rw [d.inspect_eq hjudge hmake, mapM_eq_ok hresults]
    rfl

/-- **Otherwise it comes to the failure of the first item that cannot be staged.** -/
theorem inspect_of_unstaged (hfresh : w.Fresh t batch) (hjudge : w.JudgedBy judge)
    {before after : List Item} {failure : StagingFailure}
    (hbatch : batch.zipIdx = before ++ x :: after)
    (hbefore : ∀ y ∈ before, ∃ path, (w.stageItem t y).2 = .ok path)
    (hx : (w.stageItem t x).2 = .error failure) :
    (w.inspect t batch).2 = .error (.unstaged failure) := by
  cases hmake : t.makeDirectories w.directory with
  | mk base made =>
    cases made with
    | ok =>
      obtain ⟨location, hopens⟩ := FileTree.makeDirectories_ok hmake
      have d := hfresh.desk hmake hopens
      have hresults : ∀ y ∈ before,
          w.itemOutcome judge base location y = .ok (w.reportOn judge y) := by
        intro y hy
        obtain ⟨path, hstaged⟩ := hbefore y hy
        exact itemOutcome_of_accepted
          (d.accepted_of_stageItem hmake (by simp [hbatch, hy]) hstaged)
      have hresult : w.itemOutcome judge base location x = .error (.unstaged failure) :=
        d.itemOutcome_of_stageItem_error hmake (by simp [hbatch]) hx
      rw [d.inspect_eq hjudge hmake, hbatch, mapM_eq_error hresults hresult]
      rfl
    | error fault =>
      have hne : batch ≠ [] := by
        rintro rfl
        simp at hbatch
      rw [stageItem, FileTree.stage, hmake] at hx
      rw [inspect_of_makeDirectories_error hmake hne, ← Except.error.inj hx]

end Workbench

end Ripple
