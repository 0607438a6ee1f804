import Ripple.Proofs.Batch.Abreast
import Ripple.Proofs.Batch.Looks
import Ripple.Proofs.Session.Runs

/-!
# Verdicts on the sources of a session

A session reports on a batch exactly if every source is staged and none fails to be
(`exists_report_iff`). If no analyzer is listed twice, the report passes exactly if every analyzer
that is listed is content with every source (`allPassed_iff`). Programs have no say in whether there
is a report (`exists_report_programs_iff`).
-/

namespace Ripple.Session

/-- The item is staged and waits for analyzers. -/
def Stages (s : Session) (t : FileTree) (batch : List Source) (x : Item) : Prop :=
  Progress.Stages s.workbench s.filesInFlight (.start t batch) (s.happened t batch) x

/-- It turns out that the item cannot be staged. -/
def FailsToStage (s : Session) (t : FileTree) (batch : List Source) (x : Item) : Prop :=
  Progress.FailsToStage s.workbench s.filesInFlight (.start t batch) (s.happened t batch) x

/-- The analyzer listed at the place looks at the staged copy of the item, which stands in the
tree. -/
def Looks (s : Session) (t : FileTree) (batch : List Source) (x : Item) (place : Nat)
    (seen : FileTree) : Prop :=
  Progress.Looks s.workbench s.filesInFlight (.start t batch) (s.happened t batch) x place seen

/-- The analyzer listed at the place has looked at the staged copy of the item, and whatever it has
seen, it was content. -/
structure Content (s : Session) (t : FileTree) (batch : List Source) (x : Item) (place : Nat)
    (analyzer : Analyzer) : Prop where
  looks : ∃ seen, s.Looks t batch x place seen
  success : ∀ seen, s.Looks t batch x place seen →
    (Scanner.scan ⟨analyzer, s.settings.command analyzer, s.settings.limit, s.headers⟩
      (s.programs seen) ⟨s.workbench.itemPath x, x.1.language⟩).success = true

variable {s : Session} {t : FileTree} {batch : List Source} {report : Report}

/-- **There is a report exactly if every source is staged and none fails to be.** -/
theorem exists_report_iff :
    (∃ report, (s.inspect t batch).2 = .ok report) ↔
      ∀ x ∈ batch.zipIdx, s.Stages t batch x ∧ ¬s.FailsToStage t batch x := by
  have hrun := s.run_happened t batch
  simp only [inspect_eq_ok_iff]
  rcases s.exists_outcome t batch with ⟨report, hended⟩ | ⟨failure, hended⟩ <;>
    exact Iff.trans (by simp [hended]) (Progress.exists_report_iff hrun hended (by simp))

theorem getElem?_inspectors (place : Nat) :
    s.workbench.inspectors[place]? = s.settings.analyzers[place]?.map fun analyzer =>
      .ofScanner s.programs
        ⟨analyzer, s.settings.command analyzer, s.settings.limit, s.headers⟩ := by
  simp only [workbench, Settings.scanners, List.getElem?_map, Option.map_map]
  rfl

/-- **If no analyzer is listed twice, a report passes exactly if every analyzer is content with
every source.** -/
theorem allPassed_iff (hnodup : s.settings.analyzers.Nodup)
    (hreport : (s.inspect t batch).2 = .ok report) :
    report.allPassed = true ↔ ∀ x ∈ batch.zipIdx, ∀ (place : Nat) (analyzer : Analyzer),
      s.settings.analyzers[place]? = some analyzer → s.Content t batch x place analyzer := by
  have htools : s.workbench.tools.Nodup := by
    rw [tools_workbench]
    exact hnodup.map fun _ _ => Analyzer.name_injective
  rw [Progress.allPassed_iff htools (s.run_happened t batch) (inspect_eq_ok_iff.mp hreport)]
  refine forall₂_congr fun x _ => forall_congr' fun place => ?_
  rw [getElem?_inspectors]
  constructor
  · intro h analyzer hanalyzer
    obtain ⟨hlooks, hcontent⟩ := h _ (by rw [hanalyzer]; rfl)
    exact ⟨hlooks, fun seen hseen => hcontent seen hseen _ rfl⟩
  · intro h i hi
    obtain ⟨analyzer, hanalyzer, rfl⟩ := Option.map_eq_some_iff.mp hi
    obtain ⟨hlooks, hcontent⟩ := h analyzer hanalyzer
    refine ⟨hlooks, fun seen hseen verdict hverdict => ?_⟩
    obtain rfl := Except.ok.inj hverdict
    exact hcontent seen hseen

/-- There is a report exactly if a batch ends with one. -/
theorem exists_report_iff_ending :
    (∃ report, (s.inspect t batch).2 = .ok report) ↔
      (s.progress t batch).ending = some (.ok ()) := by
  simp only [inspect_eq_ok_iff]
  rcases s.exists_outcome t batch with ⟨report, hended⟩ | ⟨failure, hended⟩ <;>
    simp [Progress.ending, hended, Except.map]

/-- **Whether there is a report does not depend on what programs do.** -/
theorem exists_report_programs_iff (programs : FileTree → Programs) :
    (∃ report, (({ s with programs := programs } : Session).inspect t batch).2 = .ok report) ↔
      ∃ report, (s.inspect t batch).2 = .ok report := by
  have halike : ({ s with programs := programs } : Session).workbench.Alike s.workbench :=
    ⟨rfl, rfl, by simp [workbench]⟩
  have hending : (({ s with programs := programs } : Session).progress t batch).ending =
      (s.progress t batch).ending :=
    (Progress.abreast_complete halike s.filesInFlight t batch s.order).ending
  rw [exists_report_iff_ending, exists_report_iff_ending, hending]

end Ripple.Session
