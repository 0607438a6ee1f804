import Ripple.Proofs.Batch.Completion
import Ripple.Proofs.MapM
import Ripple.Session.Basic
import Mathlib.Data.List.Dedup

/-!
# What sessions do with a batch

A session has a batch inspected with as many files in flight as its settings allow, in whatever
order things happen. What happens is a run (`run_happened`), and every run that is over is what some
session does (`progress_eq_of_run`), so what holds of all runs holds of sessions and the other way
round. The inspectors of a session do not crash: a batch comes to a report, or a source cannot be
staged.
-/

namespace Ripple

theorem Analyzer.name_injective {a b : Analyzer} (h : a.name = b.name) : a = b := by
  revert h
  cases a <;> cases b <;> decide

namespace Session

variable {s : Session} {t : FileTree} {batch : List Source} {events : List Event}
  {p : Progress Empty}

/-- What happens to a batch. -/
def happened (s : Session) (t : FileTree) (batch : List Source) : List Event :=
  Progress.happened s.workbench s.filesInFlight t batch s.order

/-- **What a session does with a batch is a run** with as many files in flight as the settings
allow. -/
theorem run_happened (s : Session) (t : FileTree) (batch : List Source) :
    Progress.run s.workbench s.filesInFlight (.start t batch) (s.happened t batch) =
      some (s.progress t batch) :=
  Progress.run_happened s.workbench s.filesInFlight t batch s.order

/-- **Every run that is over is what a session does** with the batch, if things happen in the order
of the run. -/
theorem progress_eq_of_run
    (hrun : Progress.run s.workbench s.filesInFlight (.start t batch) events = some p)
    (hover : p.isOver = true) : ({ s with order := events } : Session).progress t batch = p :=
  Progress.complete_eq_of_run hrun hover

/-- A batch comes to a report or to the failure to stage a source. -/
theorem exists_outcome (s : Session) (t : FileTree) (batch : List Source) :
    (∃ report, (s.progress t batch).outcome = some (.ok report)) ∨
      ∃ failure, (s.progress t batch).outcome = some (.error (.unstaged failure)) := by
  have hover := Progress.isOver_complete s.workbench s.filesInFlight t batch s.order
  obtain ⟨outcome, hended⟩ := Option.isSome_iff_exists.mp (Bool.and_eq_true_iff.mp hover).1
  rcases outcome with (failure | ⟨⟨⟩⟩) | report
  · exact .inr ⟨failure, hended⟩
  · exact .inl ⟨report, hended⟩

theorem inspect_of_outcome {outcome : Except (Interruption Empty) Report}
    (h : (s.progress t batch).outcome = some outcome) :
    (s.inspect t batch).2 = outcome.mapError failure :=
  congrArg (Except.mapError failure) ((Progress.result_eq_iff ..).mpr h)

theorem inspect_eq_ok_iff {report : Report} :
    (s.inspect t batch).2 = .ok report ↔ (s.progress t batch).outcome = some (.ok report) := by
  rcases s.exists_outcome t batch with ⟨report', hended⟩ | ⟨staging, hended⟩
  · rw [inspect_of_outcome hended, hended, Except.mapError, Option.some.injEq, Except.ok.injEq,
      Except.ok.injEq]
  · rw [inspect_of_outcome hended, hended]
    constructor <;> rintro ⟨⟩

/-- The scanners that the settings ask for. -/
def scanners (s : Session) : List Scanner := s.settings.scanners s.headers

theorem analyzers_scanners (s : Session) :
    s.scanners.map (·.analyzer) = s.settings.analyzers := by
  rw [scanners, Settings.scanners, List.map_map]
  exact List.map_id _

theorem tools_workbench (s : Session) :
    s.workbench.tools = s.settings.analyzers.map (·.name) := by
  rw [← analyzers_scanners, Workbench.tools, workbench, List.map_map, List.map_map]
  rfl

/-- Different analyzers have different names. -/
theorem dedup_tools (s : Session) :
    s.workbench.tools.dedup = s.settings.analyzers.dedup.map (·.name) := by
  rw [tools_workbench]
  exact List.dedup_map_of_injective (fun _ _ => Analyzer.name_injective) _

end Session

end Ripple
