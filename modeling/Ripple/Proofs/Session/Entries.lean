import Ripple.Proofs.Batch.Reports
import Ripple.Proofs.Batch.Sequential
import Ripple.Proofs.Session.Staging
import Ripple.Proofs.Settings.Listed

/-!
# Entries of a report

In the report on a file the verdicts stand under the names of the tools, so there are as many as
there are different names, however many inspectors have looked at the file (`keys_of_run`). The
scanners of a session are those of the analyzers in its settings, one for each time that an analyzer
is listed. So every scanner has an entry of its own exactly if no analyzer is listed more than once
(`Session.entries_match_scanners_iff`).
-/

namespace Ripple

namespace Session

variable {s : Session} {t : FileTree} {batch : List Source} {report : Report}

/-- A batch comes to a report, file by file or with several files in flight. -/
inductive ComesTo (s : Session) (t : FileTree) (batch : List Source) (report : Report) : Prop
  | oneByOne (hinspect : (s.workbench.inspect t batch).2 = .ok report)
  | inFlight {limit : Nat} {events : List Event} {p : Progress Empty}
    (hrun : Progress.run s.workbench limit (.start t batch) events = some p)
    (hover : p.outcome = some (.ok report))

/-- What a session says of a batch is one of the reports that the batch can come to. -/
theorem comesTo_of_inspect (h : (s.inspect t batch).2 = .ok report) :
    s.ComesTo t batch report :=
  .inFlight (s.run_happened t batch) (inspect_eq_ok_iff.mp h)

/-- Every report has one entry for each analyzer in the settings. -/
theorem ComesTo.keys (h : s.ComesTo t batch report) :
    ∀ file ∈ report.files,
      file.results.keys.Perm (s.settings.analyzers.dedup.map (·.name)) := by
  rw [← dedup_tools]
  cases h with
  | oneByOne hinspect => exact Workbench.keys_inspect hinspect
  | inFlight hrun hover => exact Progress.keys_of_run hrun hover

/-- **Every scanner has an entry of its own exactly if no analyzer is listed more than once.** The
scanners are those of the analyzers that were listed last. Any list with the analyzers that no
report goes without can be listed, but if an analyzer stands in it more than once, a text or a file
has listed it. The report on a file has one entry for each listed analyzer. -/
theorem entries_match_scanners_iff {environment : Environment} {calls : List Settings.Call}
    (h : s.settings = (Settings.standardIn environment).after calls) :
    s.scanners.map (·.analyzer) = Settings.listedLast calls ∧
    (∀ list, Settings.hasRequired list = true →
      ∃ text, Settings.listedLast (calls ++ [.read environment text]) = list) ∧
    (¬(Settings.listedLast calls).Nodup →
      ∃ call ∈ calls, call.IsReading ∧ call.listed? = some (Settings.listedLast calls)) ∧
    ∀ t batch report, s.ComesTo t batch report → ∀ file ∈ report.files,
      file.results.keys.Perm ((Settings.listedLast calls).dedup.map (·.name)) ∧
      (file.results.size = s.scanners.length ↔ (Settings.listedLast calls).Nodup) := by
  have hlisted : s.settings.analyzers = Settings.listedLast calls := by
    rw [h, Settings.analyzers_after_standard]
  refine ⟨(analyzers_scanners s).trans hlisted,
    fun list => Settings.exists_listedLast_eq environment calls,
    Settings.exists_isReading_of_repeats, fun t batch report hreport file hfile => ?_⟩
  have hkeys := hreport.keys file hfile
  rw [hlisted] at hkeys
  refine ⟨hkeys, ?_⟩
  have hsize : file.results.size = (Settings.listedLast calls).dedup.length := by
    rw [← Std.ExtTreeMap.length_keys, hkeys.length_eq, List.length_map]
  have hscanners : s.scanners.length = (Settings.listedLast calls).length := by
    rw [← hlisted, ← analyzers_scanners, List.length_map]
  rw [hsize, hscanners, ← List.dedup_eq_self]
  exact ⟨(List.dedup_sublist _).eq_of_length, congrArg List.length⟩

/-- The inspectors look at the file from the last one to the first. -/
def backwards : List Event :=
  [.takeUp, .operate 0, .operate 0, .inspected 0 2, .inspected 0 1, .inspected 0 0, .operate 0,
    .handOver, .handOver]

/-- A session with settings that list an analyzer twice. -/
def repeatingSession : Session :=
  { sampleSession with
    settings := { Settings.standardIn ∅ with
      stagingDirectory := "tmp"
      analyzers := [.cppcheck, .clangTidy, .cppcheck] }
    order := backwards }

/-- A text that such settings are read from. -/
def repeatingText : String :=
  "\x7b\"artifact_dir\":\"tmp\",\"tools\":[\"cppcheck\",\"clang-tidy\",\"cppcheck\"]\x7d"

theorem run_repeatingText :
    (Settings.Call.read ∅ repeatingText).run (Settings.standardIn ∅) =
      (repeatingSession.settings, .ok ()) := by
  rfl

/-- Three scanners look at the file, and two entries are left. -/
theorem entries_match_scanners_iff_repeating :
    repeatingSession.settings = (Settings.standardIn ∅).after [.read ∅ repeatingText] ∧
    ∃ report, repeatingSession.ComesTo deskTree [⟨"main.c", "int a;", .c⟩] report ∧
      ∃ file ∈ report.files, file.results.keys.Perm ["clang-tidy", "cppcheck"] ∧
        file.results.size ≠ repeatingSession.scanners.length := by
  have hsettings : repeatingSession.settings =
      (Settings.standardIn ∅).after [.read ∅ repeatingText] :=
    (congrArg Prod.fst run_repeatingText).symm
  obtain ⟨hscanners, -, -, hentries⟩ := entries_match_scanners_iff hsettings
  rw [analyzers_scanners] at hscanners
  have hfiles : (repeatingSession.inspect deskTree [⟨"main.c", "int a;", .c⟩]).2.toOption.map
      (·.files.map (·.file)) = some ["main.c"] := by
    decide +kernel
  obtain ⟨report, hreport, hfiles⟩ := Option.map_eq_some_iff.mp hfiles
  have hcomes := comesTo_of_inspect (toOption_eq_some_iff.mp hreport)
  obtain ⟨file, hfile, -⟩ := List.mem_map.mp (hfiles ▸ List.mem_singleton_self "main.c")
  obtain ⟨hkeys, hsize⟩ := hentries _ _ report hcomes file hfile
  rw [← hscanners] at hkeys hsize
  exact ⟨hsettings, report, hcomes, file, hfile, hkeys,
    fun heq => absurd (hsize.mp heq) (by decide)⟩

/-- Not every scanner has an entry of its own: of an analyzer that a text lists twice, one verdict
is lost. -/
theorem loses_second_cppcheck :
    (Settings.Call.read ∅ repeatingText).run (Settings.standardIn ∅) =
      (repeatingSession.settings, .ok ()) ∧
    repeatingSession.scanners.map (·.analyzer) = [.cppcheck, .clangTidy, .cppcheck] ∧
    ∃ report, (repeatingSession.inspect deskTree [⟨"main.c", "int a;", .c⟩]).2 = .ok report ∧
      report.files.map (·.results.size) = [2] := by
  have hsizes : (repeatingSession.inspect deskTree [⟨"main.c", "int a;", .c⟩]).2.toOption.map
      (·.files.map (·.results.size)) = some [2] := by
    decide +kernel
  obtain ⟨report, hreport, hsizes⟩ := Option.map_eq_some_iff.mp hsizes
  exact ⟨run_repeatingText, analyzers_scanners _, report, toOption_eq_some_iff.mp hreport, hsizes⟩

end Session

end Ripple
