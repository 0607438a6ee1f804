import Ripple.CommandLine.Run
import Ripple.Proofs.Graph.Directory
import Ripple.Proofs.Session.Impact
import Ripple.Proofs.Session.Verdicts

/-!
# What the exit code of a report says

A task that reports on files first gathers its sources, which `Gathers` says without the program's
own functions for it. Then every source is staged, and the analyzers look at the copy; as many
sources are in flight as the settings allow, and what happens to them may happen in any order. The
exit code is zero if the sources are gathered and staged and, of a strict report, if every analyzer
is content with every source; otherwise it is one (`exit_of_report`).
-/

namespace Ripple

open Text

namespace CommandLine

open Session (unitPath)

/-- How a report on files is asked for. -/
def Task.reportOptions? : Task → Option ReportOptions
  | .analyze _ options | .scan _ _ _ options => some options
  | _ => none

/-! ## Gathering sources -/

/-- The sources that a task is about, as they are read from the tree or the standard input. A scan
is about the affected units of which a regular file is there under the root, in ascending order;
those that are missing are not among them. -/
inductive Gathers (t : FileTree) (input : Bytes) : Task → List Source → Prop
  | scan {directory root : String} {changed : List String} {options : ReportOptions}
    {g : DependencyGraph} {sources : List Source}
    (hdirectory : t.isDirectory (bytesOf directory) = true)
    (hgraph : DependencyGraph.ofDirectory? t directory = some g)
    (hascending : Ascending (sources.map (·.name)))
    (hunits : ∀ unit, unit ∈ sources.map (·.name) ↔
      Impact.AffectedUnit g changed unit ∧ t.isFile (unitPath root unit) = true)
    (hread : ∀ source ∈ sources, Language.ofPath? source.name = some source.language ∧
      t.readText (unitPath root source.name) = .ok source.content) :
    Gathers t input (.scan directory root changed options) sources
  | files {paths : List String} {language : Option Language} {options : ReportOptions}
    {sources : List Source}
    (hread : List.Forall₂ (fun path source => source.name = path ∧
      language.or (Language.ofPath? path) = some source.language ∧
      t.readText (bytesOf path) = .ok source.content) paths sources) :
    Gathers t input (.analyze (.files paths language) options) sources
  | batch {path : String} {options : ReportOptions} {text : String} {sources : List Source}
    (htext : if Path.same path.toList ['-'] then stringOf? input = some text
      else t.readText (bytesOf path) = .ok text)
    (hsources : (Json.read? text.toList).bind Source.batchOfJson? = some sources) :
    Gathers t input (.analyze (.batch path) options) sources

variable {w : World} {t : FileTree} {input : Bytes} {options : ReportOptions}

theorem gathers_scan_iff {directory root : String} {changed : List String}
    {sources : List Source} :
    Gathers t input (.scan directory root changed options) sources ↔
      ∃ g, DependencyGraph.ofDirectory? t directory = some g ∧
        ∃ missing, Session.readUnits t root
          (Session.affectedUnits (Impact.affected changed g) g).toList = .ok (sources, missing) := by
  have hunits (g : DependencyGraph) (unit : String) :
      unit ∈ (Session.affectedUnits (Impact.affected changed g) g).toList.filter
          (fun u => (Language.ofPath? u).isSome && t.isFile (unitPath root u)) ↔
        Impact.AffectedUnit g changed unit ∧ t.isFile (unitPath root unit) = true := by
    rw [List.mem_filter, Std.ExtTreeSet.mem_toList, Session.mem_affectedUnits]
    exact and_congr_right fun hunit => by simp [hunit.1]
  have hascends (g : DependencyGraph) :=
    Names.ascending_toList (Session.affectedUnits (Impact.affected changed g) g)
  constructor
  · intro h
    cases h with
    | @scan _ _ _ _ g _ hdirectory hgraph hascending hnames hread =>
      refine ⟨g, hgraph, _, Session.readUnits_eq_ok_iff.mpr ⟨?_, rfl, hread⟩⟩
      refine hascending.eq_of_mem_iff ((hascends g).filter _) fun unit => ?_
      rw [hnames, hunits]
  · rintro ⟨g, hgraph, missing, hread⟩
    obtain ⟨hnames, -, hread⟩ := Session.readUnits_eq_ok_iff.mp hread
    refine .scan (DependencyGraph.exists_ofDirectory?_iff.mp ⟨g, hgraph⟩) hgraph ?_ ?_ hread
    · rw [hnames]
      exact (hascends g).filter _
    · intro unit
      rw [hnames, hunits]

theorem sourceAt_eq_ok_iff {language : Option Language} {path : String} {source : Source} :
    w.sourceAt language path = .ok source ↔
      source.name = path ∧ language.or (Language.ofPath? path) = some source.language ∧
        w.tree.readText (bytesOf path) = .ok source.content := by
  unfold World.sourceAt
  cases language.or (Language.ofPath? path) with
  | none => simp
  | some found =>
    simp only []
    cases w.tree.readText (bytesOf path) with
    | error reason => simp
    | ok content =>
      obtain ⟨name, content', language'⟩ := source
      simp only [Except.ok.injEq, Source.mk.injEq, Option.some.injEq]
      constructor
      · rintro ⟨rfl, rfl, rfl⟩
        exact ⟨rfl, rfl, rfl⟩
      · rintro ⟨rfl, rfl, rfl⟩
        exact ⟨rfl, rfl, rfl⟩

theorem batchText_eq_ok_iff {path text : String} :
    w.batchText path = .ok text ↔
      if Path.same path.toList ['-'] then stringOf? w.input = some text
      else w.tree.readText (bytesOf path) = .ok text := by
  unfold World.batchText
  split
  · cases stringOf? w.input <;> simp
  · cases w.tree.readText (bytesOf path) <;> simp [Except.mapError]

theorem batchOf_eq_ok_iff {text : String} {sources : List Source} :
    World.batchOf text = .ok sources ↔
      (Json.read? text.toList).bind Source.batchOfJson? = some sources := by
  unfold World.batchOf
  split
  · next hbatch => rw [hbatch, Except.ok.injEq, Option.some.injEq]
  · next hbatch => simp [hbatch]

theorem gathers_analyze_iff {input : Input} {sources : List Source} :
    Gathers w.tree w.input (.analyze input options) sources ↔ w.sources input = .ok sources := by
  constructor
  · intro h
    cases h with
    | files hread =>
      rw [World.sources, mapM_eq_ok_iff]
      exact hread.imp fun path source => sourceAt_eq_ok_iff.mpr
    | batch htext hsources =>
      rw [World.sources, batchText_eq_ok_iff.mpr htext]
      exact batchOf_eq_ok_iff.mpr hsources
  · intro h
    cases input with
    | files paths language =>
      rw [World.sources, mapM_eq_ok_iff] at h
      exact .files (h.imp fun path source => sourceAt_eq_ok_iff.mp)
    | batch path =>
      rw [World.sources] at h
      cases htext : w.batchText path with
      | error c =>
        rw [htext] at h
        cases h
      | ok text =>
        rw [htext] at h
        exact .batch (batchText_eq_ok_iff.mp htext) (batchOf_eq_ok_iff.mp h)

/-! ## Exit codes -/

namespace Ending

/-- The exit code is zero or one and tells whether something is the case. -/
structure Tells (e : Ending) (passes : Prop) : Prop where
  zero : e.exit = 0 ↔ passes
  one : e.exit = 1 ↔ ¬ passes

theorem tells_failure {passes : Prop} (h : ¬ passes) (c : Complaint) :
    (failure c).Tells passes where
  zero := by simp [failure, h]
  one := by simp [failure, h]

theorem tells_report {passed strict : Bool} {passes : Prop}
    (h : (strict = true → passed = true) ↔ passes) (lines : List String) :
    (report passed strict lines).Tells passes where
  zero := by
    rw [← h]
    cases strict <;> cases passed <;> simp [report]
  one := by
    rw [← h]
    cases strict <;> cases passed <;> simp [report]

end Ending

namespace World

variable {s : Settings}

/-- The sources of a task have been gathered, every one of them is staged, and, if the report is
strict, every analyzer is content with the staged copy of every one. -/
def Fares (w : World) (s : Settings) (task : Task) (strict : Bool) : Prop :=
  ∃ batch, Gathers w.tree w.input task batch ∧
    (∀ x ∈ batch.zipIdx,
      (w.session s).Stages w.tree batch x ∧ ¬(w.session s).FailsToStage w.tree batch x) ∧
    (strict = true → ∀ x ∈ batch.zipIdx, ∀ (place : Nat) (analyzer : Analyzer),
      s.analyzers[place]? = some analyzer →
        (w.session s).Content w.tree batch x place analyzer)

/-- A session has a report on the sources exactly if they fare as they should. -/
theorem fares_iff (hnodup : s.analyzers.Nodup) {task : Task} {strict : Bool} :
    w.Fares s task strict ↔
      ∃ batch report, Gathers w.tree w.input task batch ∧
        ((w.session s).inspect w.tree batch).2 = .ok report ∧
        (strict = true → report.allPassed = true) := by
  constructor
  · rintro ⟨batch, hgathers, hstaged, hcontent⟩
    obtain ⟨report, hreport⟩ := Session.exists_report_iff.mpr hstaged
    refine ⟨batch, report, hgathers, hreport, fun hstrict => ?_⟩
    exact (Session.allPassed_iff hnodup hreport).mpr (hcontent hstrict)
  · rintro ⟨batch, report, hgathers, hreport, hpassed⟩
    refine ⟨batch, hgathers, Session.exists_report_iff.mp ⟨report, hreport⟩, fun hstrict => ?_⟩
    exact (Session.allPassed_iff hnodup hreport).mp (hpassed hstrict)

variable {task : Task} {strict : Bool} {batch : List Source} {e : Ending}

theorem tells_of_not_gathers (h : ∀ batch, ¬ Gathers w.tree w.input task batch) (c : Complaint) :
    (Ending.failure c).Tells (w.Fares s task strict) := by
  refine Ending.tells_failure ?_ c
  rintro ⟨batch, hgathers, -⟩
  exact h batch hgathers

/-- Once the sources are known, the report on them decides. -/
theorem tells_of_gathers (hnodup : s.analyzers.Nodup)
    (h : ∀ other, Gathers w.tree w.input task other ↔ other = batch)
    (hfailure : ∀ f, ((w.session s).inspect w.tree batch).2 = .error f → ∃ c, e = .failure c)
    (hreport : ∀ report, ((w.session s).inspect w.tree batch).2 = .ok report →
      ∃ lines, e = .report report.allPassed strict lines) :
    e.Tells (w.Fares s task strict) := by
  have hfares : w.Fares s task strict ↔
      ∃ report, ((w.session s).inspect w.tree batch).2 = .ok report ∧
        (strict = true → report.allPassed = true) := by
    rw [fares_iff hnodup]
    simp only [h, exists_and_left, exists_eq_left]
  cases hinspect : ((w.session s).inspect w.tree batch).2 with
  | error f =>
    obtain ⟨c, rfl⟩ := hfailure f hinspect
    refine Ending.tells_failure ?_ c
    rw [hfares, hinspect]
    rintro ⟨report, ⟨⟩, -⟩
  | ok report =>
    obtain ⟨lines, rfl⟩ := hreport report hinspect
    refine Ending.tells_report ?_ lines
    rw [hfares, hinspect]
    simp

/-- **The exit code of an analysis.** -/
theorem runAnalyze_tells (hnodup : s.analyzers.Nodup) {input : Input} {options : ReportOptions} :
    (w.runAnalyze s input options).2.Tells
      (w.Fares s (.analyze input options) options.strict) := by
  unfold runAnalyze
  cases hsources : w.sources input with
  | error c =>
    refine tells_of_not_gathers (fun batch hgathers => ?_) c
    rw [gathers_analyze_iff, hsources] at hgathers
    cases hgathers
  | ok batch =>
    have hgathers (other : List Source) :
        Gathers w.tree w.input (.analyze input options) other ↔ other = batch := by
      rw [gathers_analyze_iff, hsources, Except.ok.injEq, eq_comm]
    simp only [Session.analyze]
    refine tells_of_gathers hnodup hgathers (fun f hinspect => ?_) fun report hinspect => ?_
    · simp only [hinspect, Except.map]
      exact ⟨_, rfl⟩
    · simp only [hinspect, Except.map]
      exact ⟨_, rfl⟩

/-- **The exit code of a scan.** -/
theorem runScan_tells (hnodup : s.analyzers.Nodup) {directory root : String}
    {changed : List String} {options : ReportOptions} :
    (w.runScan s ⟨changed, directory, root⟩ options).2.Tells
      (w.Fares s (.scan directory root changed options) options.strict) := by
  unfold runScan Session.impact Session.graph
  cases hgraph : DependencyGraph.ofDirectory? w.tree directory with
  | none =>
    refine tells_of_not_gathers (fun batch hgathers => ?_) _
    obtain ⟨g, hg, -⟩ := gathers_scan_iff.mp hgathers
    rw [hgraph] at hg
    cases hg
  | some g =>
    simp only []
    cases hread : Session.readUnits w.tree root
      (Session.affectedUnits (Impact.affected changed g) g).toList with
    | error f =>
      refine tells_of_not_gathers (fun batch hgathers => ?_) _
      obtain ⟨g', hg, missing, hread'⟩ := gathers_scan_iff.mp hgathers
      obtain rfl := Option.some.inj (hgraph.symm.trans hg)
      rw [hread] at hread'
      cases hread'
    | ok read =>
      obtain ⟨sources, missing⟩ := read
      have hgathers (other : List Source) :
          Gathers w.tree w.input (.scan directory root changed options) other ↔
            other = sources := by
        simp only [gathers_scan_iff, hgraph, Option.some.injEq, exists_eq_left', hread,
          Except.ok.injEq, Prod.mk.injEq, exists_and_left, exists_eq', and_true]
        exact eq_comm
      refine tells_of_gathers hnodup hgathers (fun f hinspect => ?_) fun report hinspect => ?_
      · simp only [hinspect, Except.map]
        exact ⟨_, rfl⟩
      · simp only [hinspect, Except.map]
        exact ⟨_, rfl⟩

theorem runTask_tells {options : ReportOptions} (hoptions : task.reportOptions? = some options)
    (hsettings : w.settings = .ok s) (hnodup : s.analyzers.Nodup) :
    (w.runTask task).2.Tells (w.Fares s task options.strict) := by
  cases task with
  | help | version | affected | settings => cases hoptions
  | analyze input options =>
    obtain rfl := Option.some.inj hoptions
    rw [runTask, withSettings, hsettings]
    exact runAnalyze_tells hnodup
  | scan directory root changed options =>
    obtain rfl := Option.some.inj hoptions
    rw [runTask, withSettings, hsettings]
    exact runScan_tells hnodup

/-! ## Other programs -/

/-- What programs do has no say in how a world is prepared. -/
theorem preparedFor_programs {prepared : World} (h : w.preparedFor task = some prepared)
    (programs : Environment → FileTree → Programs) :
    ({ w with programs := programs } : World).preparedFor task =
      some { prepared with programs := programs } := by
  have hfile (h : (w.environment.withFile w.tree).map (fun e => { w with environment := e }) =
      some prepared) :
      (w.environment.withFile w.tree).map
          (fun e => { w with environment := e, programs := programs }) =
        some { prepared with programs := programs } := by
    obtain ⟨e, he, rfl⟩ := Option.map_eq_some_iff.mp h
    rw [he]
    rfl
  cases task with
  | help | version =>
    obtain rfl := Option.some.inj h
    rfl
  | affected | analyze | scan | settings => exact hfile h

/-- Programs have no say in a report that is not strict. -/
theorem fares_programs (programs : Environment → FileTree → Programs) :
    ({ w with programs := programs } : World).Fares s task false ↔ w.Fares s task false := by
  simp only [Fares, ← Session.exists_report_iff, Bool.false_eq_true, false_implies, and_true]
  exact exists_congr fun batch => and_congr_right fun _ =>
    Session.exists_report_programs_iff (s := w.session s) (programs w.environment)

/-- **A report exits with zero exactly if its sources fare as they should, and with one otherwise.**
They do if the directory of records, for a scan, is there, all sources that are asked for can be
read and staged, and, if the report is strict, every analyzer that is listed is content with the
staged copy of every source. If it is not strict, the exit code is the same whatever the programs
do. -/
theorem exit_of_report {arguments : List String} {options : ReportOptions} {prepared : World}
    (hread : Task.read arguments = some task) (hoptions : task.reportOptions? = some options)
    (hprepared : w.preparedFor task = some prepared) (hsettings : prepared.settings = .ok s)
    (hnodup : s.analyzers.Nodup) :
    ((w.run arguments).2.exit = 0 ↔ prepared.Fares s task options.strict) ∧
      ((w.run arguments).2.exit = 1 ↔ ¬ prepared.Fares s task options.strict) ∧
      (options.strict = false → ∀ programs : Environment → FileTree → Programs,
        (({ w with programs := programs } : World).run arguments).2.exit =
          (w.run arguments).2.exit) := by
  have hrun : w.run arguments = prepared.runTask task := by
    simp only [run, hread, hprepared]
  have htells := runTask_tells hoptions hsettings hnodup
  rw [← hrun] at htells
  refine ⟨htells.zero, htells.one, fun hstrict programs => ?_⟩
  have hrun' : ({ w with programs := programs } : World).run arguments =
      ({ prepared with programs := programs } : World).runTask task := by
    simp only [run, hread, preparedFor_programs hprepared programs]
  have htells' := runTask_tells (w := { prepared with programs := programs }) hoptions hsettings
    hnodup
  rw [← hrun', hstrict] at htells'
  rw [hstrict] at htells
  by_cases hfares : prepared.Fares s task false
  · rw [htells.zero.mpr hfares, htells'.zero.mpr ((fares_programs programs).mpr hfares)]
  · rw [htells.one.mpr hfares, htells'.one.mpr fun h => hfares ((fares_programs programs).mp h)]

/-- A world with one record and one of its two sources, in which all programs find nothing. -/
def cleanWorld : World where
  tree := Session.sampleTree
  environment := ∅
  input := []
  programs _ _ _ _ := .ok ⟨some 0, "", ""⟩
  stamps place := ⟨place, 0⟩
  millis := 0

theorem passes_cleanWorld :
    ∃ report, ((cleanWorld.session (Settings.standard "/tmp")).inspect cleanWorld.tree
      [⟨"io.c", "int io;", .c⟩]).2 = .ok report ∧ report.allPassed = true := by
  have hpassed : ((cleanWorld.session (Settings.standard "/tmp")).inspect cleanWorld.tree
      [⟨"io.c", "int io;", .c⟩]).2.map (·.allPassed) = .ok true := by decide +kernel
  exact map_eq_ok_iff.mp hpassed

theorem cleanWorld_fares (options : ReportOptions) (strict : Bool) :
    cleanWorld.Fares (Settings.standard "/tmp") (.scan "build" "." ["io.h"] options) strict := by
  have hread : Session.readUnits Session.sampleTree "."
      (Session.affectedUnits (Names.ofList ["io.h", "io.o"]) Session.sampleGraph).toList =
        .ok ([⟨"io.c", "int io;", .c⟩], ["log.c"]) := by rfl
  obtain ⟨report, hreport, hpassed⟩ := passes_cleanWorld
  refine (fares_iff (by decide)).mpr ⟨_, report, ?_, hreport, fun _ => hpassed⟩
  refine gathers_scan_iff.mpr ⟨Session.sampleGraph, by decide +kernel, ["log.c"], ?_⟩
  simp only [Session.affected_sampleGraph]
  exact hread

/-- A strict scan of the clean world exits with zero, and one that is not strict does so whatever
the programs do. The source that is missing does not count. -/
theorem exit_of_report_cleanWorld :
    (cleanWorld.run ["scan", "--deps", "build", "--strict", "io.h"]).2.exit = 0 ∧
      ∀ programs : Environment → FileTree → Programs,
        (({ cleanWorld with programs := programs } : World).run
          ["scan", "--deps", "build", "io.h"]).2.exit = 0 := by
  have hfile : cleanWorld.environment.withFile cleanWorld.tree = some ∅ := by decide +kernel
  have hprepared (options : ReportOptions) :
      cleanWorld.preparedFor (.scan "build" "." ["io.h"] options) = some cleanWorld := by
    simp only [preparedFor, hfile]
    rfl
  have hsettings : cleanWorld.settings = .ok (Settings.standard "/tmp") := by rfl
  have hstrict : Task.read ["scan", "--deps", "build", "--strict", "io.h"] =
      some (.scan "build" "." ["io.h"] ⟨false, true⟩) := by decide +kernel
  have hlax : Task.read ["scan", "--deps", "build", "io.h"] =
      some (.scan "build" "." ["io.h"] ⟨false, false⟩) := by decide +kernel
  obtain ⟨hzero, -⟩ := exit_of_report hstrict rfl (hprepared _) hsettings (by decide)
  obtain ⟨hzero', -, hprograms⟩ := exit_of_report hlax rfl (hprepared _) hsettings (by decide)
  refine ⟨hzero.mpr (cleanWorld_fares _ _), fun programs => ?_⟩
  rw [hprograms rfl programs]
  exact hzero'.mpr (cleanWorld_fares _ _)

/-- A world with two sources, in which programs are content as long as they do not find both of them
staged. The sources are taken up and staged side by side, if two may be in flight. -/
def crowdedWorld (filesInFlight : String) : World where
  tree :=
    { entries := Std.ExtTreeMap.ofList [
        ([bytesOf "a.c"], Entry.file []), ([bytesOf "b.c"], Entry.file []),
        ([bytesOf "tmp"], Entry.directory)]
      workingDirectory := [] }
  environment := NameTable.ofList [("IMPACT_MAX_CONCURRENT_FILES", filesInFlight)]
  input := []
  programs _ t _ _ :=
    let crowded := ["/tmp/0-00000000-a.c", "/tmp/1-00000000-b.c"].all (t.isFile <| bytesOf ·)
    .ok ⟨some (if crowded then 1 else 0), "", ""⟩
  stamps place := ⟨place, 0⟩
  millis := 0
  order := [.takeUp, .takeUp, .operate 0, .operate 1, .operate 0, .operate 1]

example : ((crowdedWorld "1").run ["analyze", "--strict", "a.c", "b.c"]).2.exit = 0 := by
  decide +kernel

example : ((crowdedWorld "2").run ["analyze", "--strict", "a.c", "b.c"]).2.exit = 1 := by
  decide +kernel

end World

end CommandLine

end Ripple
