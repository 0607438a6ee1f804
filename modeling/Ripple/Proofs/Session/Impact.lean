import Ripple.Proofs.Batch.Reports
import Ripple.Proofs.Impact.Closure
import Ripple.Proofs.Session.Runs
import Ripple.Proofs.Text.ByteOrder

/-!
# What an impact scan answers

The compilation units of an impact scan are the affected paths and the paths that the record of an
affected target lists, as far as they are units (`mem_affectedUnits`). Reading them sorts them into
those that are there and those that are missing and loses none (`readUnits_eq_ok_iff`), and the
batch has a report on each of the former, in order, whatever order things happen in.
`impact_accounts_for_units` puts the three together.
-/

namespace Ripple

open Text

namespace Impact

theorem mem_sourceFiles {paths : List String} {path : String} :
    path ∈ sourceFiles paths ↔ path ∈ paths ∧ (Language.ofPath? path).isSome = true := by
  rw [sourceFiles, Names.mem_ofList, List.mem_filter]

theorem mem_sourcesOfTargets {targets : List String} {g : DependencyGraph} {path : String} :
    path ∈ sourcesOfTargets targets g ↔
      (∃ target ∈ targets, g.Lists target path) ∧ (Language.ofPath? path).isSome = true := by
  unfold sourcesOfTargets DependencyGraph.Lists
  simp only [Names.mem_ofList, List.mem_flatMap, List.mem_filterMap, Std.ExtTreeSet.mem_toList,
    mem_sourceFiles]
  constructor
  · rintro ⟨dependencies, ⟨target, htarget, hget⟩, hmem, hlang⟩
    exact ⟨⟨target, htarget, dependencies, hget, hmem⟩, hlang⟩
  · rintro ⟨⟨target, htarget, dependencies, hget, hmem⟩, hlang⟩
    exact ⟨dependencies, ⟨target, htarget, hget⟩, hmem, hlang⟩

/-- The path is a compilation unit that is affected or listed by the record of an affected
target. -/
def AffectedUnit (g : DependencyGraph) (changed : List String) (path : String) : Prop :=
  (Language.ofPath? path).isSome = true ∧
    (Affected g changed path ∨ ∃ target, Affected g changed target ∧ g.Lists target path)

end Impact

namespace Session

/-- The compilation units of a session are those that the change is said to touch. -/
theorem mem_affectedUnits {changed : List String} {g : DependencyGraph} {path : String} :
    path ∈ affectedUnits (Impact.affected changed g) g ↔ Impact.AffectedUnit g changed path := by
  unfold affectedUnits Impact.AffectedUnit
  simp only [Names.mem_ofList, List.mem_append, Std.ExtTreeSet.mem_toList, Impact.mem_sourceFiles,
    Impact.mem_sourcesOfTargets, Impact.mem_affected]
  constructor
  · rintro (⟨haff, hlang⟩ | ⟨hlists, hlang⟩)
    · exact ⟨hlang, Or.inl haff⟩
    · exact ⟨hlang, Or.inr hlists⟩
  · rintro ⟨hlang, haff | hlists⟩
    · exact Or.inl ⟨haff, hlang⟩
    · exact Or.inr ⟨hlists, hlang⟩

/-- The path of a unit under a root. -/
def unitPath (root unit : String) : Bytes :=
  bytesOf (String.ofList (Path.join root.toList unit.toList))

-- the walk behind `readText` is not to be unrolled here
seal FileTree.readText in
theorem readUnits_cons {t : FileTree} {root unit : String} {rest : List String} :
    readUnits t root (unit :: rest) =
      match Language.ofPath? unit with
      | none => readUnits t root rest
      | some language =>
        if t.isFile (unitPath root unit) then
          match t.readText (unitPath root unit) with
          | .error reason =>
            .error (.unreadable (String.ofList (Path.join root.toList unit.toList)) reason)
          | .ok content =>
            (readUnits t root rest).map fun (sources, missing) =>
              (⟨unit, content, language⟩ :: sources, missing)
        else (readUnits t root rest).map fun (sources, missing) => (sources, unit :: missing) := by
  exact rfl

/-- **Reading sorts the units by whether a regular file is there.** A path that is no unit is passed
over, all others are kept in their order, and every file that is there has been read. -/
theorem readUnits_eq_ok_iff {t : FileTree} {root : String} {units : List String}
    {sources : List Source} {missing : List String} :
    readUnits t root units = .ok (sources, missing) ↔
      sources.map (·.name) =
          units.filter (fun u => (Language.ofPath? u).isSome && t.isFile (unitPath root u)) ∧
        missing =
          units.filter (fun u => (Language.ofPath? u).isSome && !t.isFile (unitPath root u)) ∧
        ∀ source ∈ sources, Language.ofPath? source.name = some source.language ∧
          t.readText (unitPath root source.name) = .ok source.content := by
  induction units generalizing sources missing with
  | nil =>
    constructor
    · intro h
      obtain ⟨rfl, rfl⟩ := Prod.mk.inj (Except.ok.inj h)
      exact ⟨rfl, rfl, by simp⟩
    · rintro ⟨hnames, rfl, -⟩
      rw [List.map_eq_nil_iff.mp hnames]
      rfl
  | cons unit rest ih =>
    rw [readUnits_cons]
    cases hlang : Language.ofPath? unit with
    | none =>
      -- a path that is no unit is in neither of the two lists
      rw [List.filter_cons_of_neg (by simp [hlang]), List.filter_cons_of_neg (by simp [hlang])]
      exact ih
    | some language =>
      simp only []
      by_cases hfile : t.isFile (unitPath root unit) = true
      · rw [if_pos hfile, List.filter_cons_of_pos (by simp [hlang, hfile]),
          List.filter_cons_of_neg (by simp [hfile])]
        constructor
        · intro h
          cases hread : t.readText (unitPath root unit) with
          | error reason => simp [hread] at h
          | ok content =>
            simp only [hread] at h
            obtain ⟨⟨others, missing'⟩, hrest, hread'⟩ := map_eq_ok_iff.mp h
            obtain ⟨rfl, rfl⟩ := Prod.mk.inj hread'
            obtain ⟨hnames, hmissing, hsources⟩ := ih.mp hrest
            exact ⟨congrArg (unit :: ·) hnames, hmissing,
              List.forall_mem_cons.mpr ⟨⟨hlang, hread⟩, hsources⟩⟩
        · rintro ⟨hnames, hmissing, hsources⟩
          obtain ⟨source, others, rfl, rfl, hothers⟩ := List.map_eq_cons_iff.mp hnames
          obtain ⟨⟨hlang', hread⟩, hsources⟩ := List.forall_mem_cons.mp hsources
          obtain rfl := Option.some.inj (hlang.symm.trans hlang')
          simp only [hread]
          exact map_eq_ok_iff.mpr ⟨_, ih.mpr ⟨hothers, hmissing, hsources⟩, rfl⟩
      · rw [if_neg hfile, List.filter_cons_of_neg (by simp [hfile]),
          List.filter_cons_of_pos (by simp [hlang, hfile])]
        constructor
        · intro h
          obtain ⟨⟨sources', others⟩, hrest, hread'⟩ := map_eq_ok_iff.mp h
          obtain ⟨rfl, rfl⟩ := Prod.mk.inj hread'
          obtain ⟨hnames, hmissing, hsources⟩ := ih.mp hrest
          exact ⟨hnames, congrArg (unit :: ·) hmissing, hsources⟩
        · rintro ⟨hnames, rfl, hsources⟩
          exact map_eq_ok_iff.mpr ⟨_, ih.mpr ⟨hnames, rfl, hsources⟩, rfl⟩

theorem readUnits_sorts {t : FileTree} {root : String} {units : List String}
    {sources : List Source} {missing : List String}
    (h : readUnits t root units = .ok (sources, missing)) :
    sources.map (·.name) =
        units.filter (fun u => (Language.ofPath? u).isSome && t.isFile (unitPath root u)) ∧
      missing =
        units.filter (fun u => (Language.ofPath? u).isSome && !t.isFile (unitPath root u)) := by
  obtain ⟨hnames, hmissing, -⟩ := readUnits_eq_ok_iff.mp h
  exact ⟨hnames, hmissing⟩

/-- What has to hold for an impact scan to give an answer, and what the answer consists of. -/
theorem impact_eq_ok {s : Session} {t t' : FileTree} {request : ImpactRequest}
    {answer : ImpactAnswer} (h : s.impact t request = (t', .ok answer)) :
    ∃ g sources report,
      DependencyGraph.ofDirectory? t request.directory = some g ∧
      readUnits t request.root (affectedUnits (Impact.affected request.changed g) g).toList =
        .ok (sources, answer.missing) ∧
      s.inspect t sources = (t', .ok report) ∧
      answer = ⟨(Impact.affected request.changed g).toList, sources.map (·.name), answer.missing,
        report, report.summary⟩ := by
  unfold Session.impact graph at h
  cases hg : DependencyGraph.ofDirectory? t request.directory with
  | none => simp [hg] at h
  | some g =>
    simp only [hg] at h
    split at h
    · simp at h
    · next sources missing hread =>
      obtain ⟨ht, hreport⟩ := Prod.mk.inj h
      obtain ⟨report, hr, rfl⟩ := map_eq_ok_iff.mp hreport
      exact ⟨g, sources, report, rfl, hread, by rw [← ht, ← hr], rfl⟩

/-- **An impact scan accounts for every compilation unit that the change touches.** The affected
paths are listed in ascending order. Each unit among them, and each unit that the record of one of
them lists, was analyzed if a regular file is there under the root and is listed as missing
otherwise; no other path is in either list, and both lists ascend. However many units are in flight
and in whatever order things happen to them, the report has one entry for each analyzed unit, in
order and under its name, and the summary is that of the report. -/
theorem impact_accounts_for_units {s : Session} {t t' : FileTree} {request : ImpactRequest}
    {answer : ImpactAnswer} (h : s.impact t request = (t', .ok answer)) :
    ∃ g, DependencyGraph.ofDirectory? t request.directory = some g ∧
      (∀ path, path ∈ answer.affected ↔ Impact.Affected g request.changed path) ∧
      Ascending answer.affected ∧
      (∀ unit, unit ∈ answer.analyzed ∨ unit ∈ answer.missing ↔
        Impact.AffectedUnit g request.changed unit) ∧
      (∀ unit, ¬(unit ∈ answer.analyzed ∧ unit ∈ answer.missing)) ∧
      Ascending answer.analyzed ∧ Ascending answer.missing ∧
      (∀ unit, unit ∈ answer.analyzed ↔ Impact.AffectedUnit g request.changed unit ∧
        t.isFile (unitPath request.root unit) = true) ∧
      answer.report.files.map (·.file) = answer.analyzed ∧
      answer.summary = answer.report.summary := by
  obtain ⟨g, sources, report, hg, hread, hinspect, hanswer⟩ := impact_eq_ok h
  obtain ⟨hnames, hmissing⟩ := readUnits_sorts hread
  have hunits := Names.ascending_toList (affectedUnits (Impact.affected request.changed g) g)
  have hanalyzed : answer.analyzed = sources.map (·.name) := by rw [hanswer]
  have hmem (unit : String) : unit ∈ answer.analyzed ↔
      Impact.AffectedUnit g request.changed unit ∧
        t.isFile (unitPath request.root unit) = true := by
    rw [hanalyzed, hnames, List.mem_filter, Std.ExtTreeSet.mem_toList, mem_affectedUnits]
    exact and_congr_right fun hunit => by simp [hunit.1]
  have hmem' (unit : String) : unit ∈ answer.missing ↔
      Impact.AffectedUnit g request.changed unit ∧
        ¬t.isFile (unitPath request.root unit) = true := by
    rw [hmissing, List.mem_filter, Std.ExtTreeSet.mem_toList, mem_affectedUnits]
    exact and_congr_right fun hunit => by simp [hunit.1]
  refine ⟨g, hg, fun path => ?_, ?_, fun unit => ?_, ?_, ?_, ?_, hmem, ?_, ?_⟩
  · rw [hanswer, Std.ExtTreeSet.mem_toList, Impact.mem_affected]
  · rw [hanswer]
    exact Names.ascending_toList _
  · rw [hmem, hmem', ← and_or_left]
    exact and_iff_left (em _)
  · rintro unit ⟨hin, hout⟩
    exact ((hmem' unit).mp hout).2 ((hmem unit).mp hin).2
  · rw [hanalyzed, hnames]
    exact hunits.filter _
  · rw [hmissing]
    exact hunits.filter _
  · rw [hanswer]
    have hended := inspect_eq_ok_iff.mp (congrArg Prod.snd hinspect)
    exact Progress.names_of_run (s.run_happened t sources) hended
  · rw [hanswer]

/-- A build directory with one record, of whose two sources one is there. -/
def sampleTree : FileTree :=
  let at_ (names : List String) : Location := names.map bytesOf
  { entries := Std.ExtTreeMap.ofList [
      (at_ ["build"], Entry.directory),
      (at_ ["io.d", "build"], Entry.file (bytesOf "io.o: io.c log.c io.h")),
      (at_ ["io.c"], Entry.file (bytesOf "int io;"))]
    workingDirectory := [] }

/-- A session with one analyzer, which finds nothing wrong. -/
def sampleSession : Session where
  settings := { Settings.standard "tmp" with analyzers := [.cppcheck] }
  headers := .generic
  programs := fun _ _ _ => .ok ⟨some 0, "", ""⟩
  stamps := fun place => ⟨place, 0⟩

/-- The graph of the sample's record. -/
def sampleGraph : DependencyGraph :=
  .ofRecords [⟨"io.o", Names.ofList ["io.c", "log.c", "io.h"]⟩]

theorem affected_sampleGraph :
    Impact.affected ["io.h"] sampleGraph = Names.ofList ["io.h", "io.o"] := by
  -- two paths leave the queue before it is empty
  have hrun : (Worklist.start ["io.h"]).run sampleGraph.reverse =
      ((Worklist.start ["io.h"]).step sampleGraph.reverse).step sampleGraph.reverse :=
    (Worklist.run_of_queue_ne_nil (by decide +kernel)).trans
      ((Worklist.run_of_queue_ne_nil (by decide +kernel)).trans
        (Worklist.run_of_queue_eq_nil (by decide +kernel)))
  exact (congrArg Worklist.seen hrun).trans (by decide +kernel)

/-- A changed header has one source analyzed and the other one reported as missing. -/
theorem impact_accounts_for_header :
    ∃ t' answer,
      sampleSession.impact sampleTree ⟨["io.h"], "build", ""⟩ = (t', .ok answer) ∧
        "io.c" ∈ answer.analyzed ∧ "io.c" ∉ answer.missing := by
  have hok : (sampleSession.impact sampleTree ⟨["io.h"], "build", ""⟩).2.isOk = true := by
    have hg : DependencyGraph.ofDirectory? sampleTree "build" = some sampleGraph := by
      decide +kernel
    unfold Session.impact graph
    simp only [hg, affected_sampleGraph]
    decide +kernel
  cases himpact : sampleSession.impact sampleTree ⟨["io.h"], "build", ""⟩ with
  | mk t' result =>
    rw [himpact] at hok
    cases result with
    | error failure => simp [Except.isOk, Except.toBool] at hok
    | ok answer =>
      obtain ⟨g, hg, -, -, -, hdisjoint, -, -, hanalyzed, -⟩ := impact_accounts_for_units himpact
      obtain rfl : sampleGraph = g := by
        have hsample : DependencyGraph.ofDirectory? sampleTree "build" = some sampleGraph := by
          decide +kernel
        exact Option.some.inj (hsample.symm.trans hg)
      have hin : "io.c" ∈ answer.analyzed := by
        refine (hanalyzed "io.c").mpr ⟨?_, by decide +kernel⟩
        refine mem_affectedUnits.mp ?_
        show "io.c" ∈ affectedUnits (Impact.affected ["io.h"] sampleGraph) sampleGraph
        rw [affected_sampleGraph]
        decide +kernel
      exact ⟨t', answer, rfl, hin, fun hout => hdisjoint "io.c" ⟨hin, hout⟩⟩

end Session

end Ripple
