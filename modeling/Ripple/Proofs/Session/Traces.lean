import Ripple.Proofs.Batch.Alone
import Ripple.Proofs.Session.Impact

/-!
# What sessions leave behind

A batch with one file in flight leaves nothing behind but the directory for staged files, not even
the beginning of a file whose write has broken off, and so do the two kinds of questions that a
session answers with a batch (`leaves_nothing_behind`).
-/

namespace Ripple

open Text

namespace Session

/-- What a session does with a batch, one file at a time, leaves nothing behind. -/
theorem inspect_onlyMade {s : Session} {t : FileTree} {batch : List Source}
    (hlimit : s.filesInFlight ≤ 1) (hvacant : s.workbench.Unoccupied t batch) :
    t.OnlyMade s.settings.stagingDirectory (s.inspect t batch).1 := by
  have hmoment := Progress.moment_of_run hlimit hvacant (s.run_happened t batch)
  rcases s.exists_outcome t batch with ⟨_, hended⟩ | ⟨_, hended⟩
  · exact (hmoment.ended _ hended).tree
  · exact (hmoment.ended _ hended).tree

/-- The sources of an impact scan are to find no staged files in their places. -/
def ImpactUnoccupied (s : Session) (t : FileTree) (request : ImpactRequest) : Prop :=
  ∀ g sources missing, DependencyGraph.ofDirectory? t request.directory = some g →
    readUnits t request.root (affectedUnits (Impact.affected request.changed g) g).toList =
      .ok (sources, missing) →
    s.workbench.Unoccupied t sources

theorem impact_onlyMade {s : Session} {t : FileTree} {request : ImpactRequest}
    (hlimit : s.filesInFlight ≤ 1) (hvacant : s.ImpactUnoccupied t request) :
    t.OnlyMade s.settings.stagingDirectory (s.impact t request).1 := by
  unfold Session.impact graph
  cases hg : DependencyGraph.ofDirectory? t request.directory with
  | none => exact .refl t _
  | some g =>
    simp only []
    cases hread : readUnits t request.root
      (affectedUnits (Impact.affected request.changed g) g).toList with
    | error failure => exact .refl t _
    | ok read => exact inspect_onlyMade hlimit (hvacant g read.1 read.2 hg hread)

/-- **With one file in flight, nothing is left behind but the directory for staged files**, whatever
way a batch ends and whatever names its sources have. At every moment the tree is the one before,
with directories made on the way to that for staged files and, while inspectors look at it, with one
staged file, which has the content that was submitted. A write that breaks off may leave the
beginning of the content, but not longer than until its file is removed. A batch that ends before
all items have been reported on ends because of one item, and no item after that has been in flight
at any moment. The sessions of which the same is said are those that have one file in flight, in
whatever order things happen. -/
theorem leaves_nothing_behind :
    (∀ (ε : Type) (w : Workbench ε) (t : FileTree) (batch : List Source) (limit : Nat),
      limit ≤ 1 → w.Unoccupied t batch →
        t.OnlyMade w.directory (w.inspect t batch).1 ∧
          ∀ events p, Progress.run w limit (.start t batch) events = some p →
            p.LeavesRest w t ∧
              ∀ later q outcome, p.run w limit later = some q → q.outcome = some outcome →
                q.Ended w t batch.zipIdx outcome ∧ ∀ job ∈ p.jobs, job.item ∉ q.waiting) ∧
      (∀ (s : Session) (t : FileTree) (millis : Nat) (batch : List Source), s.filesInFlight ≤ 1 →
        s.workbench.Unoccupied t batch →
          t.OnlyMade s.settings.stagingDirectory (s.analyze t millis batch).1) ∧
        ∀ (s : Session) (t : FileTree) (request : ImpactRequest), s.filesInFlight ≤ 1 →
          s.ImpactUnoccupied t request →
            t.OnlyMade s.settings.stagingDirectory (s.impact t request).1 := by
  refine ⟨fun ε w t batch limit hlimit hvacant => ⟨Workbench.inspect_onlyMade hvacant, ?_⟩,
    fun s t millis batch hlimit hvacant => inspect_onlyMade hlimit hvacant,
    fun s t request hlimit hvacant => impact_onlyMade hlimit hvacant⟩
  intro events p hrun
  have hmoment := Progress.moment_of_run hlimit hvacant hrun
  refine ⟨hmoment.rest, fun later q outcome hlater hover => ⟨?_, fun job hjob => ?_⟩⟩
  · exact (Progress.moment_of_run hlimit hvacant (Progress.run_append hrun hlater)).ended _ hover
  · exact hmoment.not_waiting (Progress.waiting_suffix_of_run hlater) hjob

/-! ## A batch that crashes -/

/-- An inspector that crashes on empty files. -/
def touchyInspector : Inspector String where
  tool := "touchy"
  inspect t request :=
    if t.readBytes (bytesOf request.path) = .ok [] then .error "empty"
    else .ok ⟨"touchy", true, "", []⟩

/-- A workbench with that inspector. All stamps are the same. -/
def touchyWorkbench : Workbench String := ⟨[touchyInspector], "a/staged", fun _ => ⟨0, 0⟩⟩

/-- A batch under names that would lead elsewhere. The second source is empty. -/
def touchyBatch : List Source :=
  [⟨"../../etc/passwd", "int a;", .c⟩, ⟨"é\\b.c", "", .c⟩, ⟨"../../etc/passwd", "int c;", .c⟩]

/-- The first source is reported on, and the inspector crashes on the second. -/
def touchyOrder : List Event :=
  [.takeUp, .operate 0, .operate 0, .inspected 0 0, .operate 0, .handOver, .takeUp, .operate 0,
    .operate 0, .inspected 0 0]

/-- What cannot be removed because it is not there is no obstacle. -/
theorem unoccupied_of_remove {ε : Type} {w : Workbench ε} {t : FileTree} {batch : List Source}
    (h : ∀ x ∈ batch.zipIdx, ((t.makeDirectories w.directory).1.remove
      (bytesOf (w.itemPath x))).2 = .error .notFound) : w.Unoccupied t batch :=
  fun x hx => FileTree.vacant_of_remove (h x hx) nofun

theorem touchyWorkbench_unoccupied : touchyWorkbench.Unoccupied ⟨∅, [], ∅⟩ touchyBatch :=
  unoccupied_of_remove (by decide +kernel)

theorem sampleSession_unoccupied : sampleSession.workbench.Unoccupied ⟨∅, [], ∅⟩ touchyBatch :=
  unoccupied_of_remove (by decide +kernel)

/-- The one source of the sample that is there. -/
theorem sampleSession_impactUnoccupied :
    sampleSession.ImpactUnoccupied sampleTree ⟨["io.h"], "build", ""⟩ := by
  intro g sources missing hg hread
  have hsample : DependencyGraph.ofDirectory? sampleTree "build" = some sampleGraph := by
    decide +kernel
  obtain rfl := Option.some.inj (hsample.symm.trans hg)
  simp only [affected_sampleGraph] at hread
  have hnames : sources.map (·.name) = ["io.c"] :=
    (readUnits_sorts hread).1.trans (by decide +kernel)
  have hvacant : ∀ content language,
      ((sampleTree.makeDirectories sampleSession.workbench.directory).1.remove
        (bytesOf (sampleSession.workbench.itemPath (⟨"io.c", content, language⟩, 0)))).2 =
          .error .notFound := by
    intro content language
    show ((sampleTree.makeDirectories "tmp").1.remove
      (bytesOf (Staging.path "tmp" ⟨0, 0⟩ "io.c"))).2 = .error .notFound
    decide +kernel
  match sources, hnames with
  | [⟨_, content, language⟩], rfl =>
    exact unoccupied_of_remove (List.forall_mem_singleton.mpr (hvacant content language))

/-- A tree in which no more than three bytes of the first staged file can be written. -/
def crampedTree : FileTree where
  entries := ∅
  workingDirectory := []
  limits := (∅ : Std.ExtTreeMap Location (Nat × Fault)).insert
    [bytesOf "0-00000000-.._.._etc_passwd", bytesOf "staged", bytesOf "a"] (3, .permissionDenied)

/-- The write of the first source breaks off. -/
def brokenWrite : List Event := [.takeUp, .operate 0, .operate 0]

theorem crampedTree_unoccupied : touchyWorkbench.Unoccupied crampedTree touchyBatch :=
  unoccupied_of_remove (by decide +kernel)

/-- After the crash on the second source the directories are all that is left, and the third source
still waits. A write that breaks off leaves three bytes at first, and nothing once the batch has
ended with it. A session leaves no more behind. -/
theorem leaves_nothing_behind_after_crash :
    (∃ p, Progress.run touchyWorkbench 1 (.start ⟨∅, [], ∅⟩ touchyBatch) touchyOrder = some p ∧
      p.outcome.isSome = true ∧ p.waiting.map (·.2) = [2] ∧
      (⟨∅, [], ∅⟩ : FileTree).OnlyMade "a/staged" p.tree) ∧
    (∃ p q, Progress.run touchyWorkbench 1 (.start crampedTree touchyBatch) brokenWrite = some p ∧
      p.tree.readBytes (bytesOf "a/staged/0-00000000-.._.._etc_passwd") = .ok (bytesOf "int") ∧
      p.run touchyWorkbench 1 [.operate 0, .handOver] = some q ∧
      crampedTree.OnlyMade "a/staged" q.tree) ∧
    (⟨∅, [], ∅⟩ : FileTree).OnlyMade "tmp" (sampleSession.analyze ⟨∅, [], ∅⟩ 7 touchyBatch).1 ∧
    sampleTree.OnlyMade "tmp"
      (sampleSession.impact sampleTree ⟨["io.h"], "build", ""⟩).1 := by
  refine ⟨?_, ?_, leaves_nothing_behind.2.1 _ _ 7 _ (by decide) sampleSession_unoccupied,
    leaves_nothing_behind.2.2 _ _ _ (by decide) sampleSession_impactUnoccupied⟩
  · have hend : (Progress.run touchyWorkbench 1 (.start ⟨∅, [], ∅⟩ touchyBatch) touchyOrder).map
        (fun p => (p.outcome.isSome, p.waiting.map (·.2))) = some (true, [2]) := by
      decide +kernel
    obtain ⟨p, hrun, hp⟩ := Option.map_eq_some_iff.mp hend
    obtain ⟨hsome, hwaiting⟩ := Prod.mk.inj hp
    obtain ⟨outcome, hover⟩ := Option.isSome_iff_exists.mp hsome
    obtain ⟨-, hruns⟩ := leaves_nothing_behind.1 String touchyWorkbench ⟨∅, [], ∅⟩ touchyBatch 1
      (by decide) touchyWorkbench_unoccupied
    obtain ⟨hended, -⟩ := (hruns touchyOrder p hrun).2 [] p outcome rfl hover
    exact ⟨p, hrun, hsome, hwaiting, hended.tree⟩
  · have hbroken : (Progress.run touchyWorkbench 1 (.start crampedTree touchyBatch) brokenWrite).map
        (fun p => (p.tree.readBytes (bytesOf "a/staged/0-00000000-.._.._etc_passwd"),
          (p.run touchyWorkbench 1 [.operate 0, .handOver]).any (·.outcome.isSome))) =
        some (.ok (bytesOf "int"), true) := by
      decide +kernel
    obtain ⟨p, hrun, hp⟩ := Option.map_eq_some_iff.mp hbroken
    obtain ⟨hread, hany⟩ := Prod.mk.inj hp
    obtain ⟨q, hlater, hsome⟩ := (Option.any_eq_true ..).mp hany
    obtain ⟨outcome, hover⟩ := Option.isSome_iff_exists.mp hsome
    obtain ⟨-, hruns⟩ := leaves_nothing_behind.1 String touchyWorkbench crampedTree touchyBatch 1
      (by decide) crampedTree_unoccupied
    obtain ⟨hended, -⟩ := (hruns brokenWrite p hrun).2 _ q outcome hlater hover
    exact ⟨p, q, hrun, hread, hlater, hended.tree⟩

end Session

end Ripple
