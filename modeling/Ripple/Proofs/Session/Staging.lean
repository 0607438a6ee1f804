import Ripple.Proofs.Batch.Refusals
import Ripple.Proofs.Session.Impact
import Ripple.Proofs.Staging.Length
import Mathlib.Algebra.BigOperators.Group.List.Defs

/-!
# Names that sessions accept

Any characters may stand in the name that a source is submitted under, but a name is not cut. In a
directory that is there, a session reports on every source of a batch if none of the names is too
long and all contents can be written, and the first source that is refused ends the batch
(`staged_unless_too_long`).
-/

namespace Ripple

open Text

theorem FileTree.Opens.vacant {t : FileTree} {directory name : String} {location : Location}
    {stamp : Stamp} (h : t.Opens directory location)
    (hget : Staging.Fits directory stamp name →
      t.entries[Staging.entryName stamp name :: location]? = none) :
    t.Vacant (Staging.path directory stamp name) := by
  intro place entry hwalk
  by_cases hfits : Staging.Fits directory stamp name
  · obtain ⟨left, hpath⟩ := h.walk_path hfits
    rw [hpath, walkFrom_last hfits.nameLength, hget hfits] at hwalk
    cases hwalk
  · rw [h.walk_path_too_long hfits] at hwalk
    cases hwalk

namespace Session

variable {s : Session} {t : FileTree} {location : Location} {batch : List Source}

/-- In a directory that is there, a batch comes to what its items come to. -/
theorem settled_of_opens (hopens : t.Opens s.settings.stagingDirectory location)
    (hfresh : s.workbench.Fresh t batch) {outcome : Except (Interruption Empty) Report}
    (hended : (s.progress t batch).outcome = some outcome) :
    Progress.Concluded (Progress.Settled s.workbench t location) batch.zipIdx outcome := by
  have d := hfresh.desk hopens.makeDirectories hopens
  rcases Progress.settled_of_run d hopens.makeDirectories (s.run_happened t batch) hended with
    h | ⟨⟨⟩, -⟩
  exact h

/-- If every item is accepted, every source is reported on. -/
theorem inspect_of_accepted (hopens : t.Opens s.settings.stagingDirectory location)
    (hfresh : s.workbench.Fresh t batch)
    (h : ∀ x ∈ batch.zipIdx, s.workbench.refusal? t location x = none) :
    ∃ report, (s.inspect t batch).2 = .ok report ∧
      report.files.map (·.file) = batch.map (·.name) := by
  have hrun := s.run_happened t batch
  rcases s.exists_outcome t batch with ⟨report, hended⟩ | ⟨failure, hended⟩
  · exact ⟨report, inspect_eq_ok_iff.mpr hended, Progress.names_of_run hrun hended⟩
  · have hsettled := settled_of_opens hopens hfresh hended
    obtain ⟨report, ⟨⟩, -⟩ := hsettled.report fun x hx => Progress.not_settled_of_accepted (h x hx)

/-- The first item that is refused ends the batch. -/
theorem inspect_of_refused (hopens : t.Opens s.settings.stagingDirectory location)
    (hfresh : s.workbench.Fresh t batch) {before after : List Item} {x : Item} {fault : Fault}
    (hbatch : batch.zipIdx = before ++ x :: after)
    (hbefore : ∀ y ∈ before, s.workbench.refusal? t location y = none)
    (hx : s.workbench.refusal? t location x = some fault) :
    (s.inspect t batch).2 = .error (.staging ⟨s.workbench.itemPath x, fault⟩) := by
  have hend {outcome : Except (Interruption Empty) Report}
      (hended : (s.progress t batch).outcome = some outcome) :
      outcome = .error (.unstaged ⟨s.workbench.itemPath x, fault⟩) := by
    obtain ⟨failure, rfl, hfailure⟩ := (settled_of_opens hopens hfresh hended).failure hbatch
      (fun y hy => Progress.not_settled_of_accepted (hbefore y hy))
      (fun file hfile => by
        rw [hfile.accepted] at hx
        cases hx)
    obtain ⟨fault', hrefused, rfl⟩ := hfailure.refused
    rw [Option.some.inj (hx.symm.trans hrefused)]
  rcases s.exists_outcome t batch with ⟨report, hended⟩ | ⟨failure, hended⟩
  · cases hend hended
  · rw [inspect_of_outcome hended, hend hended]
    rfl

/-- **A name is accepted unless it is too long.** Whatever characters it is made of, the name of the
staged file has letters, digits, full stops, underscores and dashes only. In a directory that is
there, the source is staged exactly if this name and its path are within the limits of the file
system and the content can be written in full; whether the name is depends on the length of the
submitted one. However many sources are in flight and in whatever order things happen, a batch comes
to a report on every source if all of them are accepted; otherwise the first one that is refused,
because its name is too long or its content cannot be written, ends it. -/
theorem staged_unless_too_long (hopens : t.Opens s.settings.stagingDirectory location) :
    (∀ (stamp : Stamp) (name : String), Staging.fileName stamp name ≠ "" ∧
      ∀ c ∈ (Staging.fileName stamp name).toList,
        c.isAlphanum = true ∨ c = '.' ∨ c = '_' ∨ c = '-') ∧
    (∀ (stamp : Stamp) (name content : String),
      t.Free (Staging.entryName stamp name :: location) →
        t.stage s.settings.stagingDirectory stamp name content =
          if Staging.Fits s.settings.stagingDirectory stamp name then
            match t.shortfall? (Staging.entryName stamp name :: location) (bytesOf content) with
            | none =>
              (t.put (Staging.entryName stamp name :: location) (.file (bytesOf content)),
                .ok (Staging.path s.settings.stagingDirectory stamp name))
            | some reason =>
              (t.erase (Staging.entryName stamp name :: location),
                .error ⟨Staging.path s.settings.stagingDirectory stamp name, reason⟩)
          else (t, .error ⟨Staging.path s.settings.stagingDirectory stamp name, .nameTooLong⟩)) ∧
    (∀ (directory : String) (stamp : Stamp) (name : String),
      Staging.Fits directory stamp name ↔
        (decimal stamp.millis).length + 10 + Staging.plainLength name ≤ 255 ∧
          (bytesOf (Staging.path directory stamp name)).length < 4096) ∧
    ∀ batch : List Source, s.workbench.Fresh t batch →
      ((∀ x ∈ batch.zipIdx, s.workbench.refusal? t location x = none) →
        ∃ report, (s.inspect t batch).2 = .ok report ∧
          report.files.map (·.file) = batch.map (·.name)) ∧
      ∀ before x after fault, batch.zipIdx = before ++ x :: after →
        (∀ y ∈ before, s.workbench.refusal? t location y = none) →
          s.workbench.refusal? t location x = some fault →
            (s.inspect t batch).2 = .error (.staging ⟨s.workbench.itemPath x, fault⟩) := by
  refine ⟨fun stamp name => ⟨?_, fun c hc => Staging.isPlain_iff.mp (Staging.isPlain_fileName hc)⟩,
    fun stamp name content hfree => hopens.stage_eq hfree content,
    fun directory stamp name => Staging.fits_iff,
    fun batch hfresh => ⟨inspect_of_accepted hopens hfresh,
      fun before x after fault hbatch hbefore hx =>
        inspect_of_refused hopens hfresh hbatch hbefore hx⟩⟩
  intro hempty
  have hdash := Staging.dash_mem_fileName stamp name
  rw [hempty] at hdash
  cases hdash

/-- The name of a source deep in a repository. -/
def deepName : String := .ofList ((List.replicate 125 ['d', '/']).flatten ++ ['a', '.', 'c'])

theorem plainLength_deepName : Staging.plainLength deepName = 253 := by
  have htext : deepName.toList = (List.replicate 125 ['d', '/']).flatten ++ ['a', '.', 'c'] :=
    String.toList_ofList
  have ha : 'a' ∈ deepName.toList := by
    rw [htext]
    exact List.mem_append_right _ List.mem_cons_self
  have hdots : ¬deepName.toList.all (· == '.') = true := fun hall =>
    absurd (List.all_eq_true.mp hall 'a' ha) (by decide)
  calc Staging.plainLength deepName = deepName.length := if_neg hdots
    _ = deepName.toList.length := String.length_toList.symm
    _ = 253 := by
      rw [htext, List.length_append, List.length_flatten, List.map_replicate, List.sum_replicate]
      rfl

/-- The stamp before the name takes up eleven bytes at least. -/
theorem deepName_too_long (directory : String) (stamp : Stamp) :
    ¬Staging.Fits directory stamp deepName := by
  rw [Staging.fits_iff, plainLength_deepName]
  rintro ⟨hlength, -⟩
  have hmillis := List.length_pos_iff.mpr (decimal_ne_nil stamp.millis)
  omega

theorem shortName_fits : Staging.Fits "tmp" ⟨0, 0⟩ "main.c" := by
  have hlength : Staging.plainLength "main.c" = 6 := by decide
  rw [Staging.fits_iff_of_room (by decide), hlength]
  simp [decimal]

/-- A tree whose only entry is an empty directory. -/
def deskTree : FileTree where
  entries := (∅ : Std.ExtTreeMap Location Entry).insert [bytesOf "tmp"] .directory
  workingDirectory := []

theorem deskTree_opens : deskTree.Opens "tmp" [bytesOf "tmp"] := by
  have hleads : FileTree.Leads deskTree FileTree.maxLinks [] [.name (bytesOf "tmp")]
      [bytesOf "tmp"] := .enter (by decide) Std.ExtTreeMap.getElem?_insert_self .stay
  have hpieces : FileTree.barePieces (bytesOf "tmp") = [.name (bytesOf "tmp")] :=
    FileTree.barePieces_name (by decide) (by decide) (by decide) (by decide)
  rw [FileTree.Opens, if_neg (by decide)]
  exact ⟨by decide, by decide, by decide, by rwa [hpieces]⟩

theorem shortfall?_deskTree (name : FileName) (content : Bytes) :
    deskTree.shortfall? [name, bytesOf "tmp"] content = none :=
  FileTree.shortfall?_of_limits_eq_empty rfl ..

theorem getElem?_deskTree (name : FileName) : deskTree.entries[[name, bytesOf "tmp"]]? = none := by
  simp [deskTree]

/-- The second source has a name that is too long. -/
def deepBatch : List Source := [⟨"main.c", "int a;", .c⟩, ⟨deepName, "int b;", .c⟩]

theorem sampleSession_fresh : sampleSession.workbench.Fresh deskTree deepBatch where
  nodup := by
    show [Staging.path "tmp" ⟨0, 0⟩ "main.c", Staging.path "tmp" ⟨1, 0⟩ deepName].Nodup
    refine List.nodup_cons.mpr ⟨?_, List.nodup_singleton _⟩
    rw [List.mem_singleton]
    intro hpath
    have hname := congrArg (fun path => FileTree.piecesOf (bytesOf path)) hpath
    simp only [Staging.piecesOf_path, List.append_cancel_left_eq, List.cons.injEq,
      FileTree.Piece.name.injEq, and_true] at hname
    -- one of the names would be too long and not too long
    exact deepName_too_long "tmp" ⟨1, 0⟩
      ⟨hname ▸ shortName_fits.nameLength, hpath ▸ shortName_fits.pathLength⟩
  vacant x _ := by
    show (deskTree.makeDirectories "tmp").1.Vacant (sampleSession.workbench.itemPath x)
    rw [deskTree_opens.makeDirectories]
    exact deskTree_opens.vacant fun _ => getElem?_deskTree _

/-- The source that could be reported on is lost with the one whose name is too long. -/
theorem staged_unless_too_long_deepBatch :
    deskTree.Opens sampleSession.settings.stagingDirectory [bytesOf "tmp"] ∧
    (deskTree.stage "tmp" ⟨0, 0⟩ "main.c" "int a;").2 =
      .ok (Staging.path "tmp" ⟨0, 0⟩ "main.c") ∧
    (sampleSession.inspect deskTree deepBatch).2 =
      .error (.staging ⟨Staging.path "tmp" ⟨1, 0⟩ deepName, .nameTooLong⟩) := by
  obtain ⟨-, hstage, -, hbatch⟩ :=
    staged_unless_too_long (s := sampleSession) deskTree_opens
  refine ⟨deskTree_opens, ?_, ?_⟩
  · have hmain := hstage ⟨0, 0⟩ "main.c" "int a;" (.of_vacant (getElem?_deskTree _))
    rw [shortfall?_deskTree] at hmain
    exact congrArg Prod.snd (hmain.trans (if_pos shortName_fits))
  · have hfirst : ∀ y ∈ [((⟨"main.c", "int a;", .c⟩, 0) : Item)],
        sampleSession.workbench.refusal? deskTree [bytesOf "tmp"] y = none :=
      List.forall_mem_singleton.mpr
        ((if_pos shortName_fits).trans (shortfall?_deskTree _ _))
    exact (hbatch deepBatch sampleSession_fresh).2 _ (⟨deepName, "int b;", .c⟩, 1) [] _ rfl hfirst
      (Workbench.refusal?_of_not_fits (deepName_too_long _ _))

/-- No name is cut: one that is too long is refused. -/
theorem refuses_deepName :
    ¬∀ (t : FileTree) (directory : String) (location : Location) (stamp : Stamp)
        (name content : String), t.Opens directory location →
        t.Free (Staging.entryName stamp name :: location) →
        ∃ t' path, t.stage directory stamp name content = (t', .ok path) := by
  intro h
  obtain ⟨t', path, hstage⟩ := h deskTree "tmp" _ ⟨1700000000000, 7⟩ deepName "int a;"
    deskTree_opens (.of_vacant (getElem?_deskTree _))
  rw [deskTree_opens.stage_eq (.of_vacant (getElem?_deskTree _)),
    if_neg (deepName_too_long _ _)] at hstage
  cases hstage

end Session

end Ripple
