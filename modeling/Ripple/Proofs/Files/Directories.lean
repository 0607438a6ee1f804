import Ripple.Proofs.Files.Pieces

/-!
# Directories and how they are made

`DirectoryAt` says which directory a path leads to. Making a directory together with those above it
either succeeds, and then the path leads to a directory and making it again changes nothing
(`makeDirectories_ok`), or it fails, and then it fails again and leaves no more behind
(`makeDirectories_error`). The reason may be another one the second time, because the first attempt
may have made some of the directories above.
-/

namespace Ripple.FileTree

open Text

variable {t t' : FileTree} {purpose : Purpose} {path upper : Bytes} {pieces : List Piece}
  {location : Location} {spot : Spot}

/-! ## Paths that lead to directories -/

/-- Where the walk of a path starts. -/
def start (t : FileTree) (path : Bytes) : Location :=
  if isAbsolute path then [] else t.workingDirectory

/-- The path leads to the directory at the location. -/
structure DirectoryAt (t : FileTree) (path : Bytes) (location : Location) : Prop where
  nul : 0 ∉ path
  ne_nil : path ≠ []
  length : path.length < pathLimit
  leads : Leads t maxLinks (t.start path) (barePieces path) location

theorem walkPieces_eq (hnul : 0 ∉ path) (hempty : path ≠ []) (hlength : path.length < pathLimit) :
    t.walkPieces purpose path pieces = t.walkFrom purpose maxLinks (t.start path) pieces := by
  rw [walkPieces, if_neg hnul, if_neg hempty, if_neg (Nat.not_le.mpr hlength), start]

theorem walkPieces_eq_ok (h : t.walkPieces purpose path pieces = .ok spot) :
    0 ∉ path ∧ path ≠ [] ∧ path.length < pathLimit ∧
      t.walkFrom purpose maxLinks (t.start path) pieces = .ok spot := by
  have hw := h
  rw [walkPieces] at hw
  split at hw
  · cases hw
  next hnul =>
  split at hw
  · cases hw
  next hempty =>
  split at hw
  · cases hw
  next hlength =>
  rw [walkPieces_eq hnul hempty (Nat.not_le.mp hlength)] at h
  exact ⟨hnul, hempty, Nat.not_le.mp hlength, h⟩

/-- A path leads to a directory if a walk with the same steps does, slashes at the end or not. -/
theorem directoryAt_of_walkPieces (hsteps : pieces.filter (·.isStep) = steps path)
    (h : t.walkPieces purpose path pieces = .ok (.taken location .directory)) :
    t.DirectoryAt path location := by
  obtain ⟨hnul, hempty, hlength, hwalk⟩ := walkPieces_eq_ok h
  exact ⟨hnul, hempty, hlength, (leads_of_walkFrom hwalk).congr hsteps.symm⟩

theorem DirectoryAt.walkPieces_reach (h : t.DirectoryAt path location)
    (hsteps : pieces.filter (·.isStep) = steps path) :
    t.walkPieces .reach path pieces = .ok (.taken location .directory) := by
  rw [walkPieces_eq h.nul h.ne_nil h.length]
  exact (h.leads.congr hsteps).walkFrom_reach

/-- A path leads to a directory exactly if that is where a walk of it ends. -/
theorem walk_reach_iff :
    t.walk .reach path = .ok (.taken location .directory) ↔ t.DirectoryAt path location :=
  ⟨directoryAt_of_walkPieces (filter_piecesOf path),
    fun h => h.walkPieces_reach (filter_piecesOf path)⟩

theorem isDirectory_iff : t.isDirectory path = true ↔ ∃ location, t.DirectoryAt path location := by
  constructor
  · intro h
    unfold isDirectory lookUp at h
    split at h
    · next hlook =>
      split at hlook
      · next location entry hwalk =>
        obtain rfl := Except.ok.inj hlook
        exact ⟨location, walk_reach_iff.mp hwalk⟩
      · cases hlook
      · cases hlook
    · cases h
  · rintro ⟨location, h⟩
    rw [isDirectory, lookUp, walk_reach_iff.mpr h]

theorem isDirectory_eq_false_iff :
    t.isDirectory path = false ↔ ∀ location, ¬ t.DirectoryAt path location := by
  rw [← Bool.not_eq_true, isDirectory_iff, not_exists]

/-- Something stands where a file can be read. -/
theorem exists?_of_readBytes {content : Bytes} (h : t.readBytes path = .ok content) :
    t.exists? path = true := by
  unfold readBytes at h
  rw [exists?]
  cases hentry : t.lookUp path with
  | ok entry => rfl
  | error fault =>
    rw [hentry] at h
    cases h

theorem WaysKept.start (h : WaysKept t t') : t'.start path = t.start path := by
  rw [FileTree.start, FileTree.start, h.workingDirectory]

theorem DirectoryAt.ways (hways : WaysKept t t') (h : t.DirectoryAt path location) :
    t'.DirectoryAt path location where
  nul := h.nul
  ne_nil := h.ne_nil
  length := h.length
  leads := by
    rw [hways.start]
    exact h.leads.ways hways

theorem DirectoryAt.mono (hkept : KeptIn t t') (h : t.DirectoryAt path location) :
    t'.DirectoryAt path location :=
  h.ways hkept.ways

/-- A walk that ends somewhere comes by the directory above. -/
theorem Above.directoryAt (h : Above path upper)
    (hsteps : pieces.filter (·.isStep) = FileTree.steps path)
    (hwalk : t.walkPieces purpose path pieces = .ok spot) :
    ∃ location, t.DirectoryAt upper location := by
  obtain ⟨hnul, -, hlength, hwalk⟩ := walkPieces_eq_ok hwalk
  obtain ⟨last, hlast⟩ := h.step
  rw [hlast] at hsteps
  obtain ⟨before, after, rfl, hbefore, hafter⟩ := List.filter_eq_append_iff.mp hsteps
  have hrest : after ≠ [] := by
    rintro rfl
    simp at hafter
  obtain ⟨location, hleads, -⟩ := leads_of_walkFrom_append (fun h => absurd h hrest) hwalk
  refine ⟨location, fun hmem => hnul (h.sublist.subset hmem), h.ne_nil,
    Nat.lt_of_le_of_lt h.sublist.length_le hlength, ?_⟩
  rw [FileTree.start, h.start]
  exact hleads.congr hbefore.symm

/-! ## Making one directory -/

/-- A directory that has been made stands at a place that was vacant. -/
theorem makeDirectory_ok (h : t.makeDirectory path = (t', .ok ())) :
    ∃ directory name, t' = t.put (name :: directory) .directory ∧
      t.entries[name :: directory]? = none ∧ t'.DirectoryAt path (name :: directory) := by
  rw [makeDirectory, piecesOf_dropSlashes] at h
  split at h
  · next directory name hwalk =>
    obtain ⟨rfl, -⟩ := Prod.mk.inj h
    obtain ⟨hnul, hempty, hlength, hwalk⟩ := walkPieces_eq_ok hwalk
    obtain ⟨before, hpieces, hleads, hname, hvacant⟩ := leads_of_walkFrom_vacant hwalk
    refine ⟨directory, name, rfl, hvacant, hnul, hempty, hlength, ?_⟩
    rw [hpieces]
    exact (hleads.mono (.put hvacant)).append_name hname getElem?_put_self
  · simp at h
  · simp at h

theorem makeDirectory_error {fault : Fault} (h : t.makeDirectory path = (t', .error fault)) :
    t' = t := by
  rw [makeDirectory] at h
  split at h <;> simp_all

/-- A directory is not made a second time. -/
theorem DirectoryAt.makeDirectory (h : t.DirectoryAt path location) :
    t.makeDirectory path = (t, .error .alreadyExists) := by
  obtain ⟨location', entry, hwalk⟩ := h.leads.walkFrom_name
  rw [FileTree.makeDirectory, piecesOf_dropSlashes, walkPieces_eq h.nul h.ne_nil h.length, hwalk]

/-- Where the directory above is missing, a directory can neither be made nor be there. -/
theorem Above.makeDirectory (h : Above path upper)
    (hmissing : ∀ location, ¬ t.DirectoryAt upper location) :
    t.isDirectory path = false ∧ ∃ fault, t.makeDirectory path = (t, .error fault) := by
  constructor
  · refine isDirectory_eq_false_iff.mpr fun location hpath => ?_
    obtain ⟨upperLocation, hupper⟩ := h.directoryAt rfl (hpath.walkPieces_reach rfl)
    exact hmissing upperLocation hupper
  · rw [FileTree.makeDirectory, piecesOf_dropSlashes]
    cases hwalk : t.walkPieces .name path (barePieces path) with
    | error fault => exact ⟨fault, rfl⟩
    | ok spot =>
      obtain ⟨upperLocation, hupper⟩ := h.directoryAt rfl hwalk
      exact absurd hupper (hmissing upperLocation)

/-! ## Making a directory and those above it -/

section Lineage

variable {parents paths : List Bytes} {fault : Fault}

theorem makeLineage_of_error (h : t.makeDirectory path = (t, .error fault))
    (hfault : fault ≠ .notFound) :
    t.makeLineage (path :: parents) =
      (t, if t.isDirectory path then .ok () else .error fault) := by
  rw [makeLineage, h]
  cases fault <;> first | rfl | exact absurd rfl hfault

theorem makeLineage_of_missing (h : t.makeDirectory path = (t, .error .notFound))
    (hparents : t.makeLineage parents = (t', .error fault)) :
    t.makeLineage (path :: parents) = (t', .error fault) := by
  rw [makeLineage, h]
  simp only [hparents]

theorem makeLineage_of_missing_again (h : t.makeDirectory path = (t, .error .notFound))
    (hparents : t.makeLineage parents = (t, .ok ())) :
    t.makeLineage (path :: parents) =
      (t, if t.isDirectory path then .ok () else .error .notFound) := by
  rw [makeLineage, h]
  simp only [hparents, h]

/-- A path whose lineage has been made leads to a directory. -/
theorem makeLineage_ok (t : FileTree) (paths : List Bytes)
    (h : (t.makeLineage paths).2 = .ok ()) :
    ∀ path ∈ paths.head?, ∃ location, (t.makeLineage paths).1.DirectoryAt path location := by
  have hmade {t made : FileTree} {path : Bytes} (h : t.makeDirectory path = (made, .ok ())) :
      ∃ location, made.DirectoryAt path location := by
    obtain ⟨directory, name, -, -, hpath⟩ := makeDirectory_ok h
    exact ⟨name :: directory, hpath⟩
  have hthere {t : FileTree} {path : Bytes} {fault : Fault}
      (h : (if t.isDirectory path then .ok () else .error fault : Except Fault Unit) = .ok ()) :
      ∃ location, t.DirectoryAt path location := by
    split at h
    · next hpath => exact isDirectory_iff.mp hpath
    · cases h
  fun_induction makeLineage t paths with
  | case1 => simp
  | case2 path parents made hpath => simpa using hmade hpath
  | case3 => cases h
  | case4 path parents _ _ above _ made hpath _ => simpa using hmade hpath
  | case5 path parents _ _ above _ _ fault _ _ => simpa using hthere h
  | case6 path parents _ fault _ _ => simpa using hthere h

/-- Where there is a directory already, nothing is made. -/
theorem DirectoryAt.makeLineage (h : t.DirectoryAt path location) :
    t.makeLineage (path :: parents) = (t, .ok ()) := by
  rw [makeLineage_of_error h.makeDirectory (by decide), if_pos (isDirectory_iff.mpr ⟨location, h⟩)]

/-- A lineage that could not be made cannot be made the next time either, and no more is left
behind. -/
theorem makeLineage_error (t : FileTree) {paths : List Bytes} (hchain : List.IsChain Above paths)
    (h : (t.makeLineage paths).2 = .error fault) :
    (∀ path ∈ paths.head?, ∀ location, ¬ (t.makeLineage paths).1.DirectoryAt path location) ∧
      ∃ fault', (t.makeLineage paths).1.makeLineage paths =
        ((t.makeLineage paths).1, .error fault') := by
  -- what cannot be made although those above it are there fails for the same reason again
  have hagain {t : FileTree} {path : Bytes} {parents : List Bytes} {fault fault' : Fault}
      (hparents : t.makeLineage parents = (t, .ok ()))
      (hpath : t.makeDirectory path = (t, .error fault))
      (h : (if t.isDirectory path then .ok () else .error fault : Except Fault Unit) =
        .error fault') :
      (∀ location, ¬ t.DirectoryAt path location) ∧
        ∃ fault', t.makeLineage (path :: parents) = (t, .error fault') := by
    split at h
    · cases h
    next hthere =>
    refine ⟨isDirectory_eq_false_iff.mp (Bool.not_eq_true _ ▸ hthere), fault, ?_⟩
    by_cases hmissing : fault = .notFound
    · rw [hmissing] at hpath ⊢
      rw [makeLineage_of_missing_again hpath hparents, if_neg hthere]
    · rw [makeLineage_of_error hpath hmissing, if_neg hthere]
  fun_induction makeLineage t paths with
  | case1 => cases h
  | case2 => cases h
  | case3 path parents _ _ above fault' hparents ih =>
    -- the directory above is missing for good, whatever has been made above that
    rw [hparents] at ih
    obtain ⟨hmissing, fault'', hparents'⟩ := ih hchain.of_cons h
    obtain ⟨upper, rest, rfl⟩ : ∃ upper rest, parents = upper :: rest := by
      cases parents with
      | nil => simp [makeLineage] at hparents
      | cons upper rest => exact ⟨upper, rest, rfl⟩
    have habove : Above path upper := (List.isChain_cons_cons.mp hchain).1
    obtain ⟨hpath, fault₀, hagain⟩ := habove.makeDirectory (hmissing upper rfl)
    refine ⟨?_, ?_⟩
    · rintro _ ⟨⟩
      exact isDirectory_eq_false_iff.mp hpath
    · by_cases hfault : fault₀ = .notFound
      · rw [hfault] at hagain
        exact ⟨fault'', makeLineage_of_missing hagain hparents'⟩
      · refine ⟨fault₀, ?_⟩
        rw [makeLineage_of_error hagain hfault, if_neg (by simp [hpath])]
  | case4 => cases h
  | case5 path parents _ _ above hparents _ fault' hpath ih =>
    rw [makeDirectory_error hpath] at hpath
    -- those above are there by now, so the next time nothing is made
    have hparents' : above.makeLineage parents = (above, .ok ()) := by
      cases parents with
      | nil => rfl
      | cons upper rest =>
        obtain ⟨location, hupper⟩ := makeLineage_ok _ _ (congrArg Prod.snd hparents) upper rfl
        rw [hparents] at hupper
        exact hupper.makeLineage
    obtain ⟨hmissing, hfails⟩ := hagain hparents' hpath h
    exact ⟨by rintro _ ⟨⟩; exact hmissing, hfails⟩
  | case6 path parents _ fault' hfault hpath =>
    rw [makeDirectory_error hpath] at hpath
    have hthere : t.isDirectory path = false := by
      rw [← Bool.not_eq_true]
      intro hthere
      simp [hthere] at h
    refine ⟨?_, fault', ?_⟩
    · rintro _ ⟨⟩
      exact isDirectory_eq_false_iff.mp hthere
    · rw [makeLineage_of_error hpath hfault, if_neg (by simp [hthere])]

end Lineage

/-! ## The directories of a path -/

/-- The path of a directory, where the empty path stands for the one that relative paths start
from. -/
def Opens (t : FileTree) (path : String) (location : Location) : Prop :=
  if path = "" then location = t.workingDirectory else t.DirectoryAt (bytesOf path) location

theorem Opens.ways {path : String} (hways : WaysKept t t') (h : t.Opens path location) :
    t'.Opens path location := by
  unfold Opens at h ⊢
  split at h
  · next hpath => rw [if_pos hpath, hways.workingDirectory, h]
  · next hpath => rw [if_neg hpath]; exact h.ways hways

theorem Opens.mono {path : String} (hkept : KeptIn t t') (h : t.Opens path location) :
    t'.Opens path location :=
  h.ways hkept.ways

theorem lineage_cons (path : String) :
    ∃ parents, (Path.lineage path.toList).map encode = bytesOf path :: parents :=
  ⟨_, rfl⟩

/-- **A directory that has been made is there**, and it need not be made again. -/
theorem makeDirectories_ok {path : String} (h : t.makeDirectories path = (t', .ok ())) :
    ∃ location, t'.Opens path location := by
  unfold makeDirectories at h
  unfold Opens
  split at h
  · next hpath => exact ⟨t'.workingDirectory, by rw [if_pos hpath]⟩
  · next hpath =>
    obtain ⟨parents, hlineage⟩ := lineage_cons path
    rw [hlineage] at h
    obtain ⟨location, hlocation⟩ := makeLineage_ok _ _ (congrArg Prod.snd h) (bytesOf path) rfl
    rw [h] at hlocation
    exact ⟨location, by rwa [if_neg hpath]⟩

theorem Opens.makeDirectories {path : String} (h : t.Opens path location) :
    t.makeDirectories path = (t, .ok ()) := by
  unfold FileTree.makeDirectories
  unfold Opens at h
  split at h
  · next hpath => rw [if_pos hpath]
  · next hpath =>
    obtain ⟨parents, hlineage⟩ := lineage_cons path
    rw [if_neg hpath, hlineage, h.makeLineage]

/-- **A directory that could not be made cannot be made the next time either**, and no more is left
behind than the first time. -/
theorem makeDirectories_error {path : String} {fault : Fault}
    (h : t.makeDirectories path = (t', .error fault)) :
    ∃ fault', t'.makeDirectories path = (t', .error fault') := by
  unfold makeDirectories at h ⊢
  split at h
  · simp at h
  · next hpath =>
    rw [if_neg hpath]
    obtain ⟨-, fault', hagain⟩ :=
      makeLineage_error t (isChain_lineage path.toList) (congrArg Prod.snd h)
    rw [h] at hagain
    exact ⟨fault', hagain⟩

end Ripple.FileTree
