import Ripple.Proofs.Files.Directories
import Ripple.Proofs.Staging.Names

/-!
# Staged files

In a directory that is there, the file of a source can be made exactly if its name and its path are
not too long (`Fits`), whatever else stands in the directory under other names. The file is an entry
of its own in that directory, which can be read back and is taken away again without a trace.
-/

namespace Ripple

open Text

namespace Staging

/-- The name and the path of the staged file are not too long. -/
structure Fits (directory : String) (stamp : Stamp) (name : String) : Prop where
  nameLength : (entryName stamp name).length ≤ FileTree.maxNameLength
  pathLength : (bytesOf (path directory stamp name)).length < FileTree.pathLimit

instance instDecidableFits (directory : String) (stamp : Stamp) (name : String) :
    Decidable (Fits directory stamp name) :=
  decidable_of_iff
    ((entryName stamp name).length ≤ FileTree.maxNameLength ∧
      (bytesOf (path directory stamp name)).length < FileTree.pathLimit)
    ⟨fun h => ⟨h.1, h.2⟩, fun h => ⟨h.1, h.2⟩⟩

end Staging

namespace FileTree

open Staging (entryName Fits)

variable {t t' : FileTree} {directory : String} {location : Location} {stamp : Stamp}
  {name : String} {purpose : Purpose} {content : Bytes}

/-! ## Walking to a staged file -/

theorem nul_not_mem_path (h : t.Opens directory location) :
    0 ∉ bytesOf (Staging.path directory stamp name) := by
  by_cases hdirectory : directory = ""
  · rw [hdirectory, Staging.bytesOf_path_empty]
    exact Staging.nul_not_mem_entryName
  · obtain ⟨above, hpath, habove⟩ := Staging.bytesOf_path hdirectory stamp name
    rw [Opens, if_neg hdirectory] at h
    have hnul : 0 ∉ above := fun hmem => h.nul (by rcases habove with ha | ha <;> simp [ha, hmem])
    rw [hpath, List.mem_append, List.mem_cons]
    rintro (hmem | hmem | hmem)
    · exact hnul hmem
    · exact absurd hmem (by decide)
    · exact Staging.nul_not_mem_entryName hmem

theorem path_ne_nil (directory : String) (stamp : Stamp) (name : String) :
    bytesOf (Staging.path directory stamp name) ≠ [] := by
  by_cases hdirectory : directory = ""
  · rw [hdirectory, Staging.bytesOf_path_empty]
    exact Staging.entryName_ne [] (by decide)
  · obtain ⟨above, hpath, -⟩ := Staging.bytesOf_path hdirectory stamp name
    simp [hpath]

/-- The walk to a staged file starts where that to the directory starts. -/
theorem start_path (t : FileTree) (hdirectory : directory ≠ "") (stamp : Stamp) (name : String) :
    t.start (bytesOf (Staging.path directory stamp name)) = t.start (bytesOf directory) := by
  obtain ⟨above, hpath, habove⟩ := Staging.bytesOf_path hdirectory stamp name
  have habsolute : isAbsolute (bytesOf (Staging.path directory stamp name)) =
      isAbsolute (bytesOf directory) := by
    have hempty : bytesOf directory ≠ [] := fun h =>
      hdirectory (String.toList_eq_nil_iff.mp (encode_injective h))
    rw [hpath]
    rcases habove with habove | habove <;> rw [habove] at hempty ⊢ <;>
      cases above <;> simp_all [isAbsolute]
  rw [start, start, habsolute]

/-- The pieces before the name lead to the directory. -/
theorem Opens.leads (h : t.Opens directory location) (stamp : Stamp) (name : String) :
    Leads t maxLinks (t.start (bytesOf (Staging.path directory stamp name)))
      (barePieces (bytesOf directory)) location := by
  by_cases hdirectory : directory = ""
  · rw [Opens, if_pos hdirectory] at h
    have hrelative : isAbsolute (entryName stamp name) = false := by
      rw [entryName, bytesOf, isAbsolute_encode, Staging.isAbsolute_fileName]
    rw [h, hdirectory, Staging.bytesOf_path_empty, start, if_neg (by simp [hrelative])]
    exact .stay
  · rw [Opens, if_neg hdirectory] at h
    rw [start_path t hdirectory]
    exact h.leads

/-- In a directory that is there, a path that is not too long is looked up by its last name. -/
theorem Opens.walk_path (h : t.Opens directory location) (hfits : Fits directory stamp name) :
    ∃ left, ∀ purpose, t.walk purpose (bytesOf (Staging.path directory stamp name)) =
      t.walkFrom purpose left location [.name (entryName stamp name)] := by
  obtain ⟨left, hwalk⟩ :=
    (h.leads stamp name).walkFrom_append (List.cons_ne_nil (.name (entryName stamp name)) [])
  refine ⟨left, fun purpose => ?_⟩
  rw [walk, Staging.piecesOf_path,
    walkPieces_eq (nul_not_mem_path h) (path_ne_nil directory stamp name) hfits.pathLength]
  exact hwalk purpose (by simp)

theorem Opens.walk_path_too_long (h : t.Opens directory location)
    (hfits : ¬ Fits directory stamp name) (purpose : Purpose) :
    t.walk purpose (bytesOf (Staging.path directory stamp name)) = .error .nameTooLong := by
  by_cases hpath : (bytesOf (Staging.path directory stamp name)).length < pathLimit
  · have hname : maxNameLength < (entryName stamp name).length := by
      rw [← Nat.not_le]
      exact fun hname => hfits ⟨hname, hpath⟩
    obtain ⟨left, hwalk⟩ :=
      (h.leads stamp name).walkFrom_append (List.cons_ne_nil (.name (entryName stamp name)) [])
    rw [walk, Staging.piecesOf_path,
      walkPieces_eq (nul_not_mem_path h) (path_ne_nil directory stamp name) hpath,
      hwalk purpose (by simp), walkFrom_last_too_long hname]
  · rw [walk, walkPieces, if_neg (nul_not_mem_path h), if_neg (path_ne_nil directory stamp name),
      if_pos (Nat.not_lt.mp hpath)]

/-- A staged file is looked up in a directory. -/
theorem opens_of_walk_path {spot : Spot}
    (h : t.walk purpose (bytesOf (Staging.path directory stamp name)) = .ok spot) :
    ∃ location, t.Opens directory location := by
  by_cases hdirectory : directory = ""
  · exact ⟨t.workingDirectory, by rw [Opens, if_pos hdirectory]⟩
  · rw [walk, Staging.piecesOf_path] at h
    obtain ⟨hnul, -, hlength, hwalk⟩ := walkPieces_eq_ok h
    obtain ⟨location, hleads, -⟩ := leads_of_walkFrom_append (by simp) hwalk
    obtain ⟨above, hpath, habove⟩ := Staging.bytesOf_path hdirectory stamp name
    refine ⟨location, ?_⟩
    rw [start_path t hdirectory] at hleads
    rw [Opens, if_neg hdirectory]
    have hname : entryName stamp name ≠ [] := Staging.entryName_ne [] (by decide)
    refine ⟨fun hmem => hnul ?_, fun hempty => ?_, ?_, hleads⟩
    · rcases habove with habove | habove <;> rw [habove] at hmem <;> simp_all
    · exact hdirectory (String.toList_eq_nil_iff.mp (encode_injective hempty))
    · have hpos := List.length_pos_iff.mpr hname
      rw [hpath] at hlength
      rcases habove with habove | habove <;> rw [habove] <;> simp at hlength ⊢ <;> omega

/-! ## The entry of a staged file -/

section Entry

variable (h : t.Opens directory location)

include h

theorem Opens.write_path (hfits : Fits directory stamp name)
    (hvacant : t.entries[entryName stamp name :: location]? = none) :
    t.write (bytesOf (Staging.path directory stamp name)) content =
      t.fill (entryName stamp name :: location) content := by
  obtain ⟨left, hwalk⟩ := h.walk_path hfits
  rw [write, hwalk, walkFrom_last hfits.nameLength, hvacant]

theorem Opens.write_path_too_long (hfits : ¬ Fits directory stamp name) :
    t.write (bytesOf (Staging.path directory stamp name)) content = (t, .error .nameTooLong) := by
  rw [write, h.walk_path_too_long hfits]

/-- A staged file is taken away without a trace. -/
theorem Opens.unstage_path (hfits : Fits directory stamp name)
    (hget : t.entries[entryName stamp name :: location]? = some (.file content)) :
    t.unstage (Staging.path directory stamp name) = t.erase (entryName stamp name :: location) := by
  obtain ⟨left, hwalk⟩ := h.walk_path hfits
  rw [unstage, remove, hwalk, walkFrom_last hfits.nameLength, hget]

/-- What has not been staged is not taken away. -/
theorem Opens.unstage_path_vacant
    (hvacant : Fits directory stamp name →
      t.entries[entryName stamp name :: location]? = none) :
    t.unstage (Staging.path directory stamp name) = t := by
  by_cases hfits : Fits directory stamp name
  · obtain ⟨left, hwalk⟩ := h.walk_path hfits
    rw [unstage, remove, hwalk, walkFrom_last hfits.nameLength, hvacant hfits]
  · rw [unstage, remove, h.walk_path_too_long hfits]

/-- A staged file is read as it was written. -/
theorem Opens.readBytes_path (hfits : Fits directory stamp name)
    (hget : t.entries[entryName stamp name :: location]? = some (.file content)) :
    t.readBytes (bytesOf (Staging.path directory stamp name)) = .ok content := by
  obtain ⟨left, hwalk⟩ := h.walk_path hfits
  rw [readBytes, lookUp, hwalk, walkFrom_last hfits.nameLength, hget]

end Entry

end FileTree

end Ripple
