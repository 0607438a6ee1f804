import Ripple.Proofs.Files.Directories

/-!
# What is left behind when a directory is made

Whether a directory can be made or not, all that is left behind is new directories, at places that
were vacant, to which its path or a path above it leads (`onlyMade_makeDirectories`). Where the
directory is there already, nothing is left behind.
-/

namespace Ripple.FileTree

open Text

variable {t t' t₁ t₂ t₃ : FileTree} {path : Bytes} {paths paths' : List Bytes} {location : Location}

/-- Some of the paths have been made directories at places that were vacant, and nothing else has
been done. -/
structure MadeAt (paths : List Bytes) (t t' : FileTree) : Prop where
  kept : KeptIn t t'
  made : ∀ (location : Location) (entry : Entry), t'.entries[location]? = some entry →
    t.entries[location]? = some entry ∨
      t.entries[location]? = none ∧ entry = .directory ∧
        ∃ path ∈ paths, t'.DirectoryAt path location

namespace MadeAt

theorem refl (paths : List Bytes) (t : FileTree) : MadeAt paths t t :=
  ⟨.refl t, fun _ _ hget => .inl hget⟩

theorem trans (h : MadeAt paths t₁ t₂) (h' : MadeAt paths t₂ t₃) : MadeAt paths t₁ t₃ where
  kept := h.kept.trans h'.kept
  made location entry hget := by
    rcases h'.made location entry hget with hget₂ | ⟨hnone₂, hentry, hpath⟩
    · rcases h.made location entry hget₂ with hget₁ | ⟨hnone₁, hentry, path, hmem, hpath⟩
      · exact .inl hget₁
      · exact .inr ⟨hnone₁, hentry, path, hmem, hpath.mono h'.kept⟩
    · refine .inr ⟨?_, hentry, hpath⟩
      cases hget₁ : t₁.entries[location]? with
      | none => rfl
      | some entry₁ =>
        rw [h.kept.entries hget₁] at hnone₂
        cases hnone₂

theorem mono (hsub : paths ⊆ paths') (h : MadeAt paths t t') : MadeAt paths' t t' where
  kept := h.kept
  made location entry hget := by
    refine (h.made location entry hget).imp_right fun ⟨hnone, hentry, path, hmem, hpath⟩ => ?_
    exact ⟨hnone, hentry, path, hsub hmem, hpath⟩

/-- Making one directory. -/
theorem of_makeDirectory (h : t.makeDirectory path = (t', .ok ())) (hmem : path ∈ paths) :
    MadeAt paths t t' := by
  obtain ⟨directory, name, rfl, hvacant, hpath⟩ := makeDirectory_ok h
  refine ⟨.put hvacant, fun location entry hget => ?_⟩
  rw [getElem?_put] at hget
  split at hget
  · next heq =>
    subst heq
    exact .inr ⟨hvacant, (Option.some.inj hget).symm, path, hmem, hpath⟩
  · exact .inl hget

end MadeAt

/-- Making a directory together with those above it. -/
theorem madeAt_makeLineage (t : FileTree) (paths : List Bytes) :
    MadeAt paths t (t.makeLineage paths).1 := by
  have habove {path : Bytes} {parents : List Bytes} {above : FileTree}
      (h : MadeAt parents t above) : MadeAt (path :: parents) t above :=
    h.mono (List.subset_cons_self path parents)
  fun_induction makeLineage t paths with
  | case1 => exact .refl _ t
  | case2 path parents made h => exact .of_makeDirectory h List.mem_cons_self
  | case3 path parents _ _ above fault hparents ih =>
    rw [hparents] at ih
    exact habove (ih)
  | case4 path parents _ _ above hparents made h ih =>
    rw [hparents] at ih
    exact (habove (ih)).trans (.of_makeDirectory h List.mem_cons_self)
  | case5 path parents _ _ above hparents _ fault _ ih =>
    rw [hparents] at ih
    exact habove (ih)
  | case6 => exact .refl _ t

/-- The directory and missing ones above it may have been made, and nothing else has been done. -/
structure OnlyMade (t : FileTree) (directory : String) (t' : FileTree) : Prop extends
    MadeAt ((Path.lineage directory.toList).map encode) t t' where
  unchanged : ∀ location, t.Opens directory location → t' = t

theorem OnlyMade.refl (t : FileTree) (directory : String) : t.OnlyMade directory t :=
  ⟨.refl _ t, fun _ _ => rfl⟩

/-- **Making a directory does nothing but make directories.** -/
theorem onlyMade_makeDirectories (t : FileTree) (directory : String) :
    t.OnlyMade directory (t.makeDirectories directory).1 where
  toMadeAt := by
    unfold makeDirectories
    split
    · exact .refl _ t
    · exact madeAt_makeLineage t _
  unchanged location h := by rw [h.makeDirectories]

/-- A second attempt leaves no more behind than the first. -/
theorem makeDirectories_again (t : FileTree) (directory : String) :
    ((t.makeDirectories directory).1.makeDirectories directory).1 =
      (t.makeDirectories directory).1 := by
  cases hmake : t.makeDirectories directory with
  | mk base made =>
    cases made with
    | ok =>
      obtain ⟨location, hopens⟩ := makeDirectories_ok hmake
      rw [hopens.makeDirectories]
    | error fault =>
      obtain ⟨fault', hagain⟩ := makeDirectories_error hmake
      rw [hagain]

/-- Before the directory has been made and after that. -/
theorem onlyMade_of_eq {directory : String} {base : FileTree} {result : Except Fault Unit}
    (hmake : t.makeDirectories directory = (base, result)) (h : t' = t ∨ t' = base) :
    t.OnlyMade directory t' := by
  rcases h with rfl | rfl
  · exact .refl t' directory
  · have honly := t.onlyMade_makeDirectories directory
    rwa [hmake] at honly

end Ripple.FileTree
