import Ripple.Files.Change

/-!
# The entries of a file tree

What stands where after an entry has been put or erased or a file filled, and trees of which one
keeps all entries of the other.
-/

namespace Ripple.FileTree

open Text

variable {t t' : FileTree} {location other : Location} {entry : Entry} {content : Bytes}

/-- Two trees are the same if the same stands everywhere, relative paths start from the same
directory and writes have the same limits. -/
theorem ext_getElem? (hdirectory : t.workingDirectory = t'.workingDirectory)
    (hlimits : t.limits = t'.limits)
    (hentries : ∀ location : Location, t.entries[location]? = t'.entries[location]?) :
    t = t' := by
  obtain ⟨entries, directory, limits⟩ := t
  obtain ⟨entries', directory', limits'⟩ := t'
  obtain rfl : directory = directory' := hdirectory
  obtain rfl : limits = limits' := hlimits
  obtain rfl : entries = entries' := Std.ExtTreeMap.ext_getElem? hentries
  rfl

theorem getElem?_put :
    (t.put location entry).entries[other]? =
      if location = other then some entry else t.entries[other]? := by
  rw [put, Std.ExtTreeMap.getElem?_insert]
  simp only [Std.compare_eq_iff_eq]

@[simp] theorem getElem?_put_self : (t.put location entry).entries[location]? = some entry := by
  rw [getElem?_put, if_pos rfl]

theorem getElem?_erase :
    (t.erase location).entries[other]? = if location = other then none else t.entries[other]? := by
  rw [erase, Std.ExtTreeMap.getElem?_erase]
  simp only [Std.compare_eq_iff_eq]

/-- What is erased anyway need not be put before. -/
theorem erase_put : (t.put location entry).erase location = t.erase location := by
  refine ext_getElem? rfl rfl fun other => ?_
  rw [getElem?_erase, getElem?_erase, getElem?_put]
  split <;> rfl

/-! ## Writing in full and in part -/

theorem shortfall?_congr (h : t.limits = t'.limits) :
    t.shortfall? location content = t'.shortfall? location content := by
  rw [shortfall?, shortfall?, h]

theorem kept_congr (h : t.limits = t'.limits) :
    t.kept location content = t'.kept location content := by
  rw [kept, kept, h]

theorem shortfall?_of_limits_eq_empty (h : t.limits = ∅) :
    t.shortfall? location content = none := by
  simp [shortfall?, h]

/-- What is written is the beginning of the content. -/
theorem kept_isPrefix (t : FileTree) (location : Location) (content : Bytes) :
    t.kept location content <+: content := by
  unfold kept
  split
  · exact List.prefix_refl content
  · exact List.take_prefix _ content

/-- What can be written in full is. -/
theorem kept_of_shortfall?_eq_none (h : t.shortfall? location content = none) :
    t.kept location content = content := by
  unfold shortfall? at h
  unfold kept
  split at h
  · rfl
  · split at h
    · cases h
    · next hsize => exact List.take_of_length_le (Nat.not_lt.mp hsize)

theorem fill_of_shortfall?_eq_none (h : t.shortfall? location content = none) :
    t.fill location content = (t.put location (.file content), .ok ()) := by
  rw [fill, h, kept_of_shortfall?_eq_none h]

theorem fill_of_shortfall?_eq_some {reason : Fault}
    (h : t.shortfall? location content = some reason) :
    t.fill location content =
      (t.put location (.file (t.kept location content)), .error reason) := by
  rw [fill, h]

theorem fill_eq_ok (h : t.fill location content = (t', .ok ())) :
    t.shortfall? location content = none ∧ t' = t.put location (.file content) := by
  cases hshort : t.shortfall? location content with
  | none =>
    rw [fill_of_shortfall?_eq_none hshort] at h
    exact ⟨rfl, (Prod.mk.inj h).1.symm⟩
  | some reason =>
    rw [fill_of_shortfall?_eq_some hshort] at h
    cases (Prod.mk.inj h).2

/-! ## Trees that keep entries -/

/-- What stands in the first tree stands in the second as well, relative paths start from the same
directory and writes have the same limits. -/
structure KeptIn (t t' : FileTree) : Prop where
  workingDirectory : t'.workingDirectory = t.workingDirectory
  limits : t'.limits = t.limits
  entries {location : Location} {entry : Entry} :
    t.entries[location]? = some entry → t'.entries[location]? = some entry

namespace KeptIn

theorem refl (t : FileTree) : KeptIn t t := ⟨rfl, rfl, id⟩

theorem trans {t₁ t₂ t₃ : FileTree} (h : KeptIn t₁ t₂) (h' : KeptIn t₂ t₃) : KeptIn t₁ t₃ :=
  ⟨h'.workingDirectory.trans h.workingDirectory, h'.limits.trans h.limits,
    fun hget => h'.entries (h.entries hget)⟩

/-- An entry at a vacant place takes nothing away. -/
theorem put (h : t.entries[location]? = none) : KeptIn t (t.put location entry) where
  workingDirectory := rfl
  limits := rfl
  entries {other _} hget := by
    rw [getElem?_put, if_neg]
    · exact hget
    · rintro rfl
      simp [h] at hget

end KeptIn

/-- Directories and links of the first tree stand in the second as well, relative paths start from
the same directory and writes have the same limits. The files may differ. -/
structure WaysKept (t t' : FileTree) : Prop where
  workingDirectory : t'.workingDirectory = t.workingDirectory
  limits : t'.limits = t.limits
  entries {location : Location} {entry : Entry} (hentry : ∀ content, entry ≠ .file content) :
    t.entries[location]? = some entry → t'.entries[location]? = some entry

theorem KeptIn.ways (h : KeptIn t t') : WaysKept t t' :=
  ⟨h.workingDirectory, h.limits, fun _ => h.entries⟩

/-- A file can be put at the place: it is vacant, or a file stands there. -/
def TakesFile (t : FileTree) (location : Location) : Prop :=
  ∀ entry, t.entries[location]? = some entry → ∃ content, entry = .file content

theorem TakesFile.cases (h : t.TakesFile location) :
    t.entries[location]? = none ∨ ∃ content, t.entries[location]? = some (.file content) := by
  cases hget : t.entries[location]? with
  | none => exact .inl rfl
  | some entry =>
    obtain ⟨content, rfl⟩ := h entry hget
    exact .inr ⟨content, rfl⟩

/-- What is put at such a place is in nobody's way. -/
theorem TakesFile.put (h : t.TakesFile location) : WaysKept t (t.put location entry) where
  workingDirectory := rfl
  limits := rfl
  entries {other found} hfound hget := by
    rw [getElem?_put, if_neg]
    · exact hget
    · rintro rfl
      obtain ⟨content, rfl⟩ := h found hget
      exact hfound content rfl

end Ripple.FileTree
