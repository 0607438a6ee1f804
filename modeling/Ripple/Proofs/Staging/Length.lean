import Ripple.Proofs.Staging.Files

/-!
# How long a name may be

The name of a staged file is a stamp and the submitted name in plain characters, each of which is a
single byte. So its length is known from the submitted name (`length_entryName`). In a directory
that is there, a source is refused if the name or the path of its staged file is too long, and
otherwise staged if its content can be written in full (`FileTree.Opens.stage_eq`): names that are
too long are not cut.
-/

namespace Ripple

open Text

namespace Text

theorem length_hexDigits (width n : Nat) : (hexDigits width n).length = width := by
  induction width generalizing n with
  | zero => rfl
  | succ width ih => rw [hexDigits, List.length_append, ih, List.length_singleton]

/-- A text of ASCII characters has as many bytes as characters. -/
theorem length_encode_of_ascii {text : List Char} (h : ∀ c ∈ text, c.toNat < 0x80) :
    (encode text).length = text.length := by
  induction text with
  | nil => rfl
  | cons c text ih =>
    obtain ⟨hc, htext⟩ := List.forall_mem_cons.mp h
    have hbyte : encodeChar c = [UInt8.ofNat c.toNat] := if_pos hc
    rw [encode_cons, List.length_append, hbyte, ih htext, List.length_singleton, List.length_cons,
      Nat.add_comm]

end Text

namespace Staging

variable {stamp : Stamp} {name directory : String} {c : Char}

/-- The plain characters are the ASCII letters and digits, full stops, underscores and dashes. -/
theorem isPlain_iff :
    isPlain c = true ↔ c.isAlphanum = true ∨ c = '.' ∨ c = '_' ∨ c = '-' := by
  unfold isPlain Char.isAlphanum Char.isAlpha Char.isUpper Char.isLower Char.isDigit
  simp only [Bool.or_eq_true, Bool.and_eq_true, decide_eq_true_eq, beq_iff_eq, Char.le_def]
  tauto

theorem toNat_lt_of_isPlain (h : isPlain c = true) : c.toNat < 0x80 := by
  simp only [isPlain, Bool.or_eq_true, Bool.and_eq_true, decide_eq_true_eq, beq_iff_eq] at h
  rcases h with ((((hlower | hupper) | hdigit) | rfl) | rfl) | rfl
  · exact Nat.lt_of_le_of_lt (m := 'z'.toNat) hlower.2 (by decide)
  · exact Nat.lt_of_le_of_lt (m := 'Z'.toNat) hupper.2 (by decide)
  · exact Nat.lt_of_le_of_lt (m := '9'.toNat) hdigit.2 (by decide)
  all_goals decide

/-- The length of a submitted name in plain characters. A name of full stops only has another one in
its place. -/
def plainLength (name : String) : Nat :=
  if name.toList.all (· == '.') then fallbackName.length else name.length

theorem length_sanitize (name : String) : (sanitize name).toList.length = plainLength name := by
  have hdots : (name.toList.map fun c => if isPlain c then c else '_').all (· == '.') =
      name.toList.all (· == '.') := by
    rw [List.all_map]
    congr 1
    funext c
    by_cases hc : isPlain c = true
    · simp [hc]
    · have hne : c ≠ '.' := by
        rintro rfl
        exact hc (by decide)
      simp [hc, hne]
  unfold sanitize plainLength
  simp only [hdots]
  split
  · rfl
  · rw [String.toList_ofList, List.length_map, String.length_toList]

/-- **The length of the name of a staged file** in bytes. -/
theorem length_entryName (stamp : Stamp) (name : String) :
    (entryName stamp name).length = (decimal stamp.millis).length + 10 + plainLength name := by
  rw [entryName, bytesOf, length_encode_of_ascii fun c hc =>
    toNat_lt_of_isPlain (isPlain_fileName hc), fileName, String.toList_append,
    String.toList_ofList, List.length_append, length_sanitize]
  simp [length_hexDigits]

theorem fits_iff :
    Fits directory stamp name ↔
      (decimal stamp.millis).length + 10 + plainLength name ≤ 255 ∧
        (bytesOf (path directory stamp name)).length < 4096 := by
  rw [← length_entryName]
  exact ⟨fun h => ⟨h.nameLength, h.pathLength⟩, fun h => ⟨h.1, h.2⟩⟩

theorem length_path_le (directory : String) (stamp : Stamp) (name : String) :
    (bytesOf (path directory stamp name)).length ≤
      (bytesOf directory).length + 1 + (entryName stamp name).length := by
  by_cases hdirectory : directory = ""
  · rw [hdirectory, bytesOf_path_empty]
    exact Nat.le_add_left _ _
  · obtain ⟨above, hpath, habove⟩ := bytesOf_path hdirectory stamp name
    rw [hpath, List.length_append, List.length_cons]
    rcases habove with habove | habove
    · rw [habove]
      omega
    · rw [habove, List.length_append]
      omega

/-- Below a directory whose own path leaves room for a name, a path is never too long. -/
theorem fits_iff_of_room (hroom : (bytesOf directory).length + 1 + 255 < 4096) :
    Fits directory stamp name ↔ (decimal stamp.millis).length + 10 + plainLength name ≤ 255 := by
  rw [fits_iff, ← length_entryName]
  have hpath := length_path_le directory stamp name
  constructor
  · exact And.left
  · intro hname
    exact ⟨hname, by omega⟩

end Staging

namespace FileTree

open Staging (entryName Fits)

variable {t : FileTree} {directory : String} {location : Location} {stamp : Stamp} {name : String}

/-- The name is that of a regular file or of nothing. -/
def Free (t : FileTree) (location : Location) : Prop :=
  ∀ entry, t.entries[location]? = some entry → ∃ content, entry = .file content

theorem Free.of_vacant (h : t.entries[location]? = none) : t.Free location := by
  intro entry hentry
  rw [h] at hentry
  cases hentry

/-- **Staging depends on lengths only**, in a directory that is there and under a name that nothing
but a regular file has, as long as writes do not break off. What a write that breaks off has written
is removed. -/
theorem Opens.stage_eq (h : t.Opens directory location)
    (hfree : t.Free (entryName stamp name :: location)) (content : String) :
    t.stage directory stamp name content =
      if Fits directory stamp name then
        match t.shortfall? (entryName stamp name :: location) (bytesOf content) with
        | none =>
          (t.put (entryName stamp name :: location) (.file (bytesOf content)),
            .ok (Staging.path directory stamp name))
        | some reason =>
          (t.erase (entryName stamp name :: location),
            .error ⟨Staging.path directory stamp name, reason⟩)
      else (t, .error ⟨Staging.path directory stamp name, .nameTooLong⟩) := by
  rw [stage, h.makeDirectories]
  by_cases hfits : Fits directory stamp name
  · obtain ⟨left, hwalk⟩ := h.walk_path hfits
    have hwrite : t.write (bytesOf (Staging.path directory stamp name)) (bytesOf content) =
        t.fill (entryName stamp name :: location) (bytesOf content) := by
      rw [write, hwalk, walkFrom_last hfits.nameLength]
      cases hget : t.entries[entryName stamp name :: location]? with
      | none => rfl
      | some entry =>
        obtain ⟨old, rfl⟩ := hfree entry hget
        rfl
    rw [if_pos hfits]
    cases hshort : t.shortfall? (entryName stamp name :: location) (bytesOf content) with
    | none => simp only [hwrite, fill_of_shortfall?_eq_none hshort]
    | some reason =>
      have hways : WaysKept t (t.put (entryName stamp name :: location)
          (.file (t.kept (entryName stamp name :: location) (bytesOf content)))) :=
        TakesFile.put hfree
      have hunstage := (h.ways hways).unstage_path hfits getElem?_put_self
      simp only [hwrite, fill_of_shortfall?_eq_some hshort, hunstage, erase_put]
  · have hunstage : t.unstage (Staging.path directory stamp name) = t :=
      h.unstage_path_vacant fun hfits' => absurd hfits' hfits
    simp only [h.write_path_too_long hfits, hunstage, if_neg hfits]

end FileTree

end Ripple
