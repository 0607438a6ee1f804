import Ripple.Proofs.Files.Pieces
import Ripple.Staging

/-!
# The names of staged files

Whatever name a source is submitted under, the name of its staged file has plain characters only
(`isPlain_fileName`), and is a single piece of a path that stands behind the pieces of the directory
(`piecesOf_path`).
-/

namespace Ripple

open Text

namespace Staging

variable {stamp : Stamp} {name directory : String} {c : Char}

theorem isPlain_digitChar {d : Nat} (h : d < 16) : isPlain (digitChar d) = true := by
  have hall : ∀ e ∈ List.range 16, isPlain (digitChar e) = true := by decide
  exact hall d (List.mem_range.mpr h)

theorem isPlain_decimal {n : Nat} (h : c ∈ decimal n) : isPlain c = true := by
  induction n using decimal.induct with
  | case1 n hn =>
    rw [decimal, if_pos hn, List.mem_singleton] at h
    rw [h]
    exact isPlain_digitChar (by omega)
  | case2 n hn ih =>
    rw [decimal, if_neg hn] at h
    rcases List.mem_append.mp h with h | h
    · exact ih h
    · rw [List.mem_singleton.mp h]
      exact isPlain_digitChar (by omega)

theorem isPlain_hexDigits {width n : Nat} (h : c ∈ hexDigits width n) : isPlain c = true := by
  induction width generalizing n with
  | zero => simp [hexDigits] at h
  | succ width ih =>
    rw [hexDigits] at h
    rcases List.mem_append.mp h with h | h
    · exact ih h
    · rw [List.mem_singleton.mp h]
      exact isPlain_digitChar (Nat.mod_lt n (by decide))

theorem isPlain_sanitize (h : c ∈ (sanitize name).toList) : isPlain c = true := by
  have hfallback : fallbackName.toList.all isPlain = true := by decide
  have hunderscore : isPlain '_' = true := by decide
  unfold sanitize at h
  simp only [] at h
  split at h
  · exact List.all_eq_true.mp hfallback c h
  · rw [String.toList_ofList] at h
    obtain ⟨d, -, rfl⟩ := List.mem_map.mp h
    split
    · assumption
    · exact hunderscore

/-- **The name of a staged file has plain characters only.** -/
theorem isPlain_fileName (h : c ∈ (fileName stamp name).toList) : isPlain c = true := by
  have hdash : isPlain '-' = true := by decide
  rw [fileName, String.toList_append, String.toList_ofList] at h
  rcases List.mem_append.mp h with h | h
  · rcases List.mem_append.mp h with h | h
    · exact isPlain_decimal h
    · rcases List.mem_cons.mp h with rfl | h
      · exact hdash
      · rcases List.mem_append.mp h with h | h
        · exact isPlain_hexDigits h
        · rwa [List.mem_singleton.mp h]
  · exact isPlain_sanitize h

/-- The dashes around the stamp make a name that is no run of full stops. -/
theorem dash_mem_fileName (stamp : Stamp) (name : String) :
    '-' ∈ (fileName stamp name).toList := by
  rw [fileName, String.toList_append, String.toList_ofList]
  simp

/-! ## As bytes -/

/-- The name of a staged file as it stands in the directory. -/
def entryName (stamp : Stamp) (name : String) : FileName := bytesOf (fileName stamp name)

theorem not_mem_entryName {byte : UInt8} (hbyte : byte.toNat < 0x80)
    (hplain : isPlain (Char.ofNat byte.toNat) = false) : byte ∉ entryName stamp name := by
  intro hmem
  obtain ⟨c, hc, hmem⟩ := List.mem_flatMap.mp hmem
  have hnat := toNat_eq_of_mem_encodeChar hmem hbyte
  rw [← hnat, Char.ofNat_toNat, isPlain_fileName hc] at hplain
  cases hplain

theorem slash_not_mem_entryName : FileTree.slash ∉ entryName stamp name :=
  not_mem_entryName (by decide) (by decide)

theorem nul_not_mem_entryName : 0 ∉ entryName stamp name :=
  not_mem_entryName (by decide) (by decide)

/-- A text without a dash is not the name of a staged file. -/
theorem entryName_ne (text : List Char) (h : '-' ∉ text) : entryName stamp name ≠ encode text := by
  intro heq
  have hdash := dash_mem_fileName stamp name
  rw [encode_injective heq] at hdash
  exact h hdash

theorem barePieces_entryName (stamp : Stamp) (name : String) :
    FileTree.barePieces (entryName stamp name) = [.name (entryName stamp name)] :=
  FileTree.barePieces_name slash_not_mem_entryName (entryName_ne [] (by decide))
    (entryName_ne ['.'] (by decide)) (entryName_ne ['.', '.'] (by decide))

/-! ## Behind the directory -/

theorem isAbsolute_fileName (stamp : Stamp) (name : String) :
    Path.isAbsolute (fileName stamp name).toList = false := by
  rw [← Bool.not_eq_true]
  intro habsolute
  obtain ⟨rest, hrest⟩ := FileTree.isAbsolute_eq_true habsolute
  have hslash : '/' ∈ (fileName stamp name).toList := by simp [hrest]
  have hplain := isPlain_fileName hslash
  revert hplain
  decide

/-- The path of a staged file is its name behind the directory and a slash, except in the directory
of the empty path. -/
theorem bytesOf_path (hdirectory : directory ≠ "") (stamp : Stamp) (name : String) :
    ∃ above, bytesOf (path directory stamp name) =
        above ++ FileTree.slash :: entryName stamp name ∧
      (bytesOf directory = above ∨ bytesOf directory = above ++ [FileTree.slash]) := by
  have hempty : directory.toList ≠ [] := fun h => hdirectory (String.toList_eq_nil_iff.mp h)
  rw [bytesOf, path, String.toList_ofList, Path.join, if_neg (by simp [isAbsolute_fileName])]
  by_cases hlast : directory.toList.getLast? = some '/'
  · rw [if_pos (.inr hlast)]
    obtain ⟨above, habove⟩ := List.getLast?_eq_some_iff.mp hlast
    refine ⟨encode above, ?_, .inr ?_⟩
    · rw [habove, encode_append, encode_append, encode_cons, FileTree.encodeChar_slash,
        List.append_assoc]
      rfl
    · rw [bytesOf, habove, encode_append, encode_cons, FileTree.encodeChar_slash]
      rfl
  · rw [if_neg (by simp [hempty, hlast])]
    refine ⟨bytesOf directory, ?_, .inl rfl⟩
    rw [encode_append, encode_cons, FileTree.encodeChar_slash]
    rfl

theorem bytesOf_path_empty (stamp : Stamp) (name : String) :
    bytesOf (path "" stamp name) = entryName stamp name := by
  rw [bytesOf, path, String.toList_ofList, Path.join, if_neg (by simp [isAbsolute_fileName]),
    if_pos (.inl rfl)]
  rfl

/-- **The staged file is one piece behind those of the directory.** -/
theorem piecesOf_path (directory : String) (stamp : Stamp) (name : String) :
    FileTree.piecesOf (bytesOf (path directory stamp name)) =
      FileTree.barePieces (bytesOf directory) ++ [.name (entryName stamp name)] := by
  have hlast : (entryName stamp name).getLast? ≠ some FileTree.slash := fun h =>
    slash_not_mem_entryName (List.mem_of_getLast? h)
  by_cases hdirectory : directory = ""
  · rw [hdirectory, bytesOf_path_empty, FileTree.piecesOf_of_getLast? hlast, barePieces_entryName]
    rfl
  · obtain ⟨above, hpath, habove⟩ := bytesOf_path hdirectory stamp name
    have hpieces : FileTree.barePieces (bytesOf directory) = FileTree.barePieces above := by
      rcases habove with habove | habove
      · rw [habove]
      · rw [habove, FileTree.barePieces_append_slash, FileTree.barePieces_nil, List.append_nil]
    rw [hpieces, hpath, FileTree.piecesOf_of_getLast?, FileTree.barePieces_append_slash,
      barePieces_entryName]
    have hname : entryName stamp name ≠ [] := entryName_ne [] (by decide)
    rwa [List.getLast?_append_of_ne_nil _ (List.cons_ne_nil _ _),
      List.getLast?_cons_of_ne_nil hname]

end Staging

end Ripple
