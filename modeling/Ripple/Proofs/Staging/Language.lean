import Ripple.Language
import Ripple.Proofs.Path
import Ripple.Proofs.Staging.Names

/-!
# The language of a staged file

Analyzers tell the language of a staged file from its name. That name ends as the submitted one does,
but for characters that are not plain. So the language of a staged file is that of an extension
without plus signs in which the submitted name ends (`language_of_staged_iff`), and it is the
language of the source unless the extension has a plus sign or slashes follow it
(`language_kept_iff`).
-/

namespace Ripple

open Text

namespace Language

variable {extension : List Char} {language : Language}

/-- The characters of an extension that names a language are plain, but for plus signs. -/
theorem letter_of_ofExtension? (h : ofExtension? extension = some language) :
    extension ≠ [] ∧ ∀ c ∈ extension,
      c ≠ '.' ∧ c ≠ '/' ∧ c ≠ '-' ∧ c ≠ '_' ∧ (c ≠ '+' → Staging.isPlain c = true) := by
  have hall : ∀ e ∈ ["c", "cpp", "cc", "cxx", "c++"].map String.toList, e ≠ [] ∧ ∀ c ∈ e,
      c ≠ '.' ∧ c ≠ '/' ∧ c ≠ '-' ∧ c ≠ '_' ∧ (c ≠ '+' → Staging.isPlain c = true) := by
    simp [Staging.isPlain]
  refine hall extension ?_
  unfold ofExtension? at h
  split at h
  · next heq => exact heq ▸ List.mem_cons_self
  · split at h
    · next hany =>
      obtain ⟨text, htext, heq⟩ := List.any_eq_true.mp hany
      rw [← beq_iff_eq.mp heq]
      exact List.mem_cons_of_mem _ (List.mem_map_of_mem htext)
    · cases h

end Language

namespace Staging

variable {stamp : Stamp} {name : String} {word extension : List Char} {language : Language}

/-! ## The end of a name -/

/-- A plain character other than an underscore comes from no other one. -/
theorem map_plain_eq_iff (hword : ∀ c ∈ word, isPlain c = true ∧ c ≠ '_') {xs : List Char} :
    (xs.map fun c => if isPlain c then c else '_') = word ↔ xs = word := by
  induction word generalizing xs with
  | nil => simp
  | cons c word ih =>
    obtain ⟨⟨hplain, hne⟩, hword⟩ := List.forall_mem_cons.mp hword
    cases xs with
    | nil => simp
    | cons x xs =>
      have hx : (if isPlain x then x else '_') = c ↔ x = c := by
        split
        · exact Iff.rfl
        · next hx =>
          refine ⟨fun h => absurd h.symm hne, ?_⟩
          rintro rfl
          exact absurd hplain hx
      rw [List.map_cons, List.cons.injEq, List.cons.injEq, hx, ih hword]

/-- A word of plain characters behind a dot ends the name of a source and that of its staged file
alike. -/
theorem suffix_sanitize_iff (hempty : word ≠ [])
    (hword : ∀ c ∈ word, isPlain c = true ∧ c ≠ '_' ∧ c ≠ '.') :
    '.' :: word <:+ (sanitize name).toList ↔ '.' :: word <:+ name.toList := by
  have hplain : ∀ c ∈ '.' :: word, isPlain c = true ∧ c ≠ '_' :=
    List.forall_mem_cons.mpr ⟨by decide, fun c hc => ⟨(hword c hc).1, (hword c hc).2.1⟩⟩
  have hends : '.' :: word <:+ (name.toList.map fun c => if isPlain c then c else '_') ↔
      '.' :: word <:+ name.toList := by
    rw [List.suffix_map_iff]
    constructor
    · rintro ⟨xs, hxs, heq⟩
      rwa [(map_plain_eq_iff hplain).mp heq.symm] at hxs
    · exact fun h => ⟨_, h, ((map_plain_eq_iff hplain).mpr rfl).symm⟩
  unfold sanitize
  simp only []
  split
  · next hdots =>
    -- a name of dots does not end in the word, and neither does the name in its place
    rw [← hends]
    obtain ⟨c, rest, rfl⟩ := List.exists_cons_of_ne_nil hempty
    have hfallback : '.' ∉ fallbackName.toList := by decide
    constructor
    · exact fun h => absurd (h.subset List.mem_cons_self) hfallback
    · intro h
      have hc : c = '.' := by
        simpa using List.all_eq_true.mp hdots c (h.subset (by simp))
      exact absurd hc (hword c List.mem_cons_self).2.2
  · rw [String.toList_ofList, hends]

/-- The stamp in front of a name ends with a dash, so it has no part in a word without dashes. -/
theorem suffix_fileName_iff (stamp : Stamp) (hdash : '-' ∉ word) :
    '.' :: word <:+ (fileName stamp name).toList ↔ '.' :: word <:+ (sanitize name).toList := by
  obtain ⟨front, hname⟩ :
      ∃ front, (fileName stamp name).toList = front ++ '-' :: (sanitize name).toList := by
    refine ⟨decimal stamp.millis ++ '-' :: hexDigits 8 stamp.token.toNat, ?_⟩
    rw [fileName, String.toList_append, String.toList_ofList]
    simp
  have hbehind : (sanitize name).toList <:+ front ++ '-' :: (sanitize name).toList :=
    (List.suffix_cons _ _).trans (List.suffix_append _ _)
  rw [hname]
  refine ⟨fun h => ?_, fun h => h.trans hbehind⟩
  rcases List.suffix_or_suffix_of_suffix h (List.suffix_append front _) with h | h
  · rcases List.suffix_cons_iff.mp h with heq | h
    · exact absurd (List.cons.inj heq).1 (by decide)
    · exact h
  · have hmem : '-' ∈ '.' :: word := h.subset List.mem_cons_self
    simp [hdash] at hmem

theorem isName_fileName (stamp : Stamp) (name : String) :
    Path.IsName (fileName stamp name).toList where
  slash hslash := by
    have hplain := isPlain_fileName hslash
    revert hplain
    decide
  letter := ⟨'-', dash_mem_fileName stamp name, by decide⟩

/-- The extension of a staged file, if it has no dashes. -/
theorem extension?_fileName_iff (hdash : '-' ∉ word) (hdot : '.' ∉ word) :
    Path.extension? (fileName stamp name).toList = some word ↔
      '.' :: word <:+ (sanitize name).toList := by
  rw [Path.extension?, Path.fileName?_of_isName (isName_fileName stamp name), Option.bind_some,
    Path.extensionOf_eq_some_iff, ← suffix_fileName_iff stamp hdash]
  constructor
  · rintro ⟨front, -, heq, -⟩
    exact ⟨front, heq.symm⟩
  · rintro ⟨front, heq⟩
    refine ⟨front, ?_, heq.symm, hdot⟩
    rintro rfl
    have hmem := dash_mem_fileName stamp name
    rw [← heq] at hmem
    simp [hdash] at hmem

/-! ## Languages -/

/-- **The language of a staged file** is that of an extension without plus signs in which the name
of the source ends. -/
theorem language_of_staged_iff :
    Language.ofPath? (fileName stamp name) = some language ↔
      ∃ extension, Language.ofExtension? extension = some language ∧ '+' ∉ extension ∧
        '.' :: extension <:+ name.toList := by
  have hends {extension : List Char} (h : Language.ofExtension? extension = some language) :
      Path.extension? (fileName stamp name).toList = some extension ↔
        '.' :: extension <:+ (sanitize name).toList := by
    obtain ⟨-, hletters⟩ := Language.letter_of_ofExtension? h
    exact extension?_fileName_iff (fun hin => (hletters _ hin).2.2.1 rfl)
      (fun hin => (hletters _ hin).1 rfl)
  have hsame {extension : List Char} (h : Language.ofExtension? extension = some language)
      (hplus : '+' ∉ extension) :
      '.' :: extension <:+ (sanitize name).toList ↔ '.' :: extension <:+ name.toList := by
    obtain ⟨hempty, hletters⟩ := Language.letter_of_ofExtension? h
    refine suffix_sanitize_iff hempty fun c hc => ?_
    obtain ⟨hdot, -, -, hunderscore, hplain⟩ := hletters c hc
    exact ⟨hplain fun heq => hplus (heq ▸ hc), hunderscore, hdot⟩
  rw [Language.ofPath?, Option.bind_eq_some_iff]
  constructor
  · rintro ⟨extension, hextension, h⟩
    have hsuffix := (hends h).mp hextension
    have hplus : '+' ∉ extension := fun hin => by
      have hplain := isPlain_sanitize (hsuffix.subset (List.mem_cons_of_mem _ hin))
      revert hplain
      decide
    exact ⟨extension, h, hplus, (hsame h hplus).mp hsuffix⟩
  · rintro ⟨extension, h, hplus, hsuffix⟩
    exact ⟨extension, (hends h).mpr ((hsame h hplus).mpr hsuffix), h⟩

/-- **A staged file keeps the language of its source** exactly if the extension of the source has no
plus sign and stands at the very end of its name, with no slash behind it. -/
theorem language_kept_iff (h : Language.ofPath? name = some language) (stamp : Stamp) :
    Language.ofPath? (fileName stamp name) = some language ↔
      ∃ extension, Path.extension? name.toList = some extension ∧ '+' ∉ extension ∧
        '.' :: extension <:+ name.toList := by
  obtain ⟨extension, hextension, hlanguage⟩ := Option.bind_eq_some_iff.mp h
  rw [language_of_staged_iff]
  constructor
  · rintro ⟨word, hword, hplus, hsuffix⟩
    obtain ⟨hempty, hletters⟩ := Language.letter_of_ofExtension? hword
    obtain rfl := Path.extension?_of_suffix hsuffix hempty (fun hin => (hletters _ hin).2.1 rfl)
      (fun hin => (hletters _ hin).1 rfl) hextension
    exact ⟨extension, hextension, hplus, hsuffix⟩
  · rintro ⟨word, hword, hplus, hsuffix⟩
    obtain rfl := Option.some.inj (hextension.symm.trans hword)
    exact ⟨extension, hlanguage, hplus, hsuffix⟩

/-- A source in a directory below one whose name has an extension too. -/
theorem language_kept_of_nested :
    Language.ofPath? "lib.c/io.cpp" = some .cpp ∧
      Language.ofPath? (fileName ⟨1700000000000, 7⟩ "lib.c/io.cpp") = some .cpp :=
  ⟨by decide, (language_kept_iff (by decide) _).mpr
    ⟨"cpp".toList, by decide, by decide, by decide⟩⟩

/-- The plus signs of an extension become underscores, and then it names no language. -/
theorem language_lost_behind_plus :
    ¬∀ (stamp : Stamp) (name : String) (language : Language),
      Language.ofPath? name = some language →
        Language.ofPath? (fileName stamp name) = some language := by
  intro h
  have hlost := h ⟨0, 0⟩ "main.c++" .cpp (by decide)
  revert hlost
  decide +kernel

example : Language.ofPath? "main.c/" = some .c ∧
    Language.ofPath? (fileName ⟨0, 0⟩ "main.c/") = none := by decide +kernel

end Staging

end Ripple
