import Ripple.Proofs.Exchange.Settings
import Ripple.Proofs.Files.Places
import Ripple.Proofs.Settings.Usable
import Ripple.Proofs.Text.Decode

/-!
# Settings that are kept in a file

What is stored shows what the file gives for each setting (`value_of_stored`), and what has been
saved is stored (`stored_of_save`). Where a file can be written, settings can be saved, and if no
variable takes precedence they are loaded afterwards (`NamesFile.save`).
-/

namespace Ripple

open Text

theorem FileTree.exists?_of_readText {t : FileTree} {path : Bytes} {text : String}
    (h : t.readText path = .ok text) : t.exists? path = true := by
  unfold readText at h
  split at h
  · cases h
  · next hread => exact exists?_of_readBytes hread

namespace Settings

variable {environment : Environment} {path : String} {s s' : Settings} {t t' : FileTree}

/-! ## What is stored -/

theorem stored_eq_ok_iff :
    stored environment t = .ok s ↔
      (t.exists? (bytesOf (Settings.path environment)) = false ∧ s = standardIn environment) ∨
        ∃ text, t.readText (bytesOf (Settings.path environment)) = .ok text ∧
          parse (standardIn environment) text = .ok s := by
  unfold stored
  dsimp only
  by_cases hexists : t.exists? (bytesOf (Settings.path environment)) = true
  · rw [if_pos hexists]
    cases t.readText (bytesOf (Settings.path environment)) <;> simp [hexists]
  · rw [if_neg hexists]
    constructor
    · intro h
      exact .inl ⟨Bool.eq_false_iff.mpr hexists, (Except.ok.inj h).symm⟩
    · rintro (⟨-, rfl⟩ | ⟨text, htext, -⟩)
      · rfl
      · exact absurd (FileTree.exists?_of_readText htext) hexists

/-- What the file gives for a setting; the standard value if there is no file, or none for the
setting in it. -/
def given (environment : Environment) (t : FileTree) (key : SettingKey) : String :=
  let standard := (standardIn environment).value key
  match t.readText (bytesOf (Settings.path environment)) with
  | .ok text => (((Json.read? text.toList).bind key.field?).bind (key.shown? ·)).getD standard
  | .error _ => standard

/-- Stored settings show what the file gives. -/
theorem value_of_stored (h : stored environment t = .ok s) (key : SettingKey) :
    s.value key = given environment t key := by
  unfold given
  rcases stored_eq_ok_iff.mp h with ⟨habsent, rfl⟩ | ⟨text, htext, hparse⟩
  · split
    · next text htext =>
      rw [FileTree.exists?_of_readText htext] at habsent
      cases habsent
    · rfl
  · obtain ⟨j, hj, hread⟩ := parse_eq_ok_iff.mp hparse
    simp only [htext, hj, Option.bind_some]
    exact (Json.getD_of_orElse (shows_of_ofJson? hread key)).symm

/-- Settings that have been saved are those in the file. -/
theorem stored_of_save (h : s.save environment t = (t', .ok ())) :
    stored environment t' = .ok s := by
  unfold save at h
  dsimp only at h
  split at h
  · cases (Prod.mk.inj h).2
  · next t₁ hmake =>
    rcases hwrite : t₁.write (bytesOf (Settings.path environment)) (bytesOf s.fileText) with
      ⟨t₂, fault | _⟩
    · rw [hwrite] at h
      cases (Prod.mk.inj h).2
    · rw [hwrite] at h
      obtain rfl : t₂ = t' := (Prod.mk.inj h).1
      refine stored_eq_ok_iff.mpr (.inr ⟨s.fileText, ?_, s.parse_fileText _⟩)
      rw [FileTree.readText, FileTree.readBytes_of_write hwrite]
      simp only [stringOf?_eq_some_iff.mpr rfl]

/-! ## A file for the settings -/

/-- The environment names the file for the settings, and no variable takes precedence over it. -/
structure NamesFile (environment : Environment) (path : String) : Prop where
  config : environment["IMPACT_CONFIG"]? = some path
  ne_empty : path ≠ ""
  silent : ∀ override ∈ overrides, environment[override.1]? = none

namespace NamesFile

variable (h : NamesFile environment path)

include h

theorem path_eq : Settings.path environment = path := by
  rw [Settings.path, h.config, Option.filter_some, if_pos (decide_eq_true h.ne_empty),
    Option.getD_some]

theorem override_eq : s.override environment = (s, .ok ()) :=
  overrideFrom_eq_ok_iff.mpr <|
    foldlM_eq_self fun override hmem => by rw [takeOver, h.silent override hmem]

theorem load_eq_ok_iff :
    load environment t = .ok s ↔ stored environment t = .ok s ∧ s.Usable := by
  rw [Settings.load_eq_ok_iff]
  constructor
  · rintro ⟨s', hstored, hover, husable⟩
    rw [h.override_eq] at hover
    obtain rfl := (Prod.mk.inj hover).1
    exact ⟨hstored, husable⟩
  · rintro ⟨hstored, husable⟩
    exact ⟨s, hstored, h.override_eq, husable⟩

/-- **What has been saved is loaded.** Saving succeeds where a file can be written, and it can be
done again. -/
theorem save (hfill : t.Fillable path) (s : Settings) :
    ∃ t', s.save environment t = (t', .ok ()) ∧ t'.Fillable path ∧
      (s.Usable → load environment t' = .ok s) := by
  obtain ⟨t₁, hmake, hfill⟩ := hfill.fill
  obtain ⟨t₂, hwrite, hfill₂⟩ := hfill (bytesOf s.fileText)
  have hsave : s.save environment t = (t₂, .ok ()) := by
    rw [FileTree.folderOf] at hmake
    simp only [Settings.save, h.path_eq, hmake, hwrite]
    rfl
  exact ⟨t₂, hsave, hfill₂, fun husable => h.load_eq_ok_iff.mpr ⟨stored_of_save hsave, husable⟩⟩

end NamesFile

end Settings

end Ripple
