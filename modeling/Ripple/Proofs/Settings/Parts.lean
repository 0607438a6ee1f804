import Ripple.Proofs.Settings.Usable

/-!
# Settings part by part

Every setting has a value of its own type, and settings are their values (`eq_of_part`). To set a
key is to read a value from the text and to put it in the place of the one that is there
(`assign_eq_ok_iff`). Whether a text has a value does not depend on the settings.
-/

namespace Ripple

namespace SettingKey

/-- The values that a setting can have. -/
def Value : SettingKey → Type
  | timeout | concurrentFiles => UInt64
  | stagingDirectory => String
  | analyzers => List Analyzer
  | command _ => Command

/-- The value that a text has for a setting. -/
def entered (text : String) : (key : SettingKey) → Except SettingsFault key.Value
  | timeout | concurrentFiles => Settings.number text
  | stagingDirectory => .ok text
  | analyzers => Settings.analyzerList text
  | command _ => .ok (.ofProgram text)

end SettingKey

namespace Settings

/-- The value of a setting. -/
def part (s : Settings) : (key : SettingKey) → key.Value
  | .timeout => s.timeout
  | .stagingDirectory => s.stagingDirectory
  | .concurrentFiles => s.concurrentFiles
  | .analyzers => s.analyzers
  | .command analyzer => s.command analyzer

/-- The settings with another value for one of them. -/
def withPart (s : Settings) : (key : SettingKey) → key.Value → Settings
  | .timeout, n => { s with timeout := n }
  | .stagingDirectory, directory => { s with stagingDirectory := directory }
  | .concurrentFiles, n => { s with concurrentFiles := n }
  | .analyzers, list => { s with analyzers := list }
  | .command analyzer, command => s.withCommand command analyzer

variable {s s' : Settings} {key other : SettingKey} {text : String}

@[simp]
theorem part_withPart (v : key.Value) : (s.withPart key v).part key = v := by
  cases key with
  | command analyzer => cases analyzer <;> rfl
  | _ => rfl

theorem part_withPart_of_ne (v : key.Value) (h : other ≠ key) :
    (s.withPart key v).part other = s.part other := by
  cases key with
  | command analyzer =>
    cases other with
    | command analyzer' => cases analyzer <;> cases analyzer' <;> first | rfl | exact absurd rfl h
    | _ => cases analyzer <;> rfl
  | _ => cases other <;> first | rfl | exact absurd rfl h

/-- Settings are their values. -/
theorem eq_of_part (h : ∀ key, s.part key = s'.part key) : s = s' := by
  obtain ⟨timeout, directory, files, analyzers, cppcheck, tidy, format⟩ := s
  obtain rfl : timeout = s'.timeout := h .timeout
  obtain rfl : directory = s'.stagingDirectory := h .stagingDirectory
  obtain rfl : files = s'.concurrentFiles := h .concurrentFiles
  obtain rfl : analyzers = s'.analyzers := h .analyzers
  obtain rfl : cppcheck = s'.cppcheck := h (.command .cppcheck)
  obtain rfl : tidy = s'.clangTidy := h (.command .clangTidy)
  obtain rfl : format = s'.clangFormat := h (.command .clangFormat)
  rfl

/-- A value is set by putting it in the place of the one that is there. -/
theorem assign_eq_map (s : Settings) (key : SettingKey) (text : String) :
    s.assign key text = (key.entered text).map (s.withPart key) := by
  cases key <;> rfl

theorem assign_eq_ok_iff :
    s.assign key text = .ok s' ↔ ∃ v, key.entered text = .ok v ∧ s.withPart key v = s' := by
  rw [assign_eq_map, map_eq_ok_iff]

/-- What is set has the value of the text afterwards. -/
theorem entered_of_assign (h : s.assign key text = .ok s') :
    key.entered text = .ok (s'.part key) := by
  obtain ⟨v, hv, rfl⟩ := assign_eq_ok_iff.mp h
  rw [hv, part_withPart]

/-- What is not set keeps its value. -/
theorem part_of_assign (h : s.assign key text = .ok s') (hne : other ≠ key) :
    s'.part other = s.part other := by
  obtain ⟨v, -, rfl⟩ := assign_eq_ok_iff.mp h
  exact part_withPart_of_ne v hne

/-- Settings can be used if each of their values is also the value of settings that can be used. -/
theorem Usable.of_part (h : ∀ key, ∃ s : Settings, s.Usable ∧ s'.part key = s.part key) :
    s'.Usable := by
  obtain ⟨s₁, h₁, htimeout⟩ := h .timeout
  obtain ⟨s₂, h₂, hfiles⟩ := h .concurrentFiles
  obtain ⟨s₃, h₃, hanalyzers⟩ := h .analyzers
  have htimeout : s'.timeout = s₁.timeout := htimeout
  have hfiles : s'.concurrentFiles = s₂.concurrentFiles := hfiles
  have hanalyzers : s'.analyzers = s₃.analyzers := hanalyzers
  exact ⟨htimeout ▸ h₁.timeout, hfiles ▸ h₂.concurrentFiles, hanalyzers ▸ h₃.cppcheck,
    hanalyzers ▸ h₃.clangTidy⟩

end Settings

end Ripple
