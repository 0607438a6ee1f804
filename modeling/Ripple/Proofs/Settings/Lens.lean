import Ripple.Proofs.Json.Numeral
import Ripple.Proofs.Settings.Canonical
import Ripple.Proofs.Settings.Parts

/-!
# Setting and showing

Settings are set by a text and show a text. A setting shows the canonical form of what it is set to,
the others keep their values, and the last text that a setting is set to is the one that counts.
Setting what is shown leaves settings as they are, but for what is not shown: that an analyzer is
listed more than once, and the arguments of a command (`lens_laws`).
-/

namespace Ripple

open Text

namespace Text

/-- A number below the bound is read as it is written. -/
theorem readNumber_decimal {bound n : Nat} (h : n < bound) :
    readNumber bound (decimal n) = some n := by
  unfold readNumber
  extract_lets digits
  have hdigits : digits = decimal n := by
    unfold digits
    split
    · next rest hplus =>
      have hdigit : Numeral.isDigit '+' = true :=
        Numeral.isDigit_of_mem_decimal (n := n) (by simp [hplus])
      exact absurd hdigit (by decide)
    · rfl
  rw [hdigits, if_neg (decimal_ne_nil n), digitsValue?_decimal]
  exact if_pos h

end Text

namespace Analyzer

/-- An analyzer is found by its name, in which there is no comma. -/
theorem parse?_name (a : Analyzer) : parse? a.name = some a := by
  cases a <;> decide

theorem isName_name (a : Analyzer) :
    ',' ∉ a.name.toList ∧ isAllBlank a.name.toList = false := by
  cases a <;> decide

end Analyzer

namespace Settings

variable {s s' : Settings} {key other : SettingKey} {text later : String}

/-! ## What is shown can be set -/

theorem number_decimal (n : UInt64) : number (String.ofList (decimal n.toNat)) = .ok n := by
  rw [number, String.toList_ofList, readNumber_decimal n.toNat_lt]
  simp

/-- The names of analyzers are read as they are written, each once. -/
theorem analyzerList_names {list : List Analyzer} (h : list ≠ []) :
    analyzerList (",".intercalate (list.map (·.name))) = .ok list.eraseDups := by
  have hpieces : (",".intercalate (list.map (·.name))).toList.splitOn ',' =
      list.map (·.name.toList) := by
    rw [String.toList_intercalate, List.map_map]
    refine List.splitOn_intercalate ',' ?_ (by simpa using h)
    simp [Analyzer.isName_name]
  have hkept : (list.map (·.name.toList)).filter (!isAllBlank ·) = list.map (·.name.toList) := by
    simp [List.filter_eq_self, Analyzer.isName_name]
  have hnamed : (list.map (·.name.toList)).mapM analyzer = .ok list := by
    rw [mapM_eq_ok_iff, List.forall₂_map_left_iff]
    refine List.forall₂_same.mpr fun a _ => ?_
    rw [analyzer, String.ofList_toList]
    simp only [Analyzer.parse?_name]
  rw [analyzerList, splitWhere_eq_splitOn, hpieces, hkept, hnamed, ← distinct_eq_eraseDups]
  rfl

/-- The settings without what the setting does not show: repeated analyzers, or the arguments of the
command. -/
def settled (s : Settings) : SettingKey → Settings
  | .analyzers => { s with analyzers := s.analyzers.eraseDups }
  | .command analyzer => s.withCommand (.ofProgram (s.command analyzer).program) analyzer
  | .timeout | .stagingDirectory | .concurrentFiles => s

theorem Usable.settled (h : s.Usable) (key : SettingKey) : (s.settled key).Usable := by
  cases key with
  | analyzers =>
    exact ⟨h.timeout, h.concurrentFiles, List.mem_eraseDups.mpr h.cppcheck,
      List.mem_eraseDups.mpr h.clangTidy⟩
  | command analyzer =>
    cases analyzer <;> exact ⟨h.timeout, h.concurrentFiles, h.cppcheck, h.clangTidy⟩
  | timeout | stagingDirectory | concurrentFiles => exact h

/-- Setting what is shown changes no more than that. -/
theorem assign_value (h : s.Usable) (key : SettingKey) :
    s.assign key (s.value key) = .ok (s.settled key) := by
  cases key with
  | timeout | concurrentFiles => simp only [assign, value, number_decimal]; rfl
  | stagingDirectory | command => rfl
  | analyzers =>
    simp only [assign, value, analyzerList_names (List.ne_nil_of_mem h.cppcheck)]
    rfl

theorem setKey_value (h : s.Usable) (key : SettingKey) :
    s.setKey key (s.value key) = .ok (s.settled key) :=
  setKey_eq_ok_iff.mpr ⟨assign_value h key, h.settled key⟩

/-! ## What is set last counts -/

@[simp]
theorem withPart_withPart (s : Settings) (v v' : key.Value) :
    (s.withPart key v).withPart key v' = s.withPart key v' := by
  cases key with
  | command analyzer => cases analyzer <;> rfl
  | _ => rfl

/-- A setting that has been set is set as if it had not been. -/
theorem assign_assign (h : s.assign key text = .ok s') (later : String) :
    s'.assign key later = s.assign key later := by
  obtain ⟨v, -, rfl⟩ := assign_eq_ok_iff.mp h
  rw [assign_eq_map, assign_eq_map]
  congr 1
  funext v'
  exact withPart_withPart s v v'

theorem setKey_setKey (h : s.setKey key text = .ok s') (later : String) :
    s'.setKey key later = s.setKey key later := by
  rw [setKey, assign_assign (setKey_eq_ok_iff.mp h).1, ← setKey]

/-! ## By name -/

theorem get?_name (s : Settings) (key : SettingKey) : s.get? key.name = some (s.value key) := by
  rw [get?, SettingKey.ofName?_eq_some_iff.mpr rfl, Option.map_some]

theorem set_name (s : Settings) (key : SettingKey) (text : String) :
    s.set key.name text = s.setKey key text := by
  simp only [set, SettingKey.ofName?_eq_some_iff.mpr rfl]

/-- **Setting and showing are a lens on settings that can be used.** What is set shows its canonical
form, nothing else changes, and it makes no difference to what is set later. What is shown can be
set, and that leaves out only what is not shown. -/
theorem lens_laws (hs : s.Usable) :
    (∀ (name text : String) (s' : Settings), s.set name text = .ok s' →
      ∃ key : SettingKey, name = key.name ∧
        s'.get? name = some (key.canonical text) ∧
        (∀ other, other ≠ key → s'.part other = s.part other) ∧
        ∀ later, s'.set name later = s.set name later) ∧
      ∀ key : SettingKey, ∃ shown, s.get? key.name = some shown ∧
        s.set key.name shown = .ok (s.settled key) := by
  refine ⟨fun name text s' hset => ?_, fun key => ?_⟩
  · obtain ⟨key, hname, hkey⟩ := set_eq_ok_iff.mp hset
    obtain rfl := SettingKey.ofName?_eq_some_iff.mp hname
    obtain ⟨hassign, -⟩ := setKey_eq_ok_iff.mp hkey
    refine ⟨key, rfl, ?_, fun other hne => part_of_assign hassign hne, fun later => ?_⟩
    · rw [get?_name, value_of_assign hassign, if_pos rfl]
    · rw [set_name, set_name, setKey_setKey hkey]
  · exact ⟨s.value key, s.get?_name key, (s.set_name key _).trans (setKey_value hs key)⟩

/-- Settings that list an analyzer twice and call it with an argument of its own. -/
def repeatedTidy : Settings where
  timeout := 30
  stagingDirectory := "/tmp"
  concurrentFiles := 1
  analyzers := [.clangTidy, .cppcheck, .clangTidy]
  cppcheck := .ofProgram "cppcheck"
  clangTidy := ⟨"tidy", ["--quiet"]⟩
  clangFormat := .ofProgram "clang-format"

/-- The settings after the analyzers have been set by a list of other spellings. -/
def respelledTidy : Settings := { repeatedTidy with analyzers := [.cppcheck, .clangTidy] }

/-- The list shows its canonical form and is forgotten when another one is set. Both settings lose
what they do not show when they are set to what they show. -/
theorem lens_laws_repeatedTidy :
    repeatedTidy.Usable ∧
      repeatedTidy.set "tools" " CppCheck,,CLANG_TIDY ,cppcheck" = .ok respelledTidy ∧
      respelledTidy.get? "tools" = some "cppcheck,clang-tidy" ∧
      respelledTidy.set "tools" "clangtidy,cppcheck" =
        repeatedTidy.set "tools" "clangtidy,cppcheck" ∧
      (∃ shown, repeatedTidy.get? "tools" = some shown ∧ repeatedTidy.set "tools" shown =
        .ok { repeatedTidy with analyzers := [.clangTidy, .cppcheck] }) ∧
      ∃ shown, repeatedTidy.get? "clang_tidy" = some shown ∧ repeatedTidy.set "clang_tidy" shown =
        .ok { repeatedTidy with clangTidy := ⟨"tidy", []⟩ } := by
  have husable : repeatedTidy.Usable :=
    ⟨by decide, by decide, by simp [repeatedTidy], by simp [repeatedTidy]⟩
  have hset : repeatedTidy.set "tools" " CppCheck,,CLANG_TIDY ,cppcheck" = .ok respelledTidy := by
    decide +kernel
  obtain ⟨hchanges, hshown⟩ := lens_laws husable
  obtain ⟨key, hkey, hget, -, hlater⟩ := hchanges _ _ _ hset
  obtain rfl : key = .analyzers :=
    Option.some.inj ((SettingKey.ofName?_eq_some_iff.mpr hkey).symm.trans (by decide))
  refine ⟨husable, hset, hget.trans (by decide +kernel), hlater _, ?_, ?_⟩
  · exact hshown .analyzers
  · exact hshown (.command .clangTidy)

end Settings

end Ripple
