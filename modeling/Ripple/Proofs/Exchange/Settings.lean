import Ripple.Proofs.Json.Fields
import Ripple.Proofs.Json.RoundTrip
import Ripple.Settings.Store

/-!
# Settings that are written and read

Every setting is written, so what is read does not depend on the settings beforehand. A command
without arguments of its own is written without a list, and is read with the empty one.

What is read shows what each member gives, and what it showed beforehand for every setting that has
no member (`shows_of_ofJson?`).
-/

namespace Ripple

open Json (Legible)

/-! ## Analyzers and commands -/

theorem Analyzer.ofJson?_toJson (a : Analyzer) : ofJson? a.toJson = some a := by
  cases a <;> rfl

theorem Json.legible_texts (xs : List String) : Legible (.texts xs) :=
  .array (List.forall_mem_map.mpr fun s _ => .text s)

theorem Json.toTexts?_texts (xs : List String) : toTexts? (.texts xs) = some xs :=
  toList?_array fun s _ => toText?_text s

namespace Command

variable (c : Command)

theorem legible_toJson : Legible c.toJson := by
  refine .record (List.forall_mem_cons.mpr ⟨.text _, ?_⟩)
  split
  · simp
  · simpa using Json.legible_texts _

theorem ofJson?_toJson : ofJson? c.toJson = some c := by
  obtain ⟨program, arguments⟩ := c
  unfold toJson
  split
  · next hnone =>
    obtain rfl : arguments = [] := hnone
    rw [ofJson?, Json.fields?_record (by simp)]
    simp [List.lookup_cons, Json.need, Json.orElse]
  · rw [ofJson?, Json.fields?_record (by simp)]
    simp [List.lookup_cons, Json.need, Json.orElse, Json.toTexts?_texts]

end Command

/-! ## Settings -/

namespace Settings

variable (s : Settings)

theorem legible_toJson : Legible s.toJson := by
  refine .record (List.forall_mem_map.mpr fun key _ => ?_)
  cases key with
  | timeout => exact .nat _
  | stagingDirectory => exact .text _
  | concurrentFiles => exact .nat _
  | analyzers => exact .array (List.forall_mem_map.mpr fun a _ => .text _)
  | command analyzer => exact Command.legible_toJson _

theorem wordOfJson?_nat (n : UInt64) : wordOfJson? (.nat n.toNat) = some n := by
  rw [wordOfJson?, Json.toNat?_nat n.toNat_lt, Option.map_some, UInt64.ofNat_toNat]

theorem fields?_toJson :
    s.toJson.fields? (SettingKey.all.map (·.name)) =
      some (SettingKey.all.map fun key => some (s.valueToJson key)) := by
  have hnames : (SettingKey.all.map fun key => (key.name, s.valueToJson key)).map (·.1) =
      SettingKey.all.map (·.name) := by
    rw [List.map_map]
    rfl
  have hnodup : (SettingKey.all.map (·.name)).Nodup := by decide
  rw [toJson, Json.fields?_record (by rw [hnames]; exact hnodup)]
  simp [SettingKey.all, Analyzer.all, SettingKey.name, List.lookup_cons]

/-- **Settings are read as they were written.** -/
theorem ofJson?_toJson (standard : Settings) : ofJson? standard s.toJson = some s := by
  rw [ofJson?, fields?_toJson]
  simp [SettingKey.all, Analyzer.all, valueToJson, Json.orElse, wordOfJson?_nat, command,
    Json.toList?_array fun a (_ : a ∈ s.analyzers) => a.ofJson?_toJson, Command.ofJson?_toJson]

theorem parse_eq_ok_iff {s standard : Settings} {text : String} :
    parse standard text = .ok s ↔
      ∃ j, Json.read? text.toList = some j ∧ ofJson? standard j = some s := by
  rw [← Option.bind_eq_some_iff, parse]
  cases (Json.read? text.toList).bind (ofJson? standard) <;> simp

/-- The text in the file is read as the settings that it was written for. -/
theorem parse_fileText (standard : Settings) : parse standard s.fileText = .ok s := by
  refine parse_eq_ok_iff.mpr ⟨s.toJson, ?_, s.ofJson?_toJson standard⟩
  rw [fileText, String.toList_ofList, Json.read?_writePretty s.legible_toJson]

end Settings

/-! ## Settings that are not given -/

namespace SettingKey

/-- What a JSON form has for the setting. -/
def field? (key : SettingKey) (j : Json) : Option Json :=
  (j.fields? (all.map (·.name))).bind fun fields => ((all.zip fields).lookup key).join

/-- What the setting shows if its JSON form is the given one. -/
def shown? (j : Json) : SettingKey → Option String
  | timeout | concurrentFiles =>
    (j.toNat? UInt64.size).map fun n => String.ofList (Text.decimal n)
  | stagingDirectory => j.toText?
  | analyzers => (j.toList? Analyzer.ofJson?).map fun list => ",".intercalate (list.map (·.name))
  | command _ => (Command.ofJson? j).map (·.program)

end SettingKey

theorem Json.orElse_map {α β : Type} {default x : α} {read : Json → Option α} {field : Option Json}
    (h : orElse default read field = some x) (f : α → β) :
    orElse (f default) (fun j => (read j).map f) field = some (f x) := by
  cases field with
  | none => rw [orElse, ← Option.some.inj h]
  | some j => rw [orElse, show read j = some x from h, Option.map_some]

theorem Json.getD_of_orElse {α : Type} {default x : α} {read : Json → Option α}
    {field : Option Json} (h : orElse default read field = some x) :
    (field.bind read).getD default = x := by
  cases field with
  | none => exact Option.some.inj h
  | some j => rw [Option.bind_some, show read j = some x from h, Option.getD_some]

namespace Settings

variable {s standard : Settings} {j : Json}

theorem toNat_of_wordOfJson? {n : UInt64} (h : wordOfJson? j = some n) :
    j.toNat? UInt64.size = some n.toNat := by
  obtain ⟨m, hm, rfl⟩ := Option.map_eq_some_iff.mp h
  have hbound : m < UInt64.size := by
    cases j with
    | number literal => exact of_decide_eq_true (Option.filter_eq_some_iff.mp hm).2
    | _ => cases hm
  rw [hm, UInt64.toNat_ofNat_of_lt' hbound]

theorem orElse_wordOfJson? {d n : UInt64} {field : Option Json}
    (h : Json.orElse d wordOfJson? field = some n) :
    Json.orElse (String.ofList (Text.decimal d.toNat))
        (fun j => (j.toNat? UInt64.size).map fun n => String.ofList (Text.decimal n)) field =
      some (String.ofList (Text.decimal n.toNat)) := by
  cases field with
  | none => rw [Json.orElse, ← Option.some.inj h]
  | some j => rw [Json.orElse, toNat_of_wordOfJson? h, Option.map_some]

/-- A setting shows what its member gives, and what it showed beforehand if it has no member. -/
theorem shows_of_ofJson? (h : ofJson? standard j = some s) (key : SettingKey) :
    Json.orElse (standard.value key) (key.shown? ·) (key.field? j) = some (s.value key) := by
  unfold ofJson? at h
  obtain ⟨fields, hfields, h⟩ := Option.bind_eq_some_iff.mp h
  split at h
  · next timeout stagingDirectory concurrentFiles analyzers cppcheck clangTidy clangFormat =>
    obtain ⟨_, htimeout, h⟩ := Option.bind_eq_some_iff.mp h
    obtain ⟨_, hdirectory, h⟩ := Option.bind_eq_some_iff.mp h
    obtain ⟨_, hfiles, h⟩ := Option.bind_eq_some_iff.mp h
    obtain ⟨_, hanalyzers, h⟩ := Option.bind_eq_some_iff.mp h
    obtain ⟨_, hcppcheck, h⟩ := Option.bind_eq_some_iff.mp h
    obtain ⟨_, htidy, h⟩ := Option.bind_eq_some_iff.mp h
    obtain ⟨_, hformat, h⟩ := Option.bind_eq_some_iff.mp h
    obtain rfl := Option.some.inj h
    rw [SettingKey.field?, hfields, Option.bind_some]
    cases key with
    | timeout => exact orElse_wordOfJson? htimeout
    | stagingDirectory => exact hdirectory
    | concurrentFiles => exact orElse_wordOfJson? hfiles
    | analyzers =>
      exact Json.orElse_map hanalyzers fun list => ",".intercalate (list.map (·.name))
    | command analyzer =>
      cases analyzer with
      | cppcheck => exact Json.orElse_map hcppcheck Command.program
      | clangTidy => exact Json.orElse_map htidy Command.program
      | clangFormat => exact Json.orElse_map hformat Command.program
  · cases h

end Settings

end Ripple
