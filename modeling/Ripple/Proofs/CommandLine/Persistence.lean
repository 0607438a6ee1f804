import Ripple.Proofs.CommandLine.Settings
import Ripple.Proofs.Settings.Precedence

/-!
# What is written when a key is set

The command that sets a key starts from the settings in effect, not from those in the file, and
saves all of them. So the file keeps what it gives for another setting only as long as no variable
takes precedence over it; the value of such a variable is written to the file
(`World.written_by_set`).
-/

namespace Ripple.CommandLine

open Settings (Unset stored overrides)

namespace World

variable {w : World} {t' : FileTree} {ending : Ending} {s : Settings} {name text : String}

/-- What succeeds has settings to go by. -/
theorem withSettings_success {work : Settings → FileTree × Ending}
    (h : w.withSettings work = (t', ending)) (hexit : ending.exit = 0) :
    ∃ s, Settings.load w.environment w.tree = .ok s ∧ work s = (t', ending) := by
  unfold withSettings settings at h
  cases hload : Settings.load w.environment w.tree with
  | ok s =>
    rw [hload] at h
    exact ⟨s, rfl, h⟩
  | error failure =>
    rw [hload] at h
    obtain ⟨-, rfl⟩ := Prod.mk.inj h
    cases hexit

theorem saveAnd_success {lines : List String} (h : w.saveAnd s lines = (t', ending))
    (hexit : ending.exit = 0) : s.save w.environment w.tree = (t', .ok ()) := by
  unfold saveAnd at h
  rcases hsave : s.save w.environment w.tree with ⟨t, failure | _⟩
  · rw [hsave] at h
    obtain ⟨-, rfl⟩ := Prod.mk.inj h
    cases hexit
  · rw [hsave] at h
    rw [(Prod.mk.inj h).1]

/-- A key that can be set is set in the settings that are saved. -/
theorem runSet_success (h : w.runSet s name text = (t', ending)) (hexit : ending.exit = 0) :
    ∃ key after, name = key.name ∧ s.assign key text = .ok after ∧
      stored w.environment t' = .ok after := by
  unfold runSet at h
  cases hset : s.set name text with
  | error fault =>
    rw [hset] at h
    obtain ⟨-, rfl⟩ := Prod.mk.inj h
    cases hexit
  | ok after =>
    rw [hset] at h
    obtain ⟨key, hkey, hset⟩ := Settings.set_eq_ok_iff.mp hset
    exact ⟨key, after, SettingKey.ofName?_eq_some_iff.mp hkey,
      (Settings.setKey_eq_ok_iff.mp hset).1, Settings.stored_of_save (saveAnd_success h hexit)⟩

/-- **A key is set, and the variables are written with it.** When the command that sets a key has
succeeded, the file gives the new value for that key. For another setting it gives what it gave
before if no variable is set for it, and the value of the variable if there is one. -/
theorem written_by_set {arguments : List String}
    (htask : Task.read arguments = some (.settings (.set name text)))
    (hrun : w.run arguments = (t', ending)) (hexit : ending.exit = 0) :
    ∃ (environment : Environment) (key : SettingKey) (before after : Settings),
      w.environment.withFile w.tree = some environment ∧ name = key.name ∧
      stored environment w.tree = .ok before ∧ stored environment t' = .ok after ∧
      key.entered text = .ok (after.part key) ∧
      (∀ other ≠ key, Unset environment overrides other → after.part other = before.part other) ∧
      ∀ override ∈ overrides, override.2 ≠ key →
        ∀ value, environment[override.1]? = some value →
          override.2.entered value = .ok (after.part override.2) := by
  have hprepared : w.preparedFor (.settings (.set name text)) =
      (w.environment.withFile w.tree).map fun e => { w with environment := e } := by
    rw [preparedFor.eq_def]
  rw [run, htask] at hrun
  cases hfile : w.environment.withFile w.tree with
  | none =>
    simp only [hprepared, hfile, Option.map_none] at hrun
    obtain ⟨-, rfl⟩ := Prod.mk.inj hrun
    cases hexit
  | some environment =>
    simp only [hprepared, hfile, Option.map_some, runTask] at hrun
    obtain ⟨s, hload, hset⟩ := withSettings_success hrun hexit
    obtain ⟨key, after, rfl, hassign, hafter⟩ := runSet_success hset hexit
    obtain ⟨before, hbefore, hall⟩ := Settings.assigned_of_load hload
    refine ⟨environment, key, before, after, rfl, rfl, hbefore, hafter,
      Settings.entered_of_assign hassign, ?_, ?_⟩
    · intro other hne hunset
      rw [Settings.part_of_assign hassign hne, Settings.part_of_foldlM_assignFrom hall hunset]
    · intro override hmem hne value hvalue
      rw [Settings.part_of_assign hassign hne]
      exact Settings.entered_of_foldlM_assignFrom Settings.nodup_overrides hall hmem hvalue

/-- The world in which the file gives nothing, and a variable gives the time limit. -/
def sevenWorld : World :=
  { worldWith "\x7b\x7d" with
    environment := NameTable.ofList
      [("IMPACT_CONFIG", "conf/impact.json"), ("IMPACT_TOOL_TIMEOUT_SECS", "7")] }

/-- The settings in which both numbers have been set. -/
def sevenAndFour : Settings := { Settings.standard "/tmp" with timeout := 7, concurrentFiles := 4 }

/-- A command that sets another key than that of the variable. -/
def fourFiles : List String := ["config", "set", "max_concurrent_files", "4"]

theorem run_fourFiles :
    sevenWorld.run fourFiles =
      ((sevenWorld.run fourFiles).1, .success ["Set max_concurrent_files to: 4"]) := by rfl

/-- The file gives no directory for staged files and no variable is set for it, so it stays the
standard one. -/
theorem written_by_set_fourFiles :
    Task.read fourFiles = some (.settings (.set "max_concurrent_files" "4")) ∧
      (sevenWorld.run fourFiles).2.exit = 0 ∧
      ∃ after, stored sevenWorld.environment (sevenWorld.run fourFiles).1 = .ok after ∧
        after.stagingDirectory = "/tmp" ∧ after.concurrentFiles = 4 ∧ after.timeout = 7 := by
  have htask : Task.read fourFiles = some (.settings (.set "max_concurrent_files" "4")) := by rfl
  have hsame : sevenWorld.environment.withFile sevenWorld.tree = some sevenWorld.environment := by
    rfl
  have hstored : stored sevenWorld.environment sevenWorld.tree = .ok (Settings.standard "/tmp") := by
    rfl
  obtain ⟨environment, key, before, after, hfile, hname, hbefore, hafter, hset, hkept, hwritten⟩ :=
    written_by_set (w := sevenWorld) htask run_fourFiles rfl
  obtain rfl := Option.some.inj (hfile.symm.trans hsame)
  obtain rfl := Except.ok.inj (hbefore.symm.trans hstored)
  obtain rfl : SettingKey.concurrentFiles = key :=
    Option.some.inj (SettingKey.ofName?_eq_some_iff.mpr hname)
  have hdirectory : Unset sevenWorld.environment overrides .stagingDirectory := by
    intro name hmem
    obtain rfl : name = "IMPACT_ARTIFACT_DIR" := by simpa [overrides] using hmem
    rfl
  have htimeout := hwritten ("IMPACT_TOOL_TIMEOUT_SECS", .timeout) (by decide) (by decide) "7" rfl
  exact ⟨htask, by rfl, after, hafter, hkept .stagingDirectory (by decide) hdirectory,
    (Except.ok.inj hset).symm, (Except.ok.inj htimeout).symm⟩

/-- **The value of a variable is in the file after another key has been set.** Before, the file gave
the standard time limit of thirty seconds. -/
theorem writes_variable_fourFiles :
    Task.read fourFiles = some (.settings (.set "max_concurrent_files" "4")) ∧
      (sevenWorld.run fourFiles).2.exit = 0 ∧
      stored sevenWorld.environment sevenWorld.tree = .ok (Settings.standard "/tmp") ∧
      stored sevenWorld.environment (sevenWorld.run fourFiles).1 = .ok sevenAndFour := by
  have hsave : sevenAndFour.save sevenWorld.environment sevenWorld.tree =
      ((sevenWorld.run fourFiles).1, .ok ()) := by rfl
  exact ⟨by rfl, by rfl, by rfl, Settings.stored_of_save hsave⟩

end World

end Ripple.CommandLine
