import Ripple.CommandLine.Run
import Ripple.Proofs.Settings.Canonical
import Ripple.Proofs.Settings.Kept

/-!
# Commands about the settings

Commands about the settings are run one after the other in one environment, in which the settings
have a file that can be written. `Outcome` says what one command does. It either leaves the file
tree as it is, or saves settings that are loaded from then on, so that every setting shows what was
last made of it (`remembered`). Nothing is asked of the file that is there at the start.
-/

namespace Ripple.CommandLine

open Text

/-! ## Commands -/

/-- The arguments are for a command about the settings: if they can be read, they ask for something
to be done with the settings, or for help. -/
def AboutSettings (arguments : List String) : Prop :=
  ∀ task, Task.read arguments = some task → task = .help ∨ ∃ t, task = .settings t

theorem splitCommand_word {options : List OptionSpec} {command : String} {rest : List String}
    (hword : looksLikeOption command = false) :
    splitCommand options (command :: rest) = some (⟨[], []⟩, command :: rest) := by
  have hread : Arguments.read options (.many .text) [] = some ⟨[], []⟩ := rfl
  simp [splitCommand, hword, hread]

theorem eq_help_or_of_taskOf {options : List OptionSpec} {words : WordSpec} {texts : List String}
    {task? : Arguments → Option Task} {task : Task}
    (h : taskOf options words texts task? = some task) :
    task = .help ∨ ∃ a, task? a = some task := by
  unfold taskOf at h
  obtain ⟨a, -, h⟩ := Option.bind_eq_some_iff.mp h
  split at h
  · exact .inl (Option.some.inj h).symm
  · exact .inr ⟨a, h⟩

theorem exists_of_settingsTask? {command : String} {a : Arguments} {task : Task}
    (h : settingsTask? command a = some task) : ∃ t, task = .settings t := by
  unfold settingsTask? at h
  split at h
  all_goals first
    | exact ⟨_, (Option.some.inj h).symm⟩
    | cases h

/-- Arguments after a first word `config` are about the settings, whatever they are. -/
theorem aboutSettings_config (rest : List String) : AboutSettings ("config" :: rest) := by
  have hread : Task.read ("config" :: rest) = readSettings rest := by
    rw [Task.read, splitCommand_word (by decide)]
    rfl
  intro task htask
  rw [hread] at htask
  unfold readSettings at htask
  obtain ⟨⟨front, rest⟩, -, htask⟩ := Option.bind_eq_some_iff.mp htask
  dsimp only at htask
  split at htask
  · exact .inl (Option.some.inj htask).symm
  · split at htask
    · cases htask
    · next command rest =>
      obtain ⟨count, -, htask⟩ := Option.bind_eq_some_iff.mp htask
      rcases eq_help_or_of_taskOf htask with rfl | ⟨a, ha⟩
      · exact .inl rfl
      · exact .inr (exists_of_settingsTask? ha)

example : ∀ key ∈ SettingKey.all,
    Task.read ["config", "get", key.name] = some (.settings (.get key.name)) := by decide

/-- A command about the settings is run in a file tree and leaves another one. The environment file,
if there is one, has nothing to add to the environment. -/
def Step (environment : Environment) (t : FileTree) (arguments : List String) (ending : Ending)
    (t' : FileTree) : Prop :=
  ∃ w : World, w.tree = t ∧ w.environment = environment ∧
    environment.withFile t = some environment ∧ AboutSettings arguments ∧
    w.run arguments = (t', ending)

/-- Commands about the settings are run one after the other; the last one is the end of the list. -/
inductive Runs (environment : Environment) (t : FileTree) :
    List (List String × Ending) → FileTree → Prop
  | nil : Runs environment t [] t
  | snoc {history : List (List String × Ending)} {t₁ t₂ : FileTree} {arguments : List String}
    {ending : Ending} : Runs environment t history t₁ →
      Step environment t₁ arguments ending t₂ →
      Runs environment t (history ++ [(arguments, ending)]) t₂

/-- What a setting shows after a command has been run, if it showed `known` before. Only a command
that succeeds counts. -/
def remembered (environment : Environment) (key : SettingKey) (known : String)
    (command : List String × Ending) : String :=
  if command.2.exit ≠ 0 then known
  else match Task.read command.1 with
    | some (.settings .reset) => (Settings.standardIn environment).value key
    | some (.settings (.set name text)) => if name = key.name then key.canonical text else known
    | _ => known

/-! ## What a command does -/

variable {environment : Environment} {path : String} {t t' t₁ t₂ : FileTree}
  {arguments : List String} {ending : Ending} {s s' : Settings} {key : SettingKey}
  {history : List (List String × Ending)}

/-- How a command ends and what it leaves. -/
inductive Outcome (environment : Environment) (path : String) (t : FileTree) :
    Option Task → Ending → FileTree → Prop
  /-- The command fails, which a reset never does, and neither does a question for the value of a
  setting when there are settings. -/
  | refused {task : Option Task} {ending : Ending} (hexit : ending.exit ≠ 0)
    (hreset : task ≠ some (.settings .reset))
    (hget : ∀ (s : Settings) (key : SettingKey), Settings.load environment t = .ok s →
      task ≠ some (.settings (.get key.name))) : Outcome environment path t task ending t
  /-- The command only tells something. -/
  | told {task : Option Task} {lines : List String} (hreset : task ≠ some (.settings .reset))
    (hset : ∀ name text, task ≠ some (.settings (.set name text)))
    (hget : ∀ key : SettingKey, task = some (.settings (.get key.name)) →
      ∃ s, Settings.load environment t = .ok s ∧ lines = [s.value key]) :
    Outcome environment path t task (.success lines) t
  | set {text : String} {lines : List String} {s s' : Settings} {key : SettingKey} {t' : FileTree}
    (hload : Settings.load environment t = .ok s) (hassign : s.assign key text = .ok s')
    (hload' : Settings.load environment t' = .ok s') (hfill : t'.Fillable path) :
    Outcome environment path t (some (.settings (.set key.name text))) (.success lines) t'
  | reset {lines : List String} {t' : FileTree}
    (hload' : Settings.load environment t' = .ok (Settings.standardIn environment))
    (hfill : t'.Fillable path) :
    Outcome environment path t (some (.settings .reset)) (.success lines) t'

theorem Outcome.failure {task : SettingsTask} (c : Complaint) (hreset : task ≠ .reset)
    (hget : ∀ (s : Settings) (key : SettingKey), Settings.load environment t = .ok s →
      task ≠ .get key.name) :
    Outcome environment path t (some (.settings task)) (.failure c) t := by
  refine .refused (by simp [Ending.failure]) (by simpa using hreset) fun s key hload => ?_
  simpa using hget s key hload

namespace World

variable {w : World}

/-- Without settings a command fails, unless it resets them. -/
theorem withSettings_outcome {task : SettingsTask} {work : Settings → FileTree × Ending}
    (hreset : task ≠ .reset)
    (hwork : ∀ s, Settings.load w.environment w.tree = .ok s →
      Outcome w.environment path w.tree (some (.settings task)) (work s).2 (work s).1) :
    Outcome w.environment path w.tree (some (.settings task)) (w.withSettings work).2
      (w.withSettings work).1 := by
  unfold withSettings settings
  cases hload : Settings.load w.environment w.tree with
  | ok s => exact hwork s hload
  | error failure =>
    refine .failure _ hreset fun s key hload' => ?_
    rw [hload] at hload'
    cases hload'

theorem runGet_outcome (hload : Settings.load environment t = .ok s) (name : String) :
    Outcome environment path t (some (.settings (.get name))) (runGet s name) t := by
  rw [runGet, Settings.get?]
  cases hkey : SettingKey.ofName? name with
  | none =>
    refine .failure _ (by simp) fun s key _ heq => ?_
    have hname := SettingKey.ofName?_eq_some_iff.mpr (SettingsTask.get.inj heq)
    rw [hkey] at hname
    cases hname
  | some key =>
    refine .told (by simp) (by simp) fun key' heq => ⟨s, hload, ?_⟩
    have hname : name = key'.name := by simpa using heq
    rw [SettingKey.ofName?_eq_some_iff.mpr hname] at hkey
    rw [Option.some.inj hkey]

variable (hnames : Settings.NamesFile w.environment path) (hfill : w.tree.Fillable path)

include hnames hfill

theorem saveAnd_ok (s : Settings) (lines : List String) :
    ∃ t', w.saveAnd s lines = (t', .success lines) ∧ t'.Fillable path ∧
      (s.Usable → Settings.load w.environment t' = .ok s) := by
  obtain ⟨t', hsave, hsaved⟩ := hnames.save hfill s
  refine ⟨t', ?_, hsaved⟩
  unfold saveAnd
  rw [hsave]

theorem runSet_outcome (hload : Settings.load w.environment w.tree = .ok s) (name text : String) :
    Outcome w.environment path w.tree (some (.settings (.set name text))) (w.runSet s name text).2
      (w.runSet s name text).1 := by
  rw [runSet]
  cases hset : s.set name text with
  | error fault => exact .failure _ (by simp) (by simp)
  | ok s' =>
    obtain ⟨key, hkey, hset⟩ := Settings.set_eq_ok_iff.mp hset
    obtain ⟨hassign, husable⟩ := Settings.setKey_eq_ok_iff.mp hset
    obtain ⟨t', hsave, hfill', hload'⟩ :=
      saveAnd_ok hnames hfill s' ["Set " ++ name ++ " to: " ++ text]
    simp only [hsave]
    rw [SettingKey.ofName?_eq_some_iff.mp hkey]
    exact .set hload hassign (hload' husable) hfill'

/-- What is done with the settings in a world in which they have a file that can be written. -/
theorem runTask_outcome (task : SettingsTask) :
    Outcome w.environment path w.tree (some (.settings task)) (w.runTask (.settings task)).2
      (w.runTask (.settings task)).1 := by
  rw [runTask.eq_def]
  cases task with
  | path => exact .told (by simp) (by simp) (by simp)
  | print => exact withSettings_outcome (by simp) fun _ _ => .told (by simp) (by simp) (by simp)
  | get name => exact withSettings_outcome (by simp) fun _ hload => runGet_outcome hload name
  | set name text =>
    exact withSettings_outcome (by simp) fun _ hload => runSet_outcome hnames hfill hload name text
  | reset =>
    obtain ⟨t', hsave, hfill', hload⟩ := saveAnd_ok hnames hfill
      (Settings.standardIn w.environment) ["Configuration reset to defaults"]
    simp only [hsave]
    exact .reset (hload (Settings.usable_standard _)) hfill'

end World

/-! ## One command -/

theorem Step.outcome (hstep : Step environment t arguments ending t')
    (hnames : Settings.NamesFile environment path) (hfill : t.Fillable path) :
    Outcome environment path t (Task.read arguments) ending t' := by
  obtain ⟨w, rfl, rfl, hfile, habout, hrun⟩ := hstep
  unfold World.run at hrun
  cases htask : Task.read arguments with
  | none =>
    rw [htask] at hrun
    obtain ⟨rfl, rfl⟩ := Prod.mk.inj hrun
    exact .refused (by decide) (by simp) (by simp)
  | some task =>
    rw [htask] at hrun
    rcases habout task htask with rfl | ⟨task, rfl⟩
    · obtain ⟨rfl, rfl⟩ := Prod.mk.inj hrun
      exact .told (by simp) (by simp) (by simp)
    · have hprepared : w.preparedFor (.settings task) = some w := by
        rw [World.preparedFor.eq_def, hfile]
        rfl
      simp only [hprepared] at hrun
      have houtcome := World.runTask_outcome hnames hfill task
      rw [hrun] at houtcome
      exact houtcome

/-- A file can still be written after a command. -/
theorem Outcome.fillable {task : Option Task} (h : Outcome environment path t task ending t')
    (hfill : t.Fillable path) : t'.Fillable path := by
  cases h with
  | refused | told => exact hfill
  | set _ _ _ hfill' => exact hfill'
  | reset _ hfill' => exact hfill'

/-- A command that fails changes nothing. -/
theorem Outcome.eq_of_exit {task : Option Task} (h : Outcome environment path t task ending t')
    (hexit : ending.exit ≠ 0) : t' = t := by
  cases h with
  | refused | told => rfl
  | set | reset => exact absurd rfl hexit

theorem Outcome.of_reset (h : Outcome environment path t (some (.settings .reset)) ending t') :
    ending.exit = 0 ∧ Settings.load environment t' = .ok (Settings.standardIn environment) := by
  cases h with
  | refused _ hreset => exact absurd rfl hreset
  | told hreset => exact absurd rfl hreset
  | reset hload' => exact ⟨rfl, hload'⟩

theorem Outcome.of_get (h : Outcome environment path t (some (.settings (.get key.name))) ending t')
    (hload : Settings.load environment t = .ok s) : ending = .success [s.value key] := by
  cases h with
  | refused _ _ hget => exact absurd rfl (hget s key hload)
  | told _ _ hget =>
    obtain ⟨s', hload', rfl⟩ := hget key rfl
    rw [Except.ok.inj (hload.symm.trans hload')]

/-- There is no file, or one with settings that can be used. -/
def InOrder (environment : Environment) (path : String) (t : FileTree) : Prop :=
  t.exists? (bytesOf path) = false ∨ ∃ s, Settings.load environment t = .ok s ∧ s.Usable

theorem Outcome.inOrder {task : Option Task} (h : Outcome environment path t task ending t')
    (horder : InOrder environment path t) : InOrder environment path t' := by
  have hloaded {t : FileTree} {s : Settings} (hload : Settings.load environment t = .ok s) :
      InOrder environment path t := by
    obtain ⟨_, -, -, husable⟩ := Settings.load_eq_ok_iff.mp hload
    exact .inr ⟨s, hload, husable⟩
  cases h with
  | refused | told => exact horder
  | set _ _ hload' _ => exact hloaded hload'
  | reset hload' _ => exact hloaded hload'

/-- After a command a setting shows what is remembered of it. -/
theorem Outcome.value (h : Outcome environment path t (Task.read arguments) ending t')
    {known : String} (hknown : ∀ s, Settings.load environment t = .ok s → s.value key = known)
    (hload : Settings.load environment t' = .ok s) :
    s.value key = remembered environment key known (arguments, ending) := by
  generalize htask : Task.read arguments = task at h
  unfold remembered
  dsimp only
  rw [htask]
  cases h with
  | refused hexit =>
    rw [if_pos hexit]
    exact hknown s hload
  | told hreset hset =>
    rw [if_neg (by simp [Ending.success])]
    split
    · exact absurd rfl hreset
    · exact absurd rfl (hset _ _)
    · exact hknown s hload
  | @set text lines before after key' _ hbefore hassign hafter =>
    rw [if_neg (by simp [Ending.success])]
    obtain rfl := Except.ok.inj (hafter.symm.trans hload)
    rw [Settings.value_of_assign hassign, hknown before hbefore]
    have hname : key'.name = key.name ↔ key = key' := by
      rw [← SettingKey.ofName?_eq_some_iff, SettingKey.ofName?_eq_some_iff.mpr rfl,
        Option.some.injEq, eq_comm]
    by_cases hkey : key = key'
    · obtain rfl := hkey
      simp
    · simp [hkey, hname]
  | reset hafter =>
    rw [if_neg (by simp [Ending.success])]
    obtain rfl := Except.ok.inj (hafter.symm.trans hload)
    rfl

/-! ## Many commands -/

namespace Runs

variable (hruns : Runs environment t history t₁) (hnames : Settings.NamesFile environment path)

include hruns hnames

theorem fillable (hfill : t.Fillable path) : t₁.Fillable path := by
  induction hruns with
  | nil => exact hfill
  | snoc _ hstep ih => exact (hstep.outcome hnames ih).fillable ih

theorem inOrder (hfill : t.Fillable path) (horder : InOrder environment path t) :
    InOrder environment path t₁ := by
  induction hruns with
  | nil => exact horder
  | snoc hruns hstep ih => exact (hstep.outcome hnames (hruns.fillable hnames hfill)).inOrder ih

/-- When there are settings, every setting shows what is remembered of it. -/
theorem value (hfill : t.Fillable path) (hload : Settings.load environment t₁ = .ok s) :
    s.value key =
      history.foldl (remembered environment key) (Settings.given environment t key) := by
  induction hruns generalizing s with
  | nil => exact Settings.value_of_stored (hnames.load_eq_ok_iff.mp hload).1 key
  | snoc hruns hstep ih =>
    rw [List.foldl_append, List.foldl_cons, List.foldl_nil]
    exact (hstep.outcome hnames (hruns.fillable hnames hfill)).value (fun _ => ih) hload

end Runs

/-- **Commands about the settings keep them in order.** After any commands, with any file or none at
the start: Once there are no settings or settings that can be used, this stays so. A command that
fails changes nothing. A reset succeeds, and the standard settings are loaded afterwards. And
wherever there are settings, the value that is asked for is the one that is remembered: what the
last command that set it made of it, the standard value if the settings have been reset since, and
what the file gave at the start if there was neither. -/
theorem settings_remembered (hnames : Settings.NamesFile environment path)
    (hfill : t.Fillable path) (hruns : Runs environment t history t₁) :
    (∀ (later : List (List String × Ending)) (t₂ : FileTree), Runs environment t₁ later t₂ →
      InOrder environment path t₁ → InOrder environment path t₂) ∧
    ∀ (arguments : List String) (ending : Ending) (t₂ : FileTree),
      Step environment t₁ arguments ending t₂ →
        (ending.exit ≠ 0 → t₂ = t₁) ∧
        (Task.read arguments = some (.settings .reset) →
          ending.exit = 0 ∧
            Settings.load environment t₂ = .ok (Settings.standardIn environment)) ∧
        ∀ (key : SettingKey) (s : Settings),
          Task.read arguments = some (.settings (.get key.name)) →
            Settings.load environment t₁ = .ok s →
              ending = .success [history.foldl (remembered environment key)
                (Settings.given environment t key)] := by
  have hfill₁ := hruns.fillable hnames hfill
  refine ⟨fun later t₂ hlater => hlater.inOrder hnames hfill₁, ?_⟩
  intro arguments ending t₂ hstep
  have houtcome := hstep.outcome hnames hfill₁
  refine ⟨houtcome.eq_of_exit, fun hreset => ?_, fun key s hget hload => ?_⟩
  · rw [hreset] at houtcome
    exact houtcome.of_reset
  · rw [hget] at houtcome
    rw [houtcome.of_get hload, hruns.value hnames hfill hload]

/-- A world in which the file for the settings has the given content. -/
def worldWith (content : String) : World where
  tree :=
    { entries := Std.ExtTreeMap.ofList [
        ([bytesOf "conf"], Entry.directory),
        ([bytesOf "impact.json", bytesOf "conf"], Entry.file (bytesOf content))]
      workingDirectory := [] }
  environment := NameTable.ofList [("IMPACT_CONFIG", "conf/impact.json")]
  input := []
  programs _ _ _ _ := .ok ⟨some 0, "", ""⟩
  stamps place := ⟨place, 0⟩
  millis := 0

/-- The world in which the file gives one number. -/
def fiveWorld : World := worldWith "\x7b\"tool_timeout_secs\": 5\x7d"

/-- The world in which the number has been set. -/
def nineWorld : World := worldWith { Settings.standard "/tmp" with timeout := 9 }.fileText

/-- A command that fails and one that succeeds. -/
def twoCommands : List (List String × Ending) :=
  [(["config", "set", "tool_timeout_secs", "0"], .failure (World.settingComplaint .noTimeout)),
    (["config", "set", "tool_timeout_secs", "+09"], .success ["Set tool_timeout_secs to: +09"])]

theorem runs_twoCommands :
    Runs fiveWorld.environment fiveWorld.tree twoCommands nineWorld.tree := by
  have hrefused : fiveWorld.run ["config", "set", "tool_timeout_secs", "0"] =
      (fiveWorld.tree, .failure (World.settingComplaint .noTimeout)) := by rfl
  have hset : fiveWorld.run ["config", "set", "tool_timeout_secs", "+09"] =
      (nineWorld.tree, .success ["Set tool_timeout_secs to: +09"]) := by rfl
  exact .snoc (.snoc .nil ⟨fiveWorld, rfl, rfl, rfl, aboutSettings_config _, hrefused⟩)
    ⟨fiveWorld, rfl, rfl, rfl, aboutSettings_config _, hset⟩

/-- The number that is shown in the end is the one that could be set, in its plain form. -/
theorem settings_remembered_twoCommands :
    (∃ s, Settings.load nineWorld.environment nineWorld.tree = .ok s ∧ s.Usable) ∧
      (nineWorld.run ["config", "get", "tool_timeout_secs"]).2 = .success ["9"] := by
  have hnames : Settings.NamesFile fiveWorld.environment "conf/impact.json" :=
    ⟨by rfl, by decide, by decide⟩
  have hfill : fiveWorld.tree.Fillable "conf/impact.json" :=
    ⟨_, rfl, fun _ => ⟨_, rfl⟩⟩
  have horder : InOrder fiveWorld.environment "conf/impact.json" fiveWorld.tree :=
    .inr ⟨{ Settings.standard "/tmp" with timeout := 5 }, by rfl, by decide, by decide, by decide,
      by decide⟩
  have hget : Step fiveWorld.environment nineWorld.tree ["config", "get", "tool_timeout_secs"]
      (nineWorld.run ["config", "get", "tool_timeout_secs"]).2
      (nineWorld.run ["config", "get", "tool_timeout_secs"]).1 :=
    ⟨nineWorld, rfl, rfl, rfl, aboutSettings_config _, (Prod.eta _).symm⟩
  obtain ⟨hlater, -⟩ := settings_remembered hnames hfill .nil
  obtain ⟨s, hload, husable⟩ :=
    (hlater _ _ runs_twoCommands horder).resolve_left (by decide +kernel)
  obtain ⟨-, hstep⟩ := settings_remembered hnames hfill runs_twoCommands
  obtain ⟨-, -, hshows⟩ := hstep _ _ _ hget
  exact ⟨⟨s, hload, husable⟩, hshows .timeout s rfl hload⟩

end Ripple.CommandLine
