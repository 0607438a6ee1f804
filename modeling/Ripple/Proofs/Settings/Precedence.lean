import Ripple.Proofs.Settings.Parts
import Mathlib.Data.List.Nodup

/-!
# What the file and the variables make together

A variable that is set takes precedence over the file. If all of them are assigned and nothing is
checked on the way, their order does not matter (`foldlM_assignFrom_perm`). But the settings are
checked after each variable, and once they can be used nothing that leads to usable settings goes
wrong (`foldlM_takeOver_of_usable`). So what loading refuses beyond the settings that cannot be used
in the end is what the first variable leaves unusable (`load_merged`).
-/

namespace Ripple.Settings

open Text

/-- Gives a setting the value of its variable, if that is set, whether or not the settings can be
used then. -/
def assignFrom (environment : Environment) (s : Settings) (override : String × SettingKey) :
    Except SettingsFault Settings :=
  match environment[override.1]? with
  | none => .ok s
  | some text => s.assign override.2 text

/-- Every variable that is set has a value for its setting. -/
def Readable (environment : Environment) (overrides : List (String × SettingKey)) : Prop :=
  ∀ override ∈ overrides, ∀ text, environment[override.1]? = some text →
    ∃ v, override.2.entered text = .ok v

/-- No variable is set for the setting. -/
def Unset (environment : Environment) (overrides : List (String × SettingKey))
    (key : SettingKey) : Prop :=
  ∀ name, (name, key) ∈ overrides → environment[name]? = none

variable {environment : Environment} {override : String × SettingKey} {name text : String}
  {key : SettingKey} {s s' merged : Settings}

/-! ## One variable -/

theorem entered_of_assignFrom (h : s.assignFrom environment override = .ok s')
    (hset : environment[override.1]? = some text) :
    override.2.entered text = .ok (s'.part override.2) := by
  rw [assignFrom, hset] at h
  exact entered_of_assign h

theorem part_of_assignFrom (h : s.assignFrom environment override = .ok s')
    (hkey : key = override.2 → environment[override.1]? = none) : s'.part key = s.part key := by
  unfold assignFrom at h
  split at h
  · obtain rfl := Except.ok.inj h
    rfl
  · next text hset =>
    refine part_of_assign h fun heq => ?_
    rw [hkey heq] at hset
    cases hset

/-- Taking over is assigning with a check, which is made only if the variable is set. -/
theorem takeOver_eq_ok_iff : s.takeOver environment override = .ok s' ↔
    s.assignFrom environment override = .ok s' ∧
      (environment[override.1]? ≠ none → s'.Usable) := by
  unfold takeOver assignFrom
  cases environment[override.1]? <;> simp [setKey_eq_ok_iff]

section Many

variable {overrides order : List (String × SettingKey)}

/-! ## All variables -/

theorem part_of_foldlM_assignFrom (h : overrides.foldlM (assignFrom environment) s = .ok s')
    (hunset : Unset environment overrides key) : s'.part key = s.part key := by
  induction overrides generalizing s with
  | nil =>
    obtain rfl : s = s' := Except.ok.inj h
    rfl
  | cons override rest ih =>
    obtain ⟨s₁, hfirst, hrest⟩ := foldlM_cons_eq_ok_iff.mp h
    have hkey : key = override.2 → environment[override.1]? = none := by
      rintro rfl
      exact hunset _ List.mem_cons_self
    rw [ih hrest fun name hmem => hunset name (List.mem_cons_of_mem _ hmem),
      part_of_assignFrom hfirst hkey]

theorem entered_of_foldlM_assignFrom (hnodup : (overrides.map (·.2)).Nodup)
    (h : overrides.foldlM (assignFrom environment) s = .ok s') (hmem : (name, key) ∈ overrides)
    (hset : environment[name]? = some text) : key.entered text = .ok (s'.part key) := by
  induction overrides generalizing s with
  | nil => cases hmem
  | cons override rest ih =>
    obtain ⟨s₁, hfirst, hrest⟩ := foldlM_cons_eq_ok_iff.mp h
    obtain ⟨hnot, hnodup⟩ := List.nodup_cons.mp hnodup
    rcases List.mem_cons.mp hmem with rfl | hmem
    · -- no later variable is for the same setting
      have hunset : Unset environment rest key := fun _ hmem =>
        absurd (List.mem_map_of_mem hmem) hnot
      rw [part_of_foldlM_assignFrom hrest hunset, entered_of_assignFrom hfirst hset]
    · exact ih hnodup hrest hmem

theorem Readable.exists_assignFrom (h : Readable environment overrides)
    (hmem : override ∈ overrides) (s : Settings) :
    ∃ s', s.assignFrom environment override = .ok s' := by
  unfold assignFrom
  cases hset : environment[override.1]? with
  | none => exact ⟨s, rfl⟩
  | some text =>
    obtain ⟨v, hv⟩ := h override hmem text hset
    exact ⟨_, assign_eq_ok_iff.mpr ⟨v, hv, rfl⟩⟩

theorem Readable.exists_foldlM (h : Readable environment overrides) (s : Settings) :
    ∃ s', overrides.foldlM (assignFrom environment) s = .ok s' := by
  induction overrides generalizing s with
  | nil => exact ⟨s, rfl⟩
  | cons override rest ih =>
    obtain ⟨s₁, hfirst⟩ := h.exists_assignFrom List.mem_cons_self s
    obtain ⟨s', hrest⟩ := ih (List.forall_mem_cons.mp h).2 s₁
    exact ⟨s', foldlM_cons_eq_ok_iff.mpr ⟨s₁, hfirst, hrest⟩⟩

theorem readable_of_foldlM (hnodup : (overrides.map (·.2)).Nodup)
    (h : overrides.foldlM (assignFrom environment) s = .ok s') : Readable environment overrides :=
  fun _ hmem _ hset => ⟨_, entered_of_foldlM_assignFrom hnodup h hmem hset⟩

/-- The order in which variables are assigned does not matter. -/
theorem foldlM_assignFrom_perm (hnodup : (overrides.map (·.2)).Nodup)
    (hreadable : Readable environment overrides)
    (h : overrides.foldlM (assignFrom environment) s = .ok merged)
    (hperm : order.Perm overrides) :
    order.foldlM (assignFrom environment) s = .ok merged := by
  have hreadable' : Readable environment order := fun override hmem =>
    hreadable override (hperm.mem_iff.mp hmem)
  have hnodup' : (order.map (·.2)).Nodup := (hperm.map _).nodup_iff.mpr hnodup
  obtain ⟨s', h'⟩ := hreadable'.exists_foldlM s
  suffices heq : s' = merged by rw [h', heq]
  refine eq_of_part fun key => ?_
  by_cases hunset : Unset environment overrides key
  · have hunset' : Unset environment order key := fun name hmem =>
      hunset name (hperm.mem_iff.mp hmem)
    rw [part_of_foldlM_assignFrom h' hunset', part_of_foldlM_assignFrom h hunset]
  · obtain ⟨name, hmem, hset⟩ : ∃ name, (name, key) ∈ overrides ∧ environment[name]? ≠ none := by
      simpa [Unset] using hunset
    obtain ⟨text, hset⟩ := Option.ne_none_iff_exists'.mp hset
    have hvalue := entered_of_foldlM_assignFrom hnodup h hmem hset
    have hvalue' := entered_of_foldlM_assignFrom hnodup' h' (hperm.mem_iff.mpr hmem) hset
    exact Except.ok.inj (hvalue'.symm.trans hvalue)

/-! ## Checks on the way -/

theorem foldlM_assignFrom_of_takeOver (h : overrides.foldlM (takeOver environment) s = .ok s') :
    overrides.foldlM (assignFrom environment) s = .ok s' := by
  induction overrides generalizing s with
  | nil => exact h
  | cons override rest ih =>
    obtain ⟨s₁, hfirst, hrest⟩ := foldlM_cons_eq_ok_iff.mp h
    exact foldlM_cons_eq_ok_iff.mpr ⟨s₁, (takeOver_eq_ok_iff.mp hfirst).1, ih hrest⟩

/-- What the first variable leads to has the value for its setting from what all lead to, and the
other values from before. -/
theorem part_of_first {rest : List (String × SettingKey)}
    (hnodup : ((override :: rest).map (·.2)).Nodup)
    (hfirst : s.assignFrom environment override = .ok s')
    (hrest : rest.foldlM (assignFrom environment) s' = .ok merged) (key : SettingKey) :
    s'.part key = if key = override.2 then merged.part key else s.part key := by
  split
  · next heq =>
    obtain rfl := heq
    have hunset : Unset environment rest override.2 := fun _ hmem =>
      absurd (List.mem_map_of_mem hmem) (List.nodup_cons.mp hnodup).1
    exact (part_of_foldlM_assignFrom hrest hunset).symm
  · next hne => exact part_of_assignFrom hfirst fun heq => absurd heq hne

/-- From usable settings to usable settings no check on the way fails. -/
theorem foldlM_takeOver_of_usable (hnodup : (overrides.map (·.2)).Nodup) (husable : s.Usable)
    (h : overrides.foldlM (assignFrom environment) s = .ok merged) (hmerged : merged.Usable) :
    overrides.foldlM (takeOver environment) s = .ok merged := by
  induction overrides generalizing s with
  | nil => exact h
  | cons override rest ih =>
    obtain ⟨s₁, hfirst, hrest⟩ := foldlM_cons_eq_ok_iff.mp h
    have husable₁ : s₁.Usable := by
      refine .of_part fun key => ?_
      have hpart := part_of_first hnodup hfirst hrest key
      split at hpart
      · exact ⟨merged, hmerged, hpart⟩
      · exact ⟨s, husable, hpart⟩
    have htake : s.takeOver environment override = .ok s₁ :=
      takeOver_eq_ok_iff.mpr ⟨hfirst, fun _ => husable₁⟩
    exact foldlM_cons_eq_ok_iff.mpr
      ⟨s₁, htake, ih (List.nodup_cons.mp hnodup).2 husable₁ hrest⟩

/-- Whether what is checked after the first variable that is set can be used decides whether the
checks fail, if the settings can be used in the end. -/
theorem foldlM_takeOver_eq_ok_iff (hnodup : (overrides.map (·.2)).Nodup)
    (h : overrides.foldlM (assignFrom environment) s = .ok merged) (hmerged : merged.Usable) :
    overrides.foldlM (takeOver environment) s = .ok merged ↔
      ∀ override, overrides.find? (environment[·.1]?.isSome) = some override →
        ∀ s₁, s.assignFrom environment override = .ok s₁ → s₁.Usable := by
  induction overrides with
  | nil => simpa using h
  | cons override rest ih =>
    obtain ⟨s₁, hfirst, hrest⟩ := foldlM_cons_eq_ok_iff.mp h
    obtain ⟨-, hnodup'⟩ := List.nodup_cons.mp hnodup
    rw [List.find?_cons, foldlM_cons_eq_ok_iff]
    cases hset : environment[override.1]? with
    | none =>
      have hsame : s₁ = s := by
        rw [assignFrom, hset] at hfirst
        exact (Except.ok.inj hfirst).symm
      have htake : s.takeOver environment override = .ok s := by rw [takeOver, hset]
      rw [hsame] at hrest
      simpa [htake] using ih hnodup' hrest
    | some text =>
      have hsome := Option.ne_none_iff_exists'.mpr ⟨text, hset⟩
      constructor
      · rintro ⟨s₂, htake, -⟩ first hfind s₃ hassign
        obtain rfl : override = first := Option.some.inj hfind
        obtain ⟨hassign', husable⟩ := takeOver_eq_ok_iff.mp htake
        obtain rfl := Except.ok.inj (hassign.symm.trans hassign')
        exact husable hsome
      · intro husable
        have husable₁ := husable override rfl s₁ hfirst
        exact ⟨s₁, takeOver_eq_ok_iff.mpr ⟨hfirst, fun _ => husable₁⟩,
          foldlM_takeOver_of_usable hnodup' husable₁ hrest hmerged⟩

theorem split_of_find? (hfind : overrides.find? (environment[·.1]?.isSome) = some override) :
    ∃ before after text, overrides = before ++ override :: after ∧
      (∀ unset ∈ before, environment[unset.1]? = none) ∧ environment[override.1]? = some text := by
  obtain ⟨hset, before, after, rfl, hbefore⟩ := List.find?_eq_some_iff_append.mp hfind
  obtain ⟨text, htext⟩ := Option.isSome_iff_exists.mp hset
  refine ⟨before, after, text, rfl, ?_, htext⟩
  simpa only [Option.not_isSome, Option.isNone_iff_eq_none] using hbefore

theorem part_of_find? (hnodup : (overrides.map (·.2)).Nodup)
    (h : overrides.foldlM (assignFrom environment) s = .ok merged)
    (hfind : overrides.find? (environment[·.1]?.isSome) = some override)
    (hfirst : s.assignFrom environment override = .ok s') (key : SettingKey) :
    s'.part key = if key = override.2 then merged.part key else s.part key := by
  obtain ⟨before, after, -, rfl, hbefore, -⟩ := split_of_find? hfind
  have hnothing : before.foldlM (assignFrom environment) s = .ok s :=
    foldlM_eq_self fun unset hmem => by rw [assignFrom, hbefore unset hmem]
  rw [List.foldlM_append, hnothing] at h
  obtain ⟨s₁, hfirst', hrest⟩ := foldlM_cons_eq_ok_iff.mp h
  obtain rfl := Except.ok.inj (hfirst.symm.trans hfirst')
  rw [List.map_append] at hnodup
  exact part_of_first (List.nodup_append.mp hnodup).2.1 hfirst hrest key

end Many

/-! ## Loading -/

/-- The variable that is taken over first. -/
def firstSet? (environment : Environment) : Option (String × SettingKey) :=
  overrides.find? (environment[·.1]?.isSome)

theorem nodup_overrides : (overrides.map (·.2)).Nodup := by decide

/-- No file may be inspected at once by what the file says, and the variable that is taken over first
does not change this. -/
def Blocked (environment : Environment) (s : Settings) : Prop :=
  s.concurrentFiles = 0 ∧
    ∃ override, firstSet? environment = some override ∧ override.2 ≠ .concurrentFiles

/-- The check after the first variable, when what all variables lead to can be used. -/
theorem checked_of_firstSet? (h : overrides.foldlM (assignFrom environment) s = .ok merged)
    (hmerged : merged.Usable) (hfind : firstSet? environment = some override)
    (hfirst : s.assignFrom environment override = .ok s') :
    s'.checked = if s.concurrentFiles = 0 ∧ override.2 ≠ .concurrentFiles then .error .noFiles
      else .ok s' := by
  have hpart := part_of_find? nodup_overrides h hfind hfirst
  have hunset (key : SettingKey) (hunset : key ≠ override.2 → Unset environment overrides key) :
      s'.part key = merged.part key := by
    rw [hpart]
    split
    · rfl
    · next hne => rw [part_of_foldlM_assignFrom h (hunset hne)]
  have htimeout : s'.timeout = merged.timeout := by
    -- no other variable comes before the one for the time limit
    refine hunset .timeout fun hne name hmem => ?_
    obtain rfl : name = "IMPACT_TOOL_TIMEOUT_SECS" := by simpa [overrides] using hmem
    cases hset : environment["IMPACT_TOOL_TIMEOUT_SECS"]? with
    | none => rfl
    | some text =>
      rw [firstSet?, overrides, List.find?_cons, hset] at hfind
      exact absurd (congrArg Prod.snd (Option.some.inj hfind)) hne
  have hanalyzers : s'.analyzers = merged.analyzers := by
    refine hunset .analyzers fun _ name hmem => ?_
    simp [overrides] at hmem
  have hfiles : s'.concurrentFiles =
      if .concurrentFiles = override.2 then merged.concurrentFiles else s.concurrentFiles :=
    hpart .concurrentFiles
  split
  · next hblocked =>
    obtain ⟨hzero, hother⟩ := hblocked
    rw [if_neg hother.symm] at hfiles
    have hlimit : s'.timeout ≠ 0 := htimeout ▸ one_le_toNat_iff.mp hmerged.timeout
    rw [checked, fault?, if_neg hlimit, if_pos (hfiles.trans hzero)]
  · next hfree =>
    have hsome : s'.concurrentFiles ≠ 0 := by
      split at hfiles
      · exact hfiles ▸ one_le_toNat_iff.mp hmerged.concurrentFiles
      · next hother => exact hfiles ▸ fun hzero => hfree ⟨hzero, Ne.symm hother⟩
    exact checked_eq_ok_iff.mpr ⟨rfl, htimeout ▸ hmerged.timeout, one_le_toNat_iff.mpr hsome,
      hanalyzers ▸ hmerged.cppcheck, hanalyzers ▸ hmerged.clangTidy⟩

/-- The check after the first variable ends the taking over. -/
theorem Blocked.override_eq (h : overrides.foldlM (assignFrom environment) s = .ok merged)
    (hreadable : Readable environment overrides) (hmerged : merged.Usable)
    (hblocked : Blocked environment s) : s.override environment = (s, .error .noFiles) := by
  obtain ⟨hzero, override, hfind, hother⟩ := hblocked
  obtain ⟨before, after, text, hsplit, hbefore, hset⟩ := split_of_find? hfind
  obtain ⟨s₁, hfirst⟩ := hreadable.exists_assignFrom (List.mem_of_find?_eq_some hfind) s
  have hchecked := checked_of_firstSet? h hmerged hfind hfirst
  rw [if_pos ⟨hzero, hother⟩] at hchecked
  refine overrideFrom_eq_error_iff.mpr ⟨before, override, after, hsplit, ?_, ?_⟩
  · exact foldlM_eq_self fun unset hmem => by rw [takeOver, hbefore unset hmem]
  · rw [assignFrom, hset] at hfirst
    rw [takeOver, hset]
    simp only [setKey, hfirst, hchecked]

/-- **What the file and the variables make of the settings together.** If all variables that are
set have values, the settings that they lead to are the same in every order. What is loaded are
these settings if they can be used, and nothing if they cannot, but for one case: If no file may be
inspected at once by what the file says, and another variable is taken over before the one that
changes this, nothing is loaded, because the settings are checked in between. -/
theorem load_merged {t : FileTree} (hstored : stored environment t = .ok s)
    (hreadable : Readable environment overrides) :
    ∃ merged : Settings,
      (∀ order : List (String × SettingKey), order.Perm overrides →
        order.foldlM (assignFrom environment) s = .ok merged) ∧
      (¬merged.Usable → ∃ fault, load environment t = .error (.settings fault)) ∧
      (merged.Usable → Blocked environment s →
        load environment t = .error (.settings .noFiles)) ∧
      (merged.Usable → ¬Blocked environment s → load environment t = .ok merged) := by
  obtain ⟨merged, hall⟩ := hreadable.exists_foldlM s
  refine ⟨merged, fun order => foldlM_assignFrom_perm nodup_overrides hreadable hall, ?_, ?_, ?_⟩
  · intro hmerged
    obtain ⟨fault, hfault⟩ := Option.ne_none_iff_exists'.mp (mt fault?_eq_none_iff.mp hmerged)
    simp only [load, hstored]
    rcases hover : s.override environment with ⟨s', fault' | _⟩
    · exact ⟨fault', rfl⟩
    · have hall' := foldlM_assignFrom_of_takeOver (overrideFrom_eq_ok_iff.mp hover)
      obtain rfl := Except.ok.inj (hall'.symm.trans hall)
      exact ⟨fault, by simp only [usable, checked, hfault, Except.mapError]⟩
  · intro hmerged hblocked
    simp only [load, hstored, hblocked.override_eq hall hreadable hmerged]
  · intro hmerged hfree
    have htake : overrides.foldlM (takeOver environment) s = .ok merged := by
      refine (foldlM_takeOver_eq_ok_iff nodup_overrides hall hmerged).mpr ?_
      intro override hfind s₁ hfirst
      have hchecked := checked_of_firstSet? hall hmerged hfind hfirst
      rw [if_neg fun h => hfree ⟨h.1, override, hfind, h.2⟩] at hchecked
      exact (checked_eq_ok_iff.mp hchecked).2
    exact load_eq_ok_iff.mpr ⟨s, hstored, overrideFrom_eq_ok_iff.mpr htake, hmerged⟩

/-- What is loaded comes from the file and the variables. -/
theorem assigned_of_load {t : FileTree} (h : load environment t = .ok s') :
    ∃ s, stored environment t = .ok s ∧
      overrides.foldlM (assignFrom environment) s = .ok s' := by
  obtain ⟨s, hstored, hover, -⟩ := load_eq_ok_iff.mp h
  exact ⟨s, hstored, foldlM_assignFrom_of_takeOver (overrideFrom_eq_ok_iff.mp hover)⟩

/-- A file that lets no file be inspected at once. -/
def zeroFilesTree : FileTree where
  entries := Std.ExtTreeMap.ofList
    [([bytesOf "c.json"], Entry.file (bytesOf "\x7b\"max_concurrent_files\": 0\x7d"))]
  workingDirectory := []

/-- The settings in the file. -/
def zeroFiles : Settings := { standard "/tmp" with concurrentFiles := 0 }

/-- An environment whose first variable repairs the file. -/
def repairingFirst : Environment :=
  NameTable.ofList [("IMPACT_CONFIG", "c.json"), ("IMPACT_MAX_CONCURRENT_FILES", "+2"),
    ("IMPACT_CPPCHECK", "/x")]

/-- An environment whose second variable repairs the file. -/
def repairingSecond : Environment :=
  NameTable.ofList [("IMPACT_CONFIG", "c.json"), ("IMPACT_ARTIFACT_DIR", "/x"),
    ("IMPACT_MAX_CONCURRENT_FILES", "2")]

/-- What is repaired at once is loaded. -/
theorem load_merged_repairingFirst :
    stored repairingFirst zeroFilesTree = .ok zeroFiles ∧ Readable repairingFirst overrides ∧
      load repairingFirst zeroFilesTree =
        .ok { zeroFiles with concurrentFiles := 2, cppcheck := .ofProgram "/x" } := by
  have hstored : stored repairingFirst zeroFilesTree = .ok zeroFiles := by rfl
  have hall : overrides.foldlM (assignFrom repairingFirst) zeroFiles =
      .ok { zeroFiles with concurrentFiles := 2, cppcheck := .ofProgram "/x" } := by rfl
  have hreadable := readable_of_foldlM nodup_overrides hall
  obtain ⟨merged, horder, -, -, hload⟩ := load_merged hstored hreadable
  obtain rfl := Except.ok.inj (hall.symm.trans (horder overrides (.refl _)))
  refine ⟨hstored, hreadable, ?_⟩
  refine hload ⟨by decide, by decide, by decide, by decide⟩ fun hblocked => ?_
  obtain ⟨-, override, hfind, hother⟩ := hblocked
  obtain rfl : ("IMPACT_MAX_CONCURRENT_FILES", .concurrentFiles) = override :=
    Option.some.inj hfind
  exact hother rfl

/-- **What the variables lead to can be used, and nothing is loaded.** The settings are checked
before the variable that repairs the file has been taken over. In another order they would be
loaded. -/
theorem load_refuses_repairingSecond :
    ∃ merged : Settings, stored repairingSecond zeroFilesTree = .ok zeroFiles ∧
      Readable repairingSecond overrides ∧
      overrides.foldlM (assignFrom repairingSecond) zeroFiles = .ok merged ∧ merged.Usable ∧
      load repairingSecond zeroFilesTree = .error (.settings .noFiles) ∧
      overrides.reverse.foldlM (takeOver repairingSecond) zeroFiles = .ok merged := by
  have hall : overrides.foldlM (assignFrom repairingSecond) zeroFiles =
      .ok { zeroFiles with concurrentFiles := 2, stagingDirectory := "/x" } := by rfl
  exact ⟨_, by rfl, readable_of_foldlM nodup_overrides hall, hall,
    ⟨by decide, by decide, by decide, by decide⟩, by rfl, by rfl⟩

end Ripple.Settings
