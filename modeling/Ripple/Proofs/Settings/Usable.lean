import Ripple.Proofs.MapM
import Ripple.Settings.Store

/-!
# Settings that can be used

`Usable` says what it takes, and every way to get settings that are checked gives usable ones: the
change of a key (`setKey_eq_ok_iff`), the reading of a text (`read_eq_ok_iff`) and the loading of
the file (`load_eq_ok_iff`). Variables of the environment are taken over one by one, so that a
failure leaves what was taken over before it (`overrideFrom_eq_error_iff`).
-/

namespace Ripple

/-- A key is found by its name. -/
theorem SettingKey.ofName?_eq_some_iff {name : String} {key : SettingKey} :
    ofName? name = some key ↔ name = key.name := by
  constructor
  · intro h
    obtain ⟨hname, -⟩ := List.find?_eq_some_iff_append.mp h
    exact (beq_iff_eq.mp hname).symm
  · rintro rfl
    match key with
    | timeout | stagingDirectory | concurrentFiles | analyzers | command .cppcheck
    | command .clangTidy | command .clangFormat => decide

namespace Settings

variable {s s' : Settings} {key : SettingKey} {text : String}

/-- Settings that analyzers can be run with. -/
structure Usable (s : Settings) : Prop where
  timeout : 1 ≤ s.timeout.toNat
  concurrentFiles : 1 ≤ s.concurrentFiles.toNat
  cppcheck : .cppcheck ∈ s.analyzers
  clangTidy : .clangTidy ∈ s.analyzers

theorem one_le_toNat_iff {n : UInt64} : 1 ≤ n.toNat ↔ n ≠ 0 := by
  rw [Nat.one_le_iff_ne_zero, ne_eq, ne_eq, ← UInt64.toNat_inj, UInt64.toNat_zero]

theorem fault?_eq_none_iff : s.fault? = none ↔ s.Usable := by
  have hfind : required.find? (· ∉ s.analyzers) = none ↔
      .cppcheck ∈ s.analyzers ∧ .clangTidy ∈ s.analyzers := by
    simp [required]
  unfold fault?
  constructor
  · intro h
    split at h
    · cases h
    next htimeout =>
    split at h
    · cases h
    next hfiles =>
    obtain ⟨hcppcheck, htidy⟩ := hfind.mp (Option.map_eq_none_iff.mp h)
    exact ⟨one_le_toNat_iff.mpr htimeout, one_le_toNat_iff.mpr hfiles, hcppcheck, htidy⟩
  · intro h
    rw [if_neg (one_le_toNat_iff.mp h.timeout), if_neg (one_le_toNat_iff.mp h.concurrentFiles),
      hfind.mpr ⟨h.cppcheck, h.clangTidy⟩, Option.map_none]

theorem checked_eq_ok_iff : s.checked = .ok s' ↔ s = s' ∧ s'.Usable := by
  have hok : s.checked = .ok s' ↔ s = s' ∧ s.Usable := by
    rw [← fault?_eq_none_iff, checked]
    cases s.fault? <;> simp
  rw [hok]
  exact and_congr_right fun heq => by rw [heq]

theorem usable_eq_ok_iff : s.usable = .ok s' ↔ s = s' ∧ s'.Usable := by
  rw [← checked_eq_ok_iff, usable]
  cases s.checked with
  | ok s =>
    show (.ok s : Except Failure Settings) = .ok s' ↔ _
    simp
  | error fault =>
    show (.error (.settings fault) : Except Failure Settings) = .ok s' ↔ _
    simp

theorem usable_standard (directory : String) : (standard directory).Usable :=
  ⟨by simp [standard], by simp [standard], by simp [standard, Analyzer.all],
    by simp [standard, Analyzer.all]⟩

/-! ## Changes -/

theorem setKey_eq_ok_iff : s.setKey key text = .ok s' ↔ s.assign key text = .ok s' ∧ s'.Usable := by
  unfold setKey
  cases s.assign key text <;> simp [checked_eq_ok_iff]

theorem set_eq_ok_iff {name : String} :
    s.set name text = .ok s' ↔ ∃ key, SettingKey.ofName? name = some key ∧
      s.setKey key text = .ok s' := by
  unfold set
  cases SettingKey.ofName? name <;> simp

theorem read_eq_ok_iff {standard : Settings} :
    read standard text = .ok s ↔ parse standard text = .ok s ∧ s.Usable := by
  unfold read
  cases parse standard text <;> simp [Except.bind, usable_eq_ok_iff]

/-! ## The environment -/

/-- Takes over the value of one variable, if it is set. -/
def takeOver (environment : Environment) (s : Settings) (override : String × SettingKey) :
    Except SettingsFault Settings :=
  match environment[override.1]? with
  | none => .ok s
  | some text => s.setKey override.2 text

variable {environment : Environment} {overrides : List (String × SettingKey)}

theorem overrideFrom_cons {override : String × SettingKey} :
    overrideFrom environment (override :: overrides) s =
      match s.takeOver environment override with
      | .ok changed => overrideFrom environment overrides changed
      | .error fault => (s, .error fault) := by
  rw [overrideFrom, takeOver]
  cases environment[override.1]? <;> rfl

theorem overrideFrom_eq_ok_iff :
    overrideFrom environment overrides s = (s', .ok ()) ↔
      overrides.foldlM (takeOver environment) s = .ok s' := by
  induction overrides generalizing s with
  | nil => simp [overrideFrom, pure, Except.pure]
  | cons override rest ih =>
    rw [overrideFrom_cons, List.foldlM_cons]
    cases s.takeOver environment override with
    | ok changed => exact ih
    | error fault => simp [bind, Except.bind]

/-- The variables before the one that fails are taken over, and those after it are not. -/
theorem overrideFrom_eq_error_iff {fault : SettingsFault} :
    overrideFrom environment overrides s = (s', .error fault) ↔
      ∃ before override after, overrides = before ++ override :: after ∧
        before.foldlM (takeOver environment) s = .ok s' ∧
        s'.takeOver environment override = .error fault := by
  induction overrides generalizing s with
  | nil => simp [overrideFrom]
  | cons override rest ih =>
    rw [overrideFrom_cons]
    constructor
    · intro h
      cases htake : s.takeOver environment override with
      | ok changed =>
        rw [htake] at h
        obtain ⟨before, failing, after, rfl, hbefore, hfails⟩ := ih.mp h
        exact ⟨override :: before, failing, after, rfl,
          foldlM_cons_eq_ok_iff.mpr ⟨changed, htake, hbefore⟩, hfails⟩
      | error other =>
        rw [htake] at h
        obtain ⟨rfl, hfault⟩ := Prod.mk.inj h
        exact ⟨[], override, rest, rfl, rfl, by rw [htake, Except.error.inj hfault]⟩
    · rintro ⟨before, failing, after, hsplit, hbefore, hfails⟩
      cases before with
      | nil =>
        obtain ⟨rfl, rfl⟩ := List.cons.inj hsplit
        obtain rfl : s = s' := Except.ok.inj hbefore
        rw [hfails]
      | cons first before =>
        obtain ⟨rfl, rfl⟩ := List.cons.inj hsplit
        obtain ⟨changed, htake, hbefore⟩ := foldlM_cons_eq_ok_iff.mp hbefore
        rw [htake]
        exact ih.mpr ⟨before, failing, after, rfl, hbefore, hfails⟩

theorem Usable.takeOver {override : String × SettingKey} (h : s.Usable)
    (htake : s.takeOver environment override = .ok s') : s'.Usable := by
  unfold Settings.takeOver at htake
  split at htake
  · obtain rfl := Except.ok.inj htake
    exact h
  · exact (setKey_eq_ok_iff.mp htake).2

theorem Usable.foldlM_takeOver (h : s.Usable)
    (hfold : overrides.foldlM (Settings.takeOver environment) s = .ok s') : s'.Usable := by
  induction overrides generalizing s with
  | nil =>
    obtain rfl : s = s' := Except.ok.inj hfold
    exact h
  | cons override rest ih =>
    obtain ⟨changed, htake, hrest⟩ := foldlM_cons_eq_ok_iff.mp hfold
    exact ih (h.takeOver htake) hrest

/-- Usable settings stay usable however far the variables are taken over. -/
theorem Usable.override (h : s.Usable) : (s.override environment).1.Usable := by
  rcases hover : s.override environment with ⟨s', fault | _⟩
  · obtain ⟨_, _, _, _, hbefore, -⟩ := overrideFrom_eq_error_iff.mp hover
    exact h.foldlM_takeOver hbefore
  · exact h.foldlM_takeOver (overrideFrom_eq_ok_iff.mp hover)

/-! ## The file -/

theorem load_eq_ok_iff {t : FileTree} :
    load environment t = .ok s ↔ ∃ stored, Settings.stored environment t = .ok stored ∧
      stored.override environment = (s, .ok ()) ∧ s.Usable := by
  unfold load
  cases Settings.stored environment t with
  | error failure => simp
  | ok stored =>
    simp only [Except.ok.injEq, exists_eq_left']
    rcases stored.override environment with ⟨s', fault | _⟩ <;> simp [usable_eq_ok_iff]

end Settings

end Ripple
