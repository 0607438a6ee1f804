import Ripple.Proofs.Exchange.Settings
import Ripple.Proofs.Settings.Canonical
import Ripple.Proofs.Settings.Lifecycle
import Ripple.Proofs.Settings.Precedence

/-!
# Which analyzers are listed

Whatever has been done to the settings, the analyzers in them are those that were listed last
(`analyzers_after`): by a text that was read, by a file that was loaded, or by setting the key for
them. Setting the key leaves out repeats. A text and a file are taken as they are, so they alone can
list an analyzer more than once (`isReading_of_repeats`).
-/

namespace Ripple.Settings

/-- The list has the analyzers that no report goes without. -/
def hasRequired (list : List Analyzer) : Bool := required.all (· ∈ list)

/-- The analyzers that a call lists anew, if it does that and does not fail. -/
def Call.listed? : Call → Option (List Analyzer)
  | read environment text =>
    (Settings.read (standardIn environment) text).toOption.map (·.analyzers)
  | set name text =>
    if SettingKey.ofName? name = some .analyzers then
      (analyzerList text).toOption.filter hasRequired
    else none
  | takeOver _ => none
  | load environment tree => (Settings.load environment tree).toOption.map (·.analyzers)

/-- The analyzers that are listed last, or all of them if no call lists any. -/
def listedLast (calls : List Call) : List Analyzer :=
  ((calls.filterMap Call.listed?).getLast?).getD Analyzer.all

/-- The call takes settings from a text or a file, as they are there. -/
inductive Call.IsReading : Call → Prop
  | read {environment : Environment} {text : String} : IsReading (.read environment text)
  | load {environment : Environment} {tree : FileTree} : IsReading (.load environment tree)

variable {s s' : Settings} {environment : Environment} {call : Call} {calls : List Call}
  {name text : String} {list : List Analyzer}

/-! ## One call -/

/-- No variable lists analyzers. -/
theorem unset_analyzers {overrides : List (String × SettingKey)}
    (h : ∀ override ∈ overrides, override ∈ Settings.overrides) :
    Unset environment overrides .analyzers := by
  intro name hmem
  have hnone := h _ hmem
  simp [Settings.overrides] at hnone

theorem analyzers_override (s : Settings) (environment : Environment) :
    (s.override environment).1.analyzers = s.analyzers := by
  have hkept {overrides : List (String × SettingKey)} {s' : Settings}
      (hsome : ∀ override ∈ overrides, override ∈ Settings.overrides)
      (htake : overrides.foldlM (takeOver environment) s = .ok s') :
      s'.analyzers = s.analyzers :=
    part_of_foldlM_assignFrom (foldlM_assignFrom_of_takeOver htake) (unset_analyzers hsome)
  rcases hover : s.override environment with ⟨s', fault | _⟩
  · obtain ⟨before, override, after, hsplit, hbefore, -⟩ := overrideFrom_eq_error_iff.mp hover
    exact hkept (fun _ hmem => hsplit ▸ List.mem_append_left _ hmem) hbefore
  · exact hkept (fun _ hmem => hmem) (overrideFrom_eq_ok_iff.mp hover)

theorem hasRequired_iff :
    hasRequired list = true ↔ .cppcheck ∈ list ∧ .clangTidy ∈ list := by
  simp [hasRequired, required]

/-- Settings that can be used take any list with the analyzers that no report goes without. -/
theorem setKey_analyzers (h : s.Usable) :
    s.setKey .analyzers text = .ok s' ↔
      ∃ list, analyzerList text = .ok list ∧ hasRequired list = true ∧
        s' = { s with analyzers := list } := by
  rw [setKey_eq_ok_iff]
  constructor
  · rintro ⟨hassign, husable⟩
    obtain ⟨list, hlist, rfl⟩ := map_eq_ok_iff.mp hassign
    exact ⟨list, hlist, hasRequired_iff.mpr ⟨husable.cppcheck, husable.clangTidy⟩, rfl⟩
  · rintro ⟨list, hlist, hrequired, rfl⟩
    obtain ⟨hcppcheck, htidy⟩ := hasRequired_iff.mp hrequired
    exact ⟨map_eq_ok_iff.mpr ⟨list, hlist, rfl⟩,
      ⟨h.timeout, h.concurrentFiles, hcppcheck, htidy⟩⟩

/-- A text that a key for analyzers does not take lists none. -/
theorem filter_analyzerList_eq_none (h : s.Usable) {fault : SettingsFault}
    (hset : s.setKey .analyzers text = .error fault) :
    (analyzerList text).toOption.filter hasRequired = none := by
  rw [Option.filter_eq_none_iff]
  intro list hlist hrequired
  have htaken := (setKey_analyzers h).mpr ⟨list, toOption_eq_some_iff.mp hlist, hrequired, rfl⟩
  rw [hset] at htaken
  cases htaken

/-- A call leaves the analyzers that it lists, or those that are there if it lists none. -/
theorem analyzers_run (h : s.Usable) (call : Call) :
    (call.run s).1.analyzers = call.listed?.getD s.analyzers := by
  cases call with
  | read environment text =>
    rw [Call.run, Call.listed?]
    cases Settings.read (standardIn environment) text <;> rfl
  | load environment tree =>
    rw [Call.run, Call.listed?]
    cases Settings.load environment tree <;> rfl
  | takeOver environment => exact analyzers_override s environment
  | set name text =>
    rw [Call.run, Call.listed?, Settings.set]
    cases SettingKey.ofName? name with
    | none => rfl
    | some key =>
      show (s.orKept ((s.setKey key text).mapError .settings)).1.analyzers = _
      by_cases hkey : key = .analyzers
      · subst hkey
        rw [if_pos rfl]
        cases hset : s.setKey .analyzers text with
        | ok s' =>
          obtain ⟨list, hlist, hrequired, rfl⟩ := (setKey_analyzers h).mp hset
          rw [toOption_eq_some_iff.mpr hlist, Option.filter_some_pos hrequired]
          rfl
        | error fault =>
          rw [filter_analyzerList_eq_none h hset]
          rfl
      · rw [if_neg fun heq => hkey (Option.some.inj heq)]
        cases hset : s.setKey key text with
        | ok s' => exact part_of_assign (setKey_eq_ok_iff.mp hset).1 fun heq => hkey heq.symm
        | error fault => rfl

/-! ## Many calls -/

/-- **The analyzers are those that were listed last.** -/
theorem analyzers_after (h : s.Usable) (calls : List Call) :
    (s.after calls).analyzers = ((calls.filterMap Call.listed?).getLast?).getD s.analyzers := by
  induction calls generalizing s with
  | nil => rfl
  | cons call rest ih =>
    have hrest := ih (h.run call)
    rw [analyzers_run h] at hrest
    show ((call.run s).1.after rest).analyzers = _
    rw [hrest, List.filterMap_cons]
    cases call.listed? with
    | none => rfl
    | some list => rw [Option.getD_some, List.getLast?_cons, Option.getD_some]

theorem analyzers_after_standard (environment : Environment) (calls : List Call) :
    ((standardIn environment).after calls).analyzers = listedLast calls :=
  analyzers_after (usable_standard _) calls

/-- Only what is taken as it is can list an analyzer more than once. -/
theorem isReading_of_repeats (hlisted : call.listed? = some list) (hrepeats : ¬list.Nodup) :
    call.IsReading := by
  cases call with
  | read => exact .read
  | load => exact .load
  | takeOver => cases hlisted
  | set name text =>
    rw [Call.listed?] at hlisted
    split at hlisted
    · obtain ⟨hread, -⟩ := Option.filter_eq_some_iff.mp hlisted
      obtain ⟨named, -, rfl⟩ := map_eq_ok_iff.mp (toOption_eq_some_iff.mp hread)
      exact absurd (nodup_distinct named) hrepeats
    · cases hlisted

/-- If an analyzer is listed more than once, a text or a file is where it was listed last. -/
theorem exists_isReading_of_repeats (hrepeats : ¬(listedLast calls).Nodup) :
    ∃ call ∈ calls, call.IsReading ∧ call.listed? = some (listedLast calls) := by
  unfold listedLast at hrepeats ⊢
  cases hlast : (calls.filterMap Call.listed?).getLast? with
  | none =>
    rw [hlast] at hrepeats
    exact absurd (by decide) hrepeats
  | some list =>
    rw [hlast] at hrepeats
    obtain ⟨call, hcall, hlisted⟩ := List.mem_filterMap.mp (List.mem_of_getLast? hlast)
    exact ⟨call, hcall, isReading_of_repeats hlisted hrepeats, hlisted⟩

/-- Whatever was listed before, some text lists the analyzers as they are to be listed. -/
theorem exists_listedLast_eq (environment : Environment) (calls : List Call)
    (hrequired : hasRequired list = true) :
    ∃ text, listedLast (calls ++ [.read environment text]) = list := by
  let s : Settings := { standardIn environment with analyzers := list }
  have husable : s.Usable := by
    obtain ⟨hcppcheck, htidy⟩ := hasRequired_iff.mp hrequired
    have hstandard := usable_standard environment.temporaryDirectory
    exact ⟨hstandard.timeout, hstandard.concurrentFiles, hcppcheck, htidy⟩
  have hread : Settings.read (standardIn environment) s.fileText = .ok s :=
    read_eq_ok_iff.mpr ⟨s.parse_fileText _, husable⟩
  have hlisted : Call.listed? (.read environment s.fileText) = some list := by
    rw [Call.listed?, hread]
    rfl
  refine ⟨s.fileText, ?_⟩
  rw [listedLast, List.filterMap_append, List.filterMap_cons_some hlisted, List.filterMap_nil,
    List.getLast?_concat, Option.getD_some]

end Ripple.Settings
