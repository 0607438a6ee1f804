import Ripple.Proofs.Settings.Usable

/-!
# The life of settings

Settings start as the standard ones. Whatever is done to them, in whatever order and with whatever
success, they can be used (`usable_after`). What fails leaves them as they are, except that the
variables of the environment before the one that fails have been taken over.
-/

namespace Ripple.Settings

/-! ## Calls -/

/-- What can be done to the settings that a process has. -/
inductive Call
  /-- Other settings are read from a text. -/
  | read (environment : Environment) (text : String)
  /-- The setting of the given name gets another value. -/
  | set (name text : String)
  /-- The variables of the environment are taken over. -/
  | takeOver (environment : Environment)
  /-- Other settings are loaded from their file. -/
  | load (environment : Environment) (tree : FileTree)

/-- The settings that a result brings; a failure brings none, and those that are there are kept. -/
def orKept (s : Settings) : Except Failure Settings → Settings × Except Failure Unit
  | .ok changed => (changed, .ok ())
  | .error failure => (s, .error failure)

/-- Does the call, with the settings as they are afterwards. -/
def Call.run (s : Settings) : Call → Settings × Except Failure Unit
  | read environment text => s.orKept (Settings.read (standardIn environment) text)
  | set name text => s.orKept ((s.set name text).mapError .settings)
  | takeOver environment =>
    let (s, result) := s.override environment
    (s, result.mapError .settings)
  | load environment tree => s.orKept (Settings.load environment tree)

/-- The settings after all the calls, those that fail among them. -/
def after (s : Settings) (calls : List Call) : Settings :=
  calls.foldl (fun s call => (call.run s).1) s

/-- The settings that a call may leave when it fails. -/
def Call.Leaves (s : Settings) (failure : Failure) (s' : Settings) : Call → Prop
  | takeOver environment =>
    ∃ before override after fault, overrides = before ++ override :: after ∧
      before.foldlM (Settings.takeOver environment) s = .ok s' ∧
      s'.takeOver environment override = .error fault ∧ failure = .settings fault
  | _ => s' = s

/-! ## One call and many -/

variable {s s' : Settings} {failure : Failure} {result : Except Failure Settings}

theorem orKept_eq_error (h : s.orKept result = (s', .error failure)) : s' = s := by
  unfold orKept at h
  split at h
  · cases h
  · exact (Prod.mk.inj h).1.symm

theorem Usable.orKept (h : s.Usable) (hresult : ∀ changed, result = .ok changed → changed.Usable) :
    (s.orKept result).1.Usable := by
  cases result with
  | ok changed => exact hresult changed rfl
  | error failure => exact h

/-- A call leaves usable settings behind, whether it fails or not. -/
theorem Usable.run (h : s.Usable) (call : Call) : (call.run s).1.Usable := by
  cases call with
  | read environment text => exact h.orKept fun _ hread => (read_eq_ok_iff.mp hread).2
  | set name text =>
    refine h.orKept fun changed hset => ?_
    cases hset' : s.set name text with
    | error fault =>
      rw [hset'] at hset
      cases hset
    | ok changed' =>
      rw [hset'] at hset
      obtain rfl := Except.ok.inj hset
      obtain ⟨key, -, hkey⟩ := set_eq_ok_iff.mp hset'
      exact (setKey_eq_ok_iff.mp hkey).2
  | takeOver environment => exact h.override
  | load environment tree =>
    refine h.orKept fun _ hload => ?_
    obtain ⟨_, -, -, husable⟩ := load_eq_ok_iff.mp hload
    exact husable

theorem Usable.after (h : s.Usable) (calls : List Call) : (s.after calls).Usable := by
  induction calls generalizing s with
  | nil => exact h
  | cons call rest ih => exact ih (h.run call)

theorem Call.leaves_of_run {call : Call} (h : call.run s = (s', .error failure)) :
    call.Leaves s failure s' := by
  cases call with
  | read | set | load => exact orKept_eq_error h
  | takeOver environment =>
    rcases hover : s.override environment with ⟨changed, fault | _⟩
    · rw [run, hover] at h
      obtain ⟨rfl, hfailure⟩ := Prod.mk.inj h
      obtain ⟨before, override, after, hsplit, hbefore, hfails⟩ :=
        overrideFrom_eq_error_iff.mp hover
      exact ⟨before, override, after, fault, hsplit, hbefore, hfails,
        (Except.error.inj hfailure).symm⟩
    · rw [run, hover] at h
      cases (Prod.mk.inj h).2

/-- **Settings can be used at any time.** After any calls, failures among them, the settings pass
their own check. A call that fails then leaves them as they are; if it takes over the variables of
an environment, it leaves the effect of those before the one that fails, and no other. -/
theorem usable_after (environment : Environment) (calls : List Call) :
    ((standardIn environment).after calls).Usable ∧
      ((standardIn environment).after calls).checked =
        .ok ((standardIn environment).after calls) ∧
      ∀ (call : Call) (s' : Settings) (failure : Failure),
        call.run ((standardIn environment).after calls) = (s', .error failure) →
          call.Leaves ((standardIn environment).after calls) failure s' := by
  have husable := (usable_standard environment.temporaryDirectory).after calls
  refine ⟨husable, checked_eq_ok_iff.mpr ⟨rfl, husable⟩, fun call s' failure hrun => ?_⟩
  exact Call.leaves_of_run hrun

/-- An environment whose second variable of three asks for something impossible. -/
def halfGoodEnvironment : Environment :=
  NameTable.ofList [("IMPACT_TOOL_TIMEOUT_SECS", "9"), ("IMPACT_MAX_CONCURRENT_FILES", "0"),
    ("IMPACT_CPPCHECK", "/opt/cppcheck")]

/-- Settings after two calls, of which the first has failed. -/
def calledTwice : Settings :=
  (standardIn ∅).after [.set "tools" "cppcheck", .set "tool_timeout_secs" "+05"]

/-- The first variable is taken over, the others are not. -/
theorem usable_after_calledTwice :
    calledTwice.Usable ∧ calledTwice.timeout = 5 ∧
      ∃ s', (Call.takeOver halfGoodEnvironment).run calledTwice =
          (s', .error (.settings .noFiles)) ∧
        (Call.takeOver halfGoodEnvironment).Leaves calledTwice (.settings .noFiles) s' ∧
        s'.timeout = 9 ∧ s'.cppcheck = calledTwice.cppcheck := by
  have hrun : (Call.takeOver halfGoodEnvironment).run calledTwice =
      ({ calledTwice with timeout := 9 }, .error (.settings .noFiles)) := by
    rfl
  obtain ⟨husable, -, hleaves⟩ :=
    usable_after ∅ [.set "tools" "cppcheck", .set "tool_timeout_secs" "+05"]
  exact ⟨husable, by decide +kernel, _, hrun, hleaves _ _ _ hrun, rfl, rfl⟩

end Ripple.Settings
