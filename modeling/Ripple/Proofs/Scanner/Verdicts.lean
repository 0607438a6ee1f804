import Ripple.Proofs.Scanner.Cppcheck

/-!
# Verdicts account for what was run

One run decides what a scanner answers: the only run of the defect checker and of the linter, the
checking run of the format checker. The file passes when that run ended with exit code zero and, of
the defect checker, named no blocking severity. A verdict that does not pass is never silent: it has
a finding or says something (`Scanner.scan_isAnswer`).
-/

namespace Ripple

open Text

/-! ## Texts that say something -/

/-- The text has a character that is not blank. -/
def SaysSomething (text : String) : Prop := ∃ c ∈ text.toList, isBlank c = false

instance (text : String) : Decidable (SaysSomething text) :=
  decidable_of_iff (text.toList.any (!isBlank ·)) (by simp [SaysSomething])

theorem exists_of_not_isAllBlank {text : List Char} (h : ¬ isAllBlank text = true) :
    ∃ c ∈ text, isBlank c = false := by
  unfold isAllBlank at h
  rw [Bool.not_eq_true, List.all_eq_false] at h
  obtain ⟨c, hc, hblank⟩ := h
  exact ⟨c, hc, Bool.eq_false_iff.mpr hblank⟩

theorem SaysSomething.append_left {a : String} (h : SaysSomething a) (b : String) :
    SaysSomething (a ++ b) := by
  obtain ⟨c, hc, hblank⟩ := h
  refine ⟨c, ?_, hblank⟩
  rw [String.toList_append]
  exact List.mem_append_left _ hc

theorem RunFailure.saysSomething_report (program : String) (limit : Nat) (failure : RunFailure) :
    SaysSomething (failure.report program limit) := by
  cases failure with
  | notStarted reason =>
    have hstart : SaysSomething "failed to start " := by decide
    exact ((hstart.append_left program).append_left ": ").append_left reason.message
  | overran =>
    have hmarker : SaysSomething timeoutMarker := by decide
    exact (hmarker.append_left " ").append_left _

/-! ## Verdicts as answers -/

namespace Verdict

/-- The verdict is the tool's, passes exactly when it should, and explains itself otherwise. -/
structure IsAnswer (v : Verdict) (tool : String) (passes : Prop) : Prop where
  tool_eq : v.tool = tool
  success_iff : v.success = true ↔ passes
  explained : v.success = true ∨ v.findings ≠ [] ∨ SaysSomething v.output

theorem IsAnswer.congr {v : Verdict} {tool : String} {passes passes' : Prop}
    (h : v.IsAnswer tool passes) (hiff : passes ↔ passes') : v.IsAnswer tool passes' :=
  ⟨h.tool_eq, h.success_iff.trans hiff, h.explained⟩

theorem isAnswer_failure (tool : String) {output : String} (h : SaysSomething output) :
    (failure tool output).IsAnswer tool False where
  tool_eq := rfl
  success_iff := by simp [failure]
  explained := .inr (.inr h)

end Verdict

/-! ## The defect checker -/

namespace Cppcheck

/-- A line that is no noise has a character that is not blank. -/
theorem exists_of_not_isNoise {line : List Char} (h : isNoise line = false) :
    ∃ c ∈ line, isBlank c = false := by
  unfold isNoise at h
  rw [Bool.or_eq_false_iff, Bool.or_eq_false_iff] at h
  exact exists_of_not_isAllBlank (by rw [h.1.1]; exact Bool.false_ne_true)

/-- **What is left of the output says something**, unless nothing is left. -/
theorem saysSomething_filterOutput {text : List Char} (h : filterOutput text ≠ []) :
    SaysSomething (String.ofList (filterOutput text)) := by
  unfold SaysSomething
  rw [String.toList_ofList]
  unfold filterOutput joinLines at h ⊢
  cases hkept : (lines text).filter fun line => !isNoise line with
  | nil => exact absurd (by rw [hkept]; rfl) h
  | cons line others =>
    have hline : line ∈ (lines text).filter fun line => !isNoise line := by
      rw [hkept]
      exact List.mem_cons_self
    obtain ⟨c, hc, hblank⟩ :=
      exists_of_not_isNoise (by simpa using (List.mem_filter.mp hline).2)
    refine ⟨c, ?_, hblank⟩
    cases others with
    | nil => simpa using hc
    | cons next others =>
      rw [List.intercalate_cons_cons, List.append_assoc]
      exact List.mem_append_left _ hc

/-- A run that ended badly and of whose output nothing is left is described. -/
theorem judge_output_of_nothing_left {run : Completion} (hrun : run.succeeded = false)
    (hleft : filterOutput run.combined.toList = []) :
    (judge run).output = "cppcheck failed with " ++ run.description := by
  have hblocks : blocks [] = false := by decide
  have hfindings : style.findings [] = [] := by decide
  unfold judge
  simp only [hleft, hrun, hblocks, hfindings]
  rfl

/-- A completed run passes when it ended with exit code zero and names no blocking severity. -/
theorem judge_isAnswer (run : Completion) :
    (judge run).IsAnswer tool
      (run.exit = some 0 ∧ blocks (filterOutput run.combined.toList) = false) where
  tool_eq := by
    unfold judge
    simp only []
    split <;> rfl
  success_iff := by
    rw [judge_success, Completion.succeeded, Bool.and_eq_true, Bool.not_eq_true', beq_iff_eq]
    exact and_comm
  explained := by
    by_cases hleft : filterOutput run.combined.toList = []
    · cases hrun : run.succeeded with
      | true => exact .inl (by rw [judge_success, hleft, hrun]; rfl)
      | false =>
        refine .inr (.inr ?_)
        rw [judge_output_of_nothing_left hrun hleft]
        exact SaysSomething.append_left (by decide) _
    · have houtput : (judge run).output = String.ofList (filterOutput run.combined.toList) := by
        unfold judge
        simp only [if_neg hleft]
        split <;> rfl
      refine .inr (.inr ?_)
      rw [houtput]
      exact saysSomething_filterOutput hleft

end Cppcheck

/-! ## The linter -/

namespace ClangTidy

theorem saysSomething_failureOutput (run : Completion) : SaysSomething (failureOutput run) := by
  unfold failureOutput
  split
  · next hout => exact exists_of_not_isAllBlank hout
  · split
    · next herr => exact exists_of_not_isAllBlank herr
    · exact SaysSomething.append_left (by decide) _

/-- A completed run passes when it ended with exit code zero. -/
theorem judge_isAnswer (run : Completion) : (judge run).IsAnswer tool (run.exit = some 0) where
  tool_eq := rfl
  success_iff := by
    show run.succeeded = true ↔ _
    rw [Completion.succeeded, beq_iff_eq]
  explained := by
    cases hrun : run.succeeded with
    | true => exact .inl hrun
    | false =>
      refine .inr (.inr ?_)
      unfold judge
      rw [hrun]
      exact saysSomething_failureOutput run

end ClangTidy

/-! ## The format checker -/

namespace ClangFormat

theorem saysSomething_errorHeading : SaysSomething errorHeading := by decide

theorem saysSomething_executionError (run : Completion) : SaysSomething (executionError run) := by
  unfold executionError
  exact (((saysSomething_errorHeading.append_left _).append_left _).append_left _).append_left _

/-- The checking run gives an answer when it ends with exit code zero or one, and the answer is
whether it is zero; otherwise there is a reason. -/
theorem compliance_spec {report : RunFailure → String} (message : RunFailure → String) (run : Run)
    (hreport : SaysSomething (report .overran)) :
    match compliance report message run with
    | .ok compliant => ∃ c, run = .ok c ∧ (compliant = true ↔ c.exit = some 0)
    | .error reason => SaysSomething reason ∧ ∀ c, run = .ok c → c.exit ≠ some 0 := by
  cases run with
  | ok c =>
    unfold compliance
    by_cases hzero : c.exit = some 0
    · simp [hzero]
    · by_cases hone : c.exit = some 1
      · simp [hone]
      · simp only [if_neg hzero, if_neg hone]
        refine ⟨saysSomething_executionError c, ?_⟩
        rintro c' ⟨⟩
        exact hzero
  | error failure =>
    cases failure with
    | overran => exact ⟨hreport, fun c h => nomatch h⟩
    | notStarted reason =>
      exact ⟨(saysSomething_errorHeading.append_left _).append_left _, fun c h => nomatch h⟩

theorem judge_isAnswer (request : ScanRequest) (compliant : Bool) (output : String) :
    (judge request compliant output).IsAnswer tool (compliant = true) where
  tool_eq := rfl
  success_iff := Iff.rfl
  explained := by
    cases compliant with
    | true => exact .inl rfl
    | false => exact .inr (.inl (List.cons_ne_nil _ _))

end ClangFormat

/-! ## All scanners -/

namespace Scanner

/-- What the program is called with in the run that decides. -/
def decidingArguments (s : Scanner) (request : ScanRequest) : List String :=
  match s.analyzer with
  | .cppcheck => Cppcheck.arguments request s.headers
  | .clangTidy => ClangTidy.arguments request s.headers
  | .clangFormat => ClangFormat.checkArguments request

/-- The deciding run ended with exit code zero and, of the defect checker, names no blocking
severity in what is left of its output. -/
def Passes (s : Scanner) (programs : Programs) (request : ScanRequest) : Prop :=
  ∃ run, s.command.run programs (s.decidingArguments request) = .ok run ∧ run.exit = some 0 ∧
    (s.analyzer = .cppcheck → ∀ severity ∈ Cppcheck.blockingSeverities,
      ¬(": " ++ severity ++ ":").toList <:+: Cppcheck.filterOutput run.combined.toList)

/-- **A scanner answers whatever its program does**: with its own name, with success exactly when
the deciding run passes, and with a finding or a text that says something when it does not. -/
theorem scan_isAnswer (s : Scanner) (programs : Programs) (request : ScanRequest) :
    (s.scan programs request).IsAnswer s.analyzer.name (s.Passes programs request) := by
  obtain ⟨analyzer, command, limit, headers⟩ := s
  cases analyzer with
  | cppcheck =>
    unfold Passes scan decidingArguments
    simp only []
    cases command.run programs (Cppcheck.arguments request headers) with
    | error failure =>
      exact (Verdict.isAnswer_failure _ (failure.saysSomething_report _ _)).congr (by simp)
    | ok run =>
      refine (Cppcheck.judge_isAnswer run).congr ?_
      rw [← Bool.not_eq_true, Cppcheck.blocks_iff]
      simp
  | clangTidy =>
    unfold Passes scan decidingArguments
    simp only []
    cases command.run programs (ClangTidy.arguments request headers) with
    | error failure =>
      exact (Verdict.isAnswer_failure _ (failure.saysSomething_report _ _)).congr (by simp)
    | ok run => exact (ClangTidy.judge_isAnswer run).congr (by simp)
  | clangFormat =>
    unfold Passes scan decidingArguments
    simp only []
    have hoverran : SaysSomething
        (Scanner.report ⟨.clangFormat, command, limit, headers⟩ .overran) :=
      RunFailure.saysSomething_report _ _ .overran
    have hspec := ClangFormat.compliance_spec
      (Scanner.message ⟨.clangFormat, command, limit, headers⟩)
      (command.run programs (ClangFormat.checkArguments request)) hoverran
    split
    · next reason hcompliance =>
      rw [hcompliance] at hspec
      refine (Verdict.isAnswer_failure _ hspec.1).congr ?_
      simpa using hspec.2
    · next compliant hcompliance =>
      rw [hcompliance] at hspec
      obtain ⟨run, hrun, hanswer⟩ := hspec
      refine (ClangFormat.judge_isAnswer request compliant _).congr ?_
      rw [hanswer, hrun]
      simp

end Scanner

end Ripple
