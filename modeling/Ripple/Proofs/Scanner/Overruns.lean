import Ripple.Proofs.Scanner.Verdicts

/-!
# Verdicts on runs that took too long

That a run was stopped for taking too long shows in a verdict only by the mark that its output
begins with, and only if the file does not pass. A run that took too long is told, unless it is the
format checker's second one after a first one that found the file formatted well: the second run
does not count for the verdict. And nothing else is told so, provided that a program does not begin
its own words with the mark.
-/

namespace Ripple

open Text

/-! ## The mark -/

/-- The text begins with the mark of a run that took too long. -/
def Marked (text : String) : Prop := timeoutMarker.toList <+: text.toList

instance (text : String) : Decidable (Marked text) := inferInstanceAs (Decidable (_ <+: _))

theorem Verdict.timedOut_iff {v : Verdict} :
    v.timedOut = true ↔ v.success = false ∧ Marked v.output := by
  unfold timedOut Marked
  rw [Bool.and_eq_true, Bool.not_eq_true', List.isPrefixOf_iff_prefix]

/-- The text is long enough to tell that it does not begin with the mark, whatever follows. -/
structure Unmarked (text : String) : Prop where
  length : timeoutMarker.toList.length ≤ text.toList.length
  not_marked : ¬Marked text

theorem Unmarked.append {text : String} (h : Unmarked text) (more : String) :
    Unmarked (text ++ more) where
  length := by
    rw [String.toList_append, List.length_append]
    exact Nat.le_add_right_of_le h.length
  not_marked := by
    intro hmarked
    unfold Marked at hmarked
    rw [String.toList_append] at hmarked
    exact h.not_marked
      (List.prefix_of_prefix_length_le hmarked (List.prefix_append _ _) h.length)

namespace RunFailure

theorem unmarked_message (program : String) (limit : Nat) (reason : Fault) :
    Unmarked ((notStarted reason).message program limit) := by
  have hstart : Unmarked "failed to start " := ⟨by decide, by decide⟩
  exact ((hstart.append program).append ": ").append reason.message

/-- Only a run that took too long is reported with the mark. -/
theorem marked_report_iff (program : String) (limit : Nat) (failure : RunFailure) :
    Marked (failure.report program limit) ↔ failure = .overran := by
  cases failure with
  | notStarted reason =>
    exact iff_of_false (unmarked_message program limit reason).not_marked nofun
  | overran =>
    refine iff_of_true ?_ rfl
    unfold report Marked
    rw [String.append_assoc, String.toList_append]
    exact List.prefix_append _ _

end RunFailure

/-! ## The words of a completed run -/

/-- The defect checker shows what is left of the output, or words of its own if nothing is. -/
theorem Cppcheck.judge_timedOut_iff (run : Completion) :
    (judge run).timedOut = true ↔ (judge run).success = false ∧
      Marked (String.ofList (filterOutput run.combined.toList)) := by
  rw [Verdict.timedOut_iff]
  refine and_congr_right fun _ => ?_
  unfold judge
  simp only []
  split
  · split
    · next hnil =>
      have hwords : Unmarked "cppcheck failed with " := ⟨by decide, by decide⟩
      rw [hnil]
      exact iff_of_false (hwords.append _).not_marked (by decide)
    · exact Iff.rfl
  · exact Iff.rfl

/-- The stream that the linter shows of a run that does not pass. -/
def ClangTidy.shownStream (run : Completion) : String :=
  if isAllBlank run.out.toList then run.err else run.out

theorem not_marked_of_isAllBlank {text : String} (h : isAllBlank text.toList = true) :
    ¬Marked text := by
  intro hmarked
  have hopening : '[' ∈ text.toList := hmarked.subset (by decide)
  have hblank : isBlank '[' = true := List.all_eq_true.mp h _ hopening
  exact absurd hblank (by decide)

theorem ClangTidy.judge_timedOut_iff (run : Completion) :
    (judge run).timedOut = true ↔ run.exit ≠ some 0 ∧ Marked (shownStream run) := by
  have hsuccess : (judge run).success = false ↔ run.exit ≠ some 0 := by
    show (run.exit == some 0) = false ↔ _
    rw [beq_eq_false_iff_ne]
  rw [Verdict.timedOut_iff, hsuccess]
  refine and_congr_right fun hexit => ?_
  have hfails : run.succeeded = false := hsuccess.mpr hexit
  have houtput : (judge run).output = failureOutput run :=
    if_neg (Bool.eq_false_iff.mp hfails)
  rw [houtput]
  unfold failureOutput shownStream
  by_cases hout : isAllBlank run.out.toList = true
  · rw [if_neg (not_not.mpr hout), if_pos hout]
    split
    · exact Iff.rfl
    · next herr =>
      have hwords : Unmarked "clang-tidy failed with " := ⟨by decide, by decide⟩
      exact iff_of_false (hwords.append _).not_marked
        (not_marked_of_isAllBlank (not_not.mp herr))
  · rw [if_pos hout, if_neg hout]

namespace ClangFormat

theorem unmarked_errorHeading : Unmarked errorHeading := ⟨by decide, by decide⟩

theorem not_marked_executionError (run : Completion) : ¬Marked (executionError run) := by
  unfold executionError
  exact ((((unmarked_errorHeading.append _).append _).append _).append _).not_marked

/-- The second run shows the mark if it took too long, or wrote it. -/
theorem marked_formatted_iff {report : RunFailure → String}
    (hreport : ∀ failure, Marked (report failure) ↔ failure = .overran) (run : Run) :
    Marked (formatted report run) ↔
      run = .error .overran ∨ ∃ c, run = .ok c ∧ c.exit = some 0 ∧ Marked c.out := by
  cases run with
  | error failure => simp [formatted, hreport]
  | ok c =>
    have hexit : c.succeeded = true ↔ c.exit = some 0 := beq_iff_eq
    unfold formatted
    simp only [hexit]
    split
    · next hzero => simp [hzero]
    · next hnonzero => simp [hnonzero, not_marked_executionError]

/-- A reason why the first run gave no answer has the mark only if that run took too long. -/
theorem marked_of_compliance_error {report message : RunFailure → String} {check : Run}
    {reason : String} (hreport : ∀ failure, Marked (report failure) ↔ failure = .overran)
    (h : compliance report message check = .error reason) :
    Marked reason ↔ check = .error .overran := by
  unfold compliance at h
  split at h
  · next run =>
    split at h
    · cases h
    · split at h
      · cases h
      · obtain rfl := Except.error.inj h
        exact iff_of_false (not_marked_executionError run) nofun
  · obtain rfl := Except.error.inj h
    exact iff_of_true ((hreport _).mpr rfl) rfl
  · next failure hfailure =>
    obtain rfl := Except.error.inj h
    refine iff_of_false ((unmarked_errorHeading.append _).append _).not_marked fun heq => ?_
    exact hfailure (Except.error.inj heq)

end ClangFormat

/-! ## The runs of a scan -/

namespace Scanner

variable (s : Scanner) (programs : Programs) (request : ScanRequest)

/-- The run that decides. -/
def decidingRun : Run := s.command.run programs (s.decidingArguments request)

/-- The run that formats the file. -/
def formattingRun : Run := s.command.run programs (ClangFormat.formatArguments request)

/-- The scan makes a run of its program that ends so: the one that decides, or the one that formats
the file once the format checker has its answer. -/
inductive Makes (run : Run) : Prop
  | deciding : s.decidingRun programs request = run → Makes run
  | formatting {check : Completion} : s.analyzer = .clangFormat →
      s.decidingRun programs request = .ok check → check.exit = some 0 ∨ check.exit = some 1 →
      s.formattingRun programs request = run → Makes run

/-- The format checker has found the file formatted well, so that nothing else counts. -/
def Settled : Prop :=
  s.analyzer = .clangFormat ∧
    ∃ check, s.decidingRun programs request = .ok check ∧ check.exit = some 0

/-- The verdict does not pass and shows words that the program itself began with the mark. -/
inductive Imitates : Prop
  | report {run : Completion} : s.analyzer = .cppcheck → s.decidingRun programs request = .ok run →
      (s.scan programs request).success = false →
      Marked (String.ofList (Cppcheck.filterOutput run.combined.toList)) → Imitates
  | stream {run : Completion} : s.analyzer = .clangTidy → s.decidingRun programs request = .ok run →
      run.exit ≠ some 0 → Marked (ClangTidy.shownStream run) → Imitates
  | source {check run : Completion} : s.analyzer = .clangFormat →
      s.decidingRun programs request = .ok check → check.exit = some 1 →
      s.formattingRun programs request = .ok run → run.exit = some 0 → Marked run.out → Imitates

variable {s programs request}

/-- Only the format checker makes a second run. -/
theorem makes_iff (hs : s.analyzer ≠ .clangFormat) {run : Run} :
    s.Makes programs request run ↔ s.decidingRun programs request = run := by
  constructor
  · rintro (hrun | ⟨hformat, -⟩)
    · exact hrun
    · exact absurd hformat hs
  · exact .deciding

theorem not_settled (hs : s.analyzer ≠ .clangFormat) : ¬s.Settled programs request :=
  fun h => hs h.1

/-- A run that did not complete has no words of its own. -/
theorem not_imitates_of_error {failure : RunFailure}
    (hrun : s.decidingRun programs request = .error failure) : ¬s.Imitates programs request := by
  rintro (⟨-, hok, -⟩ | ⟨-, hok, -⟩ | ⟨-, hok, -⟩) <;> cases hrun.symm.trans hok

/-- What is told when the defect checker's run has completed. -/
theorem imitates_iff_of_cppcheck (hs : s.analyzer = .cppcheck) {run : Completion}
    (hrun : s.decidingRun programs request = .ok run) :
    s.Imitates programs request ↔ (s.scan programs request).success = false ∧
      Marked (String.ofList (Cppcheck.filterOutput run.combined.toList)) := by
  constructor
  · rintro (⟨-, hok, hsuccess, hmarked⟩ | ⟨hother, -⟩ | ⟨hother, -⟩)
    · obtain rfl := Except.ok.inj (hrun.symm.trans hok)
      exact ⟨hsuccess, hmarked⟩
    · cases hs.symm.trans hother
    · cases hs.symm.trans hother
  · rintro ⟨hsuccess, hmarked⟩
    exact .report hs hrun hsuccess hmarked

theorem imitates_iff_of_clangTidy (hs : s.analyzer = .clangTidy) {run : Completion}
    (hrun : s.decidingRun programs request = .ok run) :
    s.Imitates programs request ↔ run.exit ≠ some 0 ∧ Marked (ClangTidy.shownStream run) := by
  constructor
  · rintro (⟨hother, -⟩ | ⟨-, hok, hexit, hmarked⟩ | ⟨hother, -⟩)
    · cases hs.symm.trans hother
    · obtain rfl := Except.ok.inj (hrun.symm.trans hok)
      exact ⟨hexit, hmarked⟩
    · cases hs.symm.trans hother
  · rintro ⟨hexit, hmarked⟩
    exact .stream hs hrun hexit hmarked

theorem imitates_iff_of_clangFormat (hs : s.analyzer = .clangFormat) {check : Completion}
    (hcheck : s.decidingRun programs request = .ok check) :
    s.Imitates programs request ↔ check.exit = some 1 ∧
      ∃ run, s.formattingRun programs request = .ok run ∧ run.exit = some 0 ∧ Marked run.out := by
  constructor
  · rintro (⟨hother, -⟩ | ⟨hother, -⟩ | ⟨-, hok, hone, hrun, hzero, hmarked⟩)
    · cases hs.symm.trans hother
    · cases hs.symm.trans hother
    · obtain rfl := Except.ok.inj (hcheck.symm.trans hok)
      exact ⟨hone, _, hrun, hzero, hmarked⟩
  · rintro ⟨hone, run, hrun, hzero, hmarked⟩
    exact .source hs hcheck hone hrun hzero hmarked

/-! ## One analyzer after the other -/

theorem scan_eq_of_cppcheck (hs : s.analyzer = .cppcheck) :
    s.scan programs request =
      match s.decidingRun programs request with
      | .ok run => Cppcheck.judge run
      | .error failure => .failure Cppcheck.tool (s.report failure) := by
  obtain ⟨analyzer, command, limit, headers⟩ := s
  obtain rfl : analyzer = .cppcheck := hs
  rfl

theorem scan_eq_of_clangTidy (hs : s.analyzer = .clangTidy) :
    s.scan programs request =
      match s.decidingRun programs request with
      | .ok run => ClangTidy.judge run
      | .error failure => .failure ClangTidy.tool (s.report failure) := by
  obtain ⟨analyzer, command, limit, headers⟩ := s
  obtain rfl : analyzer = .clangTidy := hs
  rfl

theorem scan_eq_of_clangFormat (hs : s.analyzer = .clangFormat) :
    s.scan programs request =
      match ClangFormat.compliance s.report s.message (s.decidingRun programs request) with
      | .error reason => .failure ClangFormat.tool reason
      | .ok compliant => ClangFormat.judge request compliant
          (ClangFormat.formatted s.report (s.formattingRun programs request)) := by
  obtain ⟨analyzer, command, limit, headers⟩ := s
  obtain rfl : analyzer = .clangFormat := hs
  rfl

/-- Of an analyzer that makes one run, a failure of the run is told as what it is. -/
theorem timedOut_iff_of_oneRun (hs : s.analyzer ≠ .clangFormat) {tool : String}
    {judge : Completion → Verdict}
    (hscan : s.scan programs request =
      match s.decidingRun programs request with
      | .ok run => judge run
      | .error failure => .failure tool (s.report failure))
    (hjudge : ∀ run, s.decidingRun programs request = .ok run →
      s.scan programs request = judge run →
        ((judge run).timedOut = true ↔ s.Imitates programs request)) :
    (s.scan programs request).timedOut = true ↔
      (s.Makes programs request (.error .overran) ∧ ¬s.Settled programs request) ∨
        s.Imitates programs request := by
  rw [makes_iff hs, and_iff_left (not_settled hs)]
  cases hrun : s.decidingRun programs request with
  | error failure =>
    have hreport : (Verdict.failure tool (s.report failure)).timedOut = true ↔
        failure = .overran :=
      (Verdict.timedOut_iff.trans (and_iff_right rfl)).trans (failure.marked_report_iff _ _)
    rw [hscan, hrun, or_iff_left (not_imitates_of_error hrun), Except.error.injEq]
    exact hreport
  | ok run =>
    rw [hrun] at hscan
    rw [hscan, hjudge run hrun hscan]
    simp

theorem timedOut_iff_of_cppcheck (hs : s.analyzer = .cppcheck) :
    (s.scan programs request).timedOut = true ↔
      (s.Makes programs request (.error .overran) ∧ ¬s.Settled programs request) ∨
        s.Imitates programs request := by
  refine timedOut_iff_of_oneRun (by simp [hs]) (scan_eq_of_cppcheck hs) fun run hrun hscan => ?_
  rw [imitates_iff_of_cppcheck hs hrun, hscan]
  exact Cppcheck.judge_timedOut_iff run

theorem timedOut_iff_of_clangTidy (hs : s.analyzer = .clangTidy) :
    (s.scan programs request).timedOut = true ↔
      (s.Makes programs request (.error .overran) ∧ ¬s.Settled programs request) ∨
        s.Imitates programs request := by
  refine timedOut_iff_of_oneRun (by simp [hs]) (scan_eq_of_clangTidy hs) fun run hrun _ => ?_
  rw [imitates_iff_of_clangTidy hs hrun]
  exact ClangTidy.judge_timedOut_iff run

/-- The format checker's second run is made if the first one ended with exit code zero or one. -/
theorem makes_iff_of_clangFormat (hs : s.analyzer = .clangFormat) {check : Completion}
    (hcheck : s.decidingRun programs request = .ok check) {failure : RunFailure} :
    s.Makes programs request (.error failure) ↔ (check.exit = some 0 ∨ check.exit = some 1) ∧
      s.formattingRun programs request = .error failure := by
  constructor
  · rintro (hrun | ⟨-, hok, hexit, hrun⟩)
    · cases hcheck.symm.trans hrun
    · obtain rfl := Except.ok.inj (hcheck.symm.trans hok)
      exact ⟨hexit, hrun⟩
  · rintro ⟨hexit, hrun⟩
    exact .formatting hs hcheck hexit hrun

theorem settled_iff (hs : s.analyzer = .clangFormat) {check : Completion}
    (hcheck : s.decidingRun programs request = .ok check) :
    s.Settled programs request ↔ check.exit = some 0 := by
  constructor
  · rintro ⟨-, check', hok, hzero⟩
    obtain rfl := Except.ok.inj (hcheck.symm.trans hok)
    exact hzero
  · exact fun hzero => ⟨hs, check, hcheck, hzero⟩

/-- The format checker's second run only counts if the first one found the file formatted badly. -/
theorem timedOut_iff_of_clangFormat (hs : s.analyzer = .clangFormat) :
    (s.scan programs request).timedOut = true ↔
      (s.Makes programs request (.error .overran) ∧ ¬s.Settled programs request) ∨
        s.Imitates programs request := by
  have hreport : ∀ failure, Marked (s.report failure) ↔ failure = .overran :=
    RunFailure.marked_report_iff _ _
  rw [scan_eq_of_clangFormat hs, Verdict.timedOut_iff]
  cases hcheck : s.decidingRun programs request with
  | error failure =>
    obtain ⟨reason, hreason⟩ : ∃ reason,
        ClangFormat.compliance s.report s.message (.error failure) = .error reason := by
      cases failure <;> exact ⟨_, rfl⟩
    have hmakes : s.Makes programs request (.error .overran) ↔
        (.error failure : Run) = .error .overran := by
      rw [← hcheck]
      constructor
      · rintro (hrun | ⟨-, hok, -⟩)
        · exact hrun
        · cases hcheck.symm.trans hok
      · exact .deciding
    have hsettled : ¬s.Settled programs request := by
      rintro ⟨-, check, hok, -⟩
      cases hcheck.symm.trans hok
    rw [hreason, hmakes, ← ClangFormat.marked_of_compliance_error hreport hreason]
    simp [Verdict.failure, hsettled, not_imitates_of_error hcheck]
  | ok check =>
    rw [makes_iff_of_clangFormat hs hcheck, settled_iff hs hcheck,
      imitates_iff_of_clangFormat hs hcheck]
    by_cases hzero : check.exit = some 0
    · have hanswer : ClangFormat.compliance s.report s.message (.ok check) = .ok true :=
        if_pos hzero
      rw [hanswer]
      simp [ClangFormat.judge, hzero]
    · by_cases hone : check.exit = some 1
      · have hanswer : ClangFormat.compliance s.report s.message (.ok check) = .ok false := by
          simp [ClangFormat.compliance, hone]
        rw [hanswer]
        simp [ClangFormat.judge, hone, ClangFormat.marked_formatted_iff hreport]
      · have hanswer : ClangFormat.compliance s.report s.message (.ok check) =
            .error (ClangFormat.executionError check) := by
          simp [ClangFormat.compliance, hzero, hone]
        rw [hanswer]
        simp [Verdict.failure, hzero, hone, ClangFormat.not_marked_executionError]

/-- **What a verdict tells of runs that took too long**: that there was one, unless the format
checker had its answer before, or that the program began its words with the mark. -/
theorem timedOut_iff (s : Scanner) (programs : Programs) (request : ScanRequest) :
    (s.scan programs request).timedOut = true ↔
      (s.Makes programs request (.error .overran) ∧ ¬s.Settled programs request) ∨
        s.Imitates programs request := by
  cases hs : s.analyzer with
  | cppcheck => exact timedOut_iff_of_cppcheck hs
  | clangTidy => exact timedOut_iff_of_clangTidy hs
  | clangFormat => exact timedOut_iff_of_clangFormat hs

theorem not_imitates_of_settled (h : s.Settled programs request) :
    ¬s.Imitates programs request := by
  obtain ⟨hs, check, hcheck, hzero⟩ := h
  rw [imitates_iff_of_clangFormat hs hcheck, hzero]
  rintro ⟨hone, -⟩
  cases hone

/-- **A run that took too long is told**, unless the format checker had found the file formatted
well before. **If there was none, none is told**, provided that the program did not begin with the
mark what a verdict that does not pass shows of its words. -/
theorem overrun_is_told (s : Scanner) (programs : Programs) (request : ScanRequest) :
    (s.Makes programs request (.error .overran) →
      ((s.scan programs request).timedOut = true ↔ ¬s.Settled programs request)) ∧
    (¬s.Makes programs request (.error .overran) → ¬s.Imitates programs request →
      (s.scan programs request).timedOut = false) := by
  have htold := timedOut_iff s programs request
  constructor
  · intro hoverran
    rw [htold]
    constructor
    · rintro (⟨-, hsettled⟩ | himitates)
      · exact hsettled
      · exact fun hsettled => not_imitates_of_settled hsettled himitates
    · exact fun hsettled => .inl ⟨hoverran, hsettled⟩
  · intro hnone himitates
    rw [← Bool.not_eq_true, htold]
    rintro (⟨hoverran, -⟩ | himitated)
    · exact hnone hoverran
    · exact himitates himitated

/-! ## A format checker with two runs -/

/-- The format checker, called by its name. -/
def formatter : Scanner := ⟨.clangFormat, .ofProgram "clang-format", 30000, .generic⟩

/-- The file that it is asked about. -/
def sampleRequest : ScanRequest := ⟨"a.c", .c⟩

/-- Its first run ends with an exit code, and its second one in some way. -/
def answering (code : UInt8) (second : Run) : Programs := fun _ arguments =>
  if arguments = ClangFormat.checkArguments sampleRequest then .ok ⟨some code, "", ""⟩ else second

theorem decidingRun_answering (code : UInt8) (second : Run) :
    formatter.decidingRun (answering code second) sampleRequest = .ok ⟨some code, "", ""⟩ := by
  unfold decidingRun Command.run
  rw [if_neg (by decide)]
  exact if_pos rfl

theorem formattingRun_answering (code : UInt8) (second : Run) :
    formatter.formattingRun (answering code second) sampleRequest = second := by
  unfold formattingRun Command.run answering
  rw [if_neg (by decide), if_neg (by decide)]

theorem makes_answering {code : UInt8} (hcode : code = 0 ∨ code = 1) (second : Run) :
    formatter.Makes (answering code second) sampleRequest second :=
  .formatting rfl (decidingRun_answering code second) (by simpa using hcode)
    (formattingRun_answering code second)

theorem not_makes_overran_answering (code : UInt8) (run : Completion) :
    ¬formatter.Makes (answering code (.ok run)) sampleRequest (.error .overran) := by
  rw [makes_iff_of_clangFormat rfl (decidingRun_answering _ _), formattingRun_answering]
  simp

/-- The run that formats the file, when nothing is the matter. -/
def formattedRun : Completion := ⟨some 0, "int x;", ""⟩

theorem overrun_is_told_formatter :
    (formatter.Makes (answering 1 (.error .overran)) sampleRequest (.error .overran) ∧
      ((formatter.scan (answering 1 (.error .overran)) sampleRequest).timedOut = true ↔
        ¬formatter.Settled (answering 1 (.error .overran)) sampleRequest)) ∧
    ¬formatter.Makes (answering 1 (.ok formattedRun)) sampleRequest (.error .overran) ∧
      ¬formatter.Imitates (answering 1 (.ok formattedRun)) sampleRequest ∧
      (formatter.scan (answering 1 (.ok formattedRun)) sampleRequest).timedOut = false := by
  have hoverran := makes_answering (.inr rfl) (.error .overran)
  have hnone := not_makes_overran_answering 1 formattedRun
  have himitates : ¬formatter.Imitates (answering 1 (.ok formattedRun)) sampleRequest := by
    rw [imitates_iff_of_clangFormat rfl (decidingRun_answering _ _), formattingRun_answering]
    rintro ⟨-, run, hrun, -, hmarked⟩
    obtain rfl := Except.ok.inj hrun
    exact absurd hmarked (by decide)
  exact ⟨⟨hoverran, (overrun_is_told formatter _ sampleRequest).1 hoverran⟩, hnone, himitates,
    (overrun_is_told formatter _ sampleRequest).2 hnone himitates⟩

/-- A second run that took too long is not told once the first one has passed the file, and a
formatted file that begins with the mark is told as a run that took too long. -/
theorem overrun_masked_or_imitated :
    (¬∀ (s : Scanner) (programs : Programs) (request : ScanRequest),
      s.Makes programs request (.error .overran) →
        (s.scan programs request).timedOut = true) ∧
    ¬∀ (s : Scanner) (programs : Programs) (request : ScanRequest),
      (s.scan programs request).timedOut = true →
        s.Makes programs request (.error .overran) := by
  constructor
  · intro h
    have hmasked := h formatter _ sampleRequest (makes_answering (.inl rfl) (.error .overran))
    revert hmasked
    decide +kernel
  · intro h
    exact not_makes_overran_answering 1 ⟨some 0, "[timeout] int x;", ""⟩
      (h formatter _ sampleRequest (by decide +kernel))

end Scanner

end Ripple
