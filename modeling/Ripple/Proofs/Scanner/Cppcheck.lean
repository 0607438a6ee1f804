import Ripple.Proofs.Finding.Grammar
import Ripple.Proofs.Text.Lines
import Ripple.Scanner.Basic

/-!
# What the defect checker's verdict says about its findings

The verdict and the findings are read off the same lines in two ways. A severity counts against the
file only if exactly one blank stands before it, while a finding may have any blanks there. So a
verdict that passes may come with a finding that should have kept the file from passing, and
`passes_with_grave_finding_iff` says exactly when: the run must have ended well, nothing in what is
left of its output may look like a blocking severity, and some line must show a grave finding after
a gap that is not one blank.
-/

namespace Ripple.Cppcheck

open Text

/-! ## The two ways of reading -/

/-- The text names a blocking severity between one blank and a colon. -/
theorem blocks_iff {text : List Char} :
    blocks text = true ↔
      ∃ severity ∈ blockingSeverities, (": " ++ severity ++ ":").toList <:+: text := by
  unfold blocks beginsBlocking blockingMarks
  rw [anySuffix_iff]
  simp only [List.any_map, List.any_eq_true, Function.comp, List.isPrefixOf_iff_prefix]
  constructor
  · rintro ⟨before, after, rfl, severity, hmem, hprefix⟩
    exact ⟨severity, hmem, hprefix.isInfix.trans (List.suffix_append before after).isInfix⟩
  · rintro ⟨severity, hmem, before, after, rfl⟩
    exact ⟨before, (": " ++ severity ++ ":").toList ++ after, by simp, severity, hmem,
      List.prefix_append _ _⟩

/-- A run that completed passes when it ended with exit code zero and names no blocking severity. -/
theorem judge_success (run : Completion) :
    (judge run).success = (!blocks (filterOutput run.combined.toList) && run.succeeded) := by
  unfold judge
  simp only []
  split
  · next h => simp [Verdict.failure, Bool.eq_false_iff.mpr h.1]
  · simp only []

/-- The findings are those in what is left of the output, whatever the verdict is. -/
theorem judge_findings (run : Completion) :
    (judge run).findings = style.findings (filterOutput run.combined.toList) := by
  unfold judge
  simp only []
  split
  · next h => exact h.2.2.symm
  · simp only []

/-! ## Grave findings -/

/-- The severity says more than that something is to be known. -/
def IsGrave (severity : String) : Prop := severity ≠ "information"

/-- A grave severity that the checker gives to its findings is a blocking one. -/
theorem blocking_of_isGrave {severity : String} (hmem : severity ∈ style.severities)
    (h : IsGrave severity) : severity ∈ blockingSeverities := by
  simp only [style, List.mem_cons, List.not_mem_nil, or_false] at hmem
  rcases hmem with rfl | rfl | rfl | rfl
  · decide
  · decide
  · decide
  · exact absurd rfl h

/-- After a gap of one blank the severity of a line stands as the blocking ones do. -/
theorem mark_infix_text {l : FindingLine} (h : l.gap = [' ']) :
    (": " ++ l.severity ++ ":").toList <:+: l.text := by
  refine ⟨l.file ++ ':' :: l.line ++ ':' :: l.column, l.framed ++ '[' :: l.checker ++ ']' :: l.tail,
    ?_⟩
  simp [FindingLine.text, FindingLine.middle, h]

/-- The line shows a grave finding, and the gap before its severity is not one blank. -/
structure HidesGrave (l : FindingLine) : Prop where
  valid : l.Valid style
  shows : style.finding? l.text = some l.finding
  grave : IsGrave l.severity
  gap : l.gap ≠ [' ']

/-- **A file passes in spite of a grave finding** exactly when the run ended with exit code zero,
what is left of its output names no blocking severity, and one of the lines left hides a grave
finding. In particular every finding of a file that passes is mere information if gaps are single
blanks. -/
theorem passes_with_grave_finding_iff (command : Command) (limit : Nat) (headers : SystemHeaders)
    (programs : Programs) (request : ScanRequest) :
    let verdict := (⟨.cppcheck, command, limit, headers⟩ : Scanner).scan programs request
    (verdict.success = true ∧ ∃ f ∈ verdict.findings, IsGrave f.severity) ↔
      ∃ run, command.run programs (arguments request headers) = .ok run ∧ run.exit = some 0 ∧
        (∀ severity ∈ blockingSeverities,
          ¬(": " ++ severity ++ ":").toList <:+: filterOutput run.combined.toList) ∧
        ∃ l, HidesGrave l ∧ l.text ∈ lines (filterOutput run.combined.toList) := by
  simp only [Scanner.scan]
  cases hrun : command.run programs (arguments request headers) with
  | error failure => simp [Verdict.failure]
  | ok run =>
    simp only [judge_success, judge_findings, Except.ok.injEq, exists_eq_left',
      Bool.and_eq_true, Bool.not_eq_true', Completion.succeeded, beq_iff_eq]
    rw [← Bool.not_eq_true, blocks_iff]
    constructor
    · rintro ⟨⟨hblocks, hexit⟩, f, hf, hgrave⟩
      have hnone : ∀ severity ∈ blockingSeverities,
          ¬(": " ++ severity ++ ":").toList <:+: filterOutput run.combined.toList :=
        fun severity hmem hmark => hblocks ⟨severity, hmem, hmark⟩
      obtain ⟨line, hline, hshows⟩ := List.mem_filterMap.mp hf
      obtain ⟨l, hvalid, rfl, rfl⟩ := FindingLine.of_finding? hshows
      refine ⟨hexit, hnone, l, ⟨hvalid, hshows, hgrave, fun hgap => ?_⟩, hline⟩
      exact hnone l.severity (blocking_of_isGrave hvalid.severity hgrave)
        ((mark_infix_text hgap).trans (infix_of_mem_lines hline))
    · rintro ⟨hexit, hnone, l, hides, hline⟩
      refine ⟨⟨fun ⟨severity, hmem, hmark⟩ => hnone severity hmem hmark, hexit⟩, l.finding, ?_,
        hides.grave⟩
      exact List.mem_filterMap.mpr ⟨l.text, hline, hides.shows⟩

/-- Two blanks before the severity are enough for an error to go with a verdict that passes. -/
theorem passes_with_error_after_two_blanks :
    ¬∀ (command : Command) (limit : Nat) (headers : SystemHeaders) (programs : Programs)
        (request : ScanRequest),
      ((⟨.cppcheck, command, limit, headers⟩ : Scanner).scan programs request).success = true →
      ∀ f ∈ ((⟨.cppcheck, command, limit, headers⟩ : Scanner).scan programs request).findings,
        f.severity = "information" := by
  intro h
  have hall := h (.ofProgram "cppcheck") 30000 .generic
    (fun _ _ => .ok ⟨some 0, "a.c:4:6:  error: Null pointer dereference [nullPointer]\n", ""⟩)
    ⟨"a.c", .c⟩ (by decide +kernel)
  revert hall
  decide +kernel

end Ripple.Cppcheck
