import Ripple.Proofs.Scanner.Cppcheck

/-!
# Two streams, one list of findings

What an analyzer writes to its two streams is put together to one text, of which the defect checker
leaves some lines out before it looks at the lines of what is left. Nothing of this can be seen in
the result: the findings are those of the lines of the first stream and then of the second
(`Completion.findings_of_streams`), however the lines end. That is so because whatever is asked of a
line has the same answer with and without a carriage return at its end.
-/

namespace Ripple

open Text

/-! ## Lines and their ends -/

theorem Text.trimEnd_append_blank {c : Char} (hc : isBlank c = true) (text : List Char) :
    trimEnd (text ++ [c]) = trimEnd text := by
  rw [trimEnd, List.reverse_append, List.reverse_singleton, List.singleton_append,
    List.dropWhile_cons_of_pos hc, trimEnd]

/-- A finding does not depend on how its line ends. -/
theorem LineStyle.ignoresEnds_finding? (style : LineStyle) : IgnoresEnds style.finding? where
  empty := rfl
  append_return := by
    intro line
    have hreturn : isBlank '\r' = true := by decide
    unfold finding? ending?
    rw [trimEnd_append_blank hreturn]

namespace Completion

/-- What passes over line ends is read off both streams together as off the one and then the
other. -/
theorem filterMap_lines_combined {α : Type} {read : List Char → Option α} (h : IgnoresEnds read)
    (run : Completion) :
    (lines run.combined.toList).filterMap read =
      (lines run.out.toList ++ lines run.err.toList).filterMap read := by
  have hnil : lines "".toList = [] := rfl
  unfold combined
  split
  · next herr => rw [herr, hnil, List.append_nil]
  · split
    · next hout => rw [hout, hnil, List.nil_append]
    · rw [String.toList_append, String.toList_append, List.append_assoc,
        List.filterMap_append]
      exact h.filterMap_lines_append _ _

/-- So it is with a question about single lines. -/
theorem exists_mem_lines_combined_iff {p : List Char → Prop} (hempty : ¬p [])
    (hreturn : ∀ line, p (line ++ ['\r']) ↔ p line) (run : Completion) :
    (∃ line ∈ lines run.combined.toList, p line) ↔
      ∃ line ∈ lines run.out.toList ++ lines run.err.toList, p line := by
  classical
  have hread : IgnoresEnds fun line => if p line then some () else none :=
    ⟨if_neg hempty, fun line => by simp only [hreturn]⟩
  have hsome (ls : List (List Char)) : (∃ line ∈ ls, p line) ↔
      ls.filterMap (fun line => if p line then some () else none) ≠ [] := by
    simp [List.filterMap_eq_nil_iff]
  rw [hsome, hsome, run.filterMap_lines_combined hread]

end Completion

/-! ## What the defect checker leaves out -/

namespace Cppcheck

/-- The line is blank, begins like a progress line, or holds the note about missing headers. -/
def Noise (line : List Char) : Prop :=
  (∀ c ∈ line, isBlank c = true) ∨ progressMark.toList <+: line ∨
    missingHeadersNote.toList <:+: line

theorem occursIn_iff {pattern text : List Char} :
    occursIn pattern text = true ↔ pattern <:+: text := by
  unfold occursIn
  rw [anySuffix_iff]
  simp only [List.isPrefixOf_iff_prefix]
  constructor
  · rintro ⟨before, after, rfl, hprefix⟩
    exact hprefix.isInfix.trans (List.suffix_append before after).isInfix
  · rintro ⟨before, after, rfl⟩
    exact ⟨before, pattern ++ after, by rw [List.append_assoc], List.prefix_append _ _⟩

theorem isNoise_iff {line : List Char} : isNoise line = true ↔ Noise line := by
  unfold isNoise isAllBlank Noise
  rw [Bool.or_eq_true, Bool.or_eq_true, List.all_eq_true, List.isPrefixOf_iff_prefix, occursIn_iff,
    or_assoc]

instance (line : List Char) : Decidable (Noise line) := decidable_of_iff _ isNoise_iff

/-- A pattern without a carriage return is not found by adding one. -/
theorem infix_append_return_iff {pattern line : List Char} (hmark : '\r' ∉ pattern)
    (hne : pattern ≠ []) : pattern <:+: line ++ ['\r'] ↔ pattern <:+: line := by
  rw [infix_append_cons_iff hmark hne, List.infix_nil]
  exact or_iff_left hne

theorem noise_append_return (line : List Char) : Noise (line ++ ['\r']) ↔ Noise line := by
  have hblank : isBlank '\r' = true := by decide
  have hprogress : progressMark.toList <+: line ++ ['\r'] ↔ progressMark.toList <+: line := by
    rw [List.prefix_concat_iff]
    refine or_iff_right fun heq => ?_
    have hlast := congrArg List.getLast? heq
    rw [List.getLast?_concat] at hlast
    exact absurd hlast (by decide)
  unfold Noise
  rw [hprogress, infix_append_return_iff (by decide) (by decide), List.forall_mem_append]
  simp [hblank]

/-- What passes over line ends is read off what is left of the output as off the lines that are no
noise. -/
theorem filterMap_lines_filterOutput {α : Type} {read : List Char → Option α}
    (h : IgnoresEnds read) (text : List Char) :
    (lines (filterOutput text)).filterMap read =
      ((lines text).filter (¬Noise ·)).filterMap read := by
  have hkept : ((lines text).filter fun line => !isNoise line) =
      (lines text).filter (¬Noise ·) := by
    refine List.filter_congr fun line _ => ?_
    rw [Bool.eq_iff_iff, Bool.not_eq_true', ← Bool.not_eq_true, isNoise_iff, decide_eq_true_iff]
  unfold filterOutput
  rw [hkept]
  exact h.filterMap_lines_joinLines fun line hline =>
    not_mem_of_mem_lines (List.mem_of_mem_filter hline)

/-- What the defect checker looks for in single lines also passes over line ends. -/
theorem ignoresEnds_unlessNoise {α : Type} {read : List Char → Option α} (h : IgnoresEnds read) :
    IgnoresEnds fun line => if decide ¬Noise line then read line else none where
  empty := by simp [h.empty]
  append_return := by
    intro line
    simp only [noise_append_return, h.append_return]

/-- The line names a blocking severity between one blank and a colon. -/
def Blocking (line : List Char) : Prop :=
  ∃ severity ∈ blockingSeverities, (": " ++ severity ++ ":").toList <:+: line

theorem mark_keeps_to_line : ∀ severity ∈ blockingSeverities,
    '\n' ∉ (": " ++ severity ++ ":").toList ∧ '\r' ∉ (": " ++ severity ++ ":").toList ∧
      (": " ++ severity ++ ":").toList ≠ [] := by
  decide

theorem blocking_append_return (line : List Char) : Blocking (line ++ ['\r']) ↔ Blocking line := by
  refine exists_congr fun severity => and_congr_right fun hmem => ?_
  obtain ⟨-, hreturn, hne⟩ := mark_keeps_to_line severity hmem
  exact infix_append_return_iff hreturn hne

/-- What is left of the output blocks if one of the lines that are no noise does. -/
theorem blocks_filterOutput_iff (text : List Char) :
    blocks (filterOutput text) = true ↔ ∃ line ∈ lines text, ¬Noise line ∧ Blocking line := by
  rw [blocks_iff]
  constructor
  · rintro ⟨severity, hmem, hmark⟩
    obtain ⟨hfeed, -, hne⟩ := mark_keeps_to_line severity hmem
    obtain ⟨line, hline, hinfix⟩ := (infix_joinLines_iff hfeed hne _).mp hmark
    obtain ⟨hline, hnoise⟩ := List.mem_filter.mp hline
    refine ⟨line, hline, ?_, severity, hmem, hinfix⟩
    rw [← isNoise_iff]
    simpa using hnoise
  · rintro ⟨line, hline, hnoise, severity, hmem, hinfix⟩
    obtain ⟨hfeed, -, hne⟩ := mark_keeps_to_line severity hmem
    refine ⟨severity, hmem, (infix_joinLines_iff hfeed hne _).mpr ⟨line, ?_, hinfix⟩⟩
    rw [← isNoise_iff] at hnoise
    exact List.mem_filter.mpr ⟨hline, by simpa using hnoise⟩

end Cppcheck

/-- **The findings in both streams together are those of the lines of the one and then of the
other**; for the defect checker of the lines that are no noise, and it is one of these that blocks
if anything does. -/
theorem Completion.findings_of_streams (run : Completion) :
    ClangTidy.style.findings run.combined.toList =
        ClangTidy.style.findings run.out.toList ++ ClangTidy.style.findings run.err.toList ∧
      Cppcheck.style.findings (Cppcheck.filterOutput run.combined.toList) =
        ((lines run.out.toList ++ lines run.err.toList).filter
          (¬Cppcheck.Noise ·)).filterMap Cppcheck.style.finding? ∧
      (Cppcheck.blocks (Cppcheck.filterOutput run.combined.toList) = true ↔
        ∃ line ∈ lines run.out.toList ++ lines run.err.toList,
          ¬Cppcheck.Noise line ∧ Cppcheck.Blocking line) := by
  refine ⟨?_, ?_, ?_⟩
  · exact (run.filterMap_lines_combined ClangTidy.style.ignoresEnds_finding?).trans
      List.filterMap_append
  · have hread := Cppcheck.style.ignoresEnds_finding?
    rw [LineStyle.findings, Cppcheck.filterMap_lines_filterOutput hread, List.filterMap_filter,
      List.filterMap_filter]
    exact run.filterMap_lines_combined (Cppcheck.ignoresEnds_unlessNoise hread)
  · rw [Cppcheck.blocks_filterOutput_iff]
    refine run.exists_mem_lines_combined_iff ?_ fun line => ?_
    · rintro ⟨hnoise, -⟩
      exact hnoise (.inl fun c hc => nomatch hc)
    · rw [Cppcheck.noise_append_return, Cppcheck.blocking_append_return]

end Ripple
