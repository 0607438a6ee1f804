import Ripple.Proofs.Finding.Shortest
import Ripple.Proofs.Scanner.Streams

/-!
# Findings that are written and read

A finding is read back from the line that shows it (`LineStyle.finding?_render`), whatever colons,
numbers, brackets and severities its file and its message hold, and so is a whole list of findings
(`LineStyle.findings_render`). The first blank of such a line stands behind the two numbers, since
the file has none, and so the file cannot be cut any shorter; the last bracket is that of the
checker.
-/

namespace Ripple

open Text FindingLine

/-! ## The line of a finding -/

namespace Finding

/-- The finding can be told by a line of the style: its file has no blanks, and its message is on
one line and has none at its ends. -/
structure Printable (style : LineStyle) (f : Finding) : Prop where
  file : f.file ≠ ""
  file_solid : ∀ c ∈ f.file.toList, isBlank c = false
  severity : f.severity ∈ style.severities
  message_line : '\n' ∉ f.message.toList
  message_trimmed : IsTrimmed f.message.toList
  checker : IsRun style.isCheckerChar f.checker.toList

/-- The pieces of the line that shows the finding. -/
def pieces (f : Finding) : FindingLine where
  file := f.file.toList
  line := Nat.toDigits 10 f.line.toNat
  column := Nat.toDigits 10 f.column.toNat
  gap := [' ']
  severity := f.severity
  framed := ' ' :: f.message.toList ++ [' ']
  checker := f.checker.toList
  tail := []

theorem text_pieces (f : Finding) : f.pieces.text = f.render.toList := by
  simp [pieces, text, middle, render, String.toList_append, Nat.toList_repr]

end Finding

/-! ## Digits and blanks -/

theorem isBlank_space : isBlank ' ' = true := by decide

theorem isDecimalDigit_of_isDigit {c : Char} (h : c.isDigit = true) : isDecimalDigit c = true := by
  obtain ⟨hlow, hhigh⟩ := Char.isDigit_iff_toNat.mp h
  have hlow : ¬c.toNat < 0x30 := Nat.not_lt.mpr hlow
  have hhigh : c.toNat ≤ 0x39 := hhigh
  unfold isDecimalDigit decimalDigitRanges
  rw [CodeRanges.has, if_neg hlow, decide_eq_true hhigh, Bool.true_or]

theorem not_isBlank_of_isDigit {c : Char} (h : c.isDigit = true) : isBlank c = false := by
  obtain ⟨hlow, hhigh⟩ := Char.isDigit_iff_toNat.mp h
  unfold isBlank blankRanges
  simp only [CodeRanges.has]
  grind

/-- The digits of a number in base ten. -/
theorem isDigit_of_mem_toDigits {n : Nat} {c : Char} (h : c ∈ Nat.toDigits 10 n) :
    c.isDigit = true :=
  Nat.isDigit_of_mem_toDigits (by decide) (by decide) h

theorem isRun_toDigits (n : Nat) : IsRun isDecimalDigit (Nat.toDigits 10 n) :=
  ⟨Nat.toDigits_ne_nil, fun _ hc => isDecimalDigit_of_isDigit (isDigit_of_mem_toDigits hc)⟩

/-- A number that fits is what its digits count for. -/
theorem worth_toDigits {n : Nat} (h : n < UInt32.size) : worth (Nat.toDigits 10 n) = n := by
  have hall : (Nat.toDigits 10 n).all Char.isDigit = true :=
    List.all_eq_true.mpr fun _ hc => isDigit_of_mem_toDigits hc
  unfold worth
  rw [Nat.ofDigitChars_ten_toDigits, if_pos ⟨hall, h⟩]

/-! ## The first blank of a line -/

namespace FindingLine

theorem IsRun.not_mem {kind : Char → Bool} {run : List Char} (h : IsRun kind run) {c : Char}
    (hc : kind c = false) : c ∉ run := by
  intro hmem
  rw [h.2 c hmem] at hc
  cases hc

/-- What stands before the gap. -/
def place (l : FindingLine) : List Char :=
  l.file ++ ':' :: l.line ++ ':' :: l.column ++ [':']

theorem text_eq_place_append (l : FindingLine) :
    l.text = l.place ++ (l.gap ++ (l.severity.toList ++ ':' :: l.framed ++
      '[' :: l.checker ++ ']' :: l.tail)) := by
  simp [text, middle, place]

variable {style : LineStyle} {l l' : FindingLine}

/-- The last two colons of a place stand behind its file. -/
theorem Valid.file_eq_of_place_eq (h : l.Valid style) (h' : l'.Valid style)
    (hplace : l.place = l'.place) : l.file = l'.file := by
  have hcolon : isDecimalDigit ':' = false := by decide
  have hcolumns := List.append_cancel_right hplace
  obtain ⟨hlines, -⟩ :=
    append_mark_inj_of_last (h.column.not_mem hcolon) (h'.column.not_mem hcolon) hcolumns
  exact (append_mark_inj_of_last (h.line.not_mem hcolon) (h'.line.not_mem hcolon) hlines).1

/-- If the place has no blanks and one blank follows, then other pieces of the line have the same
place, unless their file is longer. -/
theorem Valid.place_eq_of_solid (h' : l'.Valid style) (hsolid : ∀ c ∈ l.place, isBlank c = false)
    (hgap : l.gap = [' ']) (htext : l.text = l'.text)
    (hlength : l'.file.length ≤ l.file.length) : l.place = l'.place := by
  obtain ⟨g, gap, hg⟩ := List.exists_cons_of_ne_nil h'.gap.1
  have hblank : isBlank g = true := h'.gap.2 g (by rw [hg]; exact List.mem_cons_self)
  rw [text_eq_place_append, text_eq_place_append, hgap, hg, List.singleton_append,
    List.cons_append] at htext
  rcases List.append_eq_append_iff.mp htext with ⟨more, hmore, hrest⟩ | ⟨more, hmore, hrest⟩
  · cases more with
    | nil => simpa using hmore.symm
    | cons c more =>
      -- the blank would stand among the numbers of the other place
      obtain ⟨rfl, -⟩ := List.cons.inj hrest
      have hdigit : isDecimalDigit ' ' = false := by decide
      have hnumbers : ' ' ∉ ':' :: l'.line ++ (':' :: l'.column ++ [':']) := by
        simp [h'.line.not_mem hdigit, h'.column.not_mem hdigit]
      have hsplit : l'.file ++ (':' :: l'.line ++ (':' :: l'.column ++ [':'])) =
          l.place ++ ' ' :: more := by
        rw [← hmore, place]
        simp
      rcases List.append_eq_append_iff.mp hsplit with ⟨tail, -, htail⟩ | ⟨tail, htail, -⟩
      · exact absurd (by rw [htail]; simp) hnumbers
      · have hlong := congrArg List.length htail
        simp only [place, List.length_append, List.length_cons] at hlong
        omega
  · cases more with
    | nil => simpa using hmore
    | cons c more =>
      obtain ⟨rfl, -⟩ := List.cons.inj hrest
      have hg := hsolid g (by rw [hmore]; simp)
      rw [hblank] at hg
      cases hg

end FindingLine

/-! ## Findings that are read back -/

namespace Finding

/-- The line that shows the finding, cut behind its place. -/
theorem render_eq (f : Finding) :
    f.render.toList = f.pieces.place ++ ' ' :: (f.severity.toList ++ ':' ::
      ((' ' :: f.message.toList ++ [' ']) ++ '[' :: (f.checker.toList ++ [']']))) := by
  rw [← f.text_pieces, text_eq_place_append]
  simp [pieces]

variable {style : LineStyle} {f : Finding}

theorem Printable.valid_pieces (h : f.Printable style) : f.pieces.Valid style where
  file hnil := absurd (String.toList_eq_nil_iff.mp hnil) h.file
  line := isRun_toDigits _
  column := isRun_toDigits _
  gap := ⟨by simp [pieces], by simp [pieces, isBlank_space]⟩
  severity := h.severity
  framed_length := by simp [pieces]
  framed_head := by simp [pieces, isBlank_space]
  framed_last := by simp [pieces, List.getLast?_cons, isBlank_space]
  checker := h.checker
  tail := by simp [pieces]

theorem Printable.solid_place (h : f.Printable style) :
    ∀ c ∈ f.pieces.place, isBlank c = false := by
  have hcolon : isBlank ':' = false := by decide
  intro c hc
  simp only [place, pieces, List.mem_append, List.mem_cons, List.not_mem_nil, or_false] at hc
  rcases hc with ((hc | rfl | hc) | rfl | hc) | rfl
  · exact h.file_solid c hc
  · exact hcolon
  · exact not_isBlank_of_isDigit (isDigit_of_mem_toDigits hc)
  · exact hcolon
  · exact not_isBlank_of_isDigit (isDigit_of_mem_toDigits hc)
  · exact hcolon

/-- The file cannot be cut any shorter. -/
theorem Printable.shortest_pieces (h : f.Printable style) :
    Shortest style f.render.toList f.pieces where
  valid := h.valid_pieces
  text_eq := f.text_pieces
  le := by
    intro l hl htext
    rcases Nat.le_total f.pieces.file.length l.file.length with hle | hle
    · exact hle
    · have hplace : f.pieces.place = l.place :=
        hl.place_eq_of_solid h.solid_place rfl (f.text_pieces.trans htext.symm) hle
      rw [h.valid_pieces.file_eq_of_place_eq hl hplace]

theorem trim_framed {message : List Char} (h : IsTrimmed message) :
    trim (' ' :: message ++ [' ']) = message := by
  have hblank : ∀ c ∈ [' '], isBlank c = true := by simp [isBlank_space]
  by_cases hne : message = []
  · rw [hne]
    decide
  · exact trim_between hblank h hne hblank

theorem Printable.says_pieces (h : f.Printable style) : f.pieces.Says f where
  file := by simp [pieces]
  line := (worth_toDigits f.line.toNat_lt_size).symm
  column := (worth_toDigits f.column.toNat_lt_size).symm
  severity := rfl
  message := by
    show f.message = String.ofList (trim (' ' :: f.message.toList ++ [' ']))
    rw [trim_framed h.message_trimmed, String.ofList_toList]
  checker := by simp [pieces]

end Finding

namespace LineStyle

open Finding

variable {style : LineStyle}

/-- A finding is read back from the line that shows it. -/
theorem finding?_render (hstyle : style.Unambiguous) {f : Finding} (h : f.Printable style) :
    style.finding? f.render.toList = some f :=
  (finding?_eq_some_iff hstyle).mpr ⟨f.pieces, h.shortest_pieces, h.says_pieces⟩

/-- Neither the severities nor the checkers of the style have a line feed. -/
structure KeepsToLine (style : LineStyle) : Prop where
  severity : ∀ severity ∈ style.severities, '\n' ∉ severity.toList
  checker : style.isCheckerChar '\n' = false

theorem not_mem_render (hstyle : style.KeepsToLine) {f : Finding} (h : f.Printable style) :
    '\n' ∉ f.render.toList := by
  have hblank : isBlank '\n' = true := by decide
  have hplace : '\n' ∉ f.pieces.place := by
    intro hmem
    have hsolid := h.solid_place '\n' hmem
    rw [hblank] at hsolid
    cases hsolid
  rw [render_eq]
  simp [hplace, hstyle.severity _ h.severity, h.message_line, h.checker.not_mem hstyle.checker]

/-- Reading the lines of findings gives the findings. -/
theorem filterMap_finding?_render (hstyle : style.Unambiguous) {found : List Finding}
    (h : ∀ f ∈ found, f.Printable style) :
    (found.map (·.render.toList)).filterMap style.finding? = found := by
  have hread : ∀ f ∈ found, (style.finding? ∘ fun f : Finding => f.render.toList) f = some f := by
    intro f hf
    rw [Function.comp_apply, finding?_render hstyle (h f hf)]
  rw [List.filterMap_map, List.filterMap_congr hread, List.filterMap_some]

theorem not_mem_of_mem_map_render (hstyle : style.KeepsToLine) {found : List Finding}
    (h : ∀ f ∈ found, f.Printable style) : ∀ line ∈ found.map (·.render.toList), '\n' ∉ line := by
  intro line hmem
  obtain ⟨f, hf, rfl⟩ := List.mem_map.mp hmem
  exact not_mem_render hstyle (h f hf)

theorem findings_joinLines_render (hstyle : style.Unambiguous) (hline : style.KeepsToLine)
    {found : List Finding} (h : ∀ f ∈ found, f.Printable style) :
    style.findings (joinLines (found.map (·.render.toList))) = found := by
  rw [findings, style.ignoresEnds_finding?.filterMap_lines_joinLines
    (not_mem_of_mem_map_render hline h), filterMap_finding?_render hstyle h]

end LineStyle

/-! ## Findings that are not left out -/

namespace Cppcheck

theorem keepsToLine : style.KeepsToLine := ⟨by decide, by decide⟩

/-- A text that neither begins nor ends with a blank is found inside the blanks around another. -/
theorem infix_of_infix_framed {pattern message : List Char} (hhead : pattern.head? ≠ some ' ')
    (hlast : pattern.getLast? ≠ some ' ') (hne : pattern ≠ [])
    (h : pattern <:+: ' ' :: message ++ [' ']) : pattern <:+: message := by
  rw [List.infix_concat_iff] at h
  rcases h with ⟨before, hsuffix⟩ | h
  · have heq := congrArg List.getLast? hsuffix
    rw [List.getLast?_append_of_ne_nil _ hne, List.getLast?_concat] at heq
    exact absurd heq hlast
  · rw [List.infix_cons_iff] at h
    rcases h with ⟨after, hbegins⟩ | h
    · have heq := congrArg List.head? hbegins
      rw [List.head?_append_of_ne_nil _ hne, List.head?_cons] at heq
      exact absurd heq hhead
    · exact h

/-- The note about missing headers has blanks but no colons and no brackets, so of all pieces of a
line only the message can hold it. -/
theorem infix_message_of_infix_render {f : Finding} (h : f.Printable style)
    (hnote : missingHeadersNote.toList <:+: f.render.toList) :
    missingHeadersNote.toList <:+: f.message.toList := by
  have hspace : ' ' ∈ missingHeadersNote.toList := by decide
  have hcolon : ':' ∉ missingHeadersNote.toList := by decide
  have hne : missingHeadersNote.toList ≠ [] := by decide
  have hseverity : ∀ severity ∈ style.severities, 'C' ∉ ' ' :: severity.toList := by decide
  have hdigits (n : Nat) : ' ' ∉ Nat.toDigits 10 n := (isRun_toDigits n).not_mem (by decide)
  have hplace : f.render.toList = f.file.toList ++ ':' :: (Nat.toDigits 10 f.line.toNat ++
      ':' :: (Nat.toDigits 10 f.column.toNat ++ ':' :: (' ' :: f.severity.toList ++ ':' ::
        ((' ' :: f.message.toList ++ [' ']) ++ '[' :: (f.checker.toList ++ [']']))))) := by
    rw [f.render_eq, place]
    simp [Finding.pieces]
  rw [hplace, infix_append_cons_iff hcolon hne, infix_append_cons_iff hcolon hne,
    infix_append_cons_iff hcolon hne, infix_append_cons_iff hcolon hne,
    infix_append_cons_iff (by decide) hne] at hnote
  rcases hnote with hfile | hline | hcolumn | hgap | hframed | hchecker
  · have hsolid := h.file_solid ' ' (hfile.subset hspace)
    rw [isBlank_space] at hsolid
    cases hsolid
  · exact absurd (hline.subset hspace) (hdigits _)
  · exact absurd (hcolumn.subset hspace) (hdigits _)
  · exact absurd (hgap.subset (by decide)) (hseverity _ h.severity)
  · exact infix_of_infix_framed (by decide) (by decide) hne hframed
  · have hword : ' ' ∉ f.checker.toList ++ [']'] := by
      simp [h.checker.not_mem (show style.isCheckerChar ' ' = false by decide)]
    exact absurd (hchecker.subset hspace) hword

/-- The line of a finding is no noise unless its message holds the note about missing headers. -/
theorem not_noise_render {f : Finding} (h : f.Printable style)
    (hmessage : ¬missingHeadersNote.toList <:+: f.message.toList) : ¬Noise f.render.toList := by
  have hblank : ' ' ∉ f.pieces.place := by
    intro hmem
    have hsolid := h.solid_place ' ' hmem
    rw [isBlank_space] at hsolid
    cases hsolid
  have hcolon : ':' ∈ f.pieces.place := by simp [FindingLine.place]
  rintro (hall | ⟨after, hprogress⟩ | hnote)
  · have hsolid := h.solid_place ':' hcolon
    rw [hall ':' (by rw [f.render_eq]; exact List.mem_append_left _ hcolon)] at hsolid
    cases hsolid
  · -- a progress line has no colon before its first blank
    have hcut : "Checking".toList ++ ' ' :: after = f.pieces.place ++ ' ' :: _ :=
      hprogress.trans f.render_eq
    have hplace := (append_mark_inj (by decide) hblank hcut).1
    rw [← hplace] at hcolon
    exact absurd hcolon (by decide)
  · exact hmessage (infix_message_of_infix_render h hnote)

theorem findings_filterOutput_render {found : List Finding} (h : ∀ f ∈ found, f.Printable style)
    (hmessage : ∀ f ∈ found, ¬missingHeadersNote.toList <:+: f.message.toList) :
    style.findings (filterOutput (joinLines (found.map (·.render.toList)))) = found := by
  have hread := style.ignoresEnds_finding?
  have hkept : (found.map (·.render.toList)).filter (¬Noise ·) = found.map (·.render.toList) := by
    refine List.filter_eq_self.mpr fun line hline => ?_
    obtain ⟨f, hf, rfl⟩ := List.mem_map.mp hline
    exact decide_eq_true (not_noise_render (h f hf) (hmessage f hf))
  rw [LineStyle.findings, filterMap_lines_filterOutput hread, List.filterMap_filter,
    (ignoresEnds_unlessNoise hread).filterMap_lines_joinLines
      (LineStyle.not_mem_of_mem_map_render keepsToLine h),
    ← List.filterMap_filter, hkept, LineStyle.filterMap_finding?_render unambiguous h]

end Cppcheck

theorem ClangTidy.keepsToLine : style.KeepsToLine := ⟨by decide, by decide⟩

/-- **Findings are read back from the lines that show them**, and of the defect checker also after
noise has been left out, unless a message holds the note about missing headers. -/
theorem LineStyle.findings_render (found : List Finding) :
    ((∀ f ∈ found, f.Printable ClangTidy.style) →
      ClangTidy.style.findings (joinLines (found.map (·.render.toList))) = found) ∧
    ((∀ f ∈ found, f.Printable Cppcheck.style) →
      Cppcheck.style.findings (joinLines (found.map (·.render.toList))) = found ∧
      ((∀ f ∈ found, ¬Cppcheck.missingHeadersNote.toList <:+: f.message.toList) →
        Cppcheck.style.findings
          (Cppcheck.filterOutput (joinLines (found.map (·.render.toList)))) = found)) :=
  ⟨findings_joinLines_render ClangTidy.unambiguous ClangTidy.keepsToLine,
    fun h => ⟨findings_joinLines_render Cppcheck.unambiguous Cppcheck.keepsToLine h,
      Cppcheck.findings_filterOutput_render h⟩⟩

/-- A finding whose file ends like a place and whose message looks like another finding. -/
def misleading : Finding :=
  ⟨"a:12:3", 0, 4294967295, "error", "b:1:2: warning: [x] y [z]", "k"⟩

/-- A finding without a message. -/
def wordless : Finding := ⟨"main.c", 1, 1, "warning", "", "k9"⟩

theorem misleading_printable {style : LineStyle} (hseverity : "error" ∈ style.severities)
    (hchecker : style.isCheckerChar 'k' = true) : misleading.Printable style where
  file := by decide
  file_solid := (show IsWord misleading.file.toList by decide).solid
  severity := hseverity
  message_line := by decide
  message_trimmed := by decide
  checker := ⟨by decide, by simpa [misleading] using hchecker⟩

theorem wordless_printable {style : LineStyle} (hseverity : "warning" ∈ style.severities)
    (hchecker : style.isCheckerChar 'k' = true ∧ style.isCheckerChar '9' = true) :
    wordless.Printable style where
  file := by decide
  file_solid := (show IsWord wordless.file.toList by decide).solid
  severity := hseverity
  message_line := by decide
  message_trimmed := by decide
  checker := ⟨by decide, by simpa [wordless] using hchecker⟩

theorem findings_render_misleading :
    (misleading.Printable ClangTidy.style ∧ wordless.Printable ClangTidy.style ∧
      ClangTidy.style.findings (joinLines ([misleading, wordless].map (·.render.toList))) =
        [misleading, wordless]) ∧
    misleading.Printable Cppcheck.style ∧ wordless.Printable Cppcheck.style ∧
      (∀ f ∈ [misleading, wordless], ¬Cppcheck.missingHeadersNote.toList <:+: f.message.toList) ∧
      Cppcheck.style.findings (joinLines ([misleading, wordless].map (·.render.toList))) =
        [misleading, wordless] ∧
      Cppcheck.style.findings (Cppcheck.filterOutput
        (joinLines ([misleading, wordless].map (·.render.toList)))) = [misleading, wordless] := by
  have htidy : misleading.Printable ClangTidy.style ∧ wordless.Printable ClangTidy.style :=
    ⟨misleading_printable (by decide) (by decide), wordless_printable (by decide) (by decide)⟩
  have hcheck : misleading.Printable Cppcheck.style ∧ wordless.Printable Cppcheck.style :=
    ⟨misleading_printable (by decide) (by decide), wordless_printable (by decide) (by decide)⟩
  have hnote : ∀ f ∈ [misleading, wordless],
      ¬Cppcheck.missingHeadersNote.toList <:+: f.message.toList := by decide +kernel
  obtain ⟨hreadTidy, hreadCheck⟩ := LineStyle.findings_render [misleading, wordless]
  obtain ⟨hplain, hfiltered⟩ := hreadCheck (by simpa using hcheck)
  exact ⟨⟨htidy.1, htidy.2, hreadTidy (by simpa using htidy)⟩, hcheck.1, hcheck.2, hnote, hplain,
    hfiltered hnote⟩

end Ripple
