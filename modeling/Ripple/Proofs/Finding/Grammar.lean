import Mathlib.Data.List.Basic
import Mathlib.Data.List.TakeWhile
import Ripple.Finding
import Ripple.Proofs.Text.Blank

/-!
# The lines that show findings

`FindingLine` is a line taken apart: file, two numbers, the gap before the severity, the severity,
the message with the blanks around it, the checker, and the blanks after the closing bracket. A line
in which a style finds something is put together from such pieces, and the finding is read off them
(`FindingLine.of_finding?`).
-/

namespace Ripple

open Text

/-- The pieces of a line that shows a finding. -/
structure FindingLine where
  file : List Char
  line : List Char
  column : List Char
  /-- What stands between the second number's colon and the severity. -/
  gap : List Char
  severity : String
  /-- The message and the blanks around it. -/
  framed : List Char
  checker : List Char
  /-- What follows the closing bracket. -/
  tail : List Char

namespace FindingLine

/-- What stands between the file and the brackets. -/
def middle (l : FindingLine) : List Char :=
  ':' :: l.line ++ ':' :: l.column ++ ':' :: l.gap ++ l.severity.toList ++ ':' :: l.framed

/-- The line. -/
def text (l : FindingLine) : List Char :=
  l.file ++ l.middle ++ '[' :: l.checker ++ ']' :: l.tail

/-- What the line says. -/
def finding (l : FindingLine) : Finding where
  file := String.ofList l.file
  line := LineStyle.numberValue l.line
  column := LineStyle.numberValue l.column
  severity := l.severity
  message := String.ofList (trim l.framed)
  checker := String.ofList l.checker

/-- A run of at least one character of a kind. -/
def IsRun (kind : Char → Bool) (run : List Char) : Prop := run ≠ [] ∧ ∀ c ∈ run, kind c = true

/-- The pieces are such as a style asks for. -/
structure Valid (style : LineStyle) (l : FindingLine) : Prop where
  file : l.file = [] → style.allowsNoFile = true
  line : IsRun isDecimalDigit l.line
  column : IsRun isDecimalDigit l.column
  gap : IsRun isBlank l.gap
  severity : l.severity ∈ style.severities
  framed_length : 2 ≤ l.framed.length
  framed_head : l.framed.head?.any isBlank = true
  framed_last : l.framed.getLast?.any isBlank = true
  checker : IsRun style.isCheckerChar l.checker
  tail : ∀ c ∈ l.tail, isBlank c = true

end FindingLine

/-! ## Cutting off pieces -/

namespace LineStyle

open FindingLine

variable {style : LineStyle}

theorem number?_eq_some {text digits rest : List Char} (h : number? text = some (digits, rest)) :
    text = ':' :: digits ++ rest ∧ IsRun isDecimalDigit digits := by
  unfold number? at h
  split at h
  · next after =>
    simp only [] at h
    split at h
    · simp at h
    · next hne =>
      obtain ⟨rfl, rfl⟩ : after.takeWhile isDecimalDigit = digits ∧
          after.dropWhile isDecimalDigit = rest := by simpa using h
      refine ⟨?_, hne, fun c hc => List.mem_takeWhile_imp hc⟩
      rw [List.cons_append, List.takeWhile_append_dropWhile]
  · simp at h

theorem severity?_eq_some {text rest : List Char} {severity : String}
    (h : style.severity? text = some (severity, rest)) :
    severity ∈ style.severities ∧ text = severity.toList ++ ':' :: rest := by
  unfold severity? at h
  obtain ⟨s, hs, hfound⟩ := List.exists_of_findSome?_eq_some h
  simp only [] at hfound
  split at hfound
  · next hprefix =>
    obtain ⟨rfl, rfl⟩ : s = severity ∧ text.drop (s.toList ++ [':']).length = rest := by
      simpa using hfound
    refine ⟨hs, ?_⟩
    obtain ⟨after, rfl⟩ := List.isPrefixOf_iff_prefix.mp hprefix
    rw [List.drop_left]
    simp
  · simp at hfound

theorem ending?_eq_some {text before checker : List Char}
    (h : style.ending? text = some (before, checker)) :
    ∃ tail, text = before ++ '[' :: checker ++ ']' :: tail ∧
      before.getLast?.any isBlank = true ∧ IsRun style.isCheckerChar checker ∧
      ∀ c ∈ tail, isBlank c = true := by
  obtain ⟨tail, htext, htail⟩ := exists_trimEnd_append text
  unfold ending? at h
  split at h
  · next inner hinner =>
    simp only [] at h
    split at h
    · next front hfront =>
      split at h
      · next hcond =>
        obtain ⟨rfl, rfl⟩ : front.reverse = before ∧
            (inner.takeWhile style.isCheckerChar).reverse = checker := by simpa using h
        refine ⟨tail, ?_, ?_, ⟨hcond.1, fun c hc => ?_⟩, htail⟩
        · have hsplit : inner = inner.takeWhile style.isCheckerChar ++ '[' :: front := by
            rw [← hfront, List.takeWhile_append_dropWhile]
          have htrim : trimEnd text = inner.reverse ++ [']'] := by
            rw [← List.reverse_reverse (trimEnd text), hinner, List.reverse_cons]
          calc text = inner.reverse ++ ']' :: tail := by rw [htext, htrim]; simp
            _ = (inner.takeWhile style.isCheckerChar ++ '[' :: front).reverse ++ ']' :: tail := by
              rw [← hsplit]
            _ = _ := by simp
        · rw [List.getLast?_reverse]
          exact hcond.2
        · exact List.mem_takeWhile_imp (List.mem_reverse.mp hc)
      · simp at h
    · simp at h
  · simp at h

theorem message?_eq_some {framed message : List Char} (h : message? framed = some message) :
    message = trim framed ∧ 2 ≤ framed.length ∧ framed.head?.any isBlank = true := by
  unfold message? at h
  split at h
  · next first second rest =>
    split at h
    · next hfirst => exact ⟨(Option.some.inj h).symm, by simp, by simpa using hfirst⟩
    · simp at h
  · simp at h

/-- What is told between the file and the brackets, taken apart. -/
theorem after?_eq_some {checker text : List Char} {f : Finding}
    (hcheck : IsRun style.isCheckerChar checker) (hlast : text.getLast?.any isBlank = true)
    (h : style.after? checker text = some f) :
    ∃ l : FindingLine, l.middle = text ∧ l.checker = checker ∧
      (∀ file, (file = [] → style.allowsNoFile = true) →
        ∀ tail, (∀ c ∈ tail, isBlank c = true) →
          ({ l with file := file, tail := tail } : FindingLine).Valid style) ∧
      ∀ file, { f with file := String.ofList file } =
        ({ l with file := file } : FindingLine).finding := by
  unfold after? at h
  simp only [Option.bind_eq_bind, Option.bind_eq_some_iff] at h
  obtain ⟨⟨line, rest⟩, hline, ⟨column, rest'⟩, hcolumn, h⟩ := h
  obtain ⟨rfl, hlineRun⟩ := number?_eq_some hline
  obtain ⟨rfl, hcolumnRun⟩ := number?_eq_some hcolumn
  simp only [] at h
  split at h
  · next spaced =>
    split at h
    · next hblank =>
      simp only [Option.bind_eq_some_iff] at h
      obtain ⟨⟨severity, framed⟩, hseverity, message, hmessage, hfinding⟩ := h
      obtain ⟨hmem, hspaced⟩ := severity?_eq_some hseverity
      obtain ⟨rfl, hlength, hhead⟩ := message?_eq_some hmessage
      obtain ⟨gap, hgap, hgapBlank⟩ := exists_append_trimStart spaced
      have hgapRun : IsRun isBlank gap := by
        refine ⟨?_, hgapBlank⟩
        rintro rfl
        -- without a gap the severity would begin with a blank
        rw [List.nil_append] at hgap
        cases hs : spaced with
        | nil => simp [hs] at hblank
        | cons c cs =>
          have hc : isBlank c = true := by simpa [hs] using hblank
          have hdrop : trimStart spaced = trimStart cs := by
            rw [hs, trimStart, List.dropWhile_cons_of_pos hc]
            rfl
          have hle : (trimStart cs).length ≤ cs.length := (List.dropWhile_suffix _).length_le
          have hlen := congrArg List.length hgap
          rw [hdrop, hs, List.length_cons] at hlen
          omega
      rw [hspaced] at hgap
      have hframed : framed.getLast?.any isBlank = true := by
        have hne : framed ≠ [] := by
          rintro rfl
          simp at hlength
        have hsuffix : ':' :: line ++ (':' :: column ++ ':' :: spaced) =
            (':' :: line ++ ':' :: column ++ ':' :: gap ++ severity.toList ++ [':']) ++ framed := by
          simp [hgap]
        rwa [hsuffix, List.getLast?_append_of_ne_nil _ hne] at hlast
      refine ⟨⟨[], line, column, gap, severity, framed, checker, []⟩, ?_, rfl, ?_, ?_⟩
      · simp [middle, hgap]
      · intro file hfile tail htail
        exact ⟨hfile, hlineRun, hcolumnRun, hgapRun, hmem, hlength, hhead, hframed, hcheck, htail⟩
      · intro file
        rw [← Option.some.inj hfinding]
        rfl
    · simp at h
  · simp at h

/-- The file that is found is some beginning of what is searched. -/
theorem findingFrom?_eq_some {checker front text : List Char} {f : Finding}
    (h : style.findingFrom? checker front text = some f) :
    ∃ file rest g, front.reverse ++ text = file ++ rest ∧ rest ≠ [] ∧ rest <:+ text ∧
      (file = [] → style.allowsNoFile = true) ∧ style.after? checker rest = some g ∧
      f = { g with file := String.ofList file } := by
  -- each step of the search moves one character from `text` to `front`
  induction text generalizing front with
  | nil => simp [findingFrom?] at h
  | cons c rest ih =>
    rw [findingFrom?] at h
    split at h
    · next g hfound =>
      split at hfound
      · simp at hfound
      · next hallowed =>
        refine ⟨front.reverse, c :: rest, g, rfl, by simp, List.suffix_refl _, ?_, hfound,
          (Option.some.inj h).symm⟩
        intro hfront
        rw [not_and, Bool.not_eq_true, Bool.not_eq_false] at hallowed
        exact hallowed (List.reverse_eq_nil_iff.mp hfront)
    · obtain ⟨file, tail, g, heq, hne, hsuffix, hrest⟩ := ih h
      refine ⟨file, tail, g, ?_, hne, hsuffix.trans (List.suffix_cons c rest), hrest⟩
      rw [← heq]
      simp

end LineStyle

/-- **A line in which a style finds something is made of the pieces that the style asks for**, and
the finding is read off them. -/
theorem FindingLine.of_finding? {style : LineStyle} {line : List Char} {f : Finding}
    (h : style.finding? line = some f) :
    ∃ l : FindingLine, l.Valid style ∧ l.text = line ∧ l.finding = f := by
  unfold LineStyle.finding? at h
  split at h
  · next body checker hending =>
    obtain ⟨tail, rfl, hlast, hcheck, htail⟩ := LineStyle.ending?_eq_some hending
    obtain ⟨file, rest, g, hbody, hne, hsuffix, hfile, hafter, rfl⟩ :=
      LineStyle.findingFrom?_eq_some h
    rw [List.reverse_nil, List.nil_append] at hbody
    have hlast' : rest.getLast?.any isBlank = true := by
      rwa [hbody, List.getLast?_append_of_ne_nil _ hne] at hlast
    obtain ⟨l, hmiddle, hchecker, hvalid, hfinding⟩ :=
      LineStyle.after?_eq_some hcheck hlast' hafter
    refine ⟨{ l with file := file, tail := tail }, hvalid file hfile tail htail, ?_, ?_⟩
    · show file ++ l.middle ++ '[' :: l.checker ++ ']' :: tail = _
      rw [hmiddle, hchecker, hbody]
    · exact (hfinding file).symm
  · simp at h

end Ripple
