import Mathlib.Order.WellFounded
import Ripple.Proofs.Finding.Grammar
import Ripple.Scanner.ClangTidy
import Ripple.Scanner.Cppcheck

/-!
# Which finding a line shows

Files and messages may hold colons, digits, brackets and severities, so a line can often be taken
apart in more than one way. All that is left open is where the file ends: once that is known, each
piece ends at the first character that cannot belong to it. The shortest file counts
(`LineStyle.finding?_eq_some_iff`), and the findings in a text are those of its lines, in order
(`LineStyle.findings_iff_shown`).
-/

namespace Ripple

open Text

/-! ## Numbers -/

/-- What a run of digits counts for: the number that ASCII digits write in base ten if it fits into
32 bits, and zero otherwise. -/
def worth (digits : List Char) : Nat :=
  if digits.all Char.isDigit ∧ Nat.ofDigitChars 10 digits 0 < UInt32.size then
    Nat.ofDigitChars 10 digits 0
  else 0

theorem digitValue?_eq (c : Char) :
    digitValue? c = if c.isDigit then some (c.toNat - '0'.toNat) else none := by
  have hdigit : ('0' ≤ c ∧ c ≤ '9') ↔ c.isDigit = true := by
    rw [Char.isDigit, Bool.and_eq_true, decide_eq_true_iff, decide_eq_true_iff]
    exact Iff.rfl
  unfold digitValue?
  simp only [hdigit]

theorem digitsValue?_eq (value : Nat) (digits : List Char) :
    digitsValue? value digits =
      if digits.all Char.isDigit then some (Nat.ofDigitChars 10 digits value) else none := by
  induction digits generalizing value with
  | nil => simp [digitsValue?]
  | cons c digits ih =>
    rw [digitsValue?, digitValue?_eq, Nat.ofDigitChars_cons, List.all_cons]
    cases hc : c.isDigit with
    | true => exact ih _
    | false => simp

/-- A number without a sign in front is read if it has ASCII digits only and is not too large. -/
theorem readNumber_eq (bound : Nat) {c : Char} (hc : c ≠ '+') (rest : List Char) :
    readNumber bound (c :: rest) =
      if (c :: rest).all Char.isDigit ∧ Nat.ofDigitChars 10 (c :: rest) 0 < bound then
        some (Nat.ofDigitChars 10 (c :: rest) 0)
      else none := by
  unfold readNumber
  extract_lets unsigned
  have hunsigned : unsigned = c :: rest := by
    unfold unsigned
    split
    · next heq => exact absurd (List.cons.inj heq).1 hc
    · rfl
  rw [hunsigned, if_neg (List.cons_ne_nil c rest), digitsValue?_eq]
  by_cases hall : (c :: rest).all Char.isDigit = true
  · simp only [hall, if_true, true_and]
  · rw [if_neg hall, if_neg fun h => hall h.1]

namespace LineStyle

open FindingLine

/-- A finding has the number that the digits count for. -/
theorem toNat_numberValue {digits : List Char} (h : IsRun isDecimalDigit digits) :
    (numberValue digits).toNat = worth digits := by
  obtain ⟨c, rest, rfl⟩ := List.exists_cons_of_ne_nil h.1
  have hplus : c ≠ '+' := by
    rintro rfl
    exact absurd (h.2 '+' List.mem_cons_self) (by decide)
  unfold numberValue worth
  rw [readNumber_eq _ hplus]
  split
  · next hfits => exact UInt32.toNat_ofNat_of_lt' hfits.2
  · rfl

/-! ## Pieces that are found again -/

/-- The pieces of a line can be told apart: a severity neither begins with a blank nor has a colon,
and the name of a checker has no opening bracket. -/
structure Unambiguous (style : LineStyle) : Prop where
  severity_head : ∀ severity ∈ style.severities, severity.toList.head?.any isBlank = false
  severity_colon : ∀ severity ∈ style.severities, ':' ∉ severity.toList
  bracket : style.isCheckerChar '[' = false

/-- The characters of a kind at the start of a text end where one of another kind follows. -/
theorem span_append {kind : Char → Bool} {run rest : List Char} (hrun : ∀ c ∈ run, kind c = true)
    (hrest : rest.head?.any kind = false) :
    (run ++ rest).takeWhile kind = run ∧ (run ++ rest).dropWhile kind = rest := by
  rw [List.takeWhile_append_of_pos hrun, List.dropWhile_append_of_pos hrun]
  cases rest with
  | nil => simp
  | cons c rest =>
    have hc : ¬ kind c = true := by simpa using hrest
    rw [List.takeWhile_cons_of_neg hc, List.dropWhile_cons_of_neg hc, List.append_nil]
    exact ⟨rfl, rfl⟩

theorem number?_append {digits rest : List Char} (h : IsRun isDecimalDigit digits)
    (hrest : rest.head?.any isDecimalDigit = false) :
    number? (':' :: digits ++ rest) = some (digits, rest) := by
  obtain ⟨htake, hdrop⟩ := span_append h.2 hrest
  rw [List.cons_append, number?]
  simp only [htake, hdrop, if_neg h.1]

variable {style : LineStyle}

theorem severity?_append (hstyle : style.Unambiguous) {severity : String}
    (h : severity ∈ style.severities) (rest : List Char) :
    style.severity? (severity.toList ++ ':' :: rest) = some (severity, rest) := by
  -- a severity ends at the first colon, so no other one in the list can come first
  have hsame : ∀ s ∈ style.severities, s.toList ++ [':'] <+: severity.toList ++ ':' :: rest →
      s = severity := by
    rintro s hs ⟨after, heq⟩
    rw [List.append_assoc, List.singleton_append] at heq
    exact String.toList_injective
      (append_mark_inj (hstyle.severity_colon s hs) (hstyle.severity_colon severity h) heq).1
  unfold severity?
  cases hfound : style.severities.findSome? _ with
  | none =>
    have hnone := List.findSome?_eq_none_iff.mp hfound severity h
    simp at hnone
  | some found =>
    obtain ⟨s, hs, hsome⟩ := List.exists_of_findSome?_eq_some hfound
    simp only [] at hsome
    split at hsome
    · next hprefix =>
      obtain rfl := hsame s hs (List.isPrefixOf_iff_prefix.mp hprefix)
      rw [← hsome]
      simp
    · cases hsome

theorem ending?_append (hstyle : style.Unambiguous) {before checker tail : List Char}
    (hbefore : before.getLast?.any isBlank = true) (hchecker : IsRun style.isCheckerChar checker)
    (htail : ∀ c ∈ tail, isBlank c = true) :
    style.ending? (before ++ '[' :: checker ++ ']' :: tail) = some (before, checker) := by
  have htrim : (trimEnd (before ++ '[' :: checker ++ ']' :: tail)).reverse =
      ']' :: (checker.reverse ++ '[' :: before.reverse) := by
    have hbracket : isBlank ']' = false := by decide
    have hreverse : (before ++ '[' :: checker ++ ']' :: tail).reverse =
        tail.reverse ++ ']' :: (checker.reverse ++ '[' :: before.reverse) := by simp
    rw [trimEnd, List.reverse_reverse, hreverse]
    exact (span_append (fun c hc => htail c (List.mem_reverse.mp hc)) (by simpa using hbracket)).2
  have hopening : ('[' :: before.reverse).head?.any style.isCheckerChar = false := by
    simpa using hstyle.bracket
  obtain ⟨htake, hdrop⟩ :=
    span_append (fun c hc => hchecker.2 c (List.mem_reverse.mp hc)) hopening
  unfold ending?
  rw [htrim]
  simp only [htake, hdrop, List.reverse_reverse, List.head?_reverse]
  exact if_pos ⟨hchecker.1, hbefore⟩

theorem message?_of_two_le {framed : List Char} (hlength : 2 ≤ framed.length)
    (hhead : framed.head?.any isBlank = true) : message? framed = some (trim framed) := by
  match framed, hlength with
  | first :: second :: rest, _ => exact if_pos (by simpa using hhead)

/-- What is told between the file and the brackets is found again. -/
theorem after?_middle (hstyle : style.Unambiguous) {l : FindingLine} (h : l.Valid style) :
    style.after? l.checker l.middle = some { l.finding with file := "" } := by
  have hcolon : isDecimalDigit ':' = false := by decide
  have hgap : (l.gap ++ (l.severity.toList ++ ':' :: l.framed)).head?.any isBlank = true := by
    obtain ⟨c, rest, hcons⟩ := List.exists_cons_of_ne_nil h.gap.1
    rw [hcons]
    exact h.gap.2 c (by rw [hcons]; exact List.mem_cons_self)
  have htrim : trimStart (l.gap ++ (l.severity.toList ++ ':' :: l.framed)) =
      l.severity.toList ++ ':' :: l.framed := by
    refine (span_append h.gap.2 ?_).2
    have hhead := hstyle.severity_head l.severity h.severity
    cases hs : l.severity.toList with
    | nil =>
      have hblank : isBlank ':' = false := by decide
      simpa using hblank
    | cons c rest => rwa [hs] at hhead
  have hmiddle : l.middle = ':' :: l.line ++ (':' :: l.column ++
      ':' :: (l.gap ++ (l.severity.toList ++ ':' :: l.framed))) := by simp [middle]
  unfold after?
  rw [hmiddle, number?_append h.line (by simpa using hcolon)]
  simp only [Option.bind_eq_bind, Option.bind_some]
  rw [number?_append h.column (by simpa using hcolon)]
  simp only [Option.bind_some, hgap, if_true, htrim, severity?_append hstyle h.severity,
    message?_of_two_le h.framed_length h.framed_head]
  rfl

/-- The search ends at the first place where what is told of a finding may begin. -/
theorem findingFrom?_append (front : List Char) {checker file rest : List Char} {f : Finding}
    (hrest : rest ≠ []) (hfile : front ++ file = [] → style.allowsNoFile = true)
    (hfound : style.after? checker rest = some f)
    (hfirst : ∀ before c after, file = before ++ c :: after →
      (front ++ before = [] → style.allowsNoFile = true) →
      style.after? checker (c :: after ++ rest) = none) :
    style.findingFrom? checker front (file ++ rest) =
      some { f with file := String.ofList (front.reverse ++ file) } := by
  induction file generalizing front with
  | nil =>
    obtain ⟨c, after, rfl⟩ := List.exists_cons_of_ne_nil hrest
    have hallowed : ¬(front = [] ∧ ¬ style.allowsNoFile = true) := fun h =>
      h.2 (hfile (by simp [h.1]))
    rw [List.nil_append, findingFrom?]
    simp only [if_neg hallowed, hfound, List.append_nil]
  | cons c file ih =>
    have hnone : (if front = [] ∧ ¬ style.allowsNoFile = true then none
        else style.after? checker (c :: (file ++ rest))) = none := by
      split
      · rfl
      · next hallowed =>
        refine hfirst [] c file rfl fun hfront => ?_
        rw [List.append_nil] at hfront
        exact not_not.mp fun h => hallowed ⟨hfront, h⟩
    have hnext := ih (c :: front) (by simp) fun before d after hsplit _ =>
      hfirst (c :: before) d after (by rw [hsplit, List.cons_append]) (by simp)
    rw [List.cons_append, findingFrom?]
    simp only [hnone, hnext, List.reverse_cons, List.append_assoc, List.singleton_append]

end LineStyle

/-! ## The shortest file -/

namespace FindingLine

variable {style : LineStyle} {line : List Char}

/-- The line has these pieces, and no other pieces of it have a shorter file. -/
structure Shortest (style : LineStyle) (line : List Char) (l : FindingLine) : Prop where
  valid : l.Valid style
  text_eq : l.text = line
  le : ∀ l' : FindingLine, l'.Valid style → l'.text = line → l.file.length ≤ l'.file.length

/-- Of all the pieces that a line has, some have the shortest file. -/
theorem exists_shortest {l : FindingLine} (h : l.Valid style) (htext : l.text = line) :
    ∃ l', Shortest style line l' := by
  obtain ⟨l', ⟨hvalid, htext'⟩, hmin⟩ := (measure fun l' : FindingLine => l'.file.length).wf.has_min
    {l' | l'.Valid style ∧ l'.text = line} ⟨l, h, htext⟩
  exact ⟨l', hvalid, htext', fun l'' h'' heq => Nat.le_of_not_lt (hmin l'' ⟨h'', heq⟩)⟩

/-- What the pieces of a line say about a finding. -/
structure Says (l : FindingLine) (f : Finding) : Prop where
  file : f.file = String.ofList l.file
  line : f.line.toNat = worth l.line
  column : f.column.toNat = worth l.column
  severity : f.severity = l.severity
  message : f.message = String.ofList (trim l.framed)
  checker : f.checker = String.ofList l.checker

theorem Valid.says_iff {l : FindingLine} (h : l.Valid style) {f : Finding} :
    l.Says f ↔ l.finding = f := by
  have hline : (LineStyle.numberValue l.line).toNat = worth l.line :=
    LineStyle.toNat_numberValue h.line
  have hcolumn : (LineStyle.numberValue l.column).toNat = worth l.column :=
    LineStyle.toNat_numberValue h.column
  constructor
  · rintro ⟨hfile, hfline, hfcolumn, hseverity, hmessage, hchecker⟩
    have hfline' : LineStyle.numberValue l.line = f.line := by
      rw [← UInt32.toNat_inj, hline, hfline]
    have hfcolumn' : LineStyle.numberValue l.column = f.column := by
      rw [← UInt32.toNat_inj, hcolumn, hfcolumn]
    rw [finding, hfline', hfcolumn', ← hfile, ← hseverity, ← hmessage, ← hchecker]
  · rintro rfl
    exact ⟨rfl, hline, hcolumn, rfl, rfl, rfl⟩

end FindingLine

namespace LineStyle

open FindingLine

variable {style : LineStyle}

/-- The pieces with the shortest file are the ones that are found. -/
theorem finding?_of_shortest (hstyle : style.Unambiguous) {line : List Char} {l : FindingLine}
    (h : Shortest style line l) : style.finding? line = some l.finding := by
  have hmiddle : l.middle ≠ [] := by simp [middle]
  have hlast : l.middle.getLast?.any isBlank = true := by
    have hne : l.framed ≠ [] := by
      intro hnil
      simpa [hnil] using h.valid.framed_length
    rw [middle, List.getLast?_append_of_ne_nil _ (List.cons_ne_nil _ _),
      List.getLast?_cons_of_ne_nil hne]
    exact h.valid.framed_last
  have hending : style.ending? line = some (l.file ++ l.middle, l.checker) := by
    rw [← h.text_eq, text]
    refine ending?_append hstyle ?_ h.valid.checker h.valid.tail
    rwa [List.getLast?_append_of_ne_nil _ hmiddle]
  have hfirst : ∀ before c after, l.file = before ++ c :: after →
      ([] ++ before = [] → style.allowsNoFile = true) →
      style.after? l.checker (c :: after ++ l.middle) = none := by
    intro before c after hsplit hallowed
    by_contra hne
    obtain ⟨f, hf⟩ := Option.ne_none_iff_exists'.mp hne
    -- a finding that begins inside the file would have a shorter one
    obtain ⟨l', hl'middle, hl'checker, hl'valid, -⟩ := after?_eq_some h.valid.checker
      (by rwa [List.getLast?_append_of_ne_nil _ hmiddle]) hf
    have hshorter := h.le { l' with file := before, tail := l.tail }
      (hl'valid before hallowed l.tail h.valid.tail) (by
        rw [← h.text_eq]
        show before ++ l'.middle ++ '[' :: l'.checker ++ ']' :: l.tail = l.text
        rw [hl'middle, hl'checker, text, hsplit]
        simp)
    rw [hsplit, List.length_append, List.length_cons] at hshorter
    have hlength : before.length + (after.length + 1) ≤ before.length := hshorter
    omega
  unfold finding?
  rw [hending]
  exact findingFrom?_append [] hmiddle h.valid.file (after?_middle hstyle h.valid) hfirst

/-- **A line shows a finding exactly if it has the pieces of one**, and the finding is what the
pieces with the shortest file say. -/
theorem finding?_eq_some_iff (hstyle : style.Unambiguous) {line : List Char} {f : Finding} :
    style.finding? line = some f ↔ ∃ l, Shortest style line l ∧ l.Says f := by
  constructor
  · intro h
    obtain ⟨l, hvalid, htext, -⟩ := FindingLine.of_finding? h
    obtain ⟨l', hl'⟩ := exists_shortest hvalid htext
    refine ⟨l', hl', hl'.valid.says_iff.mpr ?_⟩
    rw [finding?_of_shortest hstyle hl'] at h
    exact Option.some.inj h
  · rintro ⟨l, hl, hsays⟩
    rw [finding?_of_shortest hstyle hl, hl.valid.says_iff.mp hsays]

/-! ## All lines of a text -/

/-- The findings that lines show, told one line after the other. -/
inductive Shown (style : LineStyle) : List (List Char) → List Finding → Prop
  | nil : Shown style [] []
  | finding {line : List Char} {l : FindingLine} {f : Finding} {rest : List (List Char)}
      {found : List Finding} : Shortest style line l → l.Says f → Shown style rest found →
      Shown style (line :: rest) (f :: found)
  | nothing {line : List Char} {rest : List (List Char)} {found : List Finding} :
      (∀ l : FindingLine, l.Valid style → l.text ≠ line) → Shown style rest found →
      Shown style (line :: rest) found

theorem finding?_eq_none_iff (hstyle : style.Unambiguous) {line : List Char} :
    style.finding? line = none ↔ ∀ l : FindingLine, l.Valid style → l.text ≠ line := by
  constructor
  · intro h l hvalid htext
    obtain ⟨l', hl'⟩ := exists_shortest hvalid htext
    rw [finding?_of_shortest hstyle hl'] at h
    cases h
  · intro h
    by_contra hne
    obtain ⟨f, hf⟩ := Option.ne_none_iff_exists'.mp hne
    obtain ⟨l, hvalid, htext, -⟩ := FindingLine.of_finding? hf
    exact h l hvalid htext

theorem shown_iff (hstyle : style.Unambiguous) {lines : List (List Char)} {found : List Finding} :
    Shown style lines found ↔ lines.filterMap style.finding? = found := by
  constructor
  · intro h
    induction h with
    | nil => rfl
    | finding hl hsays _ ih =>
      rw [List.filterMap_cons_some ((finding?_eq_some_iff hstyle).mpr ⟨_, hl, hsays⟩), ih]
    | nothing hnone _ ih =>
      rw [List.filterMap_cons_none ((finding?_eq_none_iff hstyle).mpr hnone), ih]
  · rintro rfl
    induction lines with
    | nil => exact .nil
    | cons line rest ih =>
      cases hline : style.finding? line with
      | none =>
        rw [List.filterMap_cons_none hline]
        exact .nothing ((finding?_eq_none_iff hstyle).mp hline) ih
      | some f =>
        obtain ⟨l, hl, hsays⟩ := (finding?_eq_some_iff hstyle).mp hline
        rw [List.filterMap_cons_some hline]
        exact .finding hl hsays ih

end LineStyle

/-- The pieces of a line of the defect checker can be told apart. -/
theorem Cppcheck.unambiguous : style.Unambiguous := ⟨by decide, by decide, by decide⟩

/-- The pieces of a line of the linter can be told apart. -/
theorem ClangTidy.unambiguous : style.Unambiguous := ⟨by decide, by decide, by decide⟩

/-- **The findings in a text are those of its lines, in their order**: of each line that has the
pieces of a finding, the one that the pieces with the shortest file tell, and none of any other
line. -/
theorem LineStyle.findings_iff_shown (text : List Char) (found : List Finding) :
    (Cppcheck.style.findings text = found ↔ Shown Cppcheck.style (lines text) found) ∧
      (ClangTidy.style.findings text = found ↔ Shown ClangTidy.style (lines text) found) :=
  ⟨(shown_iff Cppcheck.unambiguous).symm, (shown_iff ClangTidy.unambiguous).symm⟩

end Ripple
