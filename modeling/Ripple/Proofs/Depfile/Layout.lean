import Ripple.Proofs.Depfile.Continuations
import Ripple.Proofs.Names
import Ripple.Proofs.Text.Blank

/-!
# The layout of a dependency record

`RecordText` is a record taken apart: a target, dependencies, and what stands around them, which is
blank characters and continuations in any order (`IsSpacing`). However a record is laid out, reading
it gives the target and the dependencies (`RecordText.parse?_text`). A record that was read can be
written on one line (`DependencyRecord.line`) and read again.
-/

namespace Ripple

open Text Depfile

namespace Depfile

/-! ## What stands around targets and dependencies -/

/-- Blank characters and continuations in any order. -/
inductive IsSpacing : List Char → Prop
  | nil : IsSpacing []
  | blank {c : Char} {rest : List Char} (hc : isBlank c = true) (h : IsSpacing rest) :
      IsSpacing (c :: rest)
  | continuation {rest : List Char} (h : IsSpacing rest) : IsSpacing ('\\' :: '\n' :: rest)
  | continuationReturn {rest : List Char} (h : IsSpacing rest) :
      IsSpacing ('\\' :: '\r' :: '\n' :: rest)

/-- What a target can be. -/
structure IsTarget (target : List Char) : Prop where
  ne_nil : target ≠ []
  trimmed : IsTrimmed target
  no_colon : ':' ∉ target
  not_continued : ¬ Continued target

instance (target : List Char) : Decidable (IsTarget target) :=
  decidable_of_iff (target ≠ [] ∧ IsTrimmed target ∧ ':' ∉ target ∧ ¬ Continued target)
    ⟨fun h => ⟨h.1, h.2.1, h.2.2.1, h.2.2.2⟩,
      fun h => ⟨h.ne_nil, h.trimmed, h.no_colon, h.not_continued⟩⟩

theorem ne_backslash_of_isBlank {c : Char} (hc : isBlank c = true) : c ≠ '\\' := by
  rintro rfl
  exact absurd hc (by decide)

/-- Joining continued lines in spacing does not depend on what follows. -/
theorem IsSpacing.onePass_append {spacing : List Char} (h : IsSpacing spacing) (back : List Char) :
    onePass (spacing ++ back) = onePass spacing ++ onePass back := by
  induction h with
  | nil => rfl
  | blank hc h ih =>
    rw [List.cons_append, onePass_cons_of_ne (ne_backslash_of_isBlank hc),
      onePass_cons_of_ne (ne_backslash_of_isBlank hc), ih, List.cons_append]
  | continuation h ih | continuationReturn h ih =>
    simp only [List.cons_append, onePass, ih]

/-- **Spacing comes to blanks.** -/
theorem IsSpacing.isBlank_of_mem {spacing : List Char} (h : IsSpacing spacing) :
    ∀ c ∈ onePass spacing, isBlank c = true := by
  induction h with
  | nil => simp [onePass]
  | blank hc h ih =>
    rw [onePass_cons_of_ne (ne_backslash_of_isBlank hc)]
    exact List.forall_mem_cons.mpr ⟨hc, ih⟩
  | continuation h ih | continuationReturn h ih =>
    rw [onePass]
    exact List.forall_mem_cons.mpr ⟨by decide, ih⟩

theorem onePass_ne_nil {text : List Char} (h : text ≠ []) : onePass text ≠ [] := by
  unfold onePass
  split
  · exact absurd rfl h
  all_goals exact List.cons_ne_nil _ _

/-! ## Words and targets among spacing -/

theorem not_continued_of_not_mem {text : List Char} (h : '\n' ∉ text) : ¬ Continued text := by
  rintro (hc | hc)
  · exact h (hc.subset (by simp))
  · exact h (hc.subset (by simp))

theorem not_mem_of_isWord {word : List Char} (hword : IsWord word) {c : Char}
    (hc : isBlank c = true) : c ∉ word := by
  intro hmem
  rw [hword.solid c hmem] at hc
  cases hc

/-- What ends neither in a backslash nor in a blank is apart from whatever follows. -/
theorem apart_of_last {text : List Char} (hblank : ∀ c ∈ text.getLast?, isBlank c = false)
    (hlast : text.getLast? ≠ some '\\') (back : List Char) : Apart text back := by
  refine .inl fun c hc => ⟨?_, ?_⟩
  · rintro rfl
    exact hlast hc
  · rintro rfl
    exact absurd (hblank '\r' hc) (by decide)

theorem onePass_word_append {word : List Char} (hword : IsWord word)
    (hlast : word.getLast? ≠ some '\\') (back : List Char) :
    onePass (word ++ back) = word ++ onePass back := by
  refine onePass_append (not_continued_of_not_mem (not_mem_of_isWord hword (by decide))) ?_
  exact apart_of_last (fun c hc => hword.solid c (List.mem_of_getLast? hc)) hlast back

/-- **The words of a list of words with spacing between them are those words.** -/
theorem words_onePass {first atEnd : List Char} {more : List (List Char × List Char)}
    (hfirst : IsWord first ∧ first.getLast? ≠ some '\\')
    (hmore : ∀ x ∈ more, IsSpacing x.1 ∧ x.1 ≠ [] ∧ IsWord x.2 ∧ x.2.getLast? ≠ some '\\')
    (hend : IsSpacing atEnd) :
    words (onePass (first ++ (more.flatMap (fun x => x.1 ++ x.2) ++ atEnd))) =
      first :: more.map Prod.snd := by
  rw [onePass_word_append hfirst.1 hfirst.2]
  -- the word that is now in front takes the place of `first`
  induction more generalizing first with
  | nil => exact words_isWord_append_blanks hfirst.1 hend.isBlank_of_mem
  | cons x more ih =>
    obtain ⟨hgap, hne, hword⟩ := hmore x List.mem_cons_self
    rw [List.flatMap_cons, List.append_assoc, List.append_assoc, hgap.onePass_append,
      words_append_blanks hgap.isBlank_of_mem (onePass_ne_nil hne), words_of_isWord hfirst.1,
      onePass_word_append hword.1 hword.2,
      ih hword fun y hy => hmore y (List.mem_cons_of_mem _ hy)]
    rfl

/-! ## Reading -/

/-- A text holds a record exactly when it has a colon with a target before and words behind it. -/
theorem recordOf?_eq_some_iff {joined : List Char} {r : DependencyRecord} :
    recordOf? joined = some r ↔
      ∃ before after, joined = before ++ ':' :: after ∧ ':' ∉ before ∧ trim before ≠ [] ∧
        words after ≠ [] ∧
        r = ⟨String.ofList (trim before), Names.ofList ((words after).map String.ofList)⟩ := by
  unfold recordOf?
  constructor
  · intro h
    split at h
    · cases h
    · next before after hcut =>
      simp only [] at h
      split at h
      · cases h
      · next hsome =>
        rw [not_or] at hsome
        obtain ⟨hjoined, hcolon⟩ := splitOnce_eq_some_iff.mp hcut
        exact ⟨before, after, hjoined, hcolon, hsome.1, hsome.2, (Option.some.inj h).symm⟩
  · rintro ⟨before, after, hjoined, hcolon, htarget, hwords, rfl⟩
    rw [splitOnce_eq_some_iff.mpr ⟨hjoined, hcolon⟩]
    exact if_neg (not_or.mpr ⟨htarget, hwords⟩)

theorem parse?_eq_recordOf? (text : List Char) : parse? text = recordOf? (onePass text) := by
  rw [parse?, joinContinuations_eq_onePass]

/-- What is read as a target can be one. -/
theorem isTarget_trim {joined before after : List Char} (hjoined : joined = before ++ ':' :: after)
    (hcolon : ':' ∉ before) (hne : trim before ≠ []) (hcont : ¬ Continued joined) :
    IsTarget (trim before) where
  ne_nil := hne
  trimmed := isTrimmed_trim before
  no_colon h := hcolon ((infix_trim before).subset h)
  not_continued h := by
    have hinfix : trim before <:+: joined :=
      (infix_trim before).trans (hjoined ▸ (List.prefix_append before _).isInfix)
    exact hcont (h.imp (·.trans hinfix) (·.trans hinfix))

end Depfile

/-- The pieces of a text that holds a record. -/
structure RecordText where
  before : List Char
  target : List Char
  beforeColon : List Char
  afterColon : List Char
  first : List Char
  /-- Each further dependency, with the gap in front of it. -/
  more : List (List Char × List Char)
  atEnd : List Char

namespace RecordText

/-- The dependencies in the order in which they stand. -/
def dependencies (l : RecordText) : List (List Char) := l.first :: l.more.map Prod.snd

/-- What stands behind the colon. -/
def listing (l : RecordText) : List Char :=
  l.afterColon ++ (l.first ++ (l.more.flatMap (fun x => x.1 ++ x.2) ++ l.atEnd))

/-- The text. -/
def text (l : RecordText) : List Char :=
  l.before ++ (l.target ++ (l.beforeColon ++ ':' :: l.listing))

/-- What the text says. -/
def record (l : RecordText) : DependencyRecord where
  target := String.ofList l.target
  dependencies := Names.ofList (l.dependencies.map String.ofList)

/-- There is spacing around a target and words, of which none ends in a backslash. -/
structure Valid (l : RecordText) : Prop where
  before : IsSpacing l.before
  target : IsTarget l.target
  target_last : l.target.getLast? ≠ some '\\'
  beforeColon : IsSpacing l.beforeColon
  afterColon : IsSpacing l.afterColon
  dependencies : ∀ d ∈ l.dependencies, IsWord d ∧ d.getLast? ≠ some '\\'
  gaps : ∀ x ∈ l.more, IsSpacing x.1 ∧ x.1 ≠ []
  atEnd : IsSpacing l.atEnd

variable {l : RecordText}

theorem Valid.words_listing (h : l.Valid) : words (onePass l.listing) = l.dependencies := by
  have hmore : ∀ x ∈ l.more,
      IsSpacing x.1 ∧ x.1 ≠ [] ∧ IsWord x.2 ∧ x.2.getLast? ≠ some '\\' := by
    intro x hx
    obtain ⟨hgap, hne⟩ := h.gaps x hx
    exact ⟨hgap, hne, h.dependencies x.2 (List.mem_cons_of_mem _ (List.mem_map_of_mem hx))⟩
  rw [listing, h.afterColon.onePass_append, words_blanks_append h.afterColon.isBlank_of_mem,
    words_onePass (h.dependencies l.first List.mem_cons_self) hmore h.atEnd]
  rfl

theorem Valid.onePass_text (h : l.Valid) :
    onePass l.text = (onePass l.before ++ (l.target ++ onePass l.beforeColon)) ++
      ':' :: onePass l.listing := by
  have htarget : onePass (l.target ++ (l.beforeColon ++ ':' :: l.listing)) =
      l.target ++ onePass (l.beforeColon ++ ':' :: l.listing) :=
    onePass_append h.target.not_continued (apart_of_last h.target.trimmed.last h.target_last _)
  rw [text, h.before.onePass_append, htarget, h.beforeColon.onePass_append,
    onePass_cons_of_ne (by decide)]
  simp only [List.append_assoc]

/-- **However a record is laid out, it is read.** -/
theorem parse?_text (h : l.Valid) : parse? l.text = some l.record := by
  have htrim : trim (onePass l.before ++ (l.target ++ onePass l.beforeColon)) = l.target :=
    trim_between h.before.isBlank_of_mem h.target.trimmed h.target.ne_nil
      h.beforeColon.isBlank_of_mem
  have hcolon {spacing : List Char} (hs : IsSpacing spacing) : ':' ∉ onePass spacing := by
    intro hmem
    exact absurd (hs.isBlank_of_mem ':' hmem) (by decide)
  rw [parse?_eq_recordOf?, recordOf?_eq_some_iff]
  refine ⟨_, _, h.onePass_text, ?_, ?_, ?_, ?_⟩
  · simp only [List.mem_append, not_or]
    exact ⟨hcolon h.before, h.target.no_colon, hcolon h.beforeColon⟩
  · rw [htrim]
    exact h.target.ne_nil
  · rw [h.words_listing]
    exact List.cons_ne_nil _ _
  · rw [htrim, h.words_listing, record]

end RecordText

/-! ## Records on one line -/

namespace DependencyRecord

/-- A record on one line, its dependencies in ascending order. -/
def line (r : DependencyRecord) : List Char :=
  r.target.toList ++ ':' :: r.dependencies.toList.flatMap fun d => ' ' :: d.toList

/-- What a record that was read consists of. -/
structure WellFormed (r : DependencyRecord) : Prop where
  target : IsTarget r.target.toList
  nonempty : r.dependencies ≠ ∅
  words : ∀ d ∈ r.dependencies, IsWord d.toList

end DependencyRecord

namespace Depfile

theorem words_flatMap_blank {names : List String} (h : ∀ d ∈ names, IsWord d.toList) :
    words (names.flatMap fun d => ' ' :: d.toList) = names.map String.toList := by
  have hblank : isBlank ' ' = true := by decide
  induction names with
  | nil => rfl
  | cons d names ih =>
    have hd := words_of_isWord (h d List.mem_cons_self)
    rw [List.flatMap_cons, List.cons_append, words_cons_blank hblank, List.map_cons,
      ← ih fun e he => h e (List.mem_cons_of_mem _ he)]
    cases names with
    | nil => simpa using hd
    | cons e names =>
      rw [List.flatMap_cons, List.cons_append, words_append_blank hblank, hd,
        words_cons_blank hblank]
      rfl

/-- **What was read is well formed.** -/
theorem wellFormed_of_parse? {text : List Char} {r : DependencyRecord} (h : parse? text = some r) :
    r.WellFormed := by
  rw [parse?_eq_recordOf?, recordOf?_eq_some_iff] at h
  obtain ⟨before, after, hjoined, hcolon, htarget, hwords, rfl⟩ := h
  refine ⟨?_, ?_, ?_⟩
  · show IsTarget (String.ofList (trim before)).toList
    rw [String.toList_ofList]
    exact isTarget_trim hjoined hcolon htarget (not_continued_onePass text)
  · obtain ⟨word, others, hcons⟩ := List.exists_cons_of_ne_nil hwords
    have hmem : String.ofList word ∈ Names.ofList ((words after).map String.ofList) := by
      rw [Names.mem_ofList, hcons]
      exact List.mem_map_of_mem List.mem_cons_self
    rintro hempty
    simp only [] at hempty
    rw [hempty] at hmem
    exact Std.ExtTreeSet.not_mem_empty hmem
  · intro d hd
    rw [Names.mem_ofList, List.mem_map] at hd
    obtain ⟨word, hword, rfl⟩ := hd
    rw [String.toList_ofList]
    exact isWord_of_mem_words hword

/-- **A well-formed record is read from its line.** -/
theorem parse?_line {r : DependencyRecord} (h : r.WellFormed) : parse? r.line = some r := by
  have hwords : ∀ d ∈ r.dependencies.toList, IsWord d.toList := by
    intro d hd
    exact h.words d (Std.ExtTreeSet.mem_toList.mp hd)
  have hne : r.dependencies.toList ≠ [] := by
    intro hempty
    apply h.nonempty
    rw [← Names.ofList_toList r.dependencies, hempty]
    rfl
  have hrest : onePass (r.dependencies.toList.flatMap fun d => ' ' :: d.toList) =
      r.dependencies.toList.flatMap fun d => ' ' :: d.toList := by
    refine onePass_eq_self (not_continued_of_not_mem ?_)
    rw [List.mem_flatMap]
    rintro ⟨d, hd, hmem⟩
    rcases List.mem_cons.mp hmem with hblank | hmem
    · cases hblank
    · exact not_mem_of_isWord (hwords d hd) (by decide) hmem
  have hline : onePass r.line = r.line := by
    rw [DependencyRecord.line, onePass_append h.target.not_continued (.inr (by simp)),
      onePass_cons_of_ne (by decide), hrest]
  rw [parse?_eq_recordOf?, recordOf?_eq_some_iff, hline]
  refine ⟨_, _, rfl, h.target.no_colon, ?_, ?_, ?_⟩
  · rw [trim_eq_self h.target.trimmed]
    exact h.target.ne_nil
  · rw [words_flatMap_blank hwords]
    simpa using hne
  · rw [trim_eq_self h.target.trimmed, words_flatMap_blank hwords, List.map_map]
    simp

/-- **Dependency records survive being laid out and being written.** A record is read from every
layout of it, and what is read is well formed and is read again from the line it is written on. -/
theorem parse?_roundtrip :
    (∀ l : RecordText, l.Valid → parse? l.text = some l.record) ∧
      ∀ text r, parse? text = some r →
        IsTarget r.target.toList ∧ r.dependencies ≠ ∅ ∧ (∀ d ∈ r.dependencies, IsWord d.toList) ∧
          parse? r.line = some r := by
  refine ⟨fun l => l.parse?_text, fun text r h => ?_⟩
  have hwell := wellFormed_of_parse? h
  exact ⟨hwell.target, hwell.nonempty, hwell.words, parse?_line hwell⟩

/-- A record over five lines. One of its dependencies stands there twice. -/
def overLines : RecordText where
  before := ['\\', '\n', ' ']
  target := "my utils.o".toList
  beforeColon := ['\\', '\r', '\n', '\t']
  afterColon := []
  first := "C:/utils.c".toList
  more := [(['\\', '\n'], "a\\b.h".toList), (['\n', ' '], "C:/utils.c".toList)]
  atEnd := ['\\', '\n']

theorem overLines_valid : overLines.Valid where
  before := .continuation (.blank (by decide) .nil)
  target := by decide
  target_last := by decide
  beforeColon := .continuationReturn (.blank (by decide) .nil)
  afterColon := .nil
  dependencies := by decide
  gaps := by
    simp only [overLines, List.forall_mem_cons]
    refine ⟨⟨.continuation .nil, by decide⟩, ⟨?_, by decide⟩, by simp⟩
    exact .blank (by decide) (.blank (by decide) .nil)
  atEnd := .continuation .nil

/-- The record over five lines is read, and a target and dependencies that end in backslashes can be
written on one line. -/
theorem parse?_roundtrip_overLines :
    parse? overLines.text = some overLines.record ∧
      let r : DependencyRecord := ⟨"a\\", Names.ofList ["b:\\", "c"]⟩
      parse? "a\\ : b:\\\tc\\\n".toList = some r ∧ parse? r.line = some r := by
  have hread : parse? "a\\ : b:\\\tc\\\n".toList =
      some ⟨"a\\", Names.ofList ["b:\\", "c"]⟩ := rfl
  exact ⟨parse?_roundtrip.1 _ overLines_valid, hread, (parse?_roundtrip.2 _ _ hread).2.2.2⟩

end Depfile

end Ripple
