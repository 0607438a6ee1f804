import Ripple.Proofs.Text.Split
import Ripple.Text.Blank

/-!
# Blanks and words

What stands between the blanks of a text is its words: a blank character between two texts keeps
their words apart (`words_append_blank`), and everything else about words follows from that. Blanks
around a text that has none at its ends are taken off again (`trim_between`).
-/

namespace Ripple.Text

/-! ## Trimmed texts -/

/-- A text is its beginning up to the blanks at its end, and these. -/
theorem exists_trimEnd_append (text : List Char) :
    ∃ tail, text = trimEnd text ++ tail ∧ ∀ c ∈ tail, isBlank c = true := by
  refine ⟨(text.reverse.takeWhile isBlank).reverse, ?_, fun c hc => ?_⟩
  · unfold trimEnd
    rw [← List.reverse_append, List.takeWhile_append_dropWhile, List.reverse_reverse]
  · exact List.mem_takeWhile_imp (List.mem_reverse.mp hc)

/-- A text is the blanks at its beginning, and the rest. -/
theorem exists_append_trimStart (text : List Char) :
    ∃ gap, text = gap ++ trimStart text ∧ ∀ c ∈ gap, isBlank c = true := by
  refine ⟨text.takeWhile isBlank, ?_, fun c hc => List.mem_takeWhile_imp hc⟩
  unfold trimStart
  rw [List.takeWhile_append_dropWhile]

/-- The text neither begins nor ends with a blank character. -/
structure IsTrimmed (text : List Char) : Prop where
  head : ∀ c ∈ text.head?, isBlank c = false
  last : ∀ c ∈ text.getLast?, isBlank c = false

-- Not decided by the quantifiers: that could be by going through all characters there are.
instance (text : List Char) : Decidable (IsTrimmed text) :=
  decidable_of_iff (text.head?.all (!isBlank ·) ∧ text.getLast?.all (!isBlank ·))
    ⟨fun h => ⟨by simpa [Option.all_eq_true] using h.1, by simpa [Option.all_eq_true] using h.2⟩,
      fun h => by simpa [Option.all_eq_true] using And.intro h.head h.last⟩

theorem trimStart_of_head {text : List Char} (h : ∀ c ∈ text.head?, isBlank c = false) :
    trimStart text = text := by
  unfold trimStart
  cases text with
  | nil => rfl
  | cons c rest => rw [List.dropWhile_cons_of_neg (by simp [h c rfl])]

theorem trimEnd_of_last {text : List Char} (h : ∀ c ∈ text.getLast?, isBlank c = false) :
    trimEnd text = text := by
  unfold trimEnd
  rw [← List.head?_reverse] at h
  have hstart := trimStart_of_head h
  unfold trimStart at hstart
  rw [hstart, List.reverse_reverse]

/-- The rest after the blanks does not begin with one. -/
theorem head_trimStart (text : List Char) : ∀ c ∈ (trimStart text).head?, isBlank c = false := by
  intro c hc
  unfold trimStart at hc
  have hhead := List.head?_dropWhile_not isBlank text
  rw [Option.mem_def.mp hc] at hhead
  simpa using hhead

theorem last_trimEnd (text : List Char) : ∀ c ∈ (trimEnd text).getLast?, isBlank c = false := by
  intro c hc
  unfold trimEnd at hc
  rw [List.getLast?_reverse] at hc
  exact head_trimStart text.reverse c hc

/-- **What is left after trimming is trimmed.** -/
theorem isTrimmed_trim (text : List Char) : IsTrimmed (trim text) where
  head := by
    intro c hc
    obtain ⟨tail, htext, -⟩ := exists_trimEnd_append (trimStart text)
    refine head_trimStart text c ?_
    rw [htext, List.head?_append]
    unfold trim at hc
    rw [Option.mem_def.mp hc]
    rfl
  last := last_trimEnd (trimStart text)

theorem trim_eq_self {text : List Char} (h : IsTrimmed text) : trim text = text := by
  rw [trim, trimStart_of_head h.head, trimEnd_of_last h.last]

theorem infix_trim (text : List Char) : trim text <:+: text := by
  obtain ⟨gap, hgap, -⟩ := exists_append_trimStart text
  obtain ⟨tail, htail, -⟩ := exists_trimEnd_append (trimStart text)
  refine ⟨gap, tail, ?_⟩
  rw [trim, List.append_assoc, ← htail, ← hgap]

/-- **Blanks around a trimmed text are taken off.** -/
theorem trim_between {before text after : List Char} (hbefore : ∀ c ∈ before, isBlank c = true)
    (htext : IsTrimmed text) (hne : text ≠ []) (hafter : ∀ c ∈ after, isBlank c = true) :
    trim (before ++ (text ++ after)) = text := by
  have hstart : trimStart (before ++ (text ++ after)) = text ++ after := by
    unfold trimStart
    rw [List.dropWhile_append_of_pos hbefore]
    refine trimStart_of_head ?_
    rw [List.head?_append_of_ne_nil _ hne]
    exact htext.head
  have hend : trimEnd (text ++ after) = trimEnd text := by
    unfold trimEnd
    rw [List.reverse_append,
      List.dropWhile_append_of_pos fun c hc => hafter c (List.mem_reverse.mp hc)]
  rw [trim, hstart, hend, trimEnd_of_last htext.last]

/-! ## Words -/

/-- A run of characters that are not blank. -/
structure IsWord (word : List Char) : Prop where
  ne_nil : word ≠ []
  solid : ∀ c ∈ word, isBlank c = false

instance (word : List Char) : Decidable (IsWord word) :=
  decidable_of_iff (word ≠ [] ∧ word.all (!isBlank ·))
    ⟨fun h => ⟨h.1, by simpa using h.2⟩, fun h => ⟨h.ne_nil, by simpa using h.solid⟩⟩

theorem words_eq (text : List Char) : words text = (text.splitOnP isBlank).filter (· ≠ []) := by
  rw [words, splitWhere_eq_splitOnP]

/-- **A blank character keeps words apart.** -/
theorem words_append_blank {c : Char} (hc : isBlank c = true) (xs ys : List Char) :
    words (xs ++ c :: ys) = words xs ++ words ys := by
  rw [words_eq, words_eq, words_eq, List.splitOnP_append_cons xs ys hc, List.filter_append]

@[simp] theorem words_nil : words [] = [] := rfl

theorem words_cons_blank {c : Char} (hc : isBlank c = true) (text : List Char) :
    words (c :: text) = words text :=
  words_append_blank hc [] text

theorem words_of_isWord {word : List Char} (h : IsWord word) : words word = [word] := by
  rw [words_eq, List.splitOnP_eq_singleton h.solid]
  simp [h.ne_nil]

/-- Blanks in front of a text belong to no word. -/
theorem words_blanks_append {blanks : List Char} (h : ∀ c ∈ blanks, isBlank c = true)
    (text : List Char) : words (blanks ++ text) = words text := by
  induction blanks with
  | nil => rfl
  | cons c blanks ih =>
    rw [List.cons_append, words_cons_blank (h c List.mem_cons_self)]
    exact ih fun d hd => h d (List.mem_cons_of_mem _ hd)

/-- Blanks between two texts keep their words apart. -/
theorem words_append_blanks {blanks : List Char} (h : ∀ c ∈ blanks, isBlank c = true)
    (hne : blanks ≠ []) (xs ys : List Char) :
    words (xs ++ (blanks ++ ys)) = words xs ++ words ys := by
  obtain ⟨c, rest, rfl⟩ := List.exists_cons_of_ne_nil hne
  rw [List.cons_append, words_append_blank (h c List.mem_cons_self),
    words_blanks_append fun d hd => h d (List.mem_cons_of_mem _ hd)]

/-- Blanks behind a word belong to no word. -/
theorem words_isWord_append_blanks {word blanks : List Char} (hword : IsWord word)
    (h : ∀ c ∈ blanks, isBlank c = true) : words (word ++ blanks) = [word] := by
  by_cases hne : blanks = []
  · rw [hne, List.append_nil, words_of_isWord hword]
  · have hsplit := words_append_blanks h hne word []
    rw [List.append_nil] at hsplit
    rw [hsplit, words_of_isWord hword, words_nil, List.append_nil]

/-- Nothing else is a word of a text. -/
theorem isWord_of_mem_words {text word : List Char} (h : word ∈ words text) : IsWord word := by
  rw [words_eq] at h
  obtain ⟨hpiece, hne⟩ := List.mem_filter.mp h
  exact ⟨by simpa using hne, not_of_mem_splitOnP hpiece⟩

end Ripple.Text
