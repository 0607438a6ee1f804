import Ripple.Depfile
import Ripple.Proofs.Text.Replace

/-!
# Continued lines

A line is continued by a backslash directly before its line end. The two replacements that join
continued lines, one for each kind of line end, come to a single pass over the text
(`joinContinuations_eq_onePass`), because neither of them makes or breaks what the other one looks
for. After it no line is continued (`not_continued_onePass`), and a text in which none is stays as
it is (`onePass_eq_self`), so there is nothing left to join (`joined_for_good`).
-/

namespace Ripple.Depfile

open Text

/-- The text begins with a line end. -/
def StartsWithLineEnd (text : List Char) : Prop := ['\n'] <+: text ∨ ['\r', '\n'] <+: text

/-- Some line of the text is continued. -/
def Continued (text : List Char) : Prop :=
  ['\\', '\n'] <:+: text ∨ ['\\', '\r', '\n'] <:+: text

instance (text : List Char) : Decidable (Continued text) :=
  inferInstanceAs (Decidable (_ ∨ _))

/-- The text with a blank for each continuation, in a single pass from left to right. -/
def onePass : List Char → List Char
  | [] => []
  | '\\' :: '\n' :: rest => ' ' :: onePass rest
  | '\\' :: '\r' :: '\n' :: rest => ' ' :: onePass rest
  | c :: rest => c :: onePass rest

/-! ## One pass instead of two -/

/-- A character that is no backslash, or that no line end follows, is kept. -/
theorem onePass_cons {c : Char} {rest : List Char} (h : c = '\\' → ¬ StartsWithLineEnd rest) :
    onePass (c :: rest) = c :: onePass rest := by
  rw [onePass]
  · rintro after rfl rfl
    exact h rfl (.inl (List.prefix_append ['\n'] after))
  · rintro after rfl rfl
    exact h rfl (.inr (List.prefix_append ['\r', '\n'] after))

theorem onePass_cons_of_ne {c : Char} (h : c ≠ '\\') (rest : List Char) :
    onePass (c :: rest) = c :: onePass rest :=
  onePass_cons fun hc => absurd hc h

theorem not_prefix_of_kept {c : Char} {rest lineEnd : List Char}
    (h : c = '\\' → ¬ lineEnd <+: rest) : ('\\' :: lineEnd).isPrefixOf (c :: rest) = false := by
  rw [← Bool.not_eq_true, List.isPrefixOf_iff_prefix, List.cons_prefix_cons]
  rintro ⟨rfl, hprefix⟩
  exact h rfl hprefix

/-- **Joining continued lines takes a single pass.** -/
theorem joinContinuations_eq_onePass (text : List Char) : joinContinuations text = onePass text := by
  unfold joinContinuations
  induction text using onePass.induct with
  | case1 => rfl
  | case2 rest ih =>
    -- the first replacement leaves the backslash and the line feed next to each other
    have hkept : replaceAll ['\\', '\r', '\n'] [' '] ('\\' :: '\n' :: rest) =
        '\\' :: '\n' :: replaceAll ['\\', '\r', '\n'] [' '] rest := by
      rw [replaceAll_cons rfl, replaceAll_cons rfl]
    rw [hkept, onePass, ← ih]
    exact replaceAll_append (List.cons_ne_nil _ _) _
  | case3 rest ih =>
    have hjoin : replaceAll ['\\', '\r', '\n'] [' '] ('\\' :: '\r' :: '\n' :: rest) =
        ' ' :: replaceAll ['\\', '\r', '\n'] [' '] rest :=
      replaceAll_append (List.cons_ne_nil _ _) rest
    rw [hjoin, replaceAll_cons rfl, onePass, ih]
  | case4 c rest hfeed hreturn ih =>
    have hend : c = '\\' → ¬ StartsWithLineEnd rest := by
      rintro rfl (⟨after, rfl⟩ | ⟨after, rfl⟩)
      · exact hfeed after rfl rfl
      · exact hreturn after rfl rfl
    have hfirst : ['\\', '\r', '\n'].isPrefixOf (c :: rest) = false :=
      not_prefix_of_kept fun hc hprefix => hend hc (.inr hprefix)
    -- a line feed that follows after the first replacement followed before it
    have hsecond :
        ['\\', '\n'].isPrefixOf (c :: replaceAll ['\\', '\r', '\n'] [' '] rest) = false :=
      not_prefix_of_kept fun hc hprefix =>
        hend hc (.inl (prefix_of_prefix_replaceAll (List.cons_ne_nil _ _) (by decide) hprefix))
    rw [replaceAll_cons hfirst, replaceAll_cons hsecond, onePass_cons hend, ih]

/-! ## Texts without continuations -/

theorem not_continued_nil : ¬ Continued [] := by
  rintro (h | h) <;> simp at h

/-- A continuation stands at the start of a text or after it. -/
theorem continued_cons_iff {c : Char} {rest : List Char} :
    Continued (c :: rest) ↔ c = '\\' ∧ StartsWithLineEnd rest ∨ Continued rest := by
  unfold Continued StartsWithLineEnd
  simp only [List.infix_cons_iff, List.cons_prefix_cons]
  rw [eq_comm (a := c)]
  constructor
  · rintro ((⟨hc, h⟩ | h) | ⟨hc, h⟩ | h)
    · exact .inl ⟨hc, .inl h⟩
    · exact .inr (.inl h)
    · exact .inl ⟨hc, .inr h⟩
    · exact .inr (.inr h)
  · rintro (⟨hc, h | h⟩ | h | h)
    · exact .inl (.inl ⟨hc, h⟩)
    · exact .inr (.inl ⟨hc, h⟩)
    · exact .inl (.inr h)
    · exact .inr (.inr h)

/-- A line end that comes first after the pass came first before it. -/
theorem startsWithLineEnd_of_onePass {text : List Char} (h : StartsWithLineEnd (onePass text)) :
    StartsWithLineEnd text := by
  have hbegins {start : List Char} (hstart : ' ' ∉ start) (h : start <+: onePass text) :
      start <+: text := by
    rw [← joinContinuations_eq_onePass, joinContinuations] at h
    exact prefix_of_prefix_replaceAll (List.cons_ne_nil _ _) hstart
      (prefix_of_prefix_replaceAll (List.cons_ne_nil _ _) hstart h)
  exact h.imp (hbegins (by decide)) (hbegins (by decide))

/-- **After the pass no line is continued.** -/
theorem not_continued_onePass (text : List Char) : ¬ Continued (onePass text) := by
  induction text using onePass.induct with
  | case1 => exact not_continued_nil
  | case2 rest ih | case3 rest ih =>
    rw [onePass, continued_cons_iff]
    rintro (⟨hblank, -⟩ | h)
    · cases hblank
    · exact ih h
  | case4 c rest hfeed hreturn ih =>
    have hend : c = '\\' → ¬ StartsWithLineEnd rest := by
      rintro rfl (⟨after, rfl⟩ | ⟨after, rfl⟩)
      · exact hfeed after rfl rfl
      · exact hreturn after rfl rfl
    rw [onePass_cons hend, continued_cons_iff]
    rintro (⟨hc, h⟩ | h)
    · exact hend hc (startsWithLineEnd_of_onePass h)
    · exact ih h

/-- No continuation lies across the seam of two texts. -/
def Apart (front back : List Char) : Prop :=
  (∀ c ∈ front.getLast?, c ≠ '\\' ∧ c ≠ '\r') ∨ ∀ c ∈ back.head?, c ≠ '\n' ∧ c ≠ '\r'

/-- A line end behind a backslash lies before the seam. -/
theorem startsWithLineEnd_of_append {rest back : List Char} (hapart : Apart ('\\' :: rest) back)
    (h : StartsWithLineEnd (rest ++ back)) : StartsWithLineEnd rest := by
  match rest with
  | [] =>
    obtain hlast | hhead := hapart
    · exact absurd rfl (hlast '\\' rfl).1
    · rcases h with ⟨after, rfl⟩ | ⟨after, rfl⟩
      · exact absurd rfl (hhead '\n' rfl).1
      · exact absurd rfl (hhead '\r' rfl).2
  | [d] =>
    rcases h with h | h
    · exact .inl (by simpa [List.cons_prefix_cons] using h)
    · rw [List.singleton_append, List.cons_prefix_cons] at h
      obtain ⟨rfl, after, rfl⟩ := h
      obtain hlast | hhead := hapart
      · exact absurd rfl (hlast '\r' rfl).2
      · exact absurd rfl (hhead '\n' rfl).1
  | d :: e :: rest =>
    exact h.imp (by simp [List.cons_prefix_cons]) (by simp [List.cons_prefix_cons])

/-- **A text without continuations stays as it is**, whatever it is put in front of. -/
theorem onePass_append {front back : List Char} (hfront : ¬ Continued front)
    (hapart : Apart front back) : onePass (front ++ back) = front ++ onePass back := by
  induction front with
  | nil => rfl
  | cons c rest ih =>
    rw [continued_cons_iff, not_or, not_and] at hfront
    obtain ⟨hend, hrest⟩ := hfront
    have hapart' : Apart rest back := by
      refine hapart.imp_left fun hlast d hd => hlast d ?_
      cases rest with
      | nil => cases hd
      | cons e rest => rwa [List.getLast?_cons_cons]
    rw [List.cons_append, onePass_cons, ih hrest hapart', List.cons_append]
    rintro rfl h
    exact hend rfl (startsWithLineEnd_of_append hapart h)

theorem onePass_eq_self {text : List Char} (h : ¬ Continued text) : onePass text = text := by
  have happend : onePass (text ++ []) = text ++ onePass [] := onePass_append h (.inr (by simp))
  rwa [List.append_nil, onePass, List.append_nil] at happend

/-- **Continued lines are joined once and for all.** The two replacements do what a single pass
does, no line of the result is continued, so that joining it again changes nothing, and the texts
that are left as they are are those without a continued line. -/
theorem joined_for_good (text : List Char) :
    joinContinuations text = onePass text ∧
      ¬ Continued (joinContinuations text) ∧
      joinContinuations (joinContinuations text) = joinContinuations text ∧
      (joinContinuations text = text ↔ ¬ Continued text) := by
  have hclean : ¬ Continued (joinContinuations text) := by
    rw [joinContinuations_eq_onePass]
    exact not_continued_onePass text
  have hkeeps {clean : List Char} (h : ¬ Continued clean) : joinContinuations clean = clean := by
    rw [joinContinuations_eq_onePass, onePass_eq_self h]
  refine ⟨joinContinuations_eq_onePass text, hclean, hkeeps hclean, ?_, hkeeps⟩
  intro hsame
  rw [← hsame]
  exact hclean

example : joinContinuations "a:\\\r\\\nb\\\\\r\n".toList = "a:\\\r b\\ ".toList := by decide

end Ripple.Depfile
