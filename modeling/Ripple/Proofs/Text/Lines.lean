import Ripple.Proofs.Text.Split
import Ripple.Text.Lines

/-!
# The lines of a text

Every line stands somewhere in the text (`infix_of_mem_lines`). What is read off lines in a way that
passes over line ends can as well be read off the pieces between the line feeds
(`IgnoresEnds.filterMap_lines`), and texts and lists of lines are put together from pieces without
more ado. A pattern that keeps to one line is found in a text where it is found in one of its lines
(`infix_joinLines_iff`).
-/

namespace Ripple.Text

theorem prefix_dropReturn (line : List Char) : dropReturn line <+: line := by
  unfold dropReturn
  split
  · exact List.dropLast_prefix line
  · exact List.prefix_refl line

/-- **A line is a part of the text.** -/
theorem infix_of_mem_lines {text line : List Char} (h : line ∈ lines text) : line <:+: text := by
  unfold lines at h
  simp only [] at h
  rcases List.mem_append.mp h with h | h
  · obtain ⟨piece, hpiece, rfl⟩ := List.mem_map.mp h
    exact (prefix_dropReturn piece).isInfix.trans
      (infix_of_mem_splitWhere ((List.dropLast_prefix _).subset hpiece))
  · have hlast : (splitWhere (· == '\n') text).getLast? = some line := by
      simpa using (List.mem_filter.mp h).1
    exact infix_of_mem_splitWhere (List.mem_of_getLast? hlast)

/-- A line either has no carriage return at its end, or is what stands before one. -/
theorem dropReturn_cases (line : List Char) :
    dropReturn line = line ∨ line = dropReturn line ++ ['\r'] := by
  unfold dropReturn
  split
  · next hlast => exact .inr (List.dropLast_append_getLast? _ hlast).symm
  · exact .inl rfl

/-! ## Readings that pass over line ends -/

/-- What is read off a line is the same with and without a carriage return at its end, and nothing
is read off an empty line. -/
structure IgnoresEnds {α : Type} (read : List Char → Option α) : Prop where
  empty : read [] = none
  append_return : ∀ line, read (line ++ ['\r']) = read line

namespace IgnoresEnds

variable {α : Type} {read : List Char → Option α}

theorem dropReturn (h : IgnoresEnds read) (line : List Char) :
    read (dropReturn line) = read line := by
  rcases dropReturn_cases line with heq | heq
  · rw [heq]
  · conv => rhs; rw [heq]
    exact (h.append_return _).symm

/-- **Lines are read as the pieces between line feeds are.** -/
theorem filterMap_lines (h : IgnoresEnds read) (text : List Char) :
    (lines text).filterMap read = (text.splitOn '\n').filterMap read := by
  have hne : text.splitOn '\n' ≠ [] := List.splitOn_ne_nil _ _
  have hlast : ((text.splitOn '\n').getLast?.toList.filter (· ≠ [])).filterMap read =
      [(text.splitOn '\n').getLast hne].filterMap read := by
    rw [List.getLast?_eq_some_getLast hne, Option.toList_some, List.filter_singleton]
    by_cases hempty : (text.splitOn '\n').getLast hne = []
    · simp [hempty, h.empty]
    · simp [hempty]
  have hinit : ((text.splitOn '\n').dropLast.map Text.dropReturn).filterMap read =
      (text.splitOn '\n').dropLast.filterMap read := by
    rw [List.filterMap_map]
    exact congrArg (List.filterMap · _) (funext h.dropReturn)
  unfold lines
  simp only [splitWhere_eq_splitOn]
  rw [List.filterMap_append, hinit, hlast, ← List.filterMap_append,
    List.dropLast_append_getLast hne]

/-- Lines that are joined are read one after the other. -/
theorem filterMap_lines_joinLines (h : IgnoresEnds read) {ls : List (List Char)}
    (hls : ∀ line ∈ ls, '\n' ∉ line) :
    (lines (joinLines ls)).filterMap read = ls.filterMap read := by
  rw [h.filterMap_lines, joinLines]
  cases ls with
  | nil => simp [h.empty]
  | cons line rest => rw [List.splitOn_intercalate _ hls (List.cons_ne_nil _ _)]

/-- The lines of two texts with a line feed between are read as those of the one and then of the
other. -/
theorem filterMap_lines_append (h : IgnoresEnds read) (before after : List Char) :
    (lines (before ++ '\n' :: after)).filterMap read =
      (lines before).filterMap read ++ (lines after).filterMap read := by
  rw [h.filterMap_lines, h.filterMap_lines, h.filterMap_lines, List.splitOn_append_cons_self,
    List.filterMap_append]

end IgnoresEnds

/-- No line has a line feed in it. -/
theorem not_mem_of_mem_lines {text line : List Char} (h : line ∈ lines text) : '\n' ∉ line := by
  unfold lines at h
  simp only [splitWhere_eq_splitOn] at h
  rcases List.mem_append.mp h with h | h
  · obtain ⟨piece, hpiece, rfl⟩ := List.mem_map.mp h
    exact fun hmem => not_mem_of_mem_splitOn ((List.dropLast_prefix _).subset hpiece)
      ((prefix_dropReturn piece).subset hmem)
  · have hlast : (text.splitOn '\n').getLast? = some line := by
      simpa using (List.mem_filter.mp h).1
    exact not_mem_of_mem_splitOn (List.mem_of_getLast? hlast)

/-! ## Patterns within a line -/

/-- A pattern without a mark is found on one side of it. -/
theorem infix_append_cons_iff {α : Type} {pattern xs ys : List α} {mark : α}
    (hmark : mark ∉ pattern) (hne : pattern ≠ []) :
    pattern <:+: xs ++ mark :: ys ↔ pattern <:+: xs ∨ pattern <:+: ys := by
  constructor
  · rintro ⟨before, after, heq⟩
    rw [List.append_assoc] at heq
    rcases List.append_eq_append_iff.mp heq with ⟨mid, rfl, hrest⟩ | ⟨mid, rfl, hrest⟩
    · -- the pattern begins before the mark, so it ends there as well
      rcases List.append_eq_append_iff.mp hrest with ⟨tail, rfl, -⟩ | ⟨tail, rfl, htail⟩
      · exact .inl ⟨before, tail, by rw [List.append_assoc]⟩
      · cases tail with
        | nil => exact .inl ⟨before, [], by simp⟩
        | cons c tail =>
          obtain ⟨rfl, -⟩ := List.cons.inj htail
          exact absurd (by simp) hmark
    · cases mid with
      | nil =>
        obtain ⟨c, rest, rfl⟩ := List.exists_cons_of_ne_nil hne
        obtain ⟨rfl, -⟩ := List.cons.inj hrest
        exact absurd List.mem_cons_self hmark
      | cons c mid =>
        obtain ⟨-, rfl⟩ := List.cons.inj hrest
        exact .inr ⟨mid, after, List.append_assoc ..⟩
  · rintro (h | h)
    · exact h.trans (List.prefix_append xs _).isInfix
    · exact h.trans ((List.suffix_cons mark ys).trans (List.suffix_append xs _)).isInfix

/-- **A pattern within one line is found in joined lines if it is found in one of them.** -/
theorem infix_joinLines_iff {pattern : List Char} (hmark : '\n' ∉ pattern) (hne : pattern ≠ [])
    (ls : List (List Char)) : pattern <:+: joinLines ls ↔ ∃ line ∈ ls, pattern <:+: line := by
  unfold joinLines
  induction ls with
  | nil => simp [hne]
  | cons line rest ih =>
    cases rest with
    | nil => simp
    | cons next rest =>
      rw [List.intercalate_cons_cons, List.append_assoc, List.singleton_append,
        infix_append_cons_iff hmark hne, ih]
      exact (List.exists_mem_cons_iff _ _ _).symm

end Ripple.Text
