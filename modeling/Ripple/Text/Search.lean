/-!
# Searching and replacing

`anySuffix` asks whether some suffix of a list satisfies a test, which is how a pattern that may
begin anywhere is searched. `replaceAll` replaces the occurrences of a pattern from left to right;
an occurrence that overlaps one already replaced does not count.
-/

namespace Ripple.Text

/-- Some suffix of the list, the empty one included, satisfies the test. -/
def anySuffix (test : List α → Bool) : List α → Bool
  | [] => test []
  | x :: xs => test (x :: xs) || anySuffix test xs

theorem anySuffix_iff {test : List α → Bool} {xs : List α} :
    anySuffix test xs = true ↔ ∃ before after, xs = before ++ after ∧ test after = true := by
  induction xs with
  | nil =>
    simp only [anySuffix, List.nil_eq, List.append_eq_nil_iff]
    exact ⟨fun h => ⟨[], [], ⟨rfl, rfl⟩, h⟩, fun ⟨_, _, ⟨_, h⟩, ht⟩ => h ▸ ht⟩
  | cons x xs ih =>
    simp only [anySuffix, Bool.or_eq_true, ih, List.cons_eq_append_iff]
    constructor
    · rintro (h | ⟨before, after, rfl, h⟩)
      · exact ⟨[], x :: xs, Or.inl ⟨rfl, rfl⟩, h⟩
      · exact ⟨x :: before, after, Or.inr ⟨before, rfl, rfl⟩, h⟩
    · rintro ⟨before, after, ⟨rfl, rfl⟩ | ⟨before', rfl, rfl⟩, h⟩
      · exact Or.inl h
      · exact Or.inr ⟨before', after, rfl, h⟩

/-- The pattern occurs in the list. -/
def occursIn [BEq α] (pattern : List α) : List α → Bool := anySuffix pattern.isPrefixOf

/-- Replaces from left to right, first leaving out `skip` elements of an occurrence under way. What
is done is listed last element first. -/
def replaceFrom [BEq α] (old new done : List α) : Nat → List α → List α
  | _, [] => done.reverse
  | 0, x :: xs =>
    if old.isPrefixOf (x :: xs) then replaceFrom old new (new.reverse ++ done) (old.length - 1) xs
    else replaceFrom old new (x :: done) 0 xs
  | skip + 1, _ :: xs => replaceFrom old new done skip xs

/-- What is done stays in front of the rest. -/
theorem replaceFrom_eq_append [BEq α] (old new done : List α) (skip : Nat) (xs : List α) :
    replaceFrom old new done skip xs = done.reverse ++ replaceFrom old new [] skip xs := by
  induction xs generalizing done skip with
  | nil => simp [replaceFrom]
  | cons x xs ih =>
    cases skip with
    | zero =>
      simp only [replaceFrom]
      split
      · rw [ih, ih (new.reverse ++ [])]; simp
      · rw [ih, ih [x]]; simp
    | succ skip => exact ih done skip

/-- The list with every occurrence of `old`, found from left to right, replaced by `new`. The
pattern `old` is not empty. -/
def replaceAll [BEq α] (old new xs : List α) : List α := replaceFrom old new [] 0 xs

end Ripple.Text
