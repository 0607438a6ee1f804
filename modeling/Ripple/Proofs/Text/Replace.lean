import Mathlib.Data.List.Infix
import Ripple.Text.Search

/-!
# Replacing from left to right

`replaceAll` by its equations: an occurrence at the start is replaced and the rest is looked at after
it (`replaceAll_append`), any other element is kept (`replaceAll_cons`). What does not come from the
replacement was there before (`prefix_of_prefix_replaceAll`).
-/

namespace Ripple.Text

variable {α : Type} [BEq α] {old new : List α}

theorem replaceFrom_eq_drop (done : List α) (skip : Nat) (xs : List α) :
    replaceFrom old new done skip xs = replaceFrom old new done 0 (xs.drop skip) := by
  induction xs generalizing skip with
  | nil => cases skip <;> rfl
  | cons x xs ih =>
    cases skip with
    | zero => rfl
    | succ skip =>
      rw [replaceFrom, List.drop_succ_cons]
      exact ih skip

/-- An element at which the pattern does not occur is kept. -/
theorem replaceAll_cons {x : α} {xs : List α} (h : old.isPrefixOf (x :: xs) = false) :
    replaceAll old new (x :: xs) = x :: replaceAll old new xs := by
  unfold replaceAll
  rw [replaceFrom, if_neg (by simp [h]), replaceFrom_eq_append]
  rfl

/-- An occurrence at the start is replaced. -/
theorem replaceAll_append [LawfulBEq α] (hold : old ≠ []) (rest : List α) :
    replaceAll old new (old ++ rest) = new ++ replaceAll old new rest := by
  obtain ⟨x, xs, rfl⟩ := List.exists_cons_of_ne_nil hold
  have hprefix : (x :: xs).isPrefixOf (x :: (xs ++ rest)) = true :=
    List.isPrefixOf_iff_prefix.mpr (List.prefix_append (x :: xs) rest)
  unfold replaceAll
  rw [List.cons_append, replaceFrom, if_pos hprefix, replaceFrom_eq_append, replaceFrom_eq_drop]
  simp

/-- What comes first after the replacement and has nothing of it came first before it. -/
theorem prefix_of_prefix_replaceAll [LawfulBEq α] {blank : α} {start xs : List α}
    (hold : old ≠ []) (hstart : blank ∉ start) (h : start <+: replaceAll old [blank] xs) :
    start <+: xs := by
  induction xs generalizing start with
  | nil => exact h
  | cons x xs ih =>
    cases start with
    | nil => exact List.nil_prefix
    | cons y start =>
      rw [List.mem_cons, not_or] at hstart
      cases hprefix : old.isPrefixOf (x :: xs) with
      | false =>
        rw [replaceAll_cons hprefix, List.cons_prefix_cons] at h
        exact List.cons_prefix_cons.mpr ⟨h.1, ih hstart.2 h.2⟩
      | true =>
        obtain ⟨after, hafter⟩ := List.isPrefixOf_iff_prefix.mp hprefix
        rw [← hafter, replaceAll_append hold, List.singleton_append, List.cons_prefix_cons] at h
        exact absurd h.1.symm hstart.1

end Ripple.Text
