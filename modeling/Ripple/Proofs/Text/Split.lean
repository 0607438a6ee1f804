import Mathlib.Data.List.Basic
import Mathlib.Data.List.TakeWhile
import Ripple.Text.Split

/-!
# What is cut at separators

Cutting is the library's `List.splitOn`. Every piece is a part of what was cut
(`infix_of_mem_splitWhere`) and has no separator in it, and leaving pieces out before they are put
together again leaves elements out (`sublist_intercalate`). A cut at the first mark is known by the
two parts that it gives (`splitOnce_eq_some_iff`, `append_mark_inj`).
-/

namespace Ripple.Text

variable {α : Type}

theorem splitWhere_eq_splitOnP (sep : α → Bool) (xs : List α) :
    splitWhere sep xs = xs.splitOnP sep := by
  induction xs with
  | nil => rw [splitWhere_nil, List.splitOnP_nil]
  | cons x xs ih =>
    rw [List.splitOnP_cons_eq_if_modifyHead, ← ih]
    cases hx : sep x with
    | true => rw [splitWhere_cons_sep hx, if_pos rfl]
    | false =>
      rw [splitWhere_cons_other hx, if_neg Bool.false_ne_true]
      cases hpieces : splitWhere sep xs with
      | nil => exact absurd hpieces (splitWhere_ne_nil sep xs)
      | cons first rest => rfl

theorem splitWhere_eq_splitOn [BEq α] (mark : α) (xs : List α) :
    splitWhere (· == mark) xs = xs.splitOn mark := by
  rw [splitWhere_eq_splitOnP, List.splitOn_eq_splitOnP]

/-- A piece between separators is a part of what was cut. -/
theorem infix_of_mem_splitWhere {sep : α → Bool} {xs piece : List α}
    (h : piece ∈ splitWhere sep xs) : piece <:+: xs := by
  -- the first piece is even a prefix, which the piece before a further element needs
  suffices hparts : (∀ p ∈ (splitWhere sep xs).head?, p <+: xs) ∧
      ∀ p ∈ splitWhere sep xs, p <:+: xs from hparts.2 piece h
  clear h
  induction xs with
  | nil => simp
  | cons x xs ih =>
    obtain ⟨ihHead, ihAll⟩ := ih
    cases hx : sep x with
    | true =>
      rw [splitWhere_cons_sep hx]
      refine ⟨by simp, fun p hp => ?_⟩
      rcases List.mem_cons.mp hp with rfl | hp
      · exact List.nil_infix
      · exact (ihAll p hp).trans (List.suffix_cons x xs).isInfix
    | false =>
      rw [splitWhere_cons_other hx]
      cases hpieces : splitWhere sep xs with
      | nil => exact absurd hpieces (splitWhere_ne_nil sep xs)
      | cons first rest =>
        rw [hpieces] at ihHead ihAll
        have hfirst : x :: first <+: x :: xs :=
          List.cons_prefix_cons.mpr ⟨rfl, ihHead first rfl⟩
        refine ⟨fun p hp => ?_, fun p hp => ?_⟩
        · obtain rfl : x :: first = p := by simpa using hp
          exact hfirst
        · rcases List.mem_cons.mp hp with rfl | hp
          · exact hfirst.isInfix
          · exact (ihAll p (List.mem_cons_of_mem _ hp)).trans (List.suffix_cons x xs).isInfix

/-- No element of a piece is a separator. -/
theorem not_of_mem_splitOnP {sep : α → Bool} {xs piece : List α} (h : piece ∈ xs.splitOnP sep) :
    ∀ x ∈ piece, sep x = false := by
  induction xs generalizing piece with
  | nil =>
    rw [List.splitOnP_nil, List.mem_singleton] at h
    simp [h]
  | cons x xs ih =>
    rw [List.splitOnP_cons_eq_if_modifyHead] at h
    split at h
    · rcases List.mem_cons.mp h with rfl | h
      · simp
      · exact ih h
    · next hx =>
      cases hpieces : xs.splitOnP sep with
      | nil => exact absurd hpieces (List.splitOnP_ne_nil sep xs)
      | cons first rest =>
        rw [hpieces] at h ih
        rcases List.mem_cons.mp h with rfl | h
        · intro y hy
          rcases List.mem_cons.mp hy with rfl | hy
          · simpa using hx
          · exact ih List.mem_cons_self y hy
        · exact ih (List.mem_cons_of_mem _ h)

/-- No piece has the separator in it. -/
theorem not_mem_of_mem_splitOn [BEq α] [LawfulBEq α] {mark : α} {xs piece : List α}
    (h : piece ∈ xs.splitOn mark) : mark ∉ piece := by
  rw [List.splitOn_eq_splitOnP] at h
  intro hmark
  have hsep := not_of_mem_splitOnP h mark hmark
  simp at hsep

/-- Cutting at the first mark gives what stands before and after it. -/
theorem splitOnce_eq_some_iff [BEq α] [LawfulBEq α] {mark : α} {xs before after : List α} :
    splitOnce mark xs = some (before, after) ↔ xs = before ++ mark :: after ∧ mark ∉ before := by
  unfold splitOnce
  constructor
  · intro h
    split at h
    · cases h
    · next x rest hdrop =>
      obtain ⟨rfl, rfl⟩ := Prod.mk.inj (Option.some.inj h)
      have hhead := List.head?_dropWhile_not (· != mark) xs
      rw [hdrop] at hhead
      obtain rfl : x = mark := by simpa using hhead
      refine ⟨?_, fun hmark => ?_⟩
      · rw [← hdrop, List.takeWhile_append_dropWhile]
      · have hother := List.mem_takeWhile_imp hmark
        simp at hother
  · rintro ⟨rfl, hmark⟩
    have hother : ∀ x ∈ before, (x != mark) = true := by
      intro x hx
      rw [bne_iff_ne]
      rintro rfl
      exact hmark hx
    rw [List.dropWhile_append_of_pos hother, List.takeWhile_append_of_pos hother]
    simp

/-- The first mark in a list tells what stands before and after it. -/
theorem append_mark_inj [BEq α] [LawfulBEq α] {mark : α} {xs ys xs' ys' : List α}
    (hxs : mark ∉ xs) (hxs' : mark ∉ xs') (h : xs ++ mark :: ys = xs' ++ mark :: ys') :
    xs = xs' ∧ ys = ys' := by
  have hcut : splitOnce mark (xs ++ mark :: ys) = some (xs, ys) :=
    splitOnce_eq_some_iff.mpr ⟨rfl, hxs⟩
  have hcut' : splitOnce mark (xs ++ mark :: ys) = some (xs', ys') :=
    splitOnce_eq_some_iff.mpr ⟨h, hxs'⟩
  exact Prod.mk.inj (Option.some.inj (hcut.symm.trans hcut'))

/-- So does the last one. -/
theorem append_mark_inj_of_last [BEq α] [LawfulBEq α] {mark : α} {xs ys xs' ys' : List α}
    (hys : mark ∉ ys) (hys' : mark ∉ ys') (h : xs ++ mark :: ys = xs' ++ mark :: ys') :
    xs = xs' ∧ ys = ys' := by
  have hreverse : ys.reverse ++ mark :: xs.reverse = ys'.reverse ++ mark :: xs'.reverse := by
    simpa using congrArg List.reverse h
  obtain ⟨hback, hfront⟩ := append_mark_inj (fun hmem => hys (List.mem_reverse.mp hmem))
    (fun hmem => hys' (List.mem_reverse.mp hmem)) hreverse
  exact ⟨List.reverse_injective hfront, List.reverse_injective hback⟩

/-- Leaving pieces out leaves elements out of what they are put together to. -/
theorem sublist_intercalate {xss yss : List (List α)} (mark : List α) (h : xss.Sublist yss) :
    (mark.intercalate xss).Sublist (mark.intercalate yss) := by
  -- a mark stands between two pieces only, so the cases ask whether pieces follow
  induction h with
  | slnil => exact .refl _
  | @cons xss yss ys hsub ih =>
    cases yss with
    | nil =>
      rw [List.sublist_nil.mp hsub]
      exact List.nil_sublist _
    | cons zs yss =>
      rw [List.intercalate_cons_cons]
      exact ih.trans ((List.sublist_append_right mark _).trans
        (by rw [List.append_assoc]; exact List.sublist_append_right ys _))
  | @cons_cons xss yss ys hsub ih =>
    cases yss with
    | nil =>
      obtain rfl := List.sublist_nil.mp hsub
      exact .refl _
    | cons zs yss =>
      cases xss with
      | nil =>
        rw [List.intercalate_singleton, List.intercalate_cons_cons, List.append_assoc]
        exact List.sublist_append_left ys _
      | cons xs xss =>
        rw [List.intercalate_cons_cons, List.intercalate_cons_cons]
        exact (List.Sublist.refl (ys ++ mark)).append ih

end Ripple.Text
