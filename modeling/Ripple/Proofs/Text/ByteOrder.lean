import Ripple.Names
import Ripple.Proofs.Text.Utf8

/-!
# Ascending order of names

Names are kept in ascending order of code points, and UTF-8 keeps that order. So the names of a set
are listed in strictly ascending order of their bytes (`Names.ascending_toList`), which rules out
repetitions as well.
-/

namespace Ripple

namespace Text

/-- A name that comes earlier has smaller bytes. -/
theorem bytesOf_lt_bytesOf {a b : String} (h : a < b) : bytesOf a < bytesOf b :=
  encode_lt_encode h

end Text

/-! ## Lists of names -/

/-- The names come in strictly ascending order of their bytes. -/
def Ascending (names : List String) : Prop :=
  names.Pairwise fun a b => Text.bytesOf a < Text.bytesOf b

namespace Ascending

theorem filter {names : List String} (h : Ascending names) (test : String → Bool) :
    Ascending (names.filter test) :=
  List.Pairwise.filter test h

/-- Nothing stands twice in an ascending list. -/
theorem nodup {names : List String} (h : Ascending names) : names.Nodup := by
  refine List.Pairwise.imp ?_ h
  rintro a _ hlt rfl
  exact List.lt_irrefl _ hlt

/-- There is only one ascending list of given names. -/
theorem eq_of_mem_iff {names others : List String} (h : Ascending names) (h' : Ascending others)
    (hmem : ∀ name, name ∈ names ↔ name ∈ others) : names = others := by
  refine List.Perm.eq_of_pairwise (fun a b _ _ hlt hgt => ?_) h h'
    ((List.perm_ext_iff_of_nodup h.nodup h'.nodup).mpr hmem)
  exact absurd (List.lt_trans hlt hgt) (List.lt_irrefl _)

end Ascending

/-- **The names of a set are listed in ascending order.** -/
theorem Names.ascending_toList (names : Names) : Ascending names.toList := by
  refine List.Pairwise.imp (fun hlt => ?_) Std.ExtTreeSet.ordered_toList
  exact Text.bytesOf_lt_bytesOf
    (compareOfLessAndEq_eq_lt.mp hlt)

end Ripple
