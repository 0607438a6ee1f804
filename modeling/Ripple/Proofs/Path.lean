import Ripple.Path
import Ripple.Proofs.Text.Split

/-!
# File names and their extensions

A name has the extension `e` exactly if it is something, a dot and `e`, and `e` has no dot in it
(`extensionOf_eq_some_iff`). The name that a path ends in is what follows its last slash
(`fileName?_append`), so a path that ends in a dot and a word can have no other extension than this
word (`extension?_of_suffix`).
-/

namespace Ripple.Path

open Text

variable {path before name word extension : List Char}

/-! ## Names -/

/-- What holds a mark can be cut at the last one. -/
theorem exists_append_of_mem {α : Type} {mark : α} {xs : List α} (h : mark ∈ xs) :
    ∃ front after, xs = front ++ mark :: after ∧ mark ∉ after := by
  obtain ⟨after, front, hreverse, hafter⟩ := List.eq_append_cons_of_mem (List.mem_reverse.mpr h)
  refine ⟨front.reverse, after.reverse, ?_, fun hin => hafter (List.mem_reverse.mp hin)⟩
  rw [← List.reverse_reverse xs, hreverse]
  simp

/-- The extension of a name is what follows its last dot, unless the name starts with that dot. -/
theorem extensionOf_append {α : Type} [BEq α] [LawfulBEq α] {dot : α} {extension : List α}
    (hdot : dot ∉ extension) (front : List α) :
    extensionOf dot (front ++ dot :: extension) = if front = [] then none else some extension := by
  have hother : ∀ x ∈ extension.reverse, (x != dot) = true := by
    intro x hx
    rw [bne_iff_ne]
    rintro rfl
    exact hdot (List.mem_reverse.mp hx)
  have hreverse : (front ++ dot :: extension).reverse =
      extension.reverse ++ dot :: front.reverse := by simp
  unfold extensionOf
  rw [hreverse, List.dropWhile_append_of_pos hother, List.takeWhile_append_of_pos hother]
  by_cases hfront : front = []
  · simp [hfront]
  · obtain ⟨last, rest, hlast⟩ :=
      List.exists_cons_of_ne_nil (fun h => hfront (List.reverse_eq_nil_iff.mp h))
    simp [hfront, hlast]

/-- **A name with an extension** is something, a dot, and the extension, which has no dot. -/
theorem extensionOf_eq_some_iff {α : Type} [BEq α] [LawfulBEq α] {dot : α}
    {name extension : List α} :
    extensionOf dot name = some extension ↔
      ∃ front, front ≠ [] ∧ name = front ++ dot :: extension ∧ dot ∉ extension := by
  constructor
  · intro h
    by_cases hmem : dot ∈ name
    · obtain ⟨front, after, hname, hdot⟩ := exists_append_of_mem hmem
      rw [hname, extensionOf_append hdot] at h
      split at h
      · cases h
      · next hfront =>
        obtain rfl := Option.some.inj h
        exact ⟨front, hfront, hname, hdot⟩
    · have hall : ∀ x ∈ name.reverse, (x != dot) = true := by
        intro x hx
        rw [bne_iff_ne]
        rintro rfl
        exact hmem (List.mem_reverse.mp hx)
      rw [extensionOf, List.dropWhile_eq_nil_iff.mpr hall] at h
      cases h
  · rintro ⟨front, hfront, rfl, hdot⟩
    rw [extensionOf_append hdot, if_neg hfront]

/-! ## The name that a path ends in -/

/-- A text that can be nothing but a name: it has no slashes, and does not consist of dots. -/
structure IsName (name : List Char) : Prop where
  slash : '/' ∉ name
  letter : ∃ c ∈ name, c ≠ '.'

theorem IsName.ne_of_dots (hname : IsName name) {dots : List Char} (hdots : ∀ c ∈ dots, c = '.') :
    name ≠ dots := by
  rintro rfl
  obtain ⟨c, hc, hne⟩ := hname.letter
  exact hne (hdots c hc)

/-- The last piece of a path is its last component, if it is a step. -/
theorem getLast?_components (h : (path.splitOn '/').getLast? = some name)
    (hstep : isStep name = true) : (components path).getLast? = some name := by
  have hkept (pieces : List (List Char)) (hlast : pieces.getLast? = some name) :
      (pieces.filter isStep).getLast? = some name := by
    obtain ⟨init, rfl⟩ := List.getLast?_eq_some_iff.mp hlast
    rw [List.filter_append, List.filter_cons_of_pos hstep]
    simp
  unfold components
  rw [splitWhere_eq_splitOn]
  split
  · next rest hsplit =>
    rw [hsplit] at h
    cases rest with
    | nil =>
      -- a single `.` is no step
      obtain rfl : ['.'] = name := by simpa using h
      cases hstep
    | cons piece rest =>
      rw [List.getLast?_cons_cons] at h
      have hrest := hkept _ h
      rw [List.getLast?_cons_of_ne_nil (fun hnil => by rw [hnil] at hrest; cases hrest), hrest]
  · exact hkept _ h

theorem fileName?_of_getLast? (hname : IsName name)
    (h : (path.splitOn '/').getLast? = some name) : fileName? path = some name := by
  have hnil : name ≠ [] := hname.ne_of_dots (by simp)
  have hhere : name ≠ ['.'] := hname.ne_of_dots (by simp)
  have hup : name ≠ ['.', '.'] := hname.ne_of_dots (by simp)
  rw [fileName?, getLast?_components h (by simp [isStep, hnil, hhere])]
  simp [hhere, hup]

/-- A name alone is a path that ends in it. -/
theorem fileName?_of_isName (hname : IsName name) : fileName? name = some name := by
  refine fileName?_of_getLast? hname ?_
  rw [List.splitOn_eq_singleton hname.slash]
  rfl

/-- **A path ends in the name after its last slash.** -/
theorem fileName?_append (hname : IsName name) (before : List Char) :
    fileName? (before ++ '/' :: name) = some name := by
  refine fileName?_of_getLast? hname ?_
  rw [List.splitOn_append_cons_self, List.splitOn_eq_singleton hname.slash]
  simp

/-- A word behind a dot that ends a path is the only extension that the path can have. -/
theorem extension?_of_suffix (hsuffix : '.' :: word <:+ path) (hword : word ≠ [])
    (hslash : '/' ∉ word) (hdot : '.' ∉ word) (h : extension? path = some extension) :
    extension = word := by
  obtain ⟨before, rfl⟩ := hsuffix
  -- the name begins after the last slash in front of the dot, or where the path begins
  obtain ⟨front, hname⟩ : ∃ front, fileName? (before ++ '.' :: word) = some (front ++ '.' :: word) := by
    have hisName {front : List Char} (hfront : '/' ∉ front) : IsName (front ++ '.' :: word) := by
      refine ⟨by simp [hfront, hslash], ?_⟩
      obtain ⟨c, rest, rfl⟩ := List.exists_cons_of_ne_nil hword
      exact ⟨c, by simp, fun hc => hdot (by simp [hc])⟩
    by_cases hmem : '/' ∈ before
    · obtain ⟨above, front, rfl, hfront⟩ := exists_append_of_mem hmem
      refine ⟨front, ?_⟩
      rw [List.append_assoc, List.cons_append]
      exact fileName?_append (hisName hfront) above
    · exact ⟨before, fileName?_of_isName (hisName hmem)⟩
  rw [extension?, hname, Option.bind_some, extensionOf_append hdot] at h
  split at h
  · cases h
  · exact (Option.some.inj h).symm

end Ripple.Path
