import Mathlib.Data.List.Forall2

/-!
# Lists made element by element

A list whose elements are made one after the other is there if all of them can be made, and the
first one that cannot be made ends the attempt.
-/

namespace Ripple

variable {ε α β : Type}

/-! ## With reasons for a failure -/

section Except

variable {f : α → Except ε β}

theorem map_eq_ok_iff {g : α → β} {result : Except ε α} {y : β} :
    result.map g = .ok y ↔ ∃ x, result = .ok x ∧ g x = y := by
  cases result <;> simp [Except.map]

theorem toOption_eq_some_iff {result : Except ε α} {x : α} :
    result.toOption = some x ↔ result = .ok x := by
  cases result <;> simp [Except.toOption]

/-- What is made of a list element by element. -/
theorem mapM_eq_ok_iff {xs : List α} {ys : List β} :
    xs.mapM f = .ok ys ↔ List.Forall₂ (fun x y => f x = .ok y) xs ys := by
  induction xs generalizing ys with
  | nil =>
    rw [List.forall₂_nil_left_iff, List.mapM_nil]
    exact ⟨fun h => (Except.ok.inj h).symm, fun h => congrArg Except.ok h.symm⟩
  | cons x xs ih =>
    rw [List.mapM_cons, List.forall₂_cons_left_iff]
    cases hx : f x with
    | error e =>
      constructor
      · rintro ⟨⟩
      · rintro ⟨y, ys, ⟨⟩, -, -⟩
    | ok y =>
      cases hxs : xs.mapM f with
      | error e =>
        constructor
        · rintro ⟨⟩
        · rintro ⟨-, rest, -, hrest, -⟩
          rw [← ih, hxs] at hrest
          cases hrest
      | ok rest =>
        constructor
        · rintro ⟨⟩
          exact ⟨y, rest, rfl, ih.mp hxs, rfl⟩
        · rintro ⟨y', rest', hy, hrest, rfl⟩
          obtain rfl := Except.ok.inj hy
          rw [← ih, hxs] at hrest
          obtain rfl := Except.ok.inj hrest
          rfl

theorem mapM_eq_ok {g : α → β} {xs : List α} (h : ∀ x ∈ xs, f x = .ok (g x)) :
    xs.mapM f = .ok (xs.map g) := by
  rw [mapM_eq_ok_iff, List.forall₂_map_right_iff]
  exact List.forall₂_same.mpr h

/-- The first error is what comes out. -/
theorem mapM_eq_error {g : α → β} {before after : List α} {x : α} {e : ε}
    (hbefore : ∀ y ∈ before, f y = .ok (g y)) (hx : f x = .error e) :
    (before ++ x :: after).mapM f = .error e := by
  induction before with
  | nil =>
    rw [List.nil_append, List.mapM_cons, hx]
    rfl
  | cons y before ih =>
    rw [List.cons_append, List.mapM_cons, hbefore y List.mem_cons_self,
      ih fun z hz => hbefore z (List.mem_cons_of_mem _ hz)]
    rfl

/-- A fold goes on with what its first step makes. -/
theorem foldlM_cons_eq_ok_iff {step : β → α → Except ε β} {s s' : β} {x : α} {xs : List α} :
    (x :: xs).foldlM step s = .ok s' ↔
      ∃ s₁, step s x = .ok s₁ ∧ xs.foldlM step s₁ = .ok s' := by
  rw [List.foldlM_cons]
  cases step s x <;> simp [bind, Except.bind]

/-- A fold whose steps all do nothing does nothing. -/
theorem foldlM_eq_self {step : β → α → Except ε β} {s : β} {xs : List α}
    (h : ∀ x ∈ xs, step s x = .ok s) : xs.foldlM step s = .ok s := by
  induction xs with
  | nil => rfl
  | cons x xs ih =>
    obtain ⟨hfirst, hrest⟩ := List.forall_mem_cons.mp h
    exact foldlM_cons_eq_ok_iff.mpr ⟨s, hfirst, ih hrest⟩

end Except

/-! ## Without reasons -/

section Option

variable {f : α → Option β}

theorem mapM_eq_some_iff {xs : List α} {ys : List β} :
    xs.mapM f = some ys ↔ xs.map f = ys.map some := by
  induction xs generalizing ys with
  | nil =>
    rw [List.mapM_nil, List.map_nil, eq_comm (a := []), List.map_eq_nil_iff]
    exact ⟨fun h => (Option.some.inj h).symm, fun h => congrArg some h.symm⟩
  | cons x xs ih =>
    rw [List.mapM_cons]
    constructor
    · intro h
      obtain ⟨y, hy, h⟩ := Option.bind_eq_some_iff.mp h
      obtain ⟨rest, hrest, h⟩ := Option.bind_eq_some_iff.mp h
      obtain rfl := Option.some.inj h
      rw [List.map_cons, List.map_cons, hy, ih.mp hrest]
    · intro h
      obtain ⟨y, rest, rfl, hy, hrest⟩ := List.map_eq_cons_iff.mp h.symm
      rw [← hy, ih.mpr hrest.symm]
      rfl

/-- Written and read back element by element. -/
theorem mapM_map_eq_some {g : β → α} {ys : List β} (h : ∀ y ∈ ys, f (g y) = some y) :
    (ys.map g).mapM f = some ys := by
  rw [mapM_eq_some_iff, List.map_map]
  exact List.map_congr_left h

theorem exists_of_mem_mapM {xs : List α} {ys : List β} (h : xs.mapM f = some ys) {y : β}
    (hy : y ∈ ys) : ∃ x ∈ xs, f x = some y := by
  have hsome : some y ∈ xs.map f := by
    rw [mapM_eq_some_iff.mp h]
    exact List.mem_map_of_mem hy
  exact List.mem_map.mp hsome

theorem exists_mem_of_mapM {xs : List α} {ys : List β} (h : xs.mapM f = some ys) {x : α}
    (hx : x ∈ xs) : ∃ y ∈ ys, f x = some y := by
  have hsome : f x ∈ ys.map some := by
    rw [← mapM_eq_some_iff.mp h]
    exact List.mem_map_of_mem hx
  obtain ⟨y, hy, heq⟩ := List.mem_map.mp hsome
  exact ⟨y, hy, heq.symm⟩

/-- All values are there if none of them is missing. -/
theorem isSome_mapM_id (xs : List (Option α)) :
    (xs.mapM id).isSome = (xs.map (·.isSome)).all id := by
  induction xs with
  | nil => rfl
  | cons x xs ih =>
    rw [List.mapM_cons, List.map_cons, List.all_cons, ← ih]
    cases x with
    | none => rfl
    | some x => cases xs.mapM id <;> rfl

end Option

end Ripple
