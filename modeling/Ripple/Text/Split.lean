/-!
# Cutting a list at separators

`splitWhere` cuts at every separator and keeps the empty pieces, so there is always one piece more
than there are separators. `splitOnce` cuts at the first separator only.
-/

namespace Ripple.Text

/-- The pieces between the elements that satisfy `sep`, empty ones included. -/
def splitWhere (sep : α → Bool) (xs : List α) : List (List α) :=
  xs.foldr
    (fun x pieces =>
      if sep x then [] :: pieces
      else match pieces with
        | [] => [[x]]
        | piece :: rest => (x :: piece) :: rest)
    [[]]

@[simp] theorem splitWhere_nil (sep : α → Bool) : splitWhere sep [] = [[]] := rfl

theorem splitWhere_cons_sep {sep : α → Bool} {x : α} (h : sep x = true) (xs : List α) :
    splitWhere sep (x :: xs) = [] :: splitWhere sep xs := by
  simp [splitWhere, h]

theorem splitWhere_cons_other {sep : α → Bool} {x : α} (h : sep x = false) (xs : List α) :
    splitWhere sep (x :: xs) =
      match splitWhere sep xs with
      | [] => [[x]]
      | piece :: rest => (x :: piece) :: rest := by
  simp [splitWhere, h]

/-- There is always a first piece. -/
theorem splitWhere_ne_nil (sep : α → Bool) (xs : List α) : splitWhere sep xs ≠ [] := by
  cases xs with
  | nil => simp
  | cons x xs =>
    cases h : sep x with
    | true => simp [splitWhere_cons_sep h]
    | false =>
      rw [splitWhere_cons_other h]
      split <;> simp

/-- What stands before and after the first `mark`, if there is one. -/
def splitOnce [BEq α] (mark : α) (xs : List α) : Option (List α × List α) :=
  match xs.dropWhile (· != mark) with
  | [] => none
  | _ :: after => some (xs.takeWhile (· != mark), after)

end Ripple.Text
