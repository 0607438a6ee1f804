import Ripple.Text.Number

/-!
# Numbers in base ten and sixteen

`decimal` writes a natural number with ASCII digits and no leading zero; reading it back gives the
number. `hexDigits` writes a fixed number of lower-case hexadecimal digits.
-/

namespace Ripple.Text

/-- The digit of a value below sixteen, in lower case. -/
def digitChar (d : Nat) : Char :=
  if d < 10 then Char.ofNat ('0'.toNat + d) else Char.ofNat ('a'.toNat + (d - 10))

/-- The number in base ten. -/
def decimal (n : Nat) : List Char :=
  if n < 10 then [digitChar n] else decimal (n / 10) ++ [digitChar (n % 10)]
termination_by n

/-- The last `width` hexadecimal digits of the number. -/
def hexDigits : Nat → Nat → List Char
  | 0, _ => []
  | width + 1, n => hexDigits width (n / 16) ++ [digitChar (n % 16)]

theorem digitValue?_digitChar {d : Nat} (h : d < 10) : digitValue? (digitChar d) = some d := by
  have all : ∀ e ∈ List.range 10, digitValue? (digitChar e) = some e := by decide
  exact all d (List.mem_range.mpr h)

theorem digitsValue?_append (value : Nat) (xs ys : List Char) :
    digitsValue? value (xs ++ ys) = (digitsValue? value xs).bind (digitsValue? · ys) := by
  induction xs generalizing value with
  | nil => rfl
  | cons x xs ih =>
    simp only [List.cons_append, digitsValue?]
    cases digitValue? x with
    | none => rfl
    | some d => exact ih _

/-- The digits of a number read back as the number. -/
theorem digitsValue?_decimal (n : Nat) : digitsValue? 0 (decimal n) = some n := by
  induction n using decimal.induct with
  | case1 n h => rw [decimal, if_pos h]; simp [digitsValue?, digitValue?_digitChar h]
  | case2 n h ih =>
    rw [decimal, if_neg h, digitsValue?_append, ih]
    simp only [Option.bind_some, digitsValue?, digitValue?_digitChar (Nat.mod_lt n (by decide)),
      Option.some.injEq]
    omega

theorem decimal_ne_nil (n : Nat) : decimal n ≠ [] := by
  rw [decimal]; split <;> simp

end Ripple.Text
