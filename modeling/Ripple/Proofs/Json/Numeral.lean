import Ripple.Json.Numeral
import Mathlib.Data.List.TakeWhile

/-!
# Natural numbers as literals

The literal of a natural number is its digits, with no leading zero, and is read back as it is
written (`read_write_ofNat`). One that fits into 64 bits is never huge (`huge_ofNat`).
-/

namespace Ripple

open Text

namespace Numeral

/-! ## Digits -/

theorem isDigit_digitChar {d : Nat} (h : d < 10) : isDigit (digitChar d) = true := by
  rw [isDigit, digitValue?_digitChar h, Option.isSome_some]

theorem isDigit_of_mem_decimal {n : Nat} {c : Char} (h : c ∈ decimal n) : isDigit c = true := by
  induction n using decimal.induct with
  | case1 n hn =>
    rw [decimal, if_pos hn, List.mem_singleton] at h
    rw [h]
    exact isDigit_digitChar hn
  | case2 n hn ih =>
    rw [decimal, if_neg hn] at h
    rcases List.mem_append.mp h with h | h
    · exact ih h
    · rw [List.mem_singleton.mp h]
      exact isDigit_digitChar (Nat.mod_lt n (by decide))

/-- Only zero is written with a zero in front, and nothing comes after that. -/
theorem eq_zero_of_decimal {n : Nat} {rest : List Char} (h : decimal n = '0' :: rest) :
    n = 0 ∧ rest = [] := by
  induction n using decimal.induct generalizing rest with
  | case1 n hn =>
    rw [decimal, if_pos hn] at h
    obtain ⟨hdigit, hrest⟩ := List.cons.inj h
    have hzero : ∀ d ∈ List.range 10, digitChar d = '0' → d = 0 := by decide
    exact ⟨hzero n (List.mem_range.mpr hn) hdigit, hrest.symm⟩
  | case2 n hn ih =>
    rw [decimal, if_neg hn] at h
    cases hdigits : decimal (n / 10) with
    | nil => exact absurd hdigits (decimal_ne_nil _)
    | cons c cs =>
      rw [hdigits] at h
      obtain ⟨hc, -⟩ := List.cons.inj h
      have hzero := (ih (hdigits.trans (by rw [hc]))).1
      omega

theorem readWhole_decimal (n : Nat) : readWhole (decimal n) = some n := by
  have hvalue := digitsValue?_decimal n
  unfold readWhole
  split
  · next hnil => exact absurd hnil (decimal_ne_nil n)
  · next hzero => rw [(eq_zero_of_decimal hzero).1]
  · next hne hzero => exact absurd (eq_zero_of_decimal hzero).2 hne
  · exact hvalue

/-! ## The literal of a natural number -/

@[simp] theorem toNat?_ofNat (n : Nat) : (ofNat n).toNat? = some n := by
  simp [ofNat, toNat?]

theorem write_ofNat (n : Nat) : (ofNat n).write = decimal n := by
  simp [ofNat, write]

theorem read_write_ofNat (n : Nat) : read (ofNat n).write = some (ofNat n) := by
  have hall : (decimal n).takeWhile isDigit = decimal n :=
    List.takeWhile_eq_self_iff.mpr fun c hc => isDigit_of_mem_decimal hc
  have hrest : (decimal n).dropWhile isDigit = [] :=
    List.dropWhile_eq_nil_iff.mpr fun c hc => isDigit_of_mem_decimal hc
  rw [write_ofNat]
  unfold read
  split
  next negative digits hsign =>
  split at hsign
  · next tail hdigits =>
    have hminus := isDigit_of_mem_decimal (c := '-') (n := n) (by rw [hdigits]; simp)
    exact absurd hminus (by decide)
  · obtain ⟨rfl, rfl⟩ := Prod.mk.inj hsign
    rw [hall, readWhole_decimal, hrest]
    rfl

/-! ## Size -/

/-- Rounding to 53 bits at most doubles a number. -/
theorem round53_le {n : Nat} (h : 0 < n) : round53 n ≤ 2 * n := by
  have hunit : Nat.pow 2 (n.log2 - 52) ≤ n :=
    Nat.le_trans (Nat.pow_le_pow_right (by decide) (Nat.sub_le ..)) (Nat.log2_self_le (by omega))
  have hquotient := Nat.div_mul_le_self n (Nat.pow 2 (n.log2 - 52))
  unfold round53
  simp only []
  split
  · omega
  · rw [Nat.add_mul]
    omega

theorem huge_ofNat {n : Nat} (h : n < UInt64.size) : (ofNat n).huge = false := by
  have hcut : cut n 0 = (n, 0) := by rw [cut, if_pos h]
  have hpower : Nat.pow 10 (((0 : Nat) : Int) - (0 : Nat) + (none : Option Int).getD 0).toNat = 1 :=
    rfl
  have hone : round53 1 = 1 := by decide
  have hfinite : n ≠ 0 → round53 n < Nat.pow 2 1024 - Nat.pow 2 970 := by
    intro hn
    have hround := round53_le (Nat.pos_of_ne_zero hn)
    have hbound : 2 * UInt64.size < Nat.pow 2 1024 - Nat.pow 2 970 := by decide +kernel
    omega
  unfold huge
  generalize Nat.pow 2 1024 - Nat.pow 2 970 = limit at hfinite ⊢
  simp only [ofNat, hcut, extend, hpower, hone, Nat.mul_one]
  by_cases hn : n = 0
  · simp [hn]
  · have hlt := hfinite hn
    simp [hlt]

end Numeral

end Ripple
