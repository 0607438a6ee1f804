import Ripple.Text.Utf8
import Mathlib.Data.List.Flatten

/-!
# What UTF-8 keeps

UTF-8 keeps the order of code points: of two texts the one with the smaller code points has the
smaller bytes (`encode_lt_encode`). So different texts have different bytes. It also keeps ASCII
apart: an ASCII byte is found in its own character only (`toNat_eq_of_mem_encodeChar`), and cutting
bytes at an ASCII character is cutting the text there (`encode_splitOn`).
-/

namespace Ripple.Text

/-! ## Order -/

/-- The four pieces of a smaller number are smaller, compared one by one. -/
theorem pieces_lt {n m : Nat} (h : n < m) :
    n / 0x40000 < m / 0x40000 ∨ n / 0x40000 = m / 0x40000 ∧
      (n / 0x1000 % 0x40 < m / 0x1000 % 0x40 ∨ n / 0x1000 % 0x40 = m / 0x1000 % 0x40 ∧
        (n / 0x40 % 0x40 < m / 0x40 % 0x40 ∨ n / 0x40 % 0x40 = m / 0x40 % 0x40 ∧
          n % 0x40 < m % 0x40)) := by
  have sum (k : Nat) : k = 0x40000 * (k / 0x40000) + 0x1000 * (k / 0x1000 % 0x40)
      + 0x40 * (k / 0x40 % 0x40) + k % 0x40 := by omega
  have hn := sum n
  have hm := sum m
  have third (k : Nat) : k / 0x1000 % 0x40 < 0x40 := Nat.mod_lt _ (by decide)
  have second (k : Nat) : k / 0x40 % 0x40 < 0x40 := Nat.mod_lt _ (by decide)
  have first (k : Nat) : k % 0x40 < 0x40 := Nat.mod_lt _ (by decide)
  have h1 := third n
  have h2 := third m
  have h3 := second n
  have h4 := second m
  have h5 := first n
  have h6 := first m
  generalize n / 0x40000 = a, n / 0x1000 % 0x40 = b, n / 0x40 % 0x40 = c, n % 0x40 = d at *
  generalize m / 0x40000 = a', m / 0x1000 % 0x40 = b', m / 0x40 % 0x40 = c', m % 0x40 = d' at *
  omega

theorem toNat_lt (c : Char) : c.toNat < 0x110000 := by
  rcases c.valid with h | h
  · exact Nat.lt_trans h (by decide)
  · exact h.2

theorem toNat_byte {k : Nat} (h : k < 256) : (UInt8.ofNat k).toNat = k := by
  rw [UInt8.toNat_ofNat', Nat.mod_eq_of_lt h]

/-- The bytes of a smaller character are smaller, whatever follows them. -/
theorem encodeChar_append_lt {c d : Char} (h : c.toNat < d.toNat) (xs ys : Bytes) :
    encodeChar c ++ xs < encodeChar d ++ ys := by
  have hd := toNat_lt d
  have hpieces := pieces_lt h
  unfold encodeChar
  simp only []
  -- a character of more bytes has a greater first byte, so the pieces matter for equal numbers only
  repeat' split
  all_goals
    simp (disch := omega) only [List.cons_append, List.nil_append, List.cons_lt_cons_iff,
      UInt8.lt_iff_toNat_lt, ← UInt8.toNat_inj, toNat_byte]
    omega

theorem encodeChar_ne_nil (c : Char) : encodeChar c ≠ [] := by
  unfold encodeChar
  simp only []
  repeat' split
  all_goals exact List.cons_ne_nil _ _

/-- **UTF-8 keeps the order of code points.** -/
theorem encode_lt_encode {a b : List Char} (h : a < b) : encode a < encode b := by
  induction a generalizing b with
  | nil =>
    cases b with
    | nil => exact absurd h (List.lt_irrefl [])
    | cons d b =>
      obtain ⟨byte, rest, hd⟩ := List.exists_cons_of_ne_nil (encodeChar_ne_nil d)
      unfold encode
      rw [List.flatMap_cons, hd]
      exact List.nil_lt_cons _ _
  | cons c a ih =>
    cases b with
    | nil => exact absurd h (List.not_lt_nil _)
    | cons d b =>
      unfold encode at ih ⊢
      simp only [List.flatMap_cons]
      rcases List.cons_lt_cons_iff.mp h with hlt | ⟨rfl, hlt⟩
      · exact encodeChar_append_lt (Char.lt_def.mp hlt) _ _
      · exact List.append_left_lt (ih hlt)

/-- Different texts have different bytes. -/
theorem encode_injective {a b : List Char} (h : encode a = encode b) : a = b := by
  rcases Std.lt_trichotomy a b with hlt | heq | hlt
  · exact absurd (h ▸ encode_lt_encode hlt) (List.lt_irrefl _)
  · exact heq
  · exact absurd (h ▸ encode_lt_encode hlt) (List.lt_irrefl _)

/-! ## ASCII -/

@[simp] theorem encode_nil : encode [] = [] := rfl

theorem encode_cons (c : Char) (text : List Char) :
    encode (c :: text) = encodeChar c ++ encode text :=
  List.flatMap_cons

theorem encode_append (a b : List Char) : encode (a ++ b) = encode a ++ encode b :=
  List.flatMap_append

theorem encode_sublist {a b : List Char} (h : a.Sublist b) : (encode a).Sublist (encode b) :=
  h.flatMap encodeChar

theorem encode_ne_nil {text : List Char} (h : text ≠ []) : encode text ≠ [] :=
  fun hempty => h (encode_injective hempty)

/-- An ASCII byte is found in the bytes of its own character only. -/
theorem toNat_eq_of_mem_encodeChar {byte : UInt8} {c : Char} (h : byte ∈ encodeChar c)
    (hbyte : byte.toNat < 0x80) : c.toNat = byte.toNat := by
  have hc := toNat_lt c
  unfold encodeChar at h
  simp only [] at h
  split at h
  · rw [List.mem_singleton.mp h, toNat_byte (by omega)]
  -- all other bytes are at least `80`
  · exfalso
    have high {k : Nat} (hlow : 0x80 ≤ k) (hhigh : k < 0x100) (hk : byte = UInt8.ofNat k) :
        False := by
      rw [hk, toNat_byte hhigh] at hbyte
      omega
    repeat' split at h
    all_goals
      simp only [List.mem_cons, List.not_mem_nil, or_false] at h
      grind

/-- Bytes without the mark in front belong to the first piece. -/
theorem splitOn_append_of_not_mem {α : Type} [BEq α] [LawfulBEq α] {mark : α} {xs : List α}
    (h : mark ∉ xs) (ys : List α) :
    (xs ++ ys).splitOn mark = (ys.splitOn mark).modifyHead (xs ++ ·) := by
  induction xs with
  | nil =>
    rw [List.nil_append]
    cases ys.splitOn mark <;> rfl
  | cons x xs ih =>
    rw [List.mem_cons, not_or] at h
    obtain ⟨hx, hxs⟩ := h
    rw [List.cons_append, List.splitOn_cons_eq_if_modifyHead, if_neg (by simpa using Ne.symm hx),
      ih hxs, List.modifyHead_modifyHead]
    rfl

/-- **Cutting the bytes at an ASCII character is cutting the text there.** -/
theorem encode_splitOn {byte : UInt8} {mark : Char} (hmark : encodeChar mark = [byte])
    (hbyte : byte.toNat < 0x80) (text : List Char) :
    (encode text).splitOn byte = (text.splitOn mark).map encode := by
  induction text with
  | nil => rfl
  | cons c text ih =>
    rw [encode_cons, List.splitOn_cons_eq_if_modifyHead]
    by_cases hc : c = mark
    · rw [hc, hmark, List.singleton_append, List.splitOn_cons_eq_if_modifyHead]
      simp [ih]
    · -- none of the character's bytes is a mark, so they go in front of the first piece
      have hother : byte ∉ encodeChar c := by
        intro hmem
        have hm : byte ∈ encodeChar mark := by simp [hmark]
        apply hc
        rw [← Char.toNat_inj, toNat_eq_of_mem_encodeChar hmem hbyte,
          toNat_eq_of_mem_encodeChar hm hbyte]
      rw [splitOn_append_of_not_mem hother, ih, if_neg (by simpa using hc)]
      cases text.splitOn mark with
      | nil => rfl
      | cons first rest => simp [encode_cons]

end Ripple.Text
