import Ripple.Proofs.MapM
import Ripple.Proofs.Text.Utf8
import Mathlib.Data.List.Induction

/-!
# Reading UTF-8

The decoder reads back what the encoder wrote, and accepts nothing else (`decode?_eq_some_iff`). Of
a character under way it has read the bytes that all characters with the bits known so far begin
with, as long as their next byte lies in its range (`Begins`).
-/

namespace Ripple.Text

/-! ## Characters under way -/

/-- The last bytes of a character, each of which holds six bits of its number. -/
def tailBytes : Nat → Nat → Bytes
  | 0, _ => []
  | count + 1, n => UInt8.ofNat (0x80 + n / Nat.pow 0x40 count % 0x40) :: tailBytes count n

/-- The number begins with the bits read so far, and its next byte lies in the range. -/
def Partial.Allows (p : Partial) (n : Nat) : Prop :=
  n / Nat.pow 0x40 (p.more + 1) = p.bits ∧ p.low ≤ 0x80 + n / Nat.pow 0x40 p.more % 0x40 ∧
    0x80 + n / Nat.pow 0x40 p.more % 0x40 ≤ p.high

/-- The bytes are those that the characters begin with that are still possible. -/
structure Begins (seen : Bytes) (p : Partial) : Prop where
  low : 0x80 ≤ p.low
  high : p.high ≤ 0xBF
  valid : ∀ n, p.Allows n → n.isValidChar
  bytes : ∀ n, p.Allows n → encodeChar (Char.ofNat n) = seen ++ tailBytes (p.more + 1) n

theorem toNat_ofNat_of_isValidChar {n : Nat} (h : n.isValidChar) : (Char.ofNat n).toNat = n := by
  rw [Char.ofNat, dif_pos h]
  rfl

theorem ofNat_eq_of_eq_toNat {b : UInt8} {n : Nat} (h : n = b.toNat) : UInt8.ofNat n = b := by
  rw [h, UInt8.ofNat_toNat]

theorem begins_two {b : UInt8} (h : 0xC2 ≤ b.toNat ∧ b.toNat < 0xE0) :
    Begins [b] ⟨0, b.toNat - 0xC0, 0x80, 0xBF⟩ := by
  have hvalid (n : Nat) (hn : n / 0x40 = b.toNat - 0xC0) : n.isValidChar := .inl (by omega)
  refine ⟨Nat.le_refl _, Nat.le_refl _, fun n ⟨hn, _⟩ => hvalid n hn, fun n ⟨hn, _⟩ => ?_⟩
  change n / 0x40 = b.toNat - 0xC0 at hn
  unfold encodeChar
  simp only [toNat_ofNat_of_isValidChar (hvalid n hn)]
  rw [if_neg (by omega), if_pos (by omega), ofNat_eq_of_eq_toNat (b := b) (by omega)]
  simp [tailBytes]

theorem begins_three {b : UInt8} (h : 0xE0 ≤ b.toNat ∧ b.toNat < 0xF0) :
    Begins [b] ⟨1, b.toNat - 0xE0, if b.toNat = 0xE0 then 0xA0 else 0x80,
      if b.toNat = 0xED then 0x9F else 0xBF⟩ := by
  have hrange (n : Nat) (hn : n / 0x1000 = b.toNat - 0xE0)
      (hlow : (if b.toNat = 0xE0 then 0xA0 else 0x80) ≤ 0x80 + n / 0x40 % 0x40)
      (hhigh : 0x80 + n / 0x40 % 0x40 ≤ if b.toNat = 0xED then 0x9F else 0xBF) :
      0x800 ≤ n ∧ n < 0x10000 ∧ (n < 0xD800 ∨ 0xDFFF < n) := by
    split at hlow <;> split at hhigh <;> omega
  refine ⟨by dsimp only; split <;> omega, by dsimp only; split <;> omega,
    fun n ⟨hn, hlow, hhigh⟩ => ?_, fun n ⟨hn, hlow, hhigh⟩ => ?_⟩
  · obtain ⟨-, hlt, hbelow | habove⟩ := hrange n hn hlow hhigh
    · exact .inl hbelow
    · exact .inr ⟨habove, by omega⟩
  · obtain ⟨hle, hlt, hgap⟩ := hrange n hn hlow hhigh
    have hvalid : n.isValidChar := hgap.imp id fun habove => ⟨habove, by omega⟩
    change n / 0x1000 = b.toNat - 0xE0 at hn
    unfold encodeChar
    simp only [toNat_ofNat_of_isValidChar hvalid]
    rw [if_neg (by omega), if_neg (by omega), if_pos hlt,
      ofNat_eq_of_eq_toNat (b := b) (by omega)]
    simp [tailBytes]

theorem begins_four {b : UInt8} (h : 0xF0 ≤ b.toNat ∧ b.toNat < 0xF5) :
    Begins [b] ⟨2, b.toNat - 0xF0, if b.toNat = 0xF0 then 0x90 else 0x80,
      if b.toNat = 0xF4 then 0x8F else 0xBF⟩ := by
  have hrange (n : Nat) (hn : n / 0x40000 = b.toNat - 0xF0)
      (hlow : (if b.toNat = 0xF0 then 0x90 else 0x80) ≤ 0x80 + n / 0x1000 % 0x40)
      (hhigh : 0x80 + n / 0x1000 % 0x40 ≤ if b.toNat = 0xF4 then 0x8F else 0xBF) :
      0x10000 ≤ n ∧ n < 0x110000 := by
    split at hlow <;> split at hhigh <;> omega
  refine ⟨by dsimp only; split <;> omega, by dsimp only; split <;> omega,
    fun n ⟨hn, hlow, hhigh⟩ => ?_, fun n ⟨hn, hlow, hhigh⟩ => ?_⟩
  · obtain ⟨hle, hlt⟩ := hrange n hn hlow hhigh
    exact .inr ⟨by omega, hlt⟩
  · obtain ⟨hle, hlt⟩ := hrange n hn hlow hhigh
    have hvalid : n.isValidChar := .inr ⟨by omega, hlt⟩
    change n / 0x40000 = b.toNat - 0xF0 at hn
    unfold encodeChar
    simp only [toNat_ofNat_of_isValidChar hvalid]
    rw [if_neg (by omega), if_neg (by omega), if_neg (by omega),
      ofNat_eq_of_eq_toNat (b := b) (by omega)]
    simp [tailBytes]

/-- One more byte in the range adds its six bits. -/
theorem Begins.allows {seen : Bytes} {p : Partial} (h : Begins seen p) {b : UInt8}
    (hb : p.low ≤ b.toNat ∧ b.toNat ≤ p.high) {n : Nat}
    (hn : n / Nat.pow 0x40 p.more = 0x40 * p.bits + (b.toNat - 0x80)) :
    p.Allows n ∧ tailBytes (p.more + 1) n = b :: tailBytes p.more n := by
  have hlow := h.low
  have hhigh := h.high
  have hdiv : n / Nat.pow 0x40 (p.more + 1) = n / Nat.pow 0x40 p.more / 0x40 :=
    (Nat.div_div_eq_div_mul ..).symm
  have hmod : 0x80 + n / Nat.pow 0x40 p.more % 0x40 = b.toNat := by omega
  refine ⟨⟨by omega, by omega, by omega⟩, ?_⟩
  rw [tailBytes, ofNat_eq_of_eq_toNat hmod]

theorem Begins.next {seen : Bytes} {more bits low high : Nat}
    (h : Begins seen ⟨more + 1, bits, low, high⟩) {b : UInt8}
    (hb : low ≤ b.toNat ∧ b.toNat ≤ high) :
    Begins (seen ++ [b]) ⟨more, 0x40 * bits + (b.toNat - 0x80), 0x80, 0xBF⟩ := by
  refine ⟨Nat.le_refl _, Nat.le_refl _, fun n ⟨hn, _⟩ => h.valid n (h.allows hb hn).1,
    fun n ⟨hn, _⟩ => ?_⟩
  obtain ⟨hallows, htail⟩ := h.allows hb hn
  rw [h.bytes n hallows, htail, List.append_assoc]
  rfl

theorem Begins.last {seen : Bytes} {bits low high : Nat} (h : Begins seen ⟨0, bits, low, high⟩)
    {b : UInt8} (hb : low ≤ b.toNat ∧ b.toNat ≤ high) :
    encodeChar (Char.ofNat (0x40 * bits + (b.toNat - 0x80))) = seen ++ [b] := by
  obtain ⟨hallows, htail⟩ := h.allows hb (Nat.div_one _)
  rw [h.bytes _ hallows, htail]
  rfl

/-! ## Decoding -/

/-- Unless some character was broken, the bytes read are those of the characters read, and the
beginning of the character under way. -/
def Decoder.HasRead (d : Decoder) (bytes : Bytes) : Prop :=
  none ∈ d.read ∨ ∃ text : List Char, d.read = (text.map some).reverse ∧
    match d.pending with
    | none => bytes = encode text
    | some p => ∃ seen, bytes = encode text ++ seen ∧ Begins seen p

theorem Decoder.hasRead_begin {text : List Char} {bytes : Bytes} (hbytes : bytes = encode text)
    (b : UInt8) : (Decoder.begin (text.map some).reverse b.toNat).HasRead (bytes ++ [b]) := by
  unfold Decoder.begin
  split
  · next hb =>
    refine .inr ⟨text ++ [Char.ofNat b.toNat], by simp, ?_⟩
    have hvalid : b.toNat.isValidChar := .inl (by omega)
    rw [hbytes, encode_append, encode_cons, encode_nil, encodeChar]
    simp only [toNat_ofNat_of_isValidChar hvalid]
    rw [if_pos hb, UInt8.ofNat_toNat, List.append_nil]
  split
  · exact .inl List.mem_cons_self
  split
  · exact .inr ⟨text, rfl, [b], by rw [hbytes], begins_two (by omega)⟩
  split
  · exact .inr ⟨text, rfl, [b], by rw [hbytes], begins_three (by omega)⟩
  split
  · exact .inr ⟨text, rfl, [b], by rw [hbytes], begins_four (by omega)⟩
  · exact .inl List.mem_cons_self

theorem Decoder.none_mem_begin {read : List (Option Char)} (h : none ∈ read) (b : Nat) :
    none ∈ (Decoder.begin read b).read := by
  unfold Decoder.begin
  repeat' split
  all_goals simp [h]

theorem Decoder.HasRead.step {d : Decoder} {bytes : Bytes} (h : d.HasRead bytes) (b : UInt8) :
    (d.step b).HasRead (bytes ++ [b]) := by
  obtain ⟨read, pending⟩ := d
  rcases h with hbroken | ⟨text, hread, hpending⟩
  · refine .inl ?_
    cases pending with
    | none => exact none_mem_begin hbroken _
    | some p =>
      unfold Decoder.step
      simp only []
      split
      · split
        · exact List.mem_cons_of_mem _ hbroken
        · exact hbroken
      · exact none_mem_begin (List.mem_cons_of_mem _ hbroken) _
  · obtain rfl : read = (text.map some).reverse := hread
    cases pending with
    | none => exact hasRead_begin hpending b
    | some p =>
      obtain ⟨seen, rfl, hbegins⟩ := hpending
      unfold Decoder.step
      simp only []
      split
      · next hb =>
        obtain ⟨more, bits, low, high⟩ := p
        cases more with
        | zero =>
          refine .inr ⟨text ++ [Char.ofNat (0x40 * bits + (b.toNat - 0x80))], by simp, ?_⟩
          rw [encode_append, encode_cons, encode_nil, List.append_nil, List.append_assoc]
          exact congrArg (encode text ++ ·) (hbegins.last hb).symm
        | succ more => exact .inr ⟨text, rfl, seen ++ [b], by simp, hbegins.next hb⟩
      · exact .inl (none_mem_begin List.mem_cons_self _)

/-- The decoder keeps track of all bytes. -/
theorem Decoder.hasRead_foldl (bytes : Bytes) :
    (bytes.foldl Decoder.step ⟨[], none⟩).HasRead bytes := by
  induction bytes using List.reverseRecOn with
  | nil => exact .inr ⟨[], rfl, rfl⟩
  | append_singleton bytes b ih =>
    rw [List.foldl_append]
    exact ih.step b

theorem Partial.Allows.div_eq {p : Partial} {n : Nat} (h : p.Allows n) :
    n / Nat.pow 0x40 p.more = 0x40 * p.bits + n / Nat.pow 0x40 p.more % 0x40 := by
  have hdiv : n / Nat.pow 0x40 (p.more + 1) = n / Nat.pow 0x40 p.more / 0x40 :=
    (Nat.div_div_eq_div_mul ..).symm
  have hbits := h.1
  omega

/-- The remaining bytes of a character complete it. -/
theorem Decoder.foldl_tailBytes {more bits low high n : Nat}
    (h : Partial.Allows ⟨more, bits, low, high⟩ n) (read : List (Option Char)) :
    (tailBytes (more + 1) n).foldl Decoder.step ⟨read, some ⟨more, bits, low, high⟩⟩ =
      ⟨some (Char.ofNat n) :: read, none⟩ := by
  induction more generalizing bits low high with
  | zero =>
    have hdiv : n / Nat.pow 0x40 0 = 0x40 * bits + n / Nat.pow 0x40 0 % 0x40 := h.div_eq
    obtain ⟨-, hrange⟩ := h
    have hn : n / Nat.pow 0x40 0 = n := Nat.div_one n
    simp only [tailBytes, List.foldl_cons, List.foldl_nil, step]
    rw [toNat_byte (by omega), if_pos hrange, Nat.add_sub_cancel_left, ← hdiv, hn]
  | succ more ih =>
    have hdiv : n / Nat.pow 0x40 (more + 1) =
      0x40 * bits + n / Nat.pow 0x40 (more + 1) % 0x40 := h.div_eq
    obtain ⟨-, hrange⟩ := h
    rw [tailBytes, List.foldl_cons, step]
    simp only []
    rw [toNat_byte (by omega), if_pos hrange, Nat.add_sub_cancel_left, ← hdiv]
    exact ih ⟨rfl, by dsimp only; omega, by dsimp only; omega⟩

/-- The decoder takes the bytes of a character for that character. -/
theorem Decoder.foldl_encodeChar (read : List (Option Char)) (c : Char) :
    (encodeChar c).foldl Decoder.step ⟨read, none⟩ = ⟨some c :: read, none⟩ := by
  have hofNat := Char.ofNat_toNat c
  have hlt := toNat_lt c
  -- a first byte that leaves all characters with the number's first bits possible
  have hmore {b : UInt8} {p : Partial} (hbegin : Decoder.begin read b.toNat = ⟨read, some p⟩)
      (hbegins : Begins [b] p) (hallows : p.Allows c.toNat) :
      (encodeChar c).foldl Decoder.step ⟨read, none⟩ = ⟨some c :: read, none⟩ := by
    have hbytes := hbegins.bytes c.toNat hallows
    rw [hofNat] at hbytes
    rw [hbytes, List.singleton_append, List.foldl_cons]
    show (tailBytes (p.more + 1) c.toNat).foldl Decoder.step (Decoder.begin read b.toNat) = _
    rw [hbegin, foldl_tailBytes hallows, hofNat]
  by_cases h1 : c.toNat < 0x80
  · unfold encodeChar
    simp only []
    rw [if_pos h1, List.foldl_cons, List.foldl_nil, step]
    simp only [begin]
    rw [toNat_byte (by omega), if_pos h1, hofNat]
  by_cases h2 : c.toNat < 0x800
  · have hb := toNat_byte (k := 0xC0 + c.toNat / 0x40) (by omega)
    have hbegins := begins_two (b := UInt8.ofNat (0xC0 + c.toNat / 0x40)) (by omega)
    rw [hb, Nat.add_sub_cancel_left] at hbegins
    refine hmore ?_ hbegins ⟨rfl, by dsimp only; omega, by dsimp only; omega⟩
    rw [hb, begin, if_neg (by omega), if_neg (by omega), if_pos (by omega),
      Nat.add_sub_cancel_left]
  by_cases h3 : c.toNat < 0x10000
  · have hb := toNat_byte (k := 0xE0 + c.toNat / 0x1000) (by omega)
    have hbegins := begins_three (b := UInt8.ofNat (0xE0 + c.toNat / 0x1000)) (by omega)
    rw [hb, Nat.add_sub_cancel_left] at hbegins
    have hgap : c.toNat < 0xD800 ∨ 0xDFFF < c.toNat := c.valid.imp id And.left
    refine hmore ?_ hbegins ⟨rfl, ?_, ?_⟩
    · rw [hb, begin, if_neg (by omega), if_neg (by omega), if_neg (by omega), if_pos (by omega),
        Nat.add_sub_cancel_left]
    · show (if _ then _ else _) ≤ 0x80 + c.toNat / 0x40 % 0x40
      split <;> omega
    · show 0x80 + c.toNat / 0x40 % 0x40 ≤ if _ then _ else _
      split <;> omega
  · have hb := toNat_byte (k := 0xF0 + c.toNat / 0x40000) (by omega)
    have hbegins := begins_four (b := UInt8.ofNat (0xF0 + c.toNat / 0x40000)) (by omega)
    rw [hb, Nat.add_sub_cancel_left] at hbegins
    refine hmore ?_ hbegins ⟨rfl, ?_, ?_⟩
    · rw [hb, begin, if_neg (by omega), if_neg (by omega), if_neg (by omega), if_neg (by omega),
        if_pos (by omega), Nat.add_sub_cancel_left]
    · show (if _ then _ else _) ≤ 0x80 + c.toNat / 0x1000 % 0x40
      split <;> omega
    · show 0x80 + c.toNat / 0x1000 % 0x40 ≤ if _ then _ else _
      split <;> omega

theorem Decoder.foldl_encode (read : List (Option Char)) (text : List Char) :
    (encode text).foldl Decoder.step ⟨read, none⟩ = ⟨(text.map some).reverse ++ read, none⟩ := by
  induction text generalizing read with
  | nil => rfl
  | cons c text ih =>
    rw [encode_cons, List.foldl_append, foldl_encodeChar, ih]
    simp

/-- **The decoder reads back what was encoded, and accepts nothing else.** -/
theorem decode?_eq_some_iff {bytes : Bytes} {text : List Char} :
    decode? bytes = some text ↔ bytes = encode text := by
  unfold decode? decodeChars
  rw [mapM_eq_some_iff, List.map_id]
  constructor
  · intro h
    have hread := Decoder.hasRead_foldl bytes
    generalize bytes.foldl Decoder.step ⟨[], none⟩ = d at h hread
    obtain ⟨read, pending⟩ := d
    cases pending with
    | some p =>
      -- a character under way counts as a broken one
      have hbroken : none ∈ text.map some := by
        rw [← h]
        simp [Decoder.finish]
      simp at hbroken
    | none =>
      have hfinish : read.reverse = text.map some := h
      rcases hread with hbroken | ⟨others, hothers, hbytes⟩
      · have hmem : none ∈ text.map some := by
          rw [← hfinish]
          exact List.mem_reverse.mpr hbroken
        simp at hmem
      · rw [show read = (others.map some).reverse from hothers, List.reverse_reverse] at hfinish
        rw [hbytes, List.map_inj_right (fun _ _ => Option.some.inj) |>.mp hfinish]
  · rintro rfl
    rw [Decoder.foldl_encode]
    simp [Decoder.finish]

theorem stringOf?_eq_some_iff {bytes : Bytes} {s : String} :
    stringOf? bytes = some s ↔ bytes = bytesOf s := by
  unfold stringOf? bytesOf
  rw [Option.map_eq_some_iff]
  constructor
  · rintro ⟨text, htext, rfl⟩
    rw [String.toList_ofList]
    exact decode?_eq_some_iff.mp htext
  · intro h
    exact ⟨s.toList, decode?_eq_some_iff.mpr h, String.ofList_toList⟩

end Ripple.Text
