/-!
# UTF-8

Text as bytes and bytes as text. The decoder takes one byte at a time. Between characters it owes
nothing; inside a character it knows how many bytes are still owed, the bits read so far and the
range that the next byte has to lie in. That range is narrower after the lead bytes `E0`, `ED`, `F0`
and `F4`, which rules out overlong forms, surrogates and numbers above `10FFFF`. A byte outside the
range ends the broken character, which counts once however many of its bytes were read, and is
looked at again as the start of the next one.

`decode?` accepts well-formed bytes only; `decodeLossy` puts U+FFFD for each broken character.
-/

namespace Ripple.Text

/-- A sequence of bytes. -/
abbrev Bytes := List UInt8

/-- The bytes of one character. -/
def encodeChar (c : Char) : Bytes :=
  let n := c.toNat
  if n < 0x80 then [UInt8.ofNat n]
  else if n < 0x800 then [UInt8.ofNat (0xC0 + n / 0x40), UInt8.ofNat (0x80 + n % 0x40)]
  else if n < 0x10000 then
    [UInt8.ofNat (0xE0 + n / 0x1000), UInt8.ofNat (0x80 + n / 0x40 % 0x40),
      UInt8.ofNat (0x80 + n % 0x40)]
  else
    [UInt8.ofNat (0xF0 + n / 0x40000), UInt8.ofNat (0x80 + n / 0x1000 % 0x40),
      UInt8.ofNat (0x80 + n / 0x40 % 0x40), UInt8.ofNat (0x80 + n % 0x40)]

def encode (text : List Char) : Bytes := text.flatMap encodeChar

/-- What the decoder knows inside a character. -/
structure Partial where
  /-- Bytes still owed after the next one. -/
  more : Nat
  /-- The bits read so far. -/
  bits : Nat
  /-- The least value of the next byte. -/
  low : Nat
  /-- The greatest value of the next byte. -/
  high : Nat

/-- The decoder between two bytes: the characters read, latest first and `none` for a broken one,
and the character under way. -/
structure Decoder where
  read : List (Option Char)
  pending : Option Partial

/-- What the first byte of a character leads to: a whole character, the rest of one, or nothing. -/
def Decoder.begin (read : List (Option Char)) (b : Nat) : Decoder :=
  if b < 0x80 then ⟨some (Char.ofNat b) :: read, none⟩
  else if b < 0xC2 then ⟨none :: read, none⟩
  else if b < 0xE0 then ⟨read, some ⟨0, b - 0xC0, 0x80, 0xBF⟩⟩
  else if b < 0xF0 then
    ⟨read, some ⟨1, b - 0xE0, if b = 0xE0 then 0xA0 else 0x80, if b = 0xED then 0x9F else 0xBF⟩⟩
  else if b < 0xF5 then
    ⟨read, some ⟨2, b - 0xF0, if b = 0xF0 then 0x90 else 0x80, if b = 0xF4 then 0x8F else 0xBF⟩⟩
  else ⟨none :: read, none⟩

def Decoder.step (d : Decoder) (byte : UInt8) : Decoder :=
  let b := byte.toNat
  match d.pending with
  | none => Decoder.begin d.read b
  | some p =>
    if p.low ≤ b ∧ b ≤ p.high then
      let bits := 0x40 * p.bits + (b - 0x80)
      match p.more with
      | 0 => ⟨some (Char.ofNat bits) :: d.read, none⟩
      | more + 1 => ⟨d.read, some ⟨more, bits, 0x80, 0xBF⟩⟩
    else Decoder.begin (none :: d.read) b

/-- The characters read when the bytes end here, earliest first. -/
def Decoder.finish (d : Decoder) : List (Option Char) :=
  match d.pending with
  | none => d.read.reverse
  | some _ => (none :: d.read).reverse

/-- The characters of the bytes, `none` for each broken one. -/
def decodeChars (bytes : Bytes) : List (Option Char) :=
  (bytes.foldl Decoder.step ⟨[], none⟩).finish

/-- The text that well-formed bytes stand for. -/
def decode? (bytes : Bytes) : Option (List Char) := (decodeChars bytes).mapM id

/-- The text of the bytes, with U+FFFD in the place of each broken character. -/
def decodeLossy (bytes : Bytes) : List Char := (decodeChars bytes).map (·.getD '\uFFFD')

/-- The bytes of a string. -/
def bytesOf (s : String) : Bytes := encode s.toList

/-- The string that well-formed bytes stand for. -/
def stringOf? (bytes : Bytes) : Option String := (decode? bytes).map String.ofList

/-- The string of the bytes, with U+FFFD in the place of each broken character. -/
def stringOfLossy (bytes : Bytes) : String := String.ofList (decodeLossy bytes)

end Ripple.Text
