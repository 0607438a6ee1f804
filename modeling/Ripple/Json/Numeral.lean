import Ripple.Text.Decimal

/-!
# Number literals

A JSON number is kept as it is written: sign, digits before the point, digits after it, exponent.
Only natural numbers are ever taken out of one, and only out of a plain run of digits, so `5.0` and
`1e0` are no natural numbers.

A literal is `huge` when it is too large for double precision in the way readers commonly compute
it: as many leading digits as fit into 64 bits make an integer, that integer and the power of ten
are each rounded to 53 bits, and their product must stay below the largest finite value's upper
neighbour.
-/

namespace Ripple

open Text

/-- A JSON number as it is written. -/
structure Numeral where
  negative : Bool
  /-- The integer before the point. -/
  whole : Nat
  /-- The values of the digits after the point; there is a point when there are some. -/
  fraction : List Nat
  exponent : Option Int
  deriving DecidableEq, Repr

namespace Numeral

/-- The literal of a natural number. -/
def ofNat (n : Nat) : Numeral := ⟨false, n, [], none⟩

/-- The natural number of a literal that is a plain run of digits. -/
def toNat? (n : Numeral) : Option Nat :=
  if n.negative ∨ n.fraction ≠ [] ∨ n.exponent ≠ none then none else some n.whole

/-! ## Reading -/

def isDigit (c : Char) : Bool := (digitValue? c).isSome

/-- The exponent after its letter: an optional sign and at least one digit. -/
def readExponent (text : List Char) : Option Int :=
  let (negative, digits) := match text with
    | '-' :: rest => (true, rest)
    | '+' :: rest => (false, rest)
    | _ => (false, text)
  if digits = [] then none
  else (digitsValue? 0 digits).map fun n => if negative then -(n : Int) else n

/-- The integer before the point: no digit may follow a leading zero. -/
def readWhole (digits : List Char) : Option Nat :=
  match digits with
  | [] => none
  | ['0'] => some 0
  | '0' :: _ => none
  | _ => digitsValue? 0 digits

/-- What follows the integer: an optional fraction and an optional exponent. -/
def readTail (negative : Bool) (whole : Nat) (text : List Char) : Option Numeral :=
  let (fraction?, rest) := match text with
    | '.' :: rest => (some (rest.takeWhile isDigit), rest.dropWhile isDigit)
    | _ => (none, text)
  if fraction? = some [] then none
  else
    let fraction := (fraction?.getD []).filterMap digitValue?
    match rest with
    | [] => some ⟨negative, whole, fraction, none⟩
    | c :: exponent =>
      if c = 'e' ∨ c = 'E' then (readExponent exponent).map (⟨negative, whole, fraction, some ·⟩)
      else none

def read (text : List Char) : Option Numeral :=
  let (negative, digits) := match text with
    | '-' :: rest => (true, rest)
    | _ => (false, text)
  (readWhole (digits.takeWhile isDigit)).bind fun whole =>
    readTail negative whole (digits.dropWhile isDigit)

/-! ## Writing -/

def write (n : Numeral) : List Char :=
  (if n.negative then ['-'] else []) ++ decimal n.whole ++
    (if n.fraction = [] then [] else '.' :: n.fraction.map digitChar) ++
    match n.exponent with
    | none => []
    | some e => 'e' :: ((if e < 0 then ['-'] else []) ++ decimal e.natAbs)

/-! ## Size -/

/-- Cuts digits off the end until the number fits into 64 bits; also how many were cut. -/
def cut (n dropped : Nat) : Nat × Nat :=
  if n < UInt64.size then (n, dropped) else cut (n / 10) (dropped + 1)
termination_by n
decreasing_by
  have hsize : 0 < UInt64.size := by decide
  exact Nat.div_lt_self (by omega) (by decide)

/-- Appends digits for as long as the number fits into 64 bits; also how many were appended. -/
def extend : Nat → Nat → List Nat → Nat × Nat
  | n, taken, [] => (n, taken)
  | n, taken, d :: rest =>
    if 10 * n + d < UInt64.size then extend (10 * n + d) (taken + 1) rest else (n, taken)

/-- The number rounded to 53 significant bits, ties to even. -/
def round53 (n : Nat) : Nat :=
  let unit := Nat.pow 2 (n.log2 - 52)
  let quotient := n / unit
  let twice := 2 * (n % unit)
  (if twice < unit ∨ (twice = unit ∧ quotient % 2 = 0) then quotient else quotient + 1) * unit

/-- The literal has no finite value in double precision. -/
def huge (n : Numeral) : Bool :=
  let (head, dropped) := cut n.whole 0
  let (significand, taken) := extend head 0 n.fraction
  let power : Int := dropped - taken + n.exponent.getD 0
  -- A negative power divides, and a quotient is never too large.
  significand != 0 && (decide (308 < power) ||
    (decide (0 ≤ power) &&
      decide (Nat.pow 2 1024 - Nat.pow 2 970 ≤
        round53 significand * round53 (Nat.pow 10 power.toNat))))

end Numeral

end Ripple
