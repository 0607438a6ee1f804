import Ripple.Json.Numeral

/-!
# JSON values

A value is kept as it is written: members of an object stay in order and a key may occur several
times, numbers are literals. A string literal may hold a surrogate escape without its partner; such
a literal is fine as JSON and is no text, so its text is `none`.
-/

namespace Ripple

/-- The text of a string literal; `none` when a surrogate in it has no partner. -/
abbrev LiteralText := Option String

/-- A JSON value. -/
inductive Json
  | null
  | bool (value : Bool)
  | number (literal : Numeral)
  | string (text : LiteralText)
  | array (items : List Json)
  | object (members : List (LiteralText × Json))

namespace Json

/-- The string with a text. -/
def text (s : String) : Json := .string (some s)

/-- The natural number. -/
def nat (n : Nat) : Json := .number (.ofNat n)

/-- The object with members whose keys are texts. -/
def record (members : List (String × Json)) : Json :=
  .object (members.map fun (key, value) => (some key, value))

/-! ## Nesting -/

mutual

/-- How many arrays and objects stand inside each other. -/
def depth : Json → Nat
  | .array items => depthItems items + 1
  | .object members => depthMembers members + 1
  | _ => 0

def depthItems : List Json → Nat
  | [] => 0
  | item :: rest => max (depth item) (depthItems rest)

def depthMembers : List (LiteralText × Json) → Nat
  | [] => 0
  | (_, value) :: rest => max (depth value) (depthMembers rest)

end

mutual

/-- Every string is a text and every number has a finite value. -/
def plain : Json → Bool
  | .number literal => !literal.huge
  | .string text => text.isSome
  | .array items => plainItems items
  | .object members => plainMembers members
  | _ => true

def plainItems : List Json → Bool
  | [] => true
  | item :: rest => plain item && plainItems rest

def plainMembers : List (LiteralText × Json) → Bool
  | [] => true
  | (key, value) :: rest => key.isSome && plain value && plainMembers rest

end

end Json

end Ripple
