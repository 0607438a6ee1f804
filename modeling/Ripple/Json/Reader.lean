import Ripple.Json.Token

/-!
# Reading JSON

A machine with a stack reads the tokens. The stack holds the arrays and objects that are open, each
with what it holds so far, so nesting is limited by nothing. The machine stops at the first token
that cannot stand where it does.
-/

namespace Ripple.Json

/-- An open array or object around the value being read; what came before is listed latest first. -/
inductive Frame
  | item (before : List Json)
  | member (before : List (LiteralText × Json)) (key : LiteralText)

/-- What the machine expects. -/
inductive Reader
  | value (stack : List Frame)
  /-- The first item of an array, or its end. -/
  | firstItem (stack : List Frame)
  /-- The first key of an object, or its end. -/
  | firstKey (stack : List Frame)
  | key (stack : List Frame) (before : List (LiteralText × Json))
  | colon (stack : List Frame) (before : List (LiteralText × Json)) (key : LiteralText)
  /-- What follows a value that has just been read. -/
  | after (stack : List Frame) (value : Json)

namespace Reader

/-- A token where a value is expected. -/
def begin (stack : List Frame) : Token → Option Reader
  | .string text => some (.after stack (.string text))
  | .scalar v => some (.after stack v)
  | .openArray => some (.firstItem stack)
  | .openObject => some (.firstKey stack)
  | _ => none

/-- A token after a value. -/
def resume (v : Json) : List Frame → Token → Option Reader
  | .item before :: stack, .comma => some (.value (.item (v :: before) :: stack))
  | .item before :: stack, .closeArray => some (.after stack (.array (v :: before).reverse))
  | .member before name :: stack, .comma => some (.key stack ((name, v) :: before))
  | .member before name :: stack, .closeObject =>
    some (.after stack (.object ((name, v) :: before).reverse))
  | _, _ => none

def step : Reader → Token → Option Reader
  | .value stack, token => begin stack token
  | .firstItem stack, .closeArray => some (.after stack (.array []))
  | .firstItem stack, token => begin (.item [] :: stack) token
  | .firstKey stack, .closeObject => some (.after stack (.object []))
  | .firstKey stack, .string name => some (.colon stack [] name)
  | .key stack before, .string name => some (.colon stack before name)
  | .colon stack before name, .colon => some (.value (.member before name :: stack))
  | .after stack v, token => resume v stack token
  | _, _ => none

/-- The value when the tokens end here. -/
def finish : Reader → Option Json
  | .after [] v => some v
  | _ => none

end Reader

/-- The value that a text writes. -/
def read? (text : List Char) : Option Json :=
  (tokens? text).bind fun tokens => (tokens.foldlM Reader.step (.value [])).bind Reader.finish

end Ripple.Json
