import Ripple.Json.Value
import Ripple.Names

/-!
# Taking JSON apart

A record with named fields is read from an object, in which members with other keys are ignored and
a field may not occur twice, or from an array that lists the fields in order and may stop early. A
field that is absent is `none`; whether it may be absent is decided where the record is read.

A map is read from an object as well, but every key counts, and a key that occurs again replaces the
earlier value. One of a few names is read from a string, or from an object whose only member has
that name as its key and null as its value.
-/

namespace Ripple.Json

/-- The text of a string. -/
def toText? : Json → Option String
  | .string text => text
  | _ => none

def toBool? : Json → Option Bool
  | .bool value => some value
  | _ => none

/-- The natural number below `bound`. -/
def toNat? (bound : Nat) : Json → Option Nat
  | .number literal => literal.toNat?.filter (· < bound)
  | _ => none

/-- The items of an array, each read with `read`. -/
def toList? (read : Json → Option α) : Json → Option (List α)
  | .array items => items.mapM read
  | _ => none

/-- One entry of a map. -/
def toKeyed? (read : Json → Option α) : LiteralText × Json → Option (String × α)
  | (some key, value) => (read value).map (key, ·)
  | (none, _) => none

/-- The map whose keys are texts and whose values are read with `read`. -/
def toMap? (read : Json → Option α) : Json → Option (NameTable α)
  | .object members => (members.mapM (toKeyed? read)).map NameTable.ofList
  | _ => none

/-- The value of the first member with the key. -/
def member? (key : String) (members : List (LiteralText × Json)) : Option Json :=
  (members.find? (·.1 == some key)).map (·.2)

/-- Every key is a text and none of the names occurs twice as a key. -/
def isRecord (names : List String) (members : List (LiteralText × Json)) : Bool :=
  members.all (·.1.isSome) && names.all fun name => members.countP (·.1 == some name) ≤ 1

/-- The fields of a record with the given names. -/
def fields? (names : List String) : Json → Option (List (Option Json))
  | .object members =>
    if isRecord names members then some (names.map (member? · members)) else none
  | .array items =>
    if items.length ≤ names.length then
      some (items.map some ++ List.replicate (names.length - items.length) none)
    else none
  | _ => none

/-- A field that has to be there. -/
def need (read : Json → Option α) (field : Option Json) : Option α := field.bind read

/-- A field that may be absent, in which case it is `default`. -/
def orElse (default : α) (read : Json → Option α) : Option Json → Option α
  | none => some default
  | some value => read value

/-- One of the named values. -/
def toChoice? (choices : List (String × α)) : Json → Option α
  | .string (some name) => choices.lookup name
  | .object [(some name, .null)] => choices.lookup name
  | _ => none

end Ripple.Json
