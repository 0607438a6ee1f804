import Ripple.Json.Value

/-!
# Writing JSON

`write` puts no blanks between the tokens. `writePretty` puts each item and each member on a line of
its own, two blanks deeper than the bracket around it; an empty array or object stays on one line.
Both escape quotes, backslashes and control characters and write every other character as it is.
-/

namespace Ripple.Json

open Text

/-- A character inside a string literal. -/
def writeChar (c : Char) : List Char :=
  if c = '"' then ['\\', '"']
  else if c = '\\' then ['\\', '\\']
  else if c = '\x08' then ['\\', 'b']
  else if c = '\x0c' then ['\\', 'f']
  else if c = '\n' then ['\\', 'n']
  else if c = '\r' then ['\\', 'r']
  else if c = '\t' then ['\\', 't']
  else if c.toNat < 0x20 then '\\' :: 'u' :: hexDigits 4 c.toNat
  else [c]

/-- A string literal. One that is no text is written as a surrogate alone. -/
def writeText : LiteralText → List Char
  | some s => '"' :: (s.toList.flatMap writeChar ++ ['"'])
  | none => "\"\\ud800\"".toList

mutual

/-- The value without blanks. -/
def write : Json → List Char
  | .null => "null".toList
  | .bool true => "true".toList
  | .bool false => "false".toList
  | .number literal => literal.write
  | .string text => writeText text
  | .array [] => "[]".toList
  | .array (item :: rest) => '[' :: (write item ++ writeItems rest)
  | .object [] => "\x7b\x7d".toList
  | .object ((key, value) :: rest) =>
    '\x7b' :: (writeText key ++ ':' :: (write value ++ writeMembers rest))

/-- The items after the first, and the end of the array. -/
def writeItems : List Json → List Char
  | [] => [']']
  | item :: rest => ',' :: (write item ++ writeItems rest)

/-- The members after the first, and the end of the object. -/
def writeMembers : List (LiteralText × Json) → List Char
  | [] => ['\x7d']
  | (key, value) :: rest => ',' :: (writeText key ++ ':' :: (write value ++ writeMembers rest))

end

/-- A new line, indented by twice the given number of blanks. -/
def newLine (level : Nat) : List Char := '\n' :: List.replicate (2 * level) ' '

mutual

/-- The value on several lines, inside `level` brackets. -/
def writePrettyAt (level : Nat) : Json → List Char
  | .null => "null".toList
  | .bool true => "true".toList
  | .bool false => "false".toList
  | .number literal => literal.write
  | .string text => writeText text
  | .array [] => "[]".toList
  | .array (item :: rest) =>
    '[' :: (newLine (level + 1) ++ writePrettyAt (level + 1) item ++ writePrettyItems level rest)
  | .object [] => "\x7b\x7d".toList
  | .object ((key, value) :: rest) =>
    '\x7b' :: (newLine (level + 1) ++ writeText key ++ [':', ' '] ++
      writePrettyAt (level + 1) value ++ writePrettyMembers level rest)

def writePrettyItems (level : Nat) : List Json → List Char
  | [] => newLine level ++ [']']
  | item :: rest =>
    ',' :: (newLine (level + 1) ++ writePrettyAt (level + 1) item ++ writePrettyItems level rest)

def writePrettyMembers (level : Nat) : List (LiteralText × Json) → List Char
  | [] => newLine level ++ ['\x7d']
  | (key, value) :: rest =>
    ',' :: (newLine (level + 1) ++ writeText key ++ [':', ' '] ++ writePrettyAt (level + 1) value ++
      writePrettyMembers level rest)

end

def writePretty (value : Json) : List Char := writePrettyAt 0 value

end Ripple.Json
