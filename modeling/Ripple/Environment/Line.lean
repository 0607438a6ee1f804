import Ripple.Environment.Basic
import Ripple.Text.Blank
import Ripple.Text.Word

/-!
# A line of an environment file

A line gives a value to a variable, as a shell would:

    export NAME = 'as it is' "with $OTHER in it" # and a remark

The value ends at the first blank outside quotes, after which there may only be more blanks and a
remark. Single quotes keep everything as it is. Elsewhere a backslash stands before a character that
is meant literally, or before `n` for a line feed, and a dollar sign stands before a name, or a name
in braces, that is replaced by its value. A name without braces consists of letters and numbers
only. The character after such a name is taken literally, whatever it is.
-/

namespace Ripple.Environment

open Text

/-- What a name is replaced by. -/
def valueOf (e : Environment) (name : List Char) : List Char := (e.find? name).getD []

/-! ## Values -/

/-- Where a reader of a value stands. -/
inductive ValueMode
  | plain
  | strong
  | escape
  /-- In a name after a dollar sign; the characters so far, latest first. -/
  | name (chars : List Char)
  /-- In a name in braces; the characters so far, latest first. -/
  | braced (chars : List Char)
  | ended
  | remark

/-- A value under way: its characters, latest first, and whether double quotes are open. -/
structure ValueReader where
  chars : List Char
  quoted : Bool
  mode : ValueMode

namespace ValueReader

def start : ValueReader := ⟨[], false, .plain⟩

/-- One more character of the value. -/
def push (r : ValueReader) (c : Char) : ValueReader :=
  { r with chars := c :: r.chars, mode := .plain }

/-- The value of a variable, whose name is given latest character first. -/
def insert (e : Environment) (r : ValueReader) (name : List Char) : ValueReader :=
  { r with chars := (e.valueOf name.reverse).reverse ++ r.chars, mode := .plain }

/-- A character outside single quotes. -/
def stepPlain (r : ValueReader) (c : Char) : ValueReader :=
  if c = '$' then { r with mode := .name [] }
  else if c = '\\' then { r with mode := .escape }
  else if c = '"' then { r with quoted := !r.quoted }
  else if r.quoted then r.push c
  else if c = '\'' then { r with mode := .strong }
  else if c = ' ' ∨ c = '\t' then { r with mode := .ended }
  else r.push c

/-- The character that a backslash and the given one stand for. -/
def escaped? (c : Char) : Option Char :=
  if c = 'n' then some '\n'
  else if c = '\\' ∨ c = '\'' ∨ c = '"' ∨ c = '$' ∨ c = ' ' then some c
  else none

/-- A character after a dollar sign and a part of a name. -/
def stepName (e : Environment) (r : ValueReader) (name : List Char) (c : Char) : ValueReader :=
  if isAlphanumeric c then { r with mode := .name (c :: name) }
  else if c = '\x7b' ∧ name = [] then { r with mode := .braced [] }
  else if c = '$' then { r.insert e name with mode := .name [] }
  else (r.insert e name).push c

def step (e : Environment) (r : ValueReader) (c : Char) : Option ValueReader :=
  match r.mode with
  | .plain => some (r.stepPlain c)
  | .strong =>
    some (if c = '\'' then { r with mode := .plain } else { r.push c with mode := .strong })
  | .escape => (escaped? c).map r.push
  | .name name => some (r.stepName e name c)
  | .braced name =>
    some (if c = '\x7d' then r.insert e name else { r with mode := .braced (c :: name) })
  | .ended =>
    if c = ' ' ∨ c = '\t' then some r
    else if c = '#' then some { r with mode := .remark }
    else none
  | .remark => some r

/-- The value when the line ends here. Quotes and braces have to be closed. -/
def finish (e : Environment) (r : ValueReader) : Option (List Char) :=
  match r.mode with
  | .strong | .braced _ => none
  | .name name => if r.quoted then none else some (r.insert e name).chars.reverse
  | _ => if r.quoted then none else some r.chars.reverse

end ValueReader

def readValue (e : Environment) (text : List Char) : Option (List Char) :=
  (text.foldlM (ValueReader.step e) .start).bind (ValueReader.finish e)

/-! ## Assignments -/

/-- What a line says. -/
inductive Line
  | nothing
  | assignment (name value : String)
  | malformed

/-- The character may begin the name of a variable. -/
def isNameStart (c : Char) : Bool := ('a' ≤ c && c ≤ 'z') || ('A' ≤ c && c ≤ 'Z') || c == '_'

/-- The character may stand in the name of a variable. -/
def isNameChar (c : Char) : Bool := isNameStart c || ('0' ≤ c && c ≤ '9') || c == '.'

/-- A name at the start of a text; the name and what follows it, without the blanks before that. -/
def readName (text : List Char) : Option (List Char × List Char) :=
  if text.head?.any isNameStart then
    some (text.takeWhile isNameChar, trimStart (text.dropWhile isNameChar))
  else none

/-- The word that may stand before an assignment. -/
def exportWord : List Char := "export".toList

/-- The name of an assignment and what follows the equals sign. -/
def readTarget (text : List Char) : Option (List Char × List Char) :=
  match readName text with
  | none => none
  | some (name, '=' :: rest) => some (name, trimStart rest)
  | some (name, rest) =>
    if name = exportWord then
      match readName rest with
      | some (name, '=' :: rest) => some (name, trimStart rest)
      | _ => none
    else none

/-- There is nothing but a remark, if that. -/
def isEmptyOrRemark (text : List Char) : Bool := text = [] || text.head? = some '#'

/-- What a line says in an environment. -/
def readLine (e : Environment) (text : List Char) : Line :=
  let content := trim text
  if isEmptyOrRemark content then .nothing
  else match readTarget content with
    | none => .malformed
    | some (name, rest) =>
      if isEmptyOrRemark rest then .assignment (String.ofList name) ""
      else match readValue e rest with
        | none => .malformed
        | some value => .assignment (String.ofList name) (String.ofList value)

end Ripple.Environment
