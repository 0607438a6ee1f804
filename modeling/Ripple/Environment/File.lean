import Ripple.Environment.Line
import Ripple.Files.Access

/-!
# Environment files

A file with the name `.env` in the working directory, or in the nearest directory above it that has
one, adds variables to the environment. A variable that is set already stays as it is. The lines are
taken one after the other, so a value may refer to the variables before it, and the first line that
cannot be read ends the file. There is no environment in which a value has a NUL character, so there
is none after a line that gives such a value to a variable that is not set.

A line goes on after a line feed that stands inside quotes. The quotes of a remark do not count; a
remark starts at a number sign after a single blank. A line that starts with a number sign is a
remark as a whole.
-/

namespace Ripple.Environment

open Text

/-! ## Lines that go on -/

/-- What the characters so far leave open. -/
inductive Pending
  | nothing
  /-- A blank has been read that a number sign may follow. -/
  | blank
  | escape
  | strong
  | strongEscape
  | weak
  | weakEscape
  deriving DecidableEq

/-- A character where nothing is quoted. -/
def Pending.afterPlain (c : Char) : Pending :=
  if c = '\\' then .escape
  else if c = '"' then .weak
  else if c = '\'' then .strong
  else .nothing

/-- One character, unless a remark starts there. -/
def Pending.step : Pending → Char → Option Pending
  | .nothing, c =>
    some (if isBlank c ∧ c ≠ '\n' ∧ c ≠ '\r' then .blank else .afterPlain c)
  | .blank, c => if c = '#' then none else some (.afterPlain c)
  | .escape, _ => some .nothing
  | .strong, c => some (if c = '\\' then .strongEscape else if c = '\'' then .nothing else .strong)
  | .strongEscape, _ => some .strong
  | .weak, c => some (if c = '\\' then .weakEscape else if c = '"' then .nothing else .weak)
  | .weakEscape, _ => some .weak

/-- The part of a text before a remark, and what is left open at the end if there is no remark. The
characters come last one first, in front of those that are there already. -/
def beforeRemark (kept : List Char) (pending : Pending) : List Char → List Char × Option Pending
  | [] => (kept, some pending)
  | c :: rest =>
    match pending.step c with
    | none => (kept, none)
    | some next => beforeRemark (c :: kept) next rest

/-! ## Reading a file -/

/-- Gives a value to a variable that is not set. A value with a NUL character cannot be given. -/
def setUnset (e : Environment) (name value : String) : Option Environment :=
  if name ∈ e then some e
  else if value.toList.contains '\x00' then none
  else some (e.insert name value)

/-- Reads lines that end at line feeds; `before` is the beginning of a line that goes on, its last
character first, and leaves `pending` open. -/
def readLines (e : Environment) (before : List Char) (pending : Pending) :
    List Bytes → Option Environment
  | [] => some e
  | bytes :: rest =>
    match decode? bytes with
    | none => some e
    | some piece =>
      -- A line that goes on does not start with a number sign, or else it would not go on.
      if before = [] ∧ (trimStart piece).head? = some '#' then readLines e [] .nothing rest
      else
        let (line, left) := beforeRemark before pending piece
        if left = none ∨ left = some .nothing then
          match readLine e line.reverse with
          | .nothing => readLines e [] .nothing rest
          | .assignment name value =>
            match e.setUnset name value with
            | none => none
            | some e => readLines e [] .nothing rest
          | .malformed => some e
        else readLines e line (left.getD .nothing) rest

def lineFeed : UInt8 := 0x0A

/-- The bytes up to and including each line feed, and what follows the last one. -/
def physicalLines (bytes : Bytes) : List Bytes :=
  let pieces := splitWhere (· == lineFeed) bytes
  pieces.dropLast.map (· ++ [lineFeed]) ++ pieces.getLast?.toList.filter (· ≠ [])

/-- The bytes that may mark the beginning of a file as UTF-8. -/
def mark : Bytes := [0xEF, 0xBB, 0xBF]

/-- Adds the variables of a file. -/
def extend (e : Environment) (content : Bytes) : Option Environment :=
  let content := if mark.isPrefixOf content then content.drop mark.length else content
  readLines e [] .nothing (physicalLines content)

/-! ## Finding a file -/

/-- The path of a file in a directory. -/
def pathIn (directory : Location) (name : FileName) : Bytes :=
  (name :: directory).reverse.flatMap (FileTree.slash :: ·)

def fileName : FileName := bytesOf ".env"

/-- The content of the environment file in a directory or the nearest one above it. -/
def findFile (t : FileTree) (directory : Location) : Option Bytes :=
  match t.lookUp (pathIn directory fileName) with
  | .ok (.file content) => some content
  | .error .notFound | .ok _ =>
    match directory with
    | [] => none
    | _ :: parent => findFile t parent
  | .error _ => none

/-- The environment with the variables of the file that belongs to the working directory. -/
def withFile (e : Environment) (t : FileTree) : Option Environment :=
  match findFile t t.workingDirectory with
  | some content => e.extend content
  | none => some e

end Ripple.Environment
