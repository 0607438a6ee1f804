import Ripple.Text.Split

/-!
# Paths as text

Paths are separated by slashes. Empty pieces and the piece `.` say nothing about where a path leads
and are left out of its components, except a `.` at the very start. The file extension is what
follows the last dot of the last component, if something stands before that dot.

Nothing here looks at a file tree.
-/

namespace Ripple.Path

open Text

def isAbsolute (path : List Char) : Bool := path.head? == some '/'

/-- The piece names a step of the path. -/
def isStep (piece : List Char) : Bool := piece != [] && piece != ['.']

/-- The steps of the path, after a leading `.` if it has one. -/
def components (path : List Char) : List (List Char) :=
  match splitWhere (· == '/') path with
  | ['.'] :: rest => ['.'] :: rest.filter isStep
  | pieces => pieces.filter isStep

/-- The two spellings have the same components and start at the same place. -/
def same (p q : List Char) : Bool := isAbsolute p == isAbsolute q && components p == components q

/-- The name that the path ends in. The components `.` and `..` are no names. -/
def fileName? (path : List Char) : Option (List Char) :=
  (components path).getLast?.filter (fun name => name != ['.'] && name != ['.', '.'])

/-- What follows the last dot of a name, if something stands before it. -/
def extensionOf [BEq α] (dot : α) (name : List α) : Option (List α) :=
  match name.reverse.dropWhile (· != dot) with
  | [] | [_] => none
  | _ => some (name.reverse.takeWhile (· != dot)).reverse

/-- The extension of the name that the path ends in. -/
def extension? (path : List Char) : Option (List Char) := (fileName? path).bind (extensionOf '.')

/-- The path seen from `base`; an absolute path replaces it. -/
def join (base path : List Char) : List Char :=
  if isAbsolute path then path
  else if base = [] ∨ base.getLast? = some '/' then base ++ path
  else base ++ '/' :: path

/-- The spelling of a path with the given components. -/
def ofComponents (absolute : Bool) (steps : List (List Char)) : List Char :=
  (if absolute then ['/'] else []) ++ ['/'].intercalate steps

/-- The path without its last component. The root and the empty path have no parent. -/
def parent? (path : List Char) : Option (List Char) :=
  match components path with
  | [] => none
  | steps => some (ofComponents (isAbsolute path) steps.dropLast)

/-- The paths of the directories above the last of the given components, which are listed last one
first; the nearest directory comes first. -/
def above (absolute : Bool) : List (List Char) → List (List Char)
  | [] => []
  | _ :: rest =>
    if rest = [] ∧ ¬ absolute then []
    else ofComponents absolute rest.reverse :: above absolute rest

/-- The path as it is spelled, then the directories above it, nearest first. -/
def lineage (path : List Char) : List (List Char) :=
  path :: above (isAbsolute path) (components path).reverse

end Ripple.Path
