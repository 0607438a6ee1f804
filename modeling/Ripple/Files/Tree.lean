import Ripple.Files.Fault
import Ripple.Text.Split
import Ripple.Text.Utf8
import Std.Data.ExtTreeMap

/-!
# File trees

A file tree maps locations to entries: regular files, directories and symbolic links. A location is
the list of names from the entry up to the root, so the location of a directory's child is one name
longer and the children of a directory stand next to each other. The root is always a directory and
is not listed. Names are bytes, because file systems do not ask for text.

A path is walked piece by piece. At most forty symbolic links are followed on the way; whether a
link in the last place is followed is up to the operation. The walk ends at an entry, or at the
vacant place of the last name in a directory that exists.
-/

namespace Ripple

open Text

/-- The name of a directory entry. -/
abbrev FileName := Bytes

/-- The names from an entry up to the root; the root is the empty list. -/
abbrev Location := List FileName

/-- Locations are ordered name by name, from the entry upwards. -/
instance instTransOrdLocation : Std.TransOrd Location := inferInstance

/-- What stands at a location. -/
inductive Entry
  | file (content : Bytes)
  | directory
  | link (target : Bytes)
  deriving DecidableEq

/-- The entries of a file system, and the directory that relative paths start from. -/
structure FileTree where
  entries : Std.ExtTreeMap Location Entry
  workingDirectory : Location
  /-- Where files cannot be written at any length: after how many bytes a write breaks off, and the
  reason. -/
  limits : Std.ExtTreeMap Location (Nat × Fault) := by exact ∅
  deriving DecidableEq

/-- Where a walk ends. -/
inductive Spot
  /-- At an entry. -/
  | taken (location : Location) (entry : Entry)
  /-- At a place in an existing directory where nothing stands. -/
  | vacant (directory : Location) (name : FileName)

namespace FileTree

/-! ## Paths as pieces -/

def slash : UInt8 := 0x2F

def dot : UInt8 := 0x2E

/-- A piece of a path. -/
inductive Piece
  | here
  | up
  | name (bytes : FileName)
  /-- The end of a path that ends in a name and a slash. The name must be that of a directory. -/
  | close
  deriving DecidableEq

/-- What a path is walked for. -/
inductive Purpose
  /-- To get at what the path leads to. A link in the last place is followed. -/
  | reach
  /-- To get at the last name itself. A link in the last place is not followed. -/
  | name
  /-- To have a file written. A link in the last place is followed, and what the path or such a
  link ends in must not be a name and a slash. -/
  | fill
  deriving DecidableEq, Repr

/-- The piece that the bytes between two slashes are; empty pieces say nothing. -/
def pieceOf? (bytes : Bytes) : Option Piece :=
  if bytes = [] then none
  else if bytes = [dot] then some .here
  else if bytes = [dot, dot] then some .up
  else some (.name bytes)

def Piece.isName : Piece → Bool
  | .name _ => true
  | _ => false

/-- The pieces of a path. -/
def piecesOf (path : Bytes) : List Piece :=
  let pieces := (splitWhere (· == slash) path).filterMap pieceOf?
  pieces ++ if path.getLast? = some slash ∧ pieces.getLast?.any (·.isName) then [.close] else []

/-- The path starts at the root. -/
def isAbsolute (path : Bytes) : Bool := path.head? == some slash

/-- Names longer than this cannot be looked up. -/
def maxNameLength : Nat := 255

/-- Paths have to be shorter than this. -/
def pathLimit : Nat := 4096

/-- How many symbolic links a walk may follow. -/
def maxLinks : Nat := 40

/-! ## Walking -/

/-- Walks the pieces from a directory on. `jump` goes on through a link that was met at a directory,
with the link's target and the pieces after it. -/
def walkWith (t : FileTree) (purpose : Purpose)
    (jump : Location → Bytes → List Piece → Except Fault Spot) :
    Location → List Piece → Except Fault Spot
  | location, [] => .ok (.taken location .directory)
  | location, .here :: rest | location, .close :: rest =>
    walkWith t purpose jump location rest
  | location, .up :: rest => walkWith t purpose jump location.tail rest
  | location, .name name :: rest =>
    if purpose = .fill ∧ rest = [.close] then .error .isDirectory
    else if maxNameLength < name.length then .error .nameTooLong
    else match t.entries[name :: location]? with
      | none => if rest = [] then .ok (.vacant location name) else .error .notFound
      | some .directory => walkWith t purpose jump (name :: location) rest
      | some (.file content) =>
        if rest = [] then .ok (.taken (name :: location) (.file content)) else .error .notDirectory
      | some (.link target) =>
        if rest = [] ∧ purpose = .name then .ok (.taken (name :: location) (.link target))
        else jump location target rest

/-- Walks the pieces from a directory on, following at most `links` links. -/
def walkFrom (t : FileTree) (purpose : Purpose) :
    Nat → Location → List Piece → Except Fault Spot
  | 0 => walkWith t purpose fun _ _ _ => .error .tooManyLinks
  | links + 1 =>
    walkWith t purpose fun location target rest =>
      if target = [] then .error .notFound
      else
        walkFrom t purpose links (if isAbsolute target then [] else location)
          (piecesOf target ++ rest)

/-- Walks the pieces of a path. -/
def walkPieces (t : FileTree) (purpose : Purpose) (path : Bytes) (pieces : List Piece) :
    Except Fault Spot :=
  if 0 ∈ path then .error .nulInPath
  else if path = [] then .error .notFound
  else if pathLimit ≤ path.length then .error .nameTooLong
  else walkFrom t purpose maxLinks (if isAbsolute path then [] else t.workingDirectory) pieces

def walk (t : FileTree) (purpose : Purpose) (path : Bytes) : Except Fault Spot :=
  t.walkPieces purpose path (piecesOf path)

end FileTree

end Ripple
