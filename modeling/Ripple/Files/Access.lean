import Ripple.Files.Tree

/-!
# Looking at a file tree

Questions that leave the tree as it is. All of them follow symbolic links except the listing of a
directory, which shows a link as a link.
-/

namespace Ripple.FileTree

open Text

/-- The entry that a path leads to. -/
def lookUp (t : FileTree) (path : Bytes) : Except Fault Entry :=
  match t.walk .reach path with
  | .ok (.taken _ entry) => .ok entry
  | .ok (.vacant _ _) => .error .notFound
  | .error fault => .error fault

/-- Something stands at the path. -/
def exists? (t : FileTree) (path : Bytes) : Bool := (t.lookUp path).isOk

def isDirectory (t : FileTree) (path : Bytes) : Bool :=
  match t.lookUp path with
  | .ok .directory => true
  | _ => false

def isFile (t : FileTree) (path : Bytes) : Bool :=
  match t.lookUp path with
  | .ok (.file _) => true
  | _ => false

def readBytes (t : FileTree) (path : Bytes) : Except Fault Bytes :=
  match t.lookUp path with
  | .ok (.file content) => .ok content
  | .ok .directory => .error .isDirectory
  | .ok (.link _) => .error .tooManyLinks
  | .error fault => .error fault

def readText (t : FileTree) (path : Bytes) : Except Fault String :=
  match t.readBytes path with
  | .error fault => .error fault
  | .ok bytes =>
    match stringOf? bytes with
    | some text => .ok text
    | none => .error .notUtf8

/-- The name of an entry that stands directly in the directory at the location. -/
def childOf? (directory : Location) : Location × Entry → Option (FileName × Entry)
  | (name :: parent, entry) => if parent = directory then some (name, entry) else none
  | ([], _) => none

/-- The entries directly in the directory at a location, in ascending order of their names. -/
def children (t : FileTree) (directory : Location) : List (FileName × Entry) :=
  t.entries.toList.filterMap (childOf? directory)

/-- The entries of the directory at the path, in ascending order of their names. -/
def list? (t : FileTree) (path : Bytes) : Option (List (FileName × Entry)) :=
  match t.walk .reach path with
  | .ok (.taken location .directory) => some (t.children location)
  | _ => none

end Ripple.FileTree
