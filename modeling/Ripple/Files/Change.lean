import Ripple.Files.Access
import Ripple.Path

/-!
# Changing a file tree

Each operation gives the tree after it and whether it was carried out. An operation that fails at
once leaves the tree as it was. Two of them may have done something before they fail: making a
directory together with those above it may have made some of them, and writing a file may have made
the file and filled a part of it.
-/

namespace Ripple.FileTree

open Text

def put (t : FileTree) (location : Location) (entry : Entry) : FileTree :=
  { t with entries := t.entries.insert location entry }

def erase (t : FileTree) (location : Location) : FileTree :=
  { t with entries := t.entries.erase location }

/-- The path without slashes at its end. -/
def dropSlashes (path : Bytes) : Bytes :=
  (path.reverse.dropWhile (· == slash)).reverse

/-- Makes a directory whose parent exists. A link in the last place is not followed, and slashes at
the end do not matter. -/
def makeDirectory (t : FileTree) (path : Bytes) : FileTree × Except Fault Unit :=
  match t.walkPieces .name path (piecesOf (dropSlashes path)) with
  | .ok (.vacant directory name) => (t.put (name :: directory) .directory, .ok ())
  | .ok (.taken _ _) => (t, .error .alreadyExists)
  | .error fault => (t, .error fault)

/-- Makes the first of the directories; where the one it stands in is missing, that one, which is
the next, is made first. A directory that is there already counts as made. -/
def makeLineage (t : FileTree) : List Bytes → FileTree × Except Fault Unit
  | [] => (t, .ok ())
  | path :: parents =>
    match t.makeDirectory path with
    | (made, .ok ()) => (made, .ok ())
    | (_, .error .notFound) =>
      match t.makeLineage parents with
      | (above, .error fault) => (above, .error fault)
      | (above, .ok ()) =>
        match above.makeDirectory path with
        | (made, .ok ()) => (made, .ok ())
        | (_, .error fault) =>
          -- A path that ends in `..` leads to a directory that is there by now.
          (above, if above.isDirectory path then .ok () else .error fault)
    | (_, .error fault) => (t, if t.isDirectory path then .ok () else .error fault)

/-- Makes the directory at a path together with the missing ones above it. The empty path stands for
a directory that is there. -/
def makeDirectories (t : FileTree) (path : String) : FileTree × Except Fault Unit :=
  if path = "" then (t, .ok ())
  else t.makeLineage ((Path.lineage path.toList).map encode)

/-- Why a content cannot be written in full at a location, if it cannot. -/
def shortfall? (t : FileTree) (location : Location) (content : Bytes) : Option Fault :=
  match t.limits[location]? with
  | none => none
  | some (size, reason) => if size < content.length then some reason else none

/-- What is written of a content at a location, all of it or as much as can be. -/
def kept (t : FileTree) (location : Location) (content : Bytes) : Bytes :=
  match t.limits[location]? with
  | none => content
  | some (size, _) => content.take size

/-- Makes or empties a file and fills it. A write that breaks off leaves what it has written. -/
def fill (t : FileTree) (location : Location) (content : Bytes) : FileTree × Except Fault Unit :=
  (t.put location (.file (t.kept location content)),
    match t.shortfall? location content with
    | none => .ok ()
    | some reason => .error reason)

/-- Writes a file, in the place of a regular file that stands there. A link is followed, and one
that leads to a vacant place is filled there. -/
def write (t : FileTree) (path content : Bytes) : FileTree × Except Fault Unit :=
  match t.walk .fill path with
  | .ok (.vacant directory name) => t.fill (name :: directory) content
  | .ok (.taken location (.file _)) => t.fill location content
  | .ok (.taken _ .directory) => (t, .error .isDirectory)
  | .ok (.taken _ (.link _)) => (t, .error .tooManyLinks)
  | .error fault => (t, .error fault)

/-- Removes a file or a link; a directory stays. -/
def remove (t : FileTree) (path : Bytes) : FileTree × Except Fault Unit :=
  match t.walk .name path with
  | .ok (.taken _ .directory) => (t, .error .isDirectory)
  | .ok (.taken location _) => (t.erase location, .ok ())
  | .ok (.vacant _ _) => (t, .error .notFound)
  | .error fault => (t, .error fault)

/-- Makes a symbolic link at a vacant place. -/
def makeLink (t : FileTree) (path target : Bytes) : FileTree × Except Fault Unit :=
  match t.walk .name path with
  | .ok (.vacant directory name) => (t.put (name :: directory) (.link target), .ok ())
  | .ok (.taken _ _) => (t, .error .alreadyExists)
  | .error fault => (t, .error fault)

end Ripple.FileTree
