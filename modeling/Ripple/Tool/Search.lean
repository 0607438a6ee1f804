import Ripple.Files.Access

/-!
# Searching for programs

A program with a slash in its name is the file at that path. Any other name is looked for in the
directories of a search path, which are separated by colons. The search goes on while there is
nothing at a path or it must not be run, and ends at once when a path cannot be followed for another
reason. Something that must not be run is what the search complains about, if it met any.

In a file tree no file may be run, so `FileTree.refusal` always finds a reason why a program cannot
be started.
-/

namespace Ripple

open Text

namespace SearchPath

def colon : UInt8 := 0x3A

/-- The directories to be searched. The empty one is the working directory, and one that is too long
for a path counts as the empty one, or as none at the end. -/
def directories (searchPath : String) : List Bytes :=
  let entries := splitWhere (· == colon) (bytesOf searchPath)
  let fits (directory : Bytes) : Bool := directory.length < FileTree.pathLimit
  entries.dropLast.map (fun directory => if fits directory then directory else []) ++
    entries.getLast?.toList.filter fits

/-- The path of a program in a directory. Of a name that is too long, no more is looked at than
makes it too long. -/
def candidate (program directory : Bytes) : Bytes :=
  let name := program.take (FileTree.maxNameLength + 1)
  if directory = [] then name else directory ++ FileTree.slash :: name

end SearchPath

namespace FileTree

/-- Why the program at a path cannot be started. -/
def refusalAt (t : FileTree) (path : Bytes) : Fault :=
  match t.lookUp path with
  | .ok _ => .permissionDenied
  | .error fault => fault

/-- Why none of the programs at the paths can be started, when those tried before were refused for
the given reason. -/
def refusalFrom (t : FileTree) (reason : Fault) : List Bytes → Fault
  | [] => reason
  | path :: rest =>
    match t.refusalAt path with
    | .permissionDenied => t.refusalFrom .permissionDenied rest
    | .notFound => t.refusalFrom (if reason = .permissionDenied then reason else .notFound) rest
    | .notDirectory =>
      t.refusalFrom (if reason = .permissionDenied then reason else .notDirectory) rest
    | fault => fault

/-- Why a program cannot be started when it is looked for along a search path. -/
def refusal (t : FileTree) (searchPath program : String) : Fault :=
  let name := bytesOf program
  if name = [] then .notFound
  else if slash ∈ name then t.refusalAt name
  else
    t.refusalFrom .notFound ((SearchPath.directories searchPath).map (SearchPath.candidate name))

end FileTree

end Ripple
