import Ripple.Files.Access
import Ripple.Graph
import Ripple.Path

/-!
# The graph of a directory of records

The records of a directory are its regular files whose names have the extension `d`, taken in
ascending order of the names' bytes, so the last file that declares a target has the say. Links,
directories and other files are passed over, and so are files that are no text or hold no record. A
file is opened by the path of the directory with its name behind it, and passed over as well if that
path is too long.
-/

namespace Ripple

open Text

namespace FileTree

/-- The path of an entry, seen from the path of the directory that it stands in. -/
def entryPath (directory : Bytes) (name : FileName) : Bytes :=
  if directory.getLast? = some slash then directory ++ name else directory ++ slash :: name

end FileTree

namespace Depfile

/-- The record in the file at the path. -/
def recordAt (t : FileTree) (path : String) : Except Fault (Option DependencyRecord) :=
  (t.readText (bytesOf path)).map fun text => parse? text.toList

/-- The entry's name ends in `.d`. -/
def isRecordName (name : FileName) : Bool := Path.extensionOf FileTree.dot name == some [0x64]

/-- The record that an entry of the directory at a path holds. -/
def recordIn? (directory : Bytes) : FileName × Entry → Option DependencyRecord
  | (name, .file content) =>
    if isRecordName name ∧ (FileTree.entryPath directory name).length < FileTree.pathLimit then
      (decode? content).bind parse?
    else none
  | _ => none

end Depfile

namespace DependencyGraph

/-- The graph of the records among the entries of the directory at a path. -/
def ofEntries (directory : Bytes) (entries : List (FileName × Entry)) : DependencyGraph :=
  ofRecords (entries.filterMap (Depfile.recordIn? directory))

/-- The graph of the records in the directory at the path, if a directory is there. -/
def ofDirectory? (t : FileTree) (path : String) : Option DependencyGraph :=
  (t.list? (bytesOf path)).map (ofEntries (bytesOf path))

/-- The complaint about a path where no directory of records is. -/
def noDirectory (path : String) : String := "dependency directory not found: " ++ path

end DependencyGraph

end Ripple
