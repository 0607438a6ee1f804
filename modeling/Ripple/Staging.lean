import Ripple.Files.Change
import Ripple.Text.Decimal

/-!
# Staging

Analyzers read files, so a source text is staged: written to a file of its own for as long as it is
inspected, and removed afterwards. The name of the file starts with a stamp, made of a time and a
random token, and ends with the name that the source was submitted under, in which every character
that a file name should not contain is an underscore. An extension of other characters survives, so
that analyzers recognise the language.
-/

namespace Ripple

open Text

/-- What makes the name of a staged file new: the time in milliseconds and a random number. -/
structure Stamp where
  millis : Nat
  token : UInt32
  deriving DecidableEq, Repr

/-- Why a source could not be staged: what happened to which path. -/
structure StagingFailure where
  path : String
  reason : Fault
  deriving DecidableEq, Repr

namespace Staging

/-- The character may stand in the name of a staged file. -/
def isPlain (c : Char) : Bool :=
  ('a' ≤ c && c ≤ 'z') || ('A' ≤ c && c ≤ 'Z') || ('0' ≤ c && c ≤ '9') || c == '.' || c == '_' ||
    c == '-'

/-- The name for a source whose own name is of no use. -/
def fallbackName : String := "source"

/-- The submitted name as a single piece of a path. A name of full stops only, or of nothing, would
lead elsewhere and is replaced. -/
def sanitize (name : String) : String :=
  let plain := name.toList.map fun c => if isPlain c then c else '_'
  if plain.all (· == '.') then fallbackName else String.ofList plain

/-- The name of a staged file. -/
def fileName (stamp : Stamp) (name : String) : String :=
  String.ofList (decimal stamp.millis ++ '-' :: (hexDigits 8 stamp.token.toNat ++ ['-'])) ++
    sanitize name

def path (directory : String) (stamp : Stamp) (name : String) : String :=
  String.ofList (Path.join directory.toList (fileName stamp name).toList)

end Staging

namespace FileTree

/-- Removes a staged file. That there is nothing to remove, or that it cannot be removed, is no
matter. -/
def unstage (t : FileTree) (path : String) : FileTree := (t.remove (bytesOf path)).1

/-- Stages a source in a directory, which is made if it is missing; the path of the staged file.
What was written by an attempt that failed is removed. -/
def stage (t : FileTree) (directory : String) (stamp : Stamp) (name content : String) :
    FileTree × Except StagingFailure String :=
  match t.makeDirectories directory with
  | (t, .error reason) => (t, .error ⟨directory, reason⟩)
  | (t, .ok ()) =>
    let path := Staging.path directory stamp name
    match t.write (bytesOf path) (bytesOf content) with
    | (t, .ok ()) => (t, .ok path)
    | (t, .error reason) => (t.unstage path, .error ⟨path, reason⟩)

end FileTree

end Ripple
