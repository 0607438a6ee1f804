import Ripple.CommandLine.Run
import Ripple.Tool.Search

/-!
# Snapshots

A snapshot describes, as JSON, a world in which a command can be tried out without touching
anything:

    {"directory": "/work", "files": {"build/a.d": "a.o: a.c"}, "environment": {"HOME": "/home/me"},
     "input": "", "programs": {"cppcheck": {"exit": 0, "out": "", "err": ""}}}

Everything may be left out. Files are given by their paths, seen from the working directory, and the
directories above them are there as well. A program that is given ends every run in the same way;
any other program cannot be started.
-/

namespace Ripple.CommandLine

open Text

/-- The names from the entry at an absolute path up to the root. -/
def locationOf (path : String) : Location :=
  ((splitWhere (· == FileTree.slash) (bytesOf path)).filter (· ≠ [])).reverse

/-- The tree with one more file, together with the directories above it. -/
def withTextFile (t : FileTree) (path content : String) : FileTree :=
  let directory := (Path.parent? path.toList).getD []
  ((t.makeDirectories (String.ofList directory)).1.write (bytesOf path) (bytesOf content)).1

/-- The tree of text files seen from a working directory. -/
def treeOf (directory : String) (files : NameTable String) : FileTree :=
  let bare : FileTree := ((FileTree.mk ∅ []).makeDirectories directory).1
  files.toList.foldl (fun t (path, content) => withTextFile t path content)
    { bare with workingDirectory := locationOf directory }

def completionOfJson? (j : Json) : Option Completion := do
  let [exit, out, err] ← j.fields? ["exit", "out", "err"] | none
  some ⟨some (UInt8.ofNat (← Json.orElse 0 (Json.toNat? 256) exit)),
    ← Json.orElse "" Json.toText? out, ← Json.orElse "" Json.toText? err⟩

/-- Programs whose runs end as a table says. -/
def programsOf (table : NameTable Completion) (e : Environment) (t : FileTree) : Programs :=
  fun program _ =>
    match table[program]? with
    | some run => .ok run
    | none => .error (.notStarted (t.refusal e.searchPath program))

def World.ofJson? (j : Json) : Option World := do
  let [directory, files, environment, input, programs] ←
    j.fields? ["directory", "files", "environment", "input", "programs"] | none
  let directory ← Json.orElse "/" Json.toText? directory
  let files ← Json.orElse ∅ (Json.toMap? Json.toText?) files
  let table ← Json.orElse ∅ (Json.toMap? completionOfJson?) programs
  some {
    tree := treeOf directory files
    environment := ← Json.orElse ∅ (Json.toMap? Json.toText?) environment
    input := bytesOf (← Json.orElse "" Json.toText? input)
    programs := programsOf table
    stamps := fun place => ⟨place, UInt32.ofNat place⟩
    millis := 0 }

/-- The world that a text describes. A blank text describes an empty world. -/
def World.ofText? (text : String) : Option World :=
  if isAllBlank text.toList then World.ofJson? (.object [])
  else (Json.read? text.toList).bind World.ofJson?

end Ripple.CommandLine
