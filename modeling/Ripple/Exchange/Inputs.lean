import Ripple.Analyzer
import Ripple.Batch
import Ripple.Graph
import Ripple.Json.Fields
import Ripple.Session.Messages

/-!
# JSON forms of what goes in

Languages, analyzers, dependency records and graphs, commands, and requests. A list without entries
is left out of a command; every other field is always written.
-/

namespace Ripple

namespace Json

/-- The array of texts. -/
def texts (xs : List String) : Json := .array (xs.map .text)

/-- The texts of an array. -/
def toTexts? : Json → Option (List String) := toList? toText?

/-- The array of the names in ascending order. -/
def names (xs : Names) : Json := texts xs.toList

/-- The names in an array, in any order. -/
def toNames? (j : Json) : Option Names := j.toTexts?.map Names.ofList

end Json

namespace Language

/-- A language is written as its name. -/
def toJson (language : Language) : Json := .text language.name

def ofJson? : Json → Option Language := Json.toChoice? (all.map fun l => (l.name, l))

end Language

namespace Analyzer

/-- An analyzer is written as its name. -/
def toJson (analyzer : Analyzer) : Json := .text analyzer.name

def ofJson? : Json → Option Analyzer := Json.toChoice? (all.map fun a => (a.name, a))

end Analyzer

namespace DependencyRecord

def toJson (r : DependencyRecord) : Json :=
  .record [("target", .text r.target), ("dependencies", .names r.dependencies)]

def ofJson? (j : Json) : Option DependencyRecord := do
  let [target, dependencies] ← j.fields? ["target", "dependencies"] | none
  some ⟨← Json.need Json.toText? target, ← Json.need Json.toNames? dependencies⟩

end DependencyRecord

namespace DependencyGraph

/-- A graph is written as a map from targets to dependencies. -/
def toJson (g : DependencyGraph) : Json :=
  .record (g.toList.map fun (target, dependencies) => (target, .names dependencies))

def ofJson? (j : Json) : Option DependencyGraph := (j.toMap? Json.toNames?).map DependencyGraph.mk

end DependencyGraph

namespace Command

def toJson (c : Command) : Json :=
  .record <| ("program", .text c.program) ::
    if c.prefixArguments = [] then [] else [("prefix_args", .texts c.prefixArguments)]

def ofJson? (j : Json) : Option Command := do
  let [program, arguments] ← j.fields? ["program", "prefix_args"] | none
  some ⟨← Json.need Json.toText? program, ← Json.orElse [] Json.toTexts? arguments⟩

end Command

namespace ScanRequest

def toJson (r : ScanRequest) : Json :=
  .record [("file_path", .text r.path), ("language", r.language.toJson)]

def ofJson? (j : Json) : Option ScanRequest := do
  let [path, language] ← j.fields? ["file_path", "language"] | none
  some ⟨← Json.need Json.toText? path, ← Json.need Language.ofJson? language⟩

end ScanRequest

namespace Source

def toJson (s : Source) : Json :=
  .record [("filename", .text s.name), ("content", .text s.content),
    ("language", s.language.toJson)]

def ofJson? (j : Json) : Option Source := do
  let [name, content, language] ← j.fields? ["filename", "content", "language"] | none
  some ⟨← Json.need Json.toText? name, ← Json.need Json.toText? content,
    ← Json.need Language.ofJson? language⟩

/-- A batch is written as the array of its sources. -/
def batchToJson (batch : List Source) : Json := .array (batch.map toJson)

def batchOfJson? : Json → Option (List Source) := Json.toList? ofJson?

end Source

namespace AffectedRequest

def toJson (r : AffectedRequest) : Json :=
  .record [("changed_files", .texts r.changed), ("dependency_dir", .text r.directory)]

def ofJson? (j : Json) : Option AffectedRequest := do
  let [changed, directory] ← j.fields? ["changed_files", "dependency_dir"] | none
  some ⟨← Json.need Json.toTexts? changed, ← Json.need Json.toText? directory⟩

end AffectedRequest

namespace ImpactRequest

/-- Where compilation units are looked up when nothing else is said. -/
def defaultRoot : String := "."

def toJson (r : ImpactRequest) : Json :=
  .record [("changed_files", .texts r.changed), ("dependency_dir", .text r.directory),
    ("source_root", .text r.root)]

def ofJson? (j : Json) : Option ImpactRequest := do
  let [changed, directory, root] ←
    j.fields? ["changed_files", "dependency_dir", "source_root"] | none
  some ⟨← Json.need Json.toTexts? changed, ← Json.need Json.toText? directory,
    ← Json.orElse defaultRoot Json.toText? root⟩

end ImpactRequest

end Ripple
