import Ripple.Exchange.Inputs
import Ripple.Settings.Key

/-!
# The JSON form of settings

An object with a member for each setting, named by its key and in the order of the keys. A setting
that is not there keeps the value it has in the settings that are given beforehand.
-/

namespace Ripple.Settings

/-- The JSON form of the value of a setting. -/
def valueToJson (s : Settings) : SettingKey → Json
  | .timeout => .nat s.timeout.toNat
  | .stagingDirectory => .text s.stagingDirectory
  | .concurrentFiles => .nat s.concurrentFiles.toNat
  | .analyzers => .array (s.analyzers.map Analyzer.toJson)
  | .command analyzer => (s.command analyzer).toJson

def toJson (s : Settings) : Json :=
  .record (SettingKey.all.map fun key => (key.name, s.valueToJson key))

/-- A 64-bit number. -/
def wordOfJson? (j : Json) : Option UInt64 := (j.toNat? UInt64.size).map UInt64.ofNat

/-- The settings with the given JSON form, whether or not they can be used. -/
def ofJson? (standard : Settings) (j : Json) : Option Settings := do
  let [timeout, stagingDirectory, concurrentFiles, analyzers, cppcheck, clangTidy, clangFormat] ←
    j.fields? (SettingKey.all.map (·.name)) | none
  some ⟨← Json.orElse standard.timeout wordOfJson? timeout,
    ← Json.orElse standard.stagingDirectory Json.toText? stagingDirectory,
    ← Json.orElse standard.concurrentFiles wordOfJson? concurrentFiles,
    ← Json.orElse standard.analyzers (Json.toList? Analyzer.ofJson?) analyzers,
    ← Json.orElse standard.cppcheck Command.ofJson? cppcheck,
    ← Json.orElse standard.clangTidy Command.ofJson? clangTidy,
    ← Json.orElse standard.clangFormat Command.ofJson? clangFormat⟩

end Ripple.Settings
