import Ripple.Names
import Ripple.Path

/-!
# Environments

The environment of a process gives values to variables. It tells where programs are looked for, and
where temporary files and settings belong.
-/

namespace Ripple

/-- The values of the variables that are set. -/
abbrev Environment := NameTable String

namespace Environment

open Text

/-- The value found under a name. The environment is looked at as texts with the name of a variable,
an equals sign and its value, and what stands behind the name sought and an equals sign is the
value. So if the name sought has an equals sign itself, what follows that sign has to begin the
variable's value. -/
def find? (e : Environment) (name : List Char) : Option (List Char) :=
  match splitOnce '=' name with
  | none => (e[String.ofList name]?).map (·.toList)
  | some (front, start) =>
    let opening := start ++ ['=']
    ((e[String.ofList front]?).filter (opening.isPrefixOf ·.toList)).map
      (·.toList.drop opening.length)

/-- The directories in which programs are looked for, separated by colons. -/
def searchPath (e : Environment) : String := (e["PATH"]?).getD "/bin:/usr/bin"

def temporaryDirectory (e : Environment) : String := (e["TMPDIR"]?).getD "/tmp"

/-- The home directory; without a word about it, that of the superuser. -/
def home (e : Environment) : String := ((e["HOME"]?).filter (· ≠ "")).getD "/root"

/-- The path seen from a directory. -/
def under (directory path : String) : String :=
  String.ofList (Path.join directory.toList path.toList)

/-- The directory for the settings of all programs. A relative path does not count. -/
def configurationDirectory (e : Environment) : String :=
  ((e["XDG_CONFIG_HOME"]?).filter (Path.isAbsolute ·.toList)).getD (under e.home ".config")

end Environment

end Ripple
