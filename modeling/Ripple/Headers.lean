/-!
# System headers

Where the analyzers look for system headers: in the usual place, or in a software development kit
that has headers of its own.
-/

namespace Ripple

/-- The place of the system headers. -/
inductive SystemHeaders
  | sdk (path : String)
  | generic
  deriving DecidableEq, Repr

namespace SystemHeaders

/-- The usual directory. -/
def genericDirectory : String := "/usr/include"

/-- The path of the kit, if there is one. -/
def sdk? : SystemHeaders → Option String
  | sdk path => some path
  | generic => none

/-- The directory with the headers. -/
def directory : SystemHeaders → String
  | sdk path => path ++ "/usr/include"
  | generic => genericDirectory

/-- The flags that tell a compiler front end about the headers. -/
def clangFlags (headers : SystemHeaders) : List String :=
  (match headers with
    | sdk path => ["-isysroot", path, "-I", headers.directory]
    | generic => []) ++ ["-I", genericDirectory]

end SystemHeaders

end Ripple
