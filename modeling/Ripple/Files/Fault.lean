/-!
# Why a file operation fails

The reasons for which the operating system refuses to open, create or start something, and two that
are noticed before it is asked: a NUL character in a path or an argument, and bytes that are no
text.
-/

namespace Ripple

/-- The reason why an operation on files, or the start of a program, failed. -/
inductive Fault
  | notFound
  | notDirectory
  | isDirectory
  | alreadyExists
  | nameTooLong
  | permissionDenied
  | tooManyLinks
  | nulInPath
  | nulInArgument
  | notUtf8
  deriving DecidableEq, Repr

def Fault.message : Fault → String
  | notFound => "No such file or directory (os error 2)"
  | notDirectory => "Not a directory (os error 20)"
  | isDirectory => "Is a directory (os error 21)"
  | alreadyExists => "File exists (os error 17)"
  | nameTooLong => "File name too long (os error 36)"
  | permissionDenied => "Permission denied (os error 13)"
  | tooManyLinks => "Too many levels of symbolic links (os error 40)"
  | nulInPath => "file name contained an unexpected NUL byte"
  | nulInArgument => "nul byte found in provided data"
  | notUtf8 => "stream did not contain valid UTF-8"

end Ripple
