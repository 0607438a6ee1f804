import Ripple.Names
import Ripple.Text.Blank
import Ripple.Text.Search

/-!
# Dependency records

A compiler writes one record for each object it builds, in the manner of a makefile rule:

    utils.o: utils.c \
      utils.h defs.h

A backslash at the end of a line continues the line, so such a backslash and its line end count as
one blank. The target stands before the first colon; the rest of the text is the dependencies, so a
later colon belongs to a dependency. A record without a target or without dependencies is none.
-/

namespace Ripple

open Text

/-- A target and what it is built from. -/
structure DependencyRecord where
  target : String
  dependencies : Names
  deriving DecidableEq

namespace Depfile

/-- The text with each continuation, at a line end with a carriage return first and then at a plain
one, replaced by a blank. -/
def joinContinuations (text : List Char) : List Char :=
  replaceAll ['\\', '\n'] [' '] (replaceAll ['\\', '\r', '\n'] [' '] text)

/-- The record that a text with its continuations joined holds. -/
def recordOf? (joined : List Char) : Option DependencyRecord :=
  match splitOnce ':' joined with
  | none => none
  | some (before, after) =>
    let target := trim before
    let dependencies := words after
    if target = [] ∨ dependencies = [] then none
    else some ⟨String.ofList target, Names.ofList (dependencies.map String.ofList)⟩

/-- The record that a text holds, if it holds one. -/
def parse? (text : List Char) : Option DependencyRecord := recordOf? (joinContinuations text)

end Depfile

end Ripple
