import Ripple.CommandLine.Snapshot

/-!
# The program

Tries out a command line in the world that a snapshot on the standard input describes.
-/

namespace Ripple.CommandLine

/-- Everything on the standard input. -/
def readAll (input : IO.FS.Stream) : IO String := do
  let mut text := ""
  let mut line ← input.getLine
  while line ≠ "" do
    text := text ++ line
    line ← input.getLine
  return text

end Ripple.CommandLine

open Ripple.CommandLine

def main (arguments : List String) : IO UInt32 := do
  match World.ofText? (← readAll (← IO.getStdin)) with
  | none =>
    (← IO.getStderr).putStrLn "Error: the standard input is no snapshot"
    return 2
  | some world =>
    let (_, ending) := world.run arguments
    (← IO.getStdout).putStr ending.out
    (← IO.getStderr).putStr ending.err
    return ending.exit.toUInt32
