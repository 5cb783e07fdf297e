import BuildScript.CommandLine

/-! The program: reads the files that a call of it looks up, and prints what it says. -/

namespace BuildScript

/-- The text of a file, if it is one that can be read as text. -/
def readText? (path : String) : IO (Option String) := do
  try
    return some (← IO.FS.readFile path)
  catch _ => return none

/-- Calls the program with the files that are known, and again with those that it looked up, until
it looks up no others.
-/
partial def callWith (arguments : List String) (known : List (String × Option String))
    : IO UInt32 := do
  match CommandLine.call arguments fun path => (known.lookup path).join with
  | .error mistake =>
    IO.eprint mistake.message
    return UInt32.ofNat CommandLine.usageCode
  | .ok outcome =>
    match outcome.consulted.reverse.find? fun path => (known.lookup path).isNone with
    | some path => callWith arguments ((path, ← readText? path) :: known)
    | none =>
      IO.print outcome.output
      IO.eprint outcome.errors
      return UInt32.ofNat outcome.code

end BuildScript

/-- Runs the program. -/
def main (arguments : List String) : IO UInt32 :=
  BuildScript.callWith arguments []
