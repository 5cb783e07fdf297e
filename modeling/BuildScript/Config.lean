/-! The settings of a compilation and a run. -/

namespace BuildScript

/-- The settings: the directory that paths start from, the names of the files that make a
directory a part of the program, in the order in which they are looked for, and the number of
calls that may be open at once.
-/
structure Config where
  sourceRoot : String
  scriptName : String
  declarativeName : String
  listfileName : String
  maxCallDepth : Nat
deriving Repr, DecidableEq, Inhabited

namespace Config

/-- The stack that a run has in any case, in bytes. -/
def leastStack : Nat := 2 * 1024 * 1024

/-- The stack that one call of a script's function may need, in bytes. -/
def stackPerCall : Nat := 24 * 1024

/-- The greatest size that a stack can be given. -/
def greatestStack : Nat := UInt64.size - 1

/-- The settings unless others are given. As many calls may be open as the least stack has room
for.
-/
def standard : Config where
  sourceRoot := "."
  scriptName := "CMakeLists.cmsl"
  declarativeName := "CMakeLists.dcmsl"
  listfileName := "CMakeLists.txt"
  maxCallDepth := leastStack / stackPerCall

/-- The stack that a run with these settings may need, in bytes. -/
def requiredStackSize (config : Config) : Nat :=
  max (min (config.maxCallDepth * stackPerCall) greatestStack) leastStack

end Config

end BuildScript
