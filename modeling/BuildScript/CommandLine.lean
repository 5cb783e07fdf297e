import BuildScript.BuildSystem.Describe
import BuildScript.CommandLine.Request
import BuildScript.Session

/-! What a call of the program prints and how it ends. -/

namespace BuildScript

namespace CommandLine

/-- What a call prints, the code that it ends with, and the paths that it looked up. -/
structure Outcome where
  code : Nat
  output : String
  errors : String
  consulted : List String
deriving Repr, DecidableEq

/-- The session of a request. -/
def Request.session (request : Request) (sources : Sources) : Session :=
  let config := { Config.standard with sourceRoot := request.sourceRoot }
  Session.start
    { config with maxCallDepth := request.maxCallDepth?.getD config.maxCallDepth } sources

/-- The build system of a request. -/
def Request.system (request : Request) : BuildSystem :=
  let system := BuildSystem.ofRoot request.sourceRoot
  let system := request.defines.foldl (fun system given => system.define given.1 given.2) system
  request.options.foldl (fun system given => system.setOption given.1 given.2) system

/-- Prints the checked script. -/
def dump (request : Request) (sources : Sources) : Outcome :=
  let (program?, session) := Session.compileFile request.script (request.session sources)
  match program? with
  | some program =>
    ⟨0, program.scriptUnit.dump program.registry, "", session.consulted⟩
  | none => ⟨1, "", session.formatDiagnostics, session.consulted⟩

/-- The code that a call ends with, of which only the lowest eight bits are kept. A run that was
stopped ends with one.
-/
def exitCode : Option Int64 → Nat
  | some result => result.toUInt64.toNat % 256
  | none => 1

/-- The lines that tell what was asked of a build system. -/
def report (system : BuildSystem) : String :=
  String.join ((system.calls.toList.filterMap BuildCall.describe?).map (· ++ "\n"))

/-- Runs the script and prints what it asked of the build system. -/
def execute (request : Request) (sources : Sources) : Outcome :=
  let ((result?, system), session) :=
    Session.execute (Session.compileFile request.script) request.system
      (request.session sources)
  let errors := if session.hasErrors then session.formatDiagnostics else ""
  ⟨exitCode result?, report system, errors, session.consulted⟩

/-- Does what a request asks for. -/
def Request.perform (request : Request) (sources : Sources) : Outcome :=
  if request.dumps then dump request sources else execute request sources

/-- The code of a call with a mistake in its arguments. -/
def usageCode : Nat := 2

/-- Does what the arguments ask for. -/
def call (arguments : List String) (sources : Sources) : Except UsageError Outcome := do
  let request ← read arguments
  return request.perform sources

end CommandLine

end BuildScript
