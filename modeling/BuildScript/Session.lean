import BuildScript.Diagnostic.Render
import BuildScript.Run.Program
import BuildScript.Typed.Dump
import BuildScript.Workspace.Loader

/-! Compiling and running scripts one after the other. -/

namespace BuildScript

/-- What is common to the scripts of a session: the settings, the files, the messages so far in
the order in which they were given, the texts that were compiled by path, newest first, the paths
that were looked up, newest first, and whether scripts led to each other without end when last one
was compiled. Such a compilation has no outcome: it gives no program and tells nothing.
-/
structure Session where
  config : Config
  sources : Sources
  diagnostics : List Diagnostic
  texts : List (String × String)
  consulted : List String
  exhausted : Bool

namespace Session

/-- A session before its first script. -/
def start (config : Config) (sources : Sources) : Session := ⟨config, sources, [], [], [], false⟩

/-- How deep scripts may lead to each other, which is deeper than they can. -/
def nestingLimit : Nat := 0x4000000000000000

/-- How often a loop may go round, which takes longer than anyone waits. -/
def iterationLimit : Nat := 0x4000000000000000

/-! ## Compiling -/

/-- The program of a finished script, which must have a function called `main`. -/
def finish (builtins : BuiltinTypes) (built : BuiltScript)
    : StateM Workspace (Option Program) := do
  match built.main? with
  | none =>
    Workspace.reportError .mainNotFound built.scriptUnit.span
    return none
  | some main =>
    let workspace ← get
    return some ⟨workspace.registry, builtins, workspace.modules, built.scriptUnit, main⟩

/-- Compiles a text as the script at a path, where scripts may lead to each other `nesting`
times.
-/
def compileWithin (nesting : Nat) (path source : String) : StateM Session (Option Program) :=
  fun session =>
    let prelude := Prelude.standard
    let setting : LoadSetting :=
      ⟨session.config, session.sources, prelude.builtins, prelude.symbols⟩
    let before : Workspace :=
      { Workspace.ofRegistry prelude.registry with
        diagnostics := session.diagnostics
        texts := (path, source) :: session.texts
        consulted := session.consulted }
    let build : StateM Workspace (Option Program) := do
      let neighbours := Workspace.neighboursWithin setting nesting
      match ← Workspace.buildSource setting neighbours path source with
      | none => return none
      | some built => finish prelude.builtins built
    let (program?, workspace) := build.run before
    (if workspace.exhausted then none else program?,
      { session with
        diagnostics := if workspace.exhausted then session.diagnostics else workspace.diagnostics
        texts := workspace.texts
        consulted := workspace.consulted
        exhausted := workspace.exhausted })

/-- Compiles a text as the script of the source root. -/
def compileSource (source : String) : StateM Session (Option Program) := do
  let config := (← get).config
  compileWithin nestingLimit
    (Path.normalize (Path.join config.sourceRoot config.scriptName)) source

/-- Compiles the script in a file. -/
def compileFile (name : String) : StateM Session (Option Program) := do
  let session ← get
  let path := Path.normalize (Path.join session.config.sourceRoot name)
  set { session with consulted := path :: session.consulted, exhausted := false }
  match session.sources path with
  | some source => compileWithin nestingLimit path source
  | none =>
    let diagnostic := Diagnostic.error (.sourceNotFound path) Span.unknown
    modify fun session => { session with diagnostics := session.diagnostics ++ [diagnostic] }
    return none

/-! ## Running -/

/-- What a run in this session may take. -/
def limits (session : Session) : Limits := ⟨session.config.maxCallDepth, iterationLimit⟩

/-- Runs a program on a build system, and gives the integer that `main` returned, unless the
run was stopped.
-/
def run (session : Session) (program : Program) (system : BuildSystem)
    : Option Int64 × BuildSystem :=
  match program.run session.limits system with
  | (.ok handle, machine) =>
    (some (machine.store.heap.value handle.cell).asInt, machine.store.system)
  | (.error _, machine) => (none, machine.store.system)

/-- Compiles and runs what can be compiled. -/
def execute (compile : StateM Session (Option Program)) (system : BuildSystem)
    : StateM Session (Option Int64 × BuildSystem) := do
  match ← compile with
  | none => return (none, system)
  | some program => return (← get).run program system

/-! ## Messages -/

/-- The messages so far with the lines that they are about. -/
def formatDiagnostics (session : Session) : String :=
  String.join <| session.diagnostics.map fun diagnostic =>
    diagnostic.render ((session.texts.lookup diagnostic.span.file).getD "")

/-- Whether there has been an error. -/
def hasErrors (session : Session) : Bool := Diagnostic.hasErrors session.diagnostics

end Session

end BuildScript
