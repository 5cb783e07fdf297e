import BuildScript.Run.Call
import BuildScript.Workspace.Basic

/-! Programs: checked scripts with all that they import. -/

namespace BuildScript

/-- A checked script, ready to run, with the other scripts it needs in the order in which they
were finished.
-/
structure Program where
  registry : Registry
  builtins : BuiltinTypes
  modules : List Module
  scriptUnit : TypedUnit
  main : FunctionId
deriving Inhabited

namespace Run

/-- Gives the variables of the script that is run their first values, in order. -/
def initializeGlobals : List TypedVariable → Run Unit
  | [] => return ()
  | decl :: rest => do
    let value ← initialValue call decl
    modify fun machine => { machine with globals := machine.globals.set decl.index value }
    initializeGlobals rest

/-- Gives the variables of another script their first values, in order. -/
def initializeStatics : List TypedVariable → Run Unit
  | [] => return ()
  | decl :: rest => do
    let value ← initialValue call decl
    modify fun machine => { machine with statics := machine.statics.set decl.index value }
    initializeStatics rest

end Run

namespace Program

/-- The setting in which a program runs. -/
def setting (program : Program) (limits : Limits) : RunSetting :=
  ⟨⟨program.registry, program.builtins⟩, limits⟩

/-- Gives all variables outside of functions their first values, those of other scripts first.
-/
def prepare (program : Program) : Run Unit := do
  program.modules.forM fun other => Run.initializeStatics other.scriptUnit.globals
  Run.initializeGlobals program.scriptUnit.globals

/-- Runs a program: gives the variables their first values and calls `main`. -/
def execute (program : Program) : Run Handle := do
  program.prepare
  Run.call program.main none []

/-- The outcome of running a program on a build system, and the machine at the end. -/
def run (program : Program) (limits : Limits) (system : BuildSystem)
    : Except Stop Handle × Machine :=
  program.execute (program.setting limits) (Machine.ofSystem system)

end Program

end BuildScript
