import BuildScript.Diagnostic
import BuildScript.Scope.Symbols

/-! What the files of a program share while they are checked. -/

namespace BuildScript

/-- A checked script other than the one that is run. -/
structure Module where
  path : String
  scriptUnit : TypedUnit
deriving Inhabited

/-- The state of a compilation: the registry, the messages in the order in which they were
given, the texts that were read by path, newest first, the paths that were looked up, newest
first, the exports of imported scripts, the scripts that are being checked, innermost first, the
modules in the order in which they were finished, and whether scripts lead to each other without
end.
-/
structure Workspace where
  registry : Registry
  diagnostics : List Diagnostic
  texts : List (String × String)
  consulted : List String
  imports : List (String × Symbols)
  inProgress : List String
  modules : List Module
  exhausted : Bool
deriving Inhabited

/-- What is found in a directory. -/
inductive DirectoryContent where
  | script (main : FunctionId)
  | component (creation : FunctionId)
  | listfile
  | failed
deriving Repr, DecidableEq

/-- How a script reaches its neighbours. -/
structure Neighbours where
  importModule : String → Span → StateM Workspace (Option Symbols)
  addDirectory : String → Span → StateM Workspace DirectoryContent
  addComponentFile : String → Span → StateM Workspace (Option FunctionId)

/-- The neighbours of a script that stands alone. -/
def Neighbours.none : Neighbours where
  importModule _ _ := return .none
  addDirectory _ _ := return .failed
  addComponentFile _ _ := return .none

namespace Workspace

/-- The workspace of a compilation before its first script. -/
def ofRegistry (registry : Registry) : Workspace := ⟨registry, [], [], [], [], [], [], false⟩

/-- Gives a message. -/
def report (diagnostic : Diagnostic) : StateM Workspace Unit :=
  modify fun workspace =>
    { workspace with diagnostics := workspace.diagnostics ++ [diagnostic] }

/-- Tells that something is wrong at a place. -/
def reportError (problem : Problem) (span : Span) : StateM Workspace Unit :=
  report (Diagnostic.error problem span)

/-- Changes the registry. -/
def onRegistry {α : Type} (change : Registry → α × Registry) : StateM Workspace α :=
  modifyGet fun workspace =>
    let (value, registry) := change workspace.registry
    (value, { workspace with registry })

end Workspace

end BuildScript
