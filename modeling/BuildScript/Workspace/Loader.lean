import BuildScript.Component.Parser
import BuildScript.Config
import BuildScript.Path
import BuildScript.Syntax.Parser.Stmt
import BuildScript.Typed.Decl

/-! Scripts that bring in others. Paths start from the directory of the script that names them.
How deep scripts may lead to each other is bounded, since a directory can be its own part.
-/

namespace BuildScript

/-- Where the texts of files come from, by path. -/
abbrev Sources := String → Option String

/-- The texts of some files. A path in any spelling finds its file. -/
def Sources.ofFiles (files : List (String × String)) : Sources :=
  let files := files.map fun file => (Path.normalize file.1, file.2)
  fun path => files.reverse.lookup (Path.normalize path)

/-- What stays the same while scripts are loaded. -/
structure LoadSetting where
  config : Config
  sources : Sources
  builtins : BuiltinTypes
  symbols : Symbols

namespace Workspace

/-! ## Files -/

/-- The text of a file. -/
def consult (sources : Sources) (path : String) : StateM Workspace (Option String) := do
  modify fun workspace => { workspace with consulted := path :: workspace.consulted }
  return sources path

/-- The text of a file that must be there. -/
def readSource (sources : Sources) (path : String) (span : Span)
    : StateM Workspace (Option String) := do
  match ← consult sources path with
  | some source =>
    modify fun workspace => { workspace with texts := (path, source) :: workspace.texts }
    return some source
  | none =>
    reportError (.sourceNotFound path) span
    return none

/-- The directory of the script that is being checked. -/
def currentDirectory (config : Config) : StateM Workspace String := do
  return ((← get).inProgress.head?.bind Path.parent?).getD config.sourceRoot

/-- The path that a script means by a name. -/
def resolve (config : Config) (name : String) : StateM Workspace String := do
  return Path.normalize (Path.join (← currentDirectory config) name)

/-! ## Scripts -/

/-- Checks a script whose neighbours are given. -/
def buildSource (setting : LoadSetting) (neighbours : Neighbours) (path source : String)
    : StateM Workspace (Option BuiltScript) := do
  match ScriptUnit.ofSource source path with
  | .error error =>
    report (Diagnostic.ofSyntaxError error)
    return none
  | .ok scriptUnit =>
    modify fun workspace => { workspace with inProgress := path :: workspace.inProgress }
    let built? ← scriptUnit.build setting.builtins setting.symbols neighbours
    modify fun workspace => { workspace with inProgress := workspace.inProgress.tail }
    return built?

/-- Checks the script in a file. -/
def buildFile (setting : LoadSetting) (neighbours : Neighbours) (path : String) (span : Span)
    : StateM Workspace (Option BuiltScript) := do
  match ← readSource setting.sources path span with
  | none => return none
  | some source => buildSource setting neighbours path source

/-- Adds a finished script to the modules. -/
def addModule (path : String) (built : BuiltScript) : StateM Workspace Unit :=
  modify fun workspace =>
    { workspace with modules := workspace.modules ++ [⟨path, built.scriptUnit⟩] }

/-- The names that a script exports. Each script is checked once, and a script that is being
checked cannot be imported.
-/
def importScript (setting : LoadSetting) (neighbours : Neighbours) (name : String)
    (span : Span)
    : StateM Workspace (Option Symbols) := do
  let path ← resolve setting.config name
  let workspace ← get
  if workspace.inProgress.any (Path.same path) then
    reportError (.circularImport path) span
    return none
  else
    match workspace.imports.find? fun known => Path.same path known.1 with
    | some known => return some known.2
    | none =>
      match ← buildFile setting neighbours path span with
      | none => return none
      | some built =>
        modify fun workspace =>
          { workspace with imports := (path, built.exports) :: workspace.imports }
        addModule path built
        return some built.exports

/-! ## Components -/

/-- Checks a component and adds the function that creates it. -/
def buildComponent (builtins : BuiltinTypes) (path source : String)
    : StateM Workspace (Option FunctionId) := do
  match ComponentDecl.ofSource source path with
  | .error error =>
    report (Diagnostic.ofSyntaxError error)
    return none
  | .ok decl =>
    match Component.check decl with
    | .error diagnostic =>
      report diagnostic
      return none
    | .ok component => onRegistry fun registry =>
        let (function, registry) := registry.addComponent builtins component
        (some function, registry)

/-- Checks the component in a file. -/
def buildComponentFile (setting : LoadSetting) (path : String) (span : Span)
    : StateM Workspace (Option FunctionId) := do
  match ← readSource setting.sources path span with
  | none => return none
  | some source => buildComponent setting.builtins path source

/-! ## Directories -/

/-- Checks the script of a directory, which must have a function called `main`. -/
def buildDirectoryScript (setting : LoadSetting) (neighbours : Neighbours) (path : String)
    (span : Span)
    : StateM Workspace DirectoryContent := do
  match ← buildFile setting neighbours path span with
  | none => return .failed
  | some built =>
    match built.main? with
    | none =>
      reportError .mainNotFound span
      return .failed
    | some main =>
      addModule path built
      return .script main

/-- What is in a directory: the first of a script, a component and a listfile that is there. -/
def loadDirectory (setting : LoadSetting) (neighbours : Neighbours) (name : String)
    (span : Span)
    : StateM Workspace DirectoryContent := do
  let config := setting.config
  let directory ← resolve config name
  let script := Path.join directory config.scriptName
  let declarative := Path.join directory config.declarativeName
  let listfile := Path.join directory config.listfileName
  if (← consult setting.sources script).isSome then
    buildDirectoryScript setting neighbours script span
  else if (← consult setting.sources declarative).isSome then
    match ← buildComponentFile setting declarative span with
    | some creation => return .component creation
    | none => return .failed
  else if (← consult setting.sources listfile).isSome then return .listfile
  else return .failed

/-! ## Neighbours -/

/-- The neighbours of a script that may not lead any further. -/
def noFurther : Neighbours where
  importModule _ _ := do
    modify fun workspace => { workspace with exhausted := true }
    return none
  addDirectory _ _ := do
    modify fun workspace => { workspace with exhausted := true }
    return .failed
  addComponentFile _ _ := do
    modify fun workspace => { workspace with exhausted := true }
    return none

/-- The neighbours of a script, where scripts may lead to each other `depth` times. -/
def neighboursWithin (setting : LoadSetting) : Nat → Neighbours
  | 0 => noFurther
  | depth + 1 =>
    { importModule := fun name span =>
        importScript setting (neighboursWithin setting depth) name span
      addDirectory := fun name span =>
        loadDirectory setting (neighboursWithin setting depth) name span
      addComponentFile := fun name span => do
        let path ← resolve setting.config name
        buildComponentFile setting path span }

end Workspace

end BuildScript
