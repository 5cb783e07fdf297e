import BuildScript.Registry.Builtin
import BuildScript.Run.Effect

/-! The operations of projects and targets, and the targets that components stand for. -/

namespace BuildScript

open Effect

/-- Performs an operation of projects. -/
def ProjectOperation.perform (operation : ProjectOperation) (self : Handle)
    (operands : List Handle)
    : Effect Handle := do
  let this ← valueOf self
  let values ← valuesOf operands
  let name := (values.headD .void).asString
  let sources ← stringsOf (values.getD 1 .void)
  match operation with
  | .ofName =>
    request (.registerProject name)
    new (← read).builtins.project (.project name)
  | .name => string this.asString
  | .addExecutable =>
    request (.addExecutable name sources)
    new (← read).builtins.executable (.target name)
  | .addLibrary =>
    request (.addLibrary name sources)
    new (← read).builtins.library (.target name)
  | .assign => overwrite self (← operand operands 0)

/-- The request that adds something to a target. -/
def TargetProperty.call (property : TargetProperty) (target : String) (visibility : Visibility)
    (text : String) (texts : List String)
    : BuildCall :=
  match property with
  | .library => .linkLibrary target visibility text
  | .includeDirectories => .includeDirectories target visibility texts
  | .compileDefinitions => .compileDefinitions target visibility texts
  | .compileOptions => .compileOptions target visibility texts
  | .sources => .addSources target visibility texts

/-- Performs an operation of targets. -/
def TargetOperation.perform (operation : TargetOperation) (self : Handle)
    (operands : List Handle)
    : Effect Handle := do
  let this ← valueOf self
  let values ← valuesOf operands
  match operation with
  | .name => string this.asString
  | .add property | .addVisibly property =>
    let added := values.headD .void
    let visibility :=
      (values[1]?.map fun value => Visibility.ofEnumerator value.asEnumerator).getD .privately
    request (property.call this.asString visibility added.asString (← stringsOf added))
    void
  | .assign => overwrite self (← operand operands 0)

/-- The request for the target that a component stands for. -/
def ComponentKind.call : ComponentKind → String → List String → BuildCall
  | .library, name, files => .addLibrary name files
  | .executable, name, files => .addExecutable name files

/-- Adds some texts to a target, unless there are none. -/
def addTexts (property : TargetProperty) (target : String) (texts : List String)
    : List BuildCall :=
  if texts.isEmpty then [] else [property.call target .privately "" texts]

/-- The requests that a component stands for, in order. -/
def Component.calls (component : Component) : List BuildCall :=
  let name := component.name
  component.kind.call name (component.strings "files")
    :: addTexts .includeDirectories name (component.strings "include_dirs")
    ++ addTexts .compileDefinitions name (component.strings "compile_definitions")
    ++ addTexts .compileOptions name (component.strings "compile_options")
    ++ (component.strings "link_to").map fun library => .linkLibrary name .privately library

/-- Makes the requests that a component stands for, and gives its target. -/
def Component.create (component : Component) : Effect Handle := do
  component.calls.forM request
  new (Registry.componentType (← read).builtins component.kind) (.target component.name)

end BuildScript
