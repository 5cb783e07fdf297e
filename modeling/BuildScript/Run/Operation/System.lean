import BuildScript.Decimal.Integer
import BuildScript.Decimal.Reader
import BuildScript.Run.Effect
import BuildScript.Text.Blank
import BuildScript.Text.Case

/-! The operations that ask the build system or change it, and the values given on the command
line.
-/

namespace BuildScript

open Effect

/-! ## Values of the command line -/

/-- The truth that a word stands for, in any letters. -/
def readTruth? (text : String) : Option Bool :=
  let word := Text.toLower text
  if ["true", "on", "yes", "1"].contains word then some true
  else if ["false", "off", "no", "0"].contains word then some false
  else none

/-- The value that a text stands for. Numbers may have blanks around them. -/
def TypeKind.readValue? (kind : TypeKind) (text : String) : Option Value :=
  match kind with
  | .bool => (readTruth? text).map .bool
  | .int => (Decimal.readInt64? (Text.trim text.toList)).map .int
  | .double => (Decimal.readFloat? (Text.trim text.toList)).map .double
  | _ => some (.string text)

/-- The value that the command line gives to a name. A text that does not fit the type is no
value.
-/
def findExternal (name : String) (type : TypeId) : Effect Handle := do
  let registry := (← read).registry
  let type := registry.decayed type
  match (registry.type type).kind with
  | .external valueType =>
    let value? :=
      ((← system).definedValue? name).bind (registry.type valueType).kind.readValue?
    let cell? ← onHeap (value?.mapM (Heap.new valueType))
    new type (.external cell?)
  | _ => throw .notExternal

/-- Performs an operation of values given on the command line, where `result` is the type of
what it gives.
-/
def ExternalOperation.perform (operation : ExternalOperation) (self : Handle)
    (operands : List Handle) (result : TypeId)
    : Effect Handle := do
  let this ← valueOf self
  let name := ((← valuesOf operands).headD .void).asString
  match operation with
  | .ofName => findExternal name result
  | .hasValue =>
    match this with
    | .external (some _) => bool true
    | _ => bool false
  | .value =>
    match this with
    | .external (some cell) => .owned <$> onHeap (Heap.copy cell)
    | _ => throw .missingExternalValue
  | .assign => overwrite self (← operand operands 0)

/-! ## The build system -/

/-- Makes a request that gives nothing. -/
def requestVoid (call : BuildCall) : Effect Handle := do
  request call
  void

/-- Performs an operation of the build system. -/
def SystemOperation.perform (operation : SystemOperation) (operands : List Handle)
    : Effect Handle := do
  let values ← valuesOf operands
  let first := values.headD .void
  let second := values.getD 1 .void
  let third := values.getD 2 .void
  match operation with
  | .message => requestVoid (.message first.asString)
  | .warning => requestVoid (.warning first.asString)
  | .error => requestVoid (.error first.asString)
  | .fatalError => requestVoid (.fatalError first.asString)
  | .minimumRequired =>
    let required := first.asVersion
    if BuildSystem.version.compare required == .lt then
      throw (.outdatedBuildSystem required BuildSystem.version)
    else void
  | .version => Effect.version BuildSystem.version
  | .install => requestVoid (.install first.asString "bin")
  | .installTo => requestVoid (.install first.asString second.asString)
  | .enableCtest => requestVoid .enableCtest
  | .addTest => requestVoid (.addTest first.asString)
  | .currentSourceDir => string (← system).currentSourceDir
  | .currentBinaryDir => string (← system).currentBinaryDir
  | .rootSourceDir => string (← system).rootSourceDir
  | .option =>
    let value := ((← system).optionValue? first.asString).getD third.asBool
    request (.registerOption first.asString second.asString value)
    bool value
  | .setVariable => requestVoid (.setVariable first.asString second.asString)
  | .getVariable => string (((← system).variableValue? first.asString).getD "")
  | .makeDirectory => requestVoid (.makeDirectory first.asString)
  | .addCustomCommand =>
    requestVoid (.addCustomCommand (← stringsOf first) second.asString)
  | .addCustomTarget => requestVoid (.addCustomTarget first.asString (← stringsOf second))
  | .setProperty => requestVoid (.setProperty first.asString second.asString)
  | .ctestCommand => string BuildSystem.ctestCommand
  | .systemName => string BuildSystem.platform.text
  | .compilerName => string BuildSystem.compiler.text

end BuildScript
