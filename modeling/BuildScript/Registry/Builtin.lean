import BuildScript.Registry.Generic

/-! The registry that every program begins with: the types that the language itself provides
and their functions. All types are added first, so that functions may mention any of them.
-/

namespace BuildScript

/-- The enumerators of visibility, in order. -/
def visibilityNames : List String := ["private", "public", "interface"]

namespace Registry

/-! ## Types -/

/-- Adds a provided type with a context of its own. -/
def addBuiltinType (registry : Registry) (parent : ContextId) (name primaryName : String)
    (kind : TypeKind) (base? : Option TypeId) : TypeId × Registry :=
  let contextKind : ContextKind :=
    match kind with
    | .enumeration _ => .enumContext
    | _ => .classContext
  let (context, registry) := registry.addContext contextKind name (some parent)
  registry.addType ⟨name, primaryName, kind, context, [], base?, true, Span.unknown⟩

/-- Adds the provided types. -/
def addBuiltinTypes (registry : Registry) : BuiltinTypes × Registry :=
  let (globalContext, registry) := registry.addContext .namespaceContext "" none
  let (systemContext, registry) :=
    registry.addContext .namespaceContext "cmake" (some globalContext)
  let (void, registry) := registry.addBuiltinType globalContext "void" "void" .void none
  let (bool, registry) := registry.addBuiltinType globalContext "bool" "bool" .bool none
  let (int, registry) := registry.addBuiltinType globalContext "int" "int" .int none
  let (double, registry) := registry.addBuiltinType globalContext "double" "double" .double none
  let (string, registry) := registry.addBuiltinType globalContext "string" "string" .string none
  let (version, registry) :=
    registry.addBuiltinType globalContext "version" "version" .version none
  let (project, registry) :=
    registry.addBuiltinType systemContext "cmake::project" "project" .project none
  let (target, registry) :=
    registry.addBuiltinType systemContext "cmake::target" "target" (.target .target) none
  let (library, registry) :=
    registry.addBuiltinType systemContext "cmake::library" "library" (.target .library)
      (some target)
  let (executable, registry) :=
    registry.addBuiltinType systemContext "cmake::executable" "executable"
      (.target .executable) (some target)
  let (visibility, registry) :=
    registry.addBuiltinType systemContext "cmake::visibility" "visibility"
      (.enumeration visibilityNames) none
  let (designated, registry) :=
    registry.addBuiltinType globalContext "designated initializer" "designated initializer"
      .designated none
  (⟨globalContext, systemContext, void, bool, int, double, string, version, project, target,
    library, executable, visibility, designated⟩, registry)

/-! ## Functions -/

/-- The functions of `bool`. -/
def boolSignatures (b : BuiltinTypes) (boolRef : TypeId) : List Signature :=
  [⟨"bool", [], b.bool, .bool .default⟩,
    ⟨"bool", [b.bool], b.bool, .bool .copy⟩,
    ⟨"bool", [b.int], b.bool, .bool .ofInt⟩,
    ⟨"=", [b.bool], boolRef, .bool .assign⟩,
    ⟨"==", [b.bool], b.bool, .bool .equal⟩,
    ⟨"!=", [b.bool], b.bool, .bool .notEqual⟩,
    ⟨"&&", [b.bool], b.bool, .bool .and⟩,
    ⟨"||", [b.bool], b.bool, .bool .or⟩,
    ⟨"!", [], b.bool, .bool .not⟩,
    ⟨"to_string", [], b.string, .bool .text⟩]

/-- The functions of `int`. -/
def intSignatures (b : BuiltinTypes) (intRef : TypeId) : List Signature :=
  [⟨"int", [], b.int, .int .default⟩,
    ⟨"int", [b.bool], b.int, .int .ofBool⟩,
    ⟨"int", [b.int], b.int, .int .copy⟩,
    ⟨"int", [b.double], b.int, .int .ofDouble⟩,
    ⟨"to_string", [], b.string, .int .text⟩,
    ⟨"+", [b.int], b.int, .int (.arithmetic .add)⟩,
    ⟨"-", [b.int], b.int, .int (.arithmetic .subtract)⟩,
    ⟨"-", [], b.int, .int .negate⟩,
    ⟨"*", [b.int], b.int, .int (.arithmetic .multiply)⟩,
    ⟨"/", [b.int], b.int, .int (.arithmetic .divide)⟩,
    ⟨"%", [b.int], b.int, .int (.arithmetic .remainder)⟩,
    ⟨"=", [b.int], intRef, .int .assign⟩,
    ⟨"+=", [b.int], intRef, .int (.update .add)⟩,
    ⟨"-=", [b.int], intRef, .int (.update .subtract)⟩,
    ⟨"*=", [b.int], intRef, .int (.update .multiply)⟩,
    ⟨"/=", [b.int], intRef, .int (.update .divide)⟩,
    ⟨"%=", [b.int], intRef, .int (.update .remainder)⟩,
    ⟨"++", [], intRef, .int .increment⟩,
    ⟨"--", [], intRef, .int .decrement⟩,
    ⟨"<", [b.int], b.bool, .int (.compare .less)⟩,
    ⟨"<=", [b.int], b.bool, .int (.compare .lessOrEqual)⟩,
    ⟨">", [b.int], b.bool, .int (.compare .greater)⟩,
    ⟨">=", [b.int], b.bool, .int (.compare .greaterOrEqual)⟩,
    ⟨"==", [b.int], b.bool, .int (.compare .equal)⟩,
    ⟨"!=", [b.int], b.bool, .int (.compare .notEqual)⟩]

/-- The functions of `double`. -/
def doubleSignatures (b : BuiltinTypes) (doubleRef : TypeId) : List Signature :=
  [⟨"double", [], b.double, .double .default⟩,
    ⟨"double", [b.double], b.double, .double .copy⟩,
    ⟨"double", [b.int], b.double, .double .ofInt⟩,
    ⟨"+", [b.double], b.double, .double (.arithmetic .add)⟩,
    ⟨"-", [b.double], b.double, .double (.arithmetic .subtract)⟩,
    ⟨"-", [], b.double, .double .negate⟩,
    ⟨"*", [b.double], b.double, .double (.arithmetic .multiply)⟩,
    ⟨"/", [b.double], b.double, .double (.arithmetic .divide)⟩,
    ⟨"=", [b.double], doubleRef, .double .assign⟩,
    ⟨"+=", [b.double], doubleRef, .double (.update .add)⟩,
    ⟨"-=", [b.double], doubleRef, .double (.update .subtract)⟩,
    ⟨"*=", [b.double], doubleRef, .double (.update .multiply)⟩,
    ⟨"/=", [b.double], doubleRef, .double (.update .divide)⟩,
    ⟨"<", [b.double], b.bool, .double (.compare .less)⟩,
    ⟨"<=", [b.double], b.bool, .double (.compare .lessOrEqual)⟩,
    ⟨">", [b.double], b.bool, .double (.compare .greater)⟩,
    ⟨">=", [b.double], b.bool, .double (.compare .greaterOrEqual)⟩,
    ⟨"==", [b.double], b.bool, .double (.compare .equal)⟩,
    ⟨"!=", [b.double], b.bool, .double (.compare .notEqual)⟩,
    ⟨"to_string", [], b.string, .double .text⟩]

/-- The functions of `string`. -/
def stringSignatures (b : BuiltinTypes) (stringRef : TypeId) : List Signature :=
  [⟨"string", [], b.string, .string .default⟩,
    ⟨"string", [b.string], b.string, .string .copy⟩,
    ⟨"string", [b.string, b.int], b.string, .string .repeated⟩,
    ⟨"empty", [], b.bool, .string .isEmpty⟩,
    ⟨"size", [], b.int, .string .size⟩,
    ⟨"==", [b.string], b.bool, .string (.compare .equal)⟩,
    ⟨"!=", [b.string], b.bool, .string (.compare .notEqual)⟩,
    ⟨"<", [b.string], b.bool, .string (.compare .less)⟩,
    ⟨"<=", [b.string], b.bool, .string (.compare .lessOrEqual)⟩,
    ⟨">", [b.string], b.bool, .string (.compare .greater)⟩,
    ⟨">=", [b.string], b.bool, .string (.compare .greaterOrEqual)⟩,
    ⟨"+", [b.string], b.string, .string .append⟩,
    ⟨"=", [b.string], stringRef, .string .assign⟩,
    ⟨"+=", [b.string], stringRef, .string .appendTo⟩,
    ⟨"clear", [], b.void, .string .clear⟩,
    ⟨"insert", [b.int, b.string], b.void, .string .insert⟩,
    ⟨"erase", [b.int], b.void, .string .eraseFrom⟩,
    ⟨"erase", [b.int, b.int], b.void, .string .erase⟩,
    ⟨"starts_with", [b.string], b.bool, .string .startsWith⟩,
    ⟨"ends_with", [b.string], b.bool, .string .endsWith⟩,
    ⟨"replace", [b.int, b.int, b.string], b.void, .string .replace⟩,
    ⟨"substr", [b.int], b.string, .string .substringFrom⟩,
    ⟨"substr", [b.int, b.int], b.string, .string .substring⟩,
    ⟨"resize", [b.int], b.void, .string .resize⟩,
    ⟨"resize", [b.int, b.string], b.void, .string .resizeWith⟩,
    ⟨"find", [b.string], b.int, .string .find⟩,
    ⟨"find", [b.string, b.int], b.int, .string .findFrom⟩,
    ⟨"find_not_of", [b.string], b.int, .string .findNotOf⟩,
    ⟨"find_not_of", [b.string, b.int], b.int, .string .findNotOfFrom⟩,
    ⟨"find_last", [b.string], b.int, .string .findLast⟩,
    ⟨"find_last_not_of", [b.string], b.int, .string .findLastNotOf⟩,
    ⟨"contains", [b.string], b.bool, .string .contains⟩,
    ⟨"lower", [], b.string, .string .lower⟩,
    ⟨"make_lower", [], b.void, .string .makeLower⟩,
    ⟨"upper", [], b.string, .string .upper⟩,
    ⟨"make_upper", [], b.void, .string .makeUpper⟩]

/-- The functions of `version`. -/
def versionSignatures (b : BuiltinTypes) (versionRef : TypeId) : List Signature :=
  [⟨"version", [b.int], b.version, .version (.ofParts .major)⟩,
    ⟨"version", [b.int, b.int], b.version, .version (.ofParts .minor)⟩,
    ⟨"version", [b.int, b.int, b.int], b.version, .version (.ofParts .patch)⟩,
    ⟨"version", [b.int, b.int, b.int, b.int], b.version, .version (.ofParts .tweak)⟩,
    ⟨"=", [b.version], versionRef, .version .assign⟩,
    ⟨"==", [b.version], b.bool, .version (.compare .equal)⟩,
    ⟨"!=", [b.version], b.bool, .version (.compare .notEqual)⟩,
    ⟨"<", [b.version], b.bool, .version (.compare .less)⟩,
    ⟨"<=", [b.version], b.bool, .version (.compare .lessOrEqual)⟩,
    ⟨">", [b.version], b.bool, .version (.compare .greater)⟩,
    ⟨">=", [b.version], b.bool, .version (.compare .greaterOrEqual)⟩,
    ⟨"major", [], b.int, .version (.part .major)⟩,
    ⟨"minor", [], b.int, .version (.part .minor)⟩,
    ⟨"patch", [], b.int, .version (.part .patch)⟩,
    ⟨"tweak", [], b.int, .version (.part .tweak)⟩,
    ⟨"to_string", [], b.string, .version .text⟩]

/-- The functions of an enumeration. -/
def enumSignatures (b : BuiltinTypes) (id ref : TypeId) : List Signature :=
  [⟨"=", [id], ref, .enumeration .assign⟩,
    ⟨"==", [id], b.bool, .enumeration .equal⟩,
    ⟨"!=", [id], b.bool, .enumeration .notEqual⟩,
    ⟨"to_string", [], b.string, .enumeration .text⟩]

/-- The functions of projects. -/
def projectSignatures (b : BuiltinTypes) (strings projectRef : TypeId) : List Signature :=
  [⟨"project", [b.string], b.project, .project .ofName⟩,
    ⟨"name", [], b.string, .project .name⟩,
    ⟨"add_executable", [b.string, strings], b.executable, .project .addExecutable⟩,
    ⟨"add_library", [b.string, strings], b.library, .project .addLibrary⟩,
    ⟨"=", [b.project], projectRef, .project .assign⟩]

/-- The functions that add something to a target, privately and with a given visibility. -/
def propertySignatures (b : BuiltinTypes) (name : String) (value : TypeId)
    (property : TargetProperty) : List Signature :=
  [⟨name, [value], b.void, .target (.add property)⟩,
    ⟨name, [value, b.visibility], b.void, .target (.addVisibly property)⟩]

/-- The functions of targets. -/
def targetSignatures (b : BuiltinTypes) (strings targetRef : TypeId) : List Signature :=
  [⟨"name", [], b.string, .target .name⟩]
    ++ propertySignatures b "link_to" targetRef .library
    ++ propertySignatures b "include_directories" strings .includeDirectories
    ++ propertySignatures b "compile_definitions" strings .compileDefinitions
    ++ propertySignatures b "compile_options" strings .compileOptions
    ++ propertySignatures b "add_sources" strings .sources
    ++ [⟨"=", [b.target], targetRef, .target .assign⟩]

/-- The functions that speak to the build system. -/
def systemSignatures (b : BuiltinTypes) (strings targetRef executableRef : TypeId)
    : List Signature :=
  [⟨"message", [b.string], b.void, .system .message⟩,
    ⟨"warning", [b.string], b.void, .system .warning⟩,
    ⟨"error", [b.string], b.void, .system .error⟩,
    ⟨"fatal_error", [b.string], b.void, .system .fatalError⟩,
    ⟨"minimum_required", [b.version], b.void, .system .minimumRequired⟩,
    ⟨"cmake_version", [], b.version, .system .version⟩,
    ⟨"install", [targetRef], b.void, .system .install⟩,
    ⟨"install", [targetRef, b.string], b.void, .system .installTo⟩,
    ⟨"enable_ctest", [], b.void, .system .enableCtest⟩,
    ⟨"add_test", [executableRef], b.void, .system .addTest⟩,
    ⟨"current_source_dir", [], b.string, .system .currentSourceDir⟩,
    ⟨"current_binary_dir", [], b.string, .system .currentBinaryDir⟩,
    ⟨"root_source_dir", [], b.string, .system .rootSourceDir⟩,
    ⟨"option", [b.string, b.string, b.bool], b.bool, .system .option⟩,
    ⟨"set_old_style_variable", [b.string, b.string], b.void, .system .setVariable⟩,
    ⟨"get_old_style_variable", [b.string], b.string, .system .getVariable⟩,
    ⟨"make_directory", [b.string], b.void, .system .makeDirectory⟩,
    ⟨"add_custom_command", [strings, b.string], b.void, .system .addCustomCommand⟩,
    ⟨"add_custom_target", [b.string, strings], b.void, .system .addCustomTarget⟩,
    ⟨"set_property", [b.string, b.string], b.void, .system .setProperty⟩,
    ⟨"ctest_command", [], b.string, .system .ctestCommand⟩,
    ⟨"system_name", [], b.string, .system .systemName⟩,
    ⟨"cxx_compiler_name", [], b.string, .system .compilerName⟩]

/-- Adds functions that mention the type of references to a type to that type's context. -/
def addBuiltinsTo (registry : Registry) (id : TypeId) (signatures : TypeId → List Signature)
    : Registry :=
  let (ref, registry) := registry.addReference id
  registry.addBuiltins (registry.type id).context (signatures ref)

/-- Adds the functions of an enumeration. -/
def addEnumFunctions (registry : Registry) (b : BuiltinTypes) (id : TypeId) : Registry :=
  registry.addBuiltinsTo id (enumSignatures b id)

/-- Adds the functions of the provided types. -/
def addBuiltinFunctions (registry : Registry) (b : BuiltinTypes) : Registry :=
  let registry := registry.addBuiltinsTo b.bool (boolSignatures b)
  let registry := registry.addBuiltinsTo b.int (intSignatures b)
  let registry := registry.addBuiltinsTo b.double (doubleSignatures b)
  let registry := registry.addBuiltinsTo b.string (stringSignatures b)
  let registry := registry.addBuiltinsTo b.version (versionSignatures b)
  let registry := registry.addEnumFunctions b b.visibility
  let (strings, registry) := registry.addGeneric b .list b.string
  let registry := registry.addBuiltinsTo b.project (projectSignatures b strings)
  let registry := registry.addBuiltinsTo b.target (targetSignatures b strings)
  let registry := registry.addBuiltinsTo b.library fun ref =>
    [⟨"=", [b.library], ref, .target .assign⟩]
  let registry := registry.addBuiltinsTo b.executable fun ref =>
    [⟨"=", [b.executable], ref, .target .assign⟩]
  let (targetRef, registry) := registry.addReference b.target
  let (executableRef, registry) := registry.addReference b.executable
  registry.addBuiltins b.systemContext (systemSignatures b strings targetRef executableRef)

/-! ## Components -/

/-- The type of the target that a component stands for. -/
def componentType (b : BuiltinTypes) : ComponentKind → TypeId
  | .library => b.library
  | .executable => b.executable

/-- The name of the functions that create components. -/
def componentFunctionName : String := "__create_component"

/-- Adds the function that creates a component. -/
def addComponent (registry : Registry) (b : BuiltinTypes) (component : Component)
    : FunctionId × Registry :=
  registry.addFunction
    { name := componentFunctionName
      params := []
      span := component.span
      returnType? := some (componentType b component.kind)
      context := b.globalContext
      body := .component component }

end Registry

end BuildScript
