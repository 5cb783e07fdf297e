/-! What can be wrong with a well-formed script, and how it is told. -/

namespace BuildScript

/-- The causes of errors and notes about the meaning of scripts. -/
inductive Problem where
  | typeRedefinition
  | previouslyDefinedHere
  | enumeratorRedefinition
  | functionRedefinition
  | previousDefinitionIsHere
  | exportingLocalVariable
  | voidVariable
  | autoWithoutInitializer
  | referenceWithoutInitializer
  | inconsistentAutoDeduction
  | deducedAs (type : String)
  | recursiveAutoCall
  | autoUsedBeforeDefinition
  | breakOutsideLoop
  | expectedBool (got : String)
  | incompatibleOperands (lhs rhs : String)
  | emptyInitializerList
  | initializerListTypeMismatch
  | operatorNotSupported (type operator : String)
  | memberNotFound (type member : String)
  | memberFunctionNotFound (type function : String)
  | identifierNotFound (name : String)
  | functionNotFound (name : String)
  | noMatchingFunction (name : String)
  | ambiguousCall (name : String)
  | candidateFunction
  | importFailed
  | importConflict (name : String)
  | circularImport (path : String)
  | sourceNotFound (path : String)
  | expectedDirectoryName (function : String)
  | addSubdirectoryFailed (name : String)
  | incompatibleInitialization (expected got : String)
  | returnTypeMismatch (expected got : String)
  | declarationNotAllowed
  | statementNotAllowed
  | designatedInitializerWithoutType
  | memberInitializedTwice (member : String)
  | mainNotFound
  | genericParameterCount (name : String) (got : Nat)
  | valueTypeNotFound
  | wrongExternType (got : String)
  | notGeneric (name : String)
  | typeNotFound (name : String)
  | unknownComponent (name : String)
  | unknownProperty (component property : String)
  | propertyTypeMismatch (property expected got : String)
  | missingProperty (component property : String)
  | propertyListTypeMismatch
  | invalidBaseType (name : String)
  | incompleteMemberType (type : String)
  | addDeclarativeFileFailed (name : String)
deriving Repr, DecidableEq

namespace Problem

/-- A name between single quotes. -/
def named (name : String) : String := "'" ++ name ++ "'"

/-- The wording of a cause. -/
def message : Problem → String
  | typeRedefinition => "type redefinition"
  | previouslyDefinedHere => "previously defined here"
  | enumeratorRedefinition => "enumerator redefinition"
  | functionRedefinition => "function redefinition"
  | previousDefinitionIsHere => "previous definition is here"
  | exportingLocalVariable => "exporting local variables is not allowed"
  | voidVariable => "Variable can not be of void type"
  | autoWithoutInitializer =>
    "Declaration of a variable with 'auto' type requires an initializer"
  | referenceWithoutInitializer => "Declaration of a reference variable requires an initializer"
  | inconsistentAutoDeduction => "inconsistent deduction for auto return type"
  | deducedAs type => "deduced as " ++ named type
  | recursiveAutoCall => "recursively calling function with 'auto' return type is forbidden"
  | autoUsedBeforeDefinition =>
    "using function with 'auto' return type before its definition is forbidden"
  | breakOutsideLoop => "break can be used only inside a loop"
  | expectedBool got => "expected bool value, got " ++ got
  | incompatibleOperands lhs rhs => "incompatible operand types. " ++ lhs ++ " and " ++ rhs
  | emptyInitializerList => "initializer list must contain values"
  | initializerListTypeMismatch => "all values of initializer list must have the same type"
  | operatorNotSupported type operator => type ++ " doesn't support operator " ++ operator
  | memberNotFound type member => type ++ " does not have member " ++ member
  | memberFunctionNotFound type function =>
    type ++ " does not have member function " ++ function
  | identifierNotFound name => named name ++ " identifier not found"
  | functionNotFound name => named name ++ " function not found"
  | noMatchingFunction name => "no matching function for call to " ++ named name
  | ambiguousCall name => "ambiguous call to " ++ named name
  | candidateFunction => "candidate function"
  | importFailed => "Importing failed"
  | importConflict name => "conflicting import of " ++ named name
  | circularImport path => "circular import of " ++ named path
  | sourceNotFound path => "could not read " ++ named path
  | expectedDirectoryName function =>
    function ++ " expects a string literal as the directory name"
  | addSubdirectoryFailed name => "failed to add subdirectory " ++ named name
  | incompatibleInitialization expected got =>
    "cannot initialize " ++ named expected ++ " with a value of type " ++ named got
  | returnTypeMismatch expected got =>
    "return type mismatch. Expected " ++ named expected ++ ", got " ++ named got
  | declarationNotAllowed => "declaration is not allowed here"
  | statementNotAllowed => "statement is not allowed here"
  | designatedInitializerWithoutType => "designated initializers require an explicit type"
  | memberInitializedTwice member =>
    "member " ++ named member ++ " is initialized more than once"
  | mainNotFound => "main function not found"
  | genericParameterCount name got =>
    name ++ "<> expects 1 generic parameter, got " ++ toString got
  | valueTypeNotFound => "value type not found"
  | wrongExternType got =>
    "wrong generic type of an extern<>. Got " ++ named got
      ++ ", expected 'bool', 'int', 'double' or 'string'"
  | notGeneric name => named name ++ " is not a generic type."
  | typeNotFound name => name ++ " type not found."
  | unknownComponent name => "unknown component type " ++ named name
  | unknownProperty component property =>
    "component " ++ named component ++ " has no property " ++ named property
  | propertyTypeMismatch property expected got =>
    "property " ++ named property ++ " expects " ++ named expected ++ ", got " ++ named got
  | missingProperty component property =>
    "component " ++ named component ++ " requires property " ++ named property
  | propertyListTypeMismatch => "all values of a list property must have the same type"
  | invalidBaseType name => named name ++ " can not be used as a base class"
  | incompleteMemberType type => "member can not be of incomplete type " ++ named type
  | addDeclarativeFileFailed name => "failed to add declarative file " ++ named name

end Problem

end BuildScript
