import BuildScript.Version

/-! Why a run stops before its end. -/

namespace BuildScript

/-- What has a limited size. -/
inductive Container where
  | string
  | list
deriving Repr, DecidableEq, Inhabited

/-- The word for a container. -/
def Container.text : Container → String
  | string => "string"
  | list => "list"

/-- The largest size, in bytes or in elements, that may be asked for. -/
def maxContainerSize : Nat := 64 * 1024 * 1024

/-- The causes of fatal errors. -/
inductive Fault where
  | divisionByZero
  | stringPosition (position : Int)
  | listIndex (index : Int)
  | negativeSize (container : Container) (size : Int)
  | excessiveSize (container : Container) (size : Int)
  | emptyList
  | popFromEmptyList
  | notExternal
  | missingExternalValue
  | outdatedBuildSystem (required : Version) (used : Version)
  | uninitializedName (name : String)
  | missingMember (name : String)
  | missingObject
  | missingBody (function : String)
  | excessiveCallDepth
  | untypedInitializers
deriving Repr, DecidableEq

/-- The wording of a cause. -/
def Fault.message : Fault → String
  | divisionByZero => "division by zero"
  | stringPosition position => "string position " ++ toString position ++ " is out of range"
  | listIndex index => "list index " ++ toString index ++ " is out of range"
  | negativeSize container size =>
    container.text ++ " size " ++ toString size ++ " is negative"
  | excessiveSize container size =>
    container.text ++ " size " ++ toString size ++ " exceeds the limit of "
      ++ toString maxContainerSize
  | emptyList => "list is empty"
  | popFromEmptyList => "pop from an empty list"
  | notExternal => "extern of a non extern type"
  | missingExternalValue => "extern value accessed, but no value was provided"
  | outdatedBuildSystem required used =>
    "CMake version " ++ required.text ++ " is required, but " ++ used.text ++ " is used"
  | uninitializedName name => "'" ++ name ++ "' is used before it was initialized"
  | missingMember name => "instance has no member '" ++ name ++ "'"
  | missingObject => "member function called without an instance"
  | missingBody function => "function '" ++ function ++ "' has no body"
  | excessiveCallDepth => "maximum call depth exceeded"
  | untypedInitializers => "designated initializers without a target type"

end BuildScript
