import BuildScript.Run.Effect
import BuildScript.Decimal.Shortest
import BuildScript.Decimal.Integer

/-! The operations of truth values, numbers, versions and enumerations. Integers are words of
64 bits, and their arithmetic wraps around.
-/

namespace BuildScript

open Effect

/-- The outcome of an integer operation. Nothing is divided by zero. -/
def IntArithmetic.apply? : IntArithmetic → Int64 → Int64 → Option Int64
  | .add, a, b => some (a + b)
  | .subtract, a, b => some (a - b)
  | .multiply, a, b => some (a * b)
  | .divide, a, b => if b == 0 then none else some (a / b)
  | .remainder, a, b => if b == 0 then none else some (a % b)

/-- The outcome of a floating-point operation. -/
def DoubleArithmetic.apply : DoubleArithmetic → Float → Float → Float
  | .add, a, b => a + b
  | .subtract, a, b => a - b
  | .multiply, a, b => a * b
  | .divide, a, b => a / b

/-- The outcome of an integer operation, or the fault that there is none. -/
def IntArithmetic.perform (operator : IntArithmetic) (a b : Int64) : Effect Int64 :=
  match operator.apply? a b with
  | some result => return result
  | none => throw .divisionByZero

/-- Performs an operation of `bool`. -/
def BoolOperation.perform (operation : BoolOperation) (self : Handle) (operands : List Handle)
    : Effect Handle := do
  let this ← valueOf self
  let other := (← valuesOf operands).headD .void
  match operation with
  | .default => bool false
  | .copy => bool other.asBool
  | .ofInt => bool (other.asInt != 0)
  | .assign => overwrite self (← operand operands 0)
  | .equal => bool (this.asBool == other.asBool)
  | .notEqual => bool (this.asBool != other.asBool)
  | .and => bool (this.asBool && other.asBool)
  | .or => bool (this.asBool || other.asBool)
  | .not => bool (!this.asBool)
  | .text => string (toString this.asBool)

/-- Performs an operation of `int`. -/
def IntOperation.perform (operation : IntOperation) (self : Handle) (operands : List Handle)
    : Effect Handle := do
  let this ← valueOf self
  let other := (← valuesOf operands).headD .void
  match operation with
  | .default => int 0
  | .ofBool => int other.asInt
  | .copy => int other.asInt
  | .ofDouble => int other.asInt
  | .text => string (Decimal.writeInt64 this.asInt)
  | .arithmetic operator => int (← operator.perform this.asInt other.asInt)
  | .negate => int (-this.asInt)
  | .assign => overwrite self (← operand operands 0)
  | .update operator => change self (.int (← operator.perform this.asInt other.asInt))
  | .increment => change self (.int (this.asInt + 1))
  | .decrement => change self (.int (this.asInt - 1))
  | .compare comparison => test comparison this other

/-- Performs an operation of `double`. -/
def DoubleOperation.perform (operation : DoubleOperation) (self : Handle)
    (operands : List Handle)
    : Effect Handle := do
  let this ← valueOf self
  let other := (← valuesOf operands).headD .void
  match operation with
  | .default => double 0.0
  | .copy => double other.asDouble
  | .ofInt => double other.asDouble
  | .arithmetic operator => double (operator.apply this.asDouble other.asDouble)
  | .negate => double (-this.asDouble)
  | .assign => overwrite self (← operand operands 0)
  | .update operator => change self (.double (operator.apply this.asDouble other.asDouble))
  | .compare comparison => test comparison this other
  | .text => string (Decimal.writeFloat this.asDouble)

/-- A part of a version. -/
def VersionPart.of : VersionPart → Version → Int64
  | .major, version => version.major
  | .minor, version => version.minor
  | .patch, version => version.patch
  | .tweak, version => version.tweak

/-- The version of some numbers, most significant first. Numbers that are not given are zero. -/
def Version.ofParts (parts : List Int64) : Version :=
  ⟨parts.getD 0 0, parts.getD 1 0, parts.getD 2 0, parts.getD 3 0⟩

/-- Performs an operation of `version`. -/
def VersionOperation.perform (operation : VersionOperation) (self : Handle)
    (operands : List Handle)
    : Effect Handle := do
  let this ← valueOf self
  let others ← valuesOf operands
  match operation with
  | .ofParts _ => version (Version.ofParts (others.map Value.asInt))
  | .assign => overwrite self (← operand operands 0)
  | .compare comparison => test comparison this (others.headD .void)
  | .part which => int (which.of this.asVersion)
  | .text => string this.asVersion.text

/-- The name of an enumerator. -/
def TypeKind.enumeratorName (kind : TypeKind) (place : Nat) : String :=
  match kind with
  | .enumeration enumerators => enumerators.getD place ""
  | _ => ""

/-- Performs an operation of enumerations. -/
def EnumOperation.perform (operation : EnumOperation) (self : Handle) (operands : List Handle)
    : Effect Handle := do
  let this ← valueOf self
  let other := (← valuesOf operands).headD .void
  match operation with
  | .assign => overwrite self (← operand operands 0)
  | .equal => test .equal this other
  | .notEqual => test .notEqual this other
  | .text =>
    let registry := (← read).registry
    let type := registry.type (registry.decayed ((← get).heap.typeOf self))
    string (type.kind.enumeratorName this.asEnumerator)

end BuildScript
