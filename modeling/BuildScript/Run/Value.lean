import BuildScript.Registry.Id
import BuildScript.Version

/-! The values of a running script. Every value lies in a cell, and a value that is made of
others holds the cells of its parts, which belong to it alone.
-/

namespace BuildScript

/-- The place of a cell in its heap. -/
structure CellId where
  index : Nat
deriving Repr, DecidableEq, Inhabited

/-- A value. Objects hold their members by number, in ascending order. -/
inductive Value where
  | void
  | bool (value : Bool)
  | int (value : Int64)
  | double (value : Float)
  | string (value : String)
  | version (value : Version)
  | enumerator (value : Nat)
  | list (elements : List CellId)
  | external (value? : Option CellId)
  | project (name : String)
  | target (name : String)
  | object (members : List (Nat × CellId))
deriving Inhabited

namespace Value

/-! ## Readings

Each reading has a default for the values that it does not fit.
-/

/-- The truth of a value: an integer is true unless it is zero. -/
def asBool : Value → Bool
  | bool value => value
  | int value => value != 0
  | _ => false

/-- A value as an integer. A floating-point number loses its fraction and is kept in range, and
the number that is none becomes zero.
-/
def asInt : Value → Int64
  | int value => value
  | bool value => if value then 1 else 0
  | double value => value.toInt64
  | enumerator value => Int64.ofNat value
  | _ => 0

/-- A value as a floating-point number. -/
def asDouble : Value → Float
  | double value => value
  | int value => value.toFloat
  | _ => 0.0

/-- A value as a text: a text itself, or the name of a project or target. -/
def asString : Value → String
  | string value => value
  | project name => name
  | target name => name
  | _ => ""

/-- A value as a version. -/
def asVersion : Value → Version
  | version value => value
  | _ => Version.zero

/-- The place of an enumerator in its enumeration. -/
def asEnumerator : Value → Nat
  | enumerator value => value
  | _ => 0

/-- The elements of a list. -/
def elements : Value → List CellId
  | list elements => elements
  | _ => []

/-- The members of an object. -/
def members? : Value → Option (List (Nat × CellId))
  | object members => some members
  | _ => none

/-- The cell of a member. -/
def member? (value : Value) (index : Nat) : Option CellId :=
  value.members?.bind fun members => members.lookup index

/-! ## Parts -/

/-- The cells of the parts of a value. -/
def parts : Value → List CellId
  | list elements => elements
  | external value? => value?.toList
  | object members => members.map (·.2)
  | _ => []

/-- The value with its parts replaced, from first to last. -/
def mapParts {m : Type → Type} [Monad m] (change : CellId → m CellId) : Value → m Value
  | list elements => return list (← elements.mapM change)
  | external (some value) => return external (some (← change value))
  | object members => return object (← members.mapM fun member => (member.1, ·) <$> change member.2)
  | value => return value

/-- Whether two values are made the same way of parts that are the same. -/
def sameBy (same : CellId → CellId → Bool) : Value → Value → Bool
  | void, void => true
  | bool a, bool b => a == b
  | int a, int b => a == b
  | double a, double b => a == b
  | string a, string b => a == b
  | version a, version b => a == b
  | enumerator a, enumerator b => a == b
  | list a, list b => a.length == b.length && (a.zip b).all fun pair => same pair.1 pair.2
  | external none, external none => true
  | external (some a), external (some b) => same a b
  | project a, project b => a == b
  | target a, target b => a == b
  | object a, object b =>
    a.length == b.length
      && (a.zip b).all fun pair => pair.1.1 == pair.2.1 && same pair.1.2 pair.2.2
  | _, _ => false

/-- The members with one of them set, in ascending order. -/
def setMember (index : Nat) (cell : CellId) : List (Nat × CellId) → List (Nat × CellId)
  | [] => [(index, cell)]
  | member :: rest =>
    if index < member.1 then (index, cell) :: member :: rest
    else if index == member.1 then (index, cell) :: rest
    else member :: setMember index cell rest

end Value

/-- A value together with its type. -/
structure Object where
  type : TypeId
  value : Value
deriving Inhabited

/-- A value in use: the owner of a cell, or a reference to a cell that is owned elsewhere. A
reference can see an object as one of the classes that its class is derived from.
-/
inductive Handle where
  | owned (cell : CellId)
  | reference (cell : CellId) (base? : Option TypeId)
deriving Repr, DecidableEq, Inhabited

namespace Handle

/-- The cell of a value in use. -/
def cell : Handle → CellId
  | owned cell => cell
  | reference cell _ => cell

/-- Whether a value in use refers to a cell that is owned elsewhere. -/
def isReference : Handle → Bool
  | owned _ => false
  | reference _ _ => true

/-- A reference to the same value, seen the same way. -/
def toReference : Handle → Handle
  | owned cell => reference cell none
  | reference cell base? => reference cell base?

/-- A reference to the same value, seen as a class. -/
def toReferenceAs (handle : Handle) (base : TypeId) : Handle := reference handle.cell (some base)

/-- The class that a reference sees its object as. -/
def base? : Handle → Option TypeId
  | owned _ => none
  | reference _ base? => base?

end Handle

end BuildScript
