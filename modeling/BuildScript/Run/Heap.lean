import BuildScript.Registry.Basic
import BuildScript.Run.Value

/-! The cells of a running script. Cells are only added; the parts of a value are cells of
their own, and no cell is a part of itself, so that the number of cells bounds every descent
into parts.
-/

namespace BuildScript

/-- The cells of a running script, by place. -/
structure Heap where
  cells : Array Object
deriving Inhabited

namespace Heap

/-- The heap without cells. -/
def empty : Heap := ⟨#[]⟩

/-- What a cell holds. -/
def read (heap : Heap) (cell : CellId) : Object := heap.cells.getD cell.index default

/-- The value in a cell. -/
def value (heap : Heap) (cell : CellId) : Value := (heap.read cell).value

/-- Puts an object into a new cell. -/
def alloc (heap : Heap) (object : Object) : CellId × Heap :=
  (⟨heap.cells.size⟩, ⟨heap.cells.push object⟩)

/-- Replaces the value in a cell. Its type stays. -/
def write (heap : Heap) (cell : CellId) (value : Value) : Heap :=
  ⟨heap.cells.modify cell.index fun object => { object with value }⟩

/-- The type that a value in use is seen as. -/
def typeOf (heap : Heap) (handle : Handle) : TypeId :=
  handle.base?.getD (heap.read handle.cell).type

/-- Puts a value of a type into a new cell. -/
def new (type : TypeId) (value : Value) : StateM Heap CellId :=
  modifyGet fun heap => heap.alloc ⟨type, value⟩

/-! ## Copies -/

/-- Copies a cell and its parts, down to `depth` levels. -/
def copyWithin : Nat → CellId → StateM Heap CellId
  | 0, _ => new default .void
  | depth + 1, cell => do
    let object := (← get).read cell
    let value ← object.value.mapParts (copyWithin depth)
    new object.type value

/-- A copy of a value that shares no cell with it. -/
def copyValue (value : Value) : StateM Heap Value := do
  let depth := (← get).cells.size
  value.mapParts (copyWithin depth)

/-- A copy of a cell that shares no cell with it. -/
def copy (cell : CellId) : StateM Heap CellId := do
  let object := (← get).read cell
  let value ← copyValue object.value
  new object.type value

/-- The part of a value that belongs to a class. Only objects have more than that. -/
def sliceValue (registry : Registry) (base : TypeId) : Value → Value
  | .object members =>
    let kept := (registry.allMembers base).map (·.index)
    .object (members.filter fun member => kept.contains member.1)
  | value => value

/-- A copy of the part of an object that belongs to a class. -/
def slicedCopy (registry : Registry) (base : TypeId) (cell : CellId) : StateM Heap CellId := do
  let value := (← get).value cell
  let value ← copyValue (sliceValue registry base value)
  new base value

/-! ## Defaults -/

/-- The default of a type, whose members are of types that stand before it: zero, empty, or an
object of defaults.
-/
def defaultWithin (registry : Registry) : Nat → TypeId → StateM Heap CellId
  | 0, type => new type .void
  | depth + 1, type =>
    match (registry.type type).kind with
    | .void | .designated | .reference _ => new type .void
    | .bool => new type (.bool false)
    | .int => new type (.int 0)
    | .double => new type (.double 0.0)
    | .string => new type (.string "")
    | .version => new type (.version Version.zero)
    | .enumeration _ => new type (.enumerator 0)
    | .list _ => new type (.list [])
    | .external _ => new type (.external none)
    | .project => new type (.project "")
    | .target _ => new type (.target "")
    | .object => do
      let members ← (registry.allMembers type).mapM fun member =>
        (member.index, ·) <$> defaultWithin registry depth (registry.decayed member.type)
      new type (.object members)

/-- A default of a type, or of the type that it refers to. -/
def createDefault (registry : Registry) (type : TypeId) : StateM Heap CellId :=
  let type := registry.decayed type
  defaultWithin registry (type.index + 1) type

/-! ## Comparison -/

/-- Whether two cells hold the same, down to `depth` levels. -/
def sameWithin (heap : Heap) : Nat → CellId → CellId → Bool
  | 0, _, _ => false
  | depth + 1, a, b =>
    let a := heap.read a
    let b := heap.read b
    a.type == b.type && Value.sameBy (sameWithin heap depth) a.value b.value

/-- Whether two values are the same: made the same way of parts that are the same and have the
same types.
-/
def sameValue (heap : Heap) (a b : Value) : Bool :=
  Value.sameBy (sameWithin heap heap.cells.size) a b

/-- Whether two cells hold the same value of the same type. -/
def same (heap : Heap) (a b : CellId) : Bool := sameWithin heap (heap.cells.size + 1) a b

/-- The order of two floating-point numbers. The number that is none has no place in it. -/
def compareDouble? (a b : Float) : Option Ordering :=
  if a < b then some .lt else if a == b then some .eq else if b < a then some .gt else none

/-- The order of two values. Values of types without an order are equal or unordered. -/
def compare? (heap : Heap) : Value → Value → Option Ordering
  | .bool a, .bool b => some (compare a b)
  | .int a, .int b => some (compare a b)
  | .double a, .double b => compareDouble? a b
  | .string a, .string b => some (compare a b)
  | .version a, .version b => some (a.compare b)
  | .enumerator a, .enumerator b => some (compare a b)
  | a, b => if heap.sameValue a b then some .eq else none

end Heap

end BuildScript
