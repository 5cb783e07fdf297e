import BuildScript.Run.Operation.Text
import BuildScript.Sequence.Edit
import BuildScript.Sequence.Order

/-! The operations of `list<T>`. What is put into a list is copied, and elements that stay in it
keep their cells.
-/

namespace BuildScript

open Effect

namespace ListOperation

/-- The place of an element in a list. -/
def elementPlace (length : Nat) (index : Int) : Except Fault Nat :=
  if 0 ≤ index ∧ index.toNat < length then .ok index.toNat else .error (.listIndex index)

/-- A place between the elements of a list, or at one of its ends. -/
def gapPlace (length : Nat) (index : Int) : Except Fault Nat :=
  if 0 ≤ index ∧ index.toNat ≤ length then .ok index.toNat else .error (.listIndex index)

/-- Copies of cells, in order. -/
def copies (cells : List CellId) : Effect (List CellId) := onHeap (cells.mapM Heap.copy)

/-- A new list of a type. -/
def newList (type : TypeId) (elements : List CellId) : Effect Handle :=
  Effect.new type (.list elements)

/-- Defaults for the elements of a list type. -/
def defaults (type : TypeId) (count : Nat) : Effect (List CellId) := do
  let environment ← read
  let registry := environment.registry
  let elementType :=
    match (registry.type (registry.decayed type)).kind with
    | .list element => element
    | _ => environment.builtins.void
  onHeap ((List.replicate count elementType).mapM (Heap.createDefault registry))

/-- The element that comes before or after all others. -/
def extreme (order : Ordering) (elements : List CellId) : Effect Handle := do
  let heap := (← get).heap
  let better (element best : CellId) : Bool :=
    heap.compare? (heap.value element) (heap.value best) == some order
  match Sequence.best? better elements with
  | some cell => .owned <$> onHeap (Heap.copy cell)
  | none => throw .emptyList

/-- Some elements in ascending order. -/
def sorted (elements : List CellId) : Effect (List CellId) := do
  let heap := (← get).heap
  return Sequence.sort
    (fun a b => heap.compare? (heap.value a) (heap.value b) == some .lt) elements

/-- An element that must be there. -/
def present (element? : Option CellId) : Effect Handle :=
  match element? with
  | some cell => return (Handle.owned cell).toReference
  | none => throw .emptyList

/-- Performs an operation of lists, where `result` is the type of what it gives. -/
def perform (operation : ListOperation) (self : Handle) (operands : List Handle)
    (result : TypeId)
    : Effect Handle := do
  let this := (← get).heap.read self.cell
  let elements := this.value.elements
  let length := elements.length
  let values ← valuesOf operands
  let first := values.headD .void
  let second? := values[1]?
  let firstIndex := first.asInt.toInt
  let secondCount? := second?.map fun value => value.asInt.toInt
  match operation with
  | .default => newList ((← read).registry.decayed result) []
  | .pushBack =>
    let copy ← copies [(← operand operands 0).cell]
    become self (.list (elements ++ copy))
  | .pushBackAll => become self (.list (elements ++ (← copies first.elements)))
  | .pushFront =>
    let copy ← copies [(← operand operands 0).cell]
    become self (.list (copy ++ elements))
  | .pushFrontAll => become self (.list ((← copies first.elements) ++ elements))
  | .popBack =>
    if elements.isEmpty then throw .popFromEmptyList
    else become self (.list elements.dropLast)
  | .popFront =>
    match elements with
    | [] => throw .popFromEmptyList
    | _ :: rest => become self (.list rest)
  | .at =>
    let place ← ofExcept id (elementPlace length firstIndex)
    present elements[place]?
  | .front => present elements.head?
  | .back => present elements.getLast?
  | .insert =>
    let place ← ofExcept id (gapPlace length firstIndex)
    let copy ← copies [(← operand operands 1).cell]
    become self (.list (Sequence.insertAt place copy elements))
  | .insertAll =>
    let place ← ofExcept id (gapPlace length firstIndex)
    let inserted ← copies (second?.getD .void).elements
    become self (.list (Sequence.insertAt place inserted elements))
  | .eraseAt =>
    let place ← ofExcept id (elementPlace length firstIndex)
    become self (.list (Sequence.eraseRange place 1 elements))
  | .erase =>
    let place ← ofExcept id (gapPlace length firstIndex)
    let count := (secondCount?.getD 0).toNat
    become self (.list (Sequence.eraseRange place count elements))
  | .remove | .removeFirst =>
    let limit := (secondCount?.getD unlimited).toNat
    let unwanted ← operand operands 0
    let heap := (← get).heap
    let (kept, removed) :=
      Sequence.removeFirst (fun cell => heap.same cell unwanted.cell) limit elements
    setValue self (.list kept)
    int (Int64.ofNat removed)
  | .removeLast =>
    let limit := (secondCount?.getD 0).toNat
    let unwanted ← operand operands 0
    let heap := (← get).heap
    let (kept, removed) :=
      Sequence.removeLast (fun cell => heap.same cell unwanted.cell) limit elements
    setValue self (.list kept)
    int (Int64.ofNat removed)
  | .clear => become self (.list [])
  | .resize =>
    let size ← ofExcept id (Container.checkSize .list firstIndex)
    let added ← defaults this.type (size - length)
    become self (.list (elements.take size ++ added))
  | .sort => become self (.list (← sorted elements))
  | .reverse => become self (.list elements.reverse)
  | .min => extreme .lt elements
  | .max => extreme .gt elements
  | .sublistFrom | .sublist =>
    let place ← ofExcept id (gapPlace length firstIndex)
    let count := (secondCount?.getD unlimited).toNat
    newList this.type (← copies (Sequence.slice place count elements))
  | .size => int (Int64.ofNat length)
  | .isEmpty => bool elements.isEmpty
  | .find | .findFrom =>
    let offset ← ofExcept id (gapPlace length (secondCount?.getD 0))
    let wanted ← operand operands 0
    let heap := (← get).heap
    place (((elements.drop offset).findIdx? fun cell => heap.same cell wanted.cell).map
      (offset + ·))
  | .append =>
    let copied ← copies elements
    let added ← copies [(← operand operands 0).cell]
    newList this.type (copied ++ added)
  | .appendAll =>
    let copied ← copies elements
    let added ← copies first.elements
    newList this.type (copied ++ added)
  | .appendTo =>
    let copy ← copies [(← operand operands 0).cell]
    change self (.list (elements ++ copy))
  | .appendAllTo => change self (.list (elements ++ (← copies first.elements)))
  | .assign => overwrite self (← operand operands 0)

end ListOperation

end BuildScript
