import BuildScript.BuildSystem
import BuildScript.Registry.Generic
import BuildScript.Run.Fault
import BuildScript.Run.Heap

/-! What an operation can do: look up types, change the heap, make requests to the build system,
and fail. Values that are not given are void.
-/

namespace BuildScript

/-- What is known of a program before it runs. -/
structure Environment where
  registry : Registry
  builtins : BuiltinTypes
deriving Inhabited

/-- What the operations of a run change. -/
structure Store where
  heap : Heap
  system : BuildSystem
deriving Inhabited

/-- An action of an operation. -/
abbrev Effect := ReaderT Environment (ExceptT Fault (StateM Store))

namespace Effect

/-- Works on the heap alone. -/
def onHeap {α : Type} (action : StateM Heap α) : Effect α := fun _ ⟨heap, system⟩ =>
  let (value, heap) := action heap
  (.ok value, ⟨heap, system⟩)

/-- Makes a request to the build system. -/
def request (call : BuildCall) : Effect Unit := fun _ ⟨heap, system⟩ =>
  (.ok (), ⟨heap, system.request call⟩)

/-- The build system as it is. -/
def system : Effect BuildSystem := return (← get).system

/-- The outcome of a computation that can fail for a reason. -/
def ofExcept {ε α : Type} (fault : ε → Fault) : Except ε α → Effect α
  | .ok value => return value
  | .error reason => throw (fault reason)

/-! ## Reading values -/

/-- The value in a cell. -/
def valueAt (cell : CellId) : Effect Value := return (← get).heap.value cell

/-- The value of a handle. -/
def valueOf (handle : Handle) : Effect Value := valueAt handle.cell

/-- The values of handles, in order. -/
def valuesOf (handles : List Handle) : Effect (List Value) := do
  let heap := (← get).heap
  return handles.map fun handle => heap.value handle.cell

/-- The texts in the list that a handle stands for. -/
def stringsOf (value : Value) : Effect (List String) := do
  let heap := (← get).heap
  return value.elements.map fun cell => (heap.value cell).asString

/-! ## Making values -/

/-- A new value of a type. -/
def new (type : TypeId) (value : Value) : Effect Handle :=
  onHeap (.owned <$> Heap.new type value)

/-- A value that is nothing. -/
def void : Effect Handle := do new (← read).builtins.void .void

/-- A new truth value. -/
def bool (value : Bool) : Effect Handle := do new (← read).builtins.bool (.bool value)

/-- A new integer. -/
def int (value : Int64) : Effect Handle := do new (← read).builtins.int (.int value)

/-- A new floating-point number. -/
def double (value : Float) : Effect Handle := do new (← read).builtins.double (.double value)

/-- A new text. -/
def string (value : String) : Effect Handle := do new (← read).builtins.string (.string value)

/-- A new version. -/
def version (value : Version) : Effect Handle := do
  new (← read).builtins.version (.version value)

/-- The place where something was found, or minus one. -/
def place (place? : Option Nat) : Effect Handle :=
  int (match place? with
    | some place => Int64.ofNat place
    | none => -1)

/-- A handle among the operands. -/
def operand (operands : List Handle) (index : Nat) : Effect Handle :=
  match operands[index]? with
  | some handle => return handle
  | none => void

/-! ## Changing values -/

/-- Replaces a value. -/
def setValue (handle : Handle) (value : Value) : Effect Unit :=
  onHeap (modify fun heap => heap.write handle.cell value)

/-- Replaces a value and refers to it. -/
def change (handle : Handle) (value : Value) : Effect Handle := do
  setValue handle value
  return handle.toReference

/-- Replaces a value and gives nothing. -/
def become (handle : Handle) (value : Value) : Effect Handle := do
  setValue handle value
  void

/-- Copies a value into another one and refers to that. Of an object, only the members that the
copied object has are overwritten.
-/
def overwrite (target source : Handle) : Effect Handle := do
  let old ← valueOf target
  let copied ← onHeap (do Heap.copyValue ((← get).value source.cell))
  change target <|
    match old, copied with
    | .object members, .object overwriting =>
      .object
        (overwriting.foldl (fun members member => Value.setMember member.1 member.2 members)
          members)
    | _, copied => copied

end Effect

/-- Whether a comparison holds of values in the given order. Values without an order are only
unequal.
-/
def Comparison.holds : Comparison → Option Ordering → Bool
  | .notEqual, order => order != some .eq
  | _, none => false
  | .less, some order => order.isLT
  | .lessOrEqual, some order => order.isLE
  | .greater, some order => order.isGT
  | .greaterOrEqual, some order => order.isGE
  | .equal, some order => order.isEq

/-- The outcome of a comparison of two values. -/
def Effect.test (comparison : Comparison) (a b : Value) : Effect Handle := do
  Effect.bool (comparison.holds ((← get).heap.compare? a b))

end BuildScript
