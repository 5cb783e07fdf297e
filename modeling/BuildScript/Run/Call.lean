import BuildScript.Run.Exec
import BuildScript.Run.Operation

/-! Calling functions. Every call of a script's function opens a frame, and only so many frames
are open at once.
-/

namespace BuildScript

namespace Run

/-- The parameters of a function with the arguments that are stored in them. -/
def bindParams : List Param → List Handle → Run Bindings
  | param :: params, argument :: arguments => do
    let argument ← bind param.type argument
    let rest ← bindParams params arguments
    return (param.index, argument) :: rest
  | _, _ => return []

/-- Takes the value of a `return` that is being carried out. -/
def takeReturned (machine : Machine) : Machine :=
  { machine with frames := machine.frames.tail, returned? := none }

/-- Executes the body of a function in a frame of its own, and gives what it returned, if
anything.
-/
def inFrame (frame : Frame) (body : Run Unit) : Run (Option Handle) := do
  modify fun machine => { machine with frames := frame :: machine.frames }
  ensuring takeReturned do
    body
    return (← get).returned?

/-- Calls a function of the script, whose body calls others by `call`. -/
def callScript (call : Caller) (id : FunctionId) (returnType : TypeId) (params : List Param)
    (body : TypedBlock) (self? : Option Handle) (arguments : List Handle)
    : Run Handle := do
  let params ← bindParams params arguments
  let returned? ← inFrame ⟨id, [], params, self?⟩ (executeBlock call body)
  let value ←
    match returned? with
    | some value => pure value
    | none => void
  bind returnType value

/-- Calls a function, where `depth` more frames may be opened. -/
def callWithin : Nat → Caller
  | depth, id, self?, arguments => checked do
    let setting ← read
    let function := setting.registry.function id
    let returnType := function.returnType?.getD setting.builtins.void
    match function.body with
    | .builtin operation => perform (operation.perform self? arguments returnType)
    | .component component => perform component.create
    | .script none => fail (.missingBody function.name)
    | .script (some body) =>
      match depth with
      | 0 => fail .excessiveCallDepth
      | depth + 1 =>
        callScript (callWithin depth) id returnType function.params body self? arguments

/-- Calls a function. The frames that are open count. -/
def call : Caller := fun id self? arguments => do
  let depth := (← read).limits.callDepth - (← get).frames.length
  callWithin depth id self? arguments

end Run

end BuildScript
