import BuildScript.Run.Effect

/-! The state of a running script and the actions on it. A fatal error stops a run; so does a
loop that goes on for longer than the run may take, which is no error of the script.
-/

namespace BuildScript

/-- Variables by number. -/
abbrev Bindings := List (Nat × Handle)

/-- The bindings with one of them set. -/
def Bindings.set (bindings : Bindings) (index : Nat) (handle : Handle) : Bindings :=
  (index, handle) :: bindings.filter (·.1 != index)

/-- A call that has not ended: the scopes of its variables, innermost first, its parameters and
the object that it works on.
-/
structure Frame where
  function : FunctionId
  scopes : List Bindings
  params : Bindings
  self? : Option Handle
deriving Inhabited

/-- A run under way: the store, the calls that have not ended, innermost first, the variables of
the script that is run and those of all others, the value of a `return` that is being carried
out, and whether a `break` is.
-/
structure Machine where
  store : Store
  frames : List Frame
  globals : Bindings
  statics : Bindings
  returned? : Option Handle
  breaking : Bool
deriving Inhabited

/-- The machine on which nothing has run yet. -/
def Machine.ofSystem (system : BuildSystem) : Machine :=
  ⟨⟨Heap.empty, system⟩, [], [], [], none, false⟩

/-- Why a run did not come to its end. -/
inductive Stop where
  | fatal
  | exhausted
deriving Repr, DecidableEq, Inhabited

/-- What a run may take: the number of calls that are open at once, and the number of times that
a loop goes round.
-/
structure Limits where
  callDepth : Nat
  iterations : Nat
deriving Repr, DecidableEq, Inhabited

/-- What a run cannot change. -/
structure RunSetting extends Environment where
  limits : Limits
deriving Inhabited

/-- An action of a run. -/
abbrev Run := ReaderT RunSetting (ExceptT Stop (StateM Machine))

namespace Run

/-! ## Actions -/

/-- Carries out an operation. A fault is reported to the build system and stops the run. -/
def perform {α : Type} (effect : Effect α) : Run α := fun setting machine =>
  match machine with
  | ⟨store, frames, globals, statics, returned?, breaking⟩ =>
    match effect setting.toEnvironment store with
    | (.ok value, store) => (.ok value, ⟨store, frames, globals, statics, returned?, breaking⟩)
    | (.error fault, ⟨heap, system⟩) =>
      let system := system.request (.fatalError fault.message)
      (.error .fatal, ⟨⟨heap, system⟩, frames, globals, statics, returned?, breaking⟩)

/-- Reports a fault and stops the run. -/
def fail {α : Type} (fault : Fault) : Run α := perform (throw fault)

/-- Carries out an action, and then a change, whether or not the action came to its end. -/
def ensuring {α : Type} (cleanup : Machine → Machine) (action : Run α) : Run α :=
  fun setting machine =>
    let (result, machine) := action setting machine
    (result, cleanup machine)

/-- Stops the run after an action if a fatal error has been reported. -/
def checked {α : Type} (action : Run α) : Run α := do
  let value ← action
  if (← get).store.system.failed then throw .fatal else return value

/-- The value of a handle. -/
def valueOf (handle : Handle) : Run Value := return (← get).store.heap.value handle.cell

/-- A handle on a default of a type. -/
def createDefault (type : TypeId) : Run Handle := do
  let registry := (← read).registry
  perform (.owned <$> Effect.onHeap (Heap.createDefault registry type))

/-- The handle itself if it owns its cell, or else one that owns a copy. -/
def own (handle : Handle) : Run Handle :=
  match handle with
  | .owned cell => return .owned cell
  | .reference cell _ => perform (.owned <$> Effect.onHeap (Heap.copy cell))

/-- What is stored of a value in a place of a type: an alias if the type is a reference, and
otherwise a value of its own.
-/
def bind (type : TypeId) (handle : Handle) : Run Handle := do
  if ((← read).registry.type type).isReference then return handle.toReference else own handle

/-! ## Variables -/

end Run

/-- The variable of a number in a call: in the innermost scope that has it, among the parameters,
or as a member of the object that the call works on.
-/
def Frame.lookup? (frame : Frame) (heap : Heap) (index : Nat) : Option Handle :=
  (frame.scopes.findSome? (List.lookup index))
    <|> (frame.params.lookup index)
    <|> (frame.self?.bind fun self => ((heap.value self.cell).member? index).map .owned)

/-- The variable with a number. -/
def Machine.lookup? (machine : Machine) (index : Nat) : Option Handle :=
  (machine.frames.head?.bind fun frame => frame.lookup? machine.store.heap index)
    <|> (machine.globals.lookup index)
    <|> (machine.statics.lookup index)

/-- Adds a variable to the innermost scope of a call, or to its parameters. -/
def Frame.addVariable (frame : Frame) (index : Nat) (handle : Handle) : Frame :=
  match frame.scopes with
  | [] => { frame with params := Bindings.set frame.params index handle }
  | scope :: rest => { frame with scopes := Bindings.set scope index handle :: rest }

namespace Machine

/-- Changes the innermost call, if there is one. -/
def onFrame (change : Frame → Frame) (machine : Machine) : Machine :=
  { machine with
    frames :=
      match machine.frames with
      | [] => []
      | frame :: rest => change frame :: rest }

/-- Opens a scope in the innermost call. -/
def enterScope (machine : Machine) : Machine :=
  machine.onFrame fun frame => { frame with scopes := [] :: frame.scopes }

/-- Closes the innermost scope of the innermost call. -/
def leaveScope (machine : Machine) : Machine :=
  machine.onFrame fun frame => { frame with scopes := frame.scopes.tail }

/-- Makes a request to the build system. -/
def request (call : BuildCall) (machine : Machine) : Machine :=
  { machine with store := { machine.store with system := machine.store.system.request call } }

/-- Adds a variable to the innermost call, or to the globals outside of all calls. -/
def addVariable (index : Nat) (handle : Handle) (machine : Machine) : Machine :=
  match machine.frames with
  | [] => { machine with globals := Bindings.set machine.globals index handle }
  | frame :: rest => { machine with frames := frame.addVariable index handle :: rest }

end Machine

/-- Carries out an action in a scope of its own. -/
def Run.inScope {α : Type} (action : Run α) : Run α := do
  modify Machine.enterScope
  Run.ensuring Machine.leaveScope action

end BuildScript
