import BuildScript.Proofs.Run.OperationFaults

/-! What operations on values come to. An operation puts a value into a new cell, or it replaces the
value that it works on, or it fails. Nothing else changes.
-/

namespace BuildScript

open Heap

/-- (Store.Sets target value before after) says that a value has been replaced, and that all else is
as it was. There may be more cells.
-/
structure Store.Sets (target : Handle) (value : Value) (before after : Store) : Prop where
  value : after.heap.value target.cell = value
  typed : (after.heap.read target.cell).type = (before.heap.read target.cell).type
  grows : before.heap.cells.size ≤ after.heap.cells.size
  others : ∀ cell : CellId, cell.index < before.heap.cells.size → cell ≠ target.cell →
    after.heap.read cell = before.heap.read cell
  system : after.system = before.system

/-- (Gives store value outcome) says that an operation has put a value into a new cell, and that all
else is as it was.
-/
def Gives (store : Store) (value : Value) (outcome : Except Fault Handle × Store) : Prop :=
  ∃ cell after, outcome = (.ok (.owned cell), after)
    ∧ store.heap.cells.size ≤ cell.index
    ∧ after.heap.value cell = value
    ∧ Store.Keeps store after

/-- (Becomes environment target value store outcome) says that an operation has replaced a value and
has given nothing.
-/
def Becomes (environment : Environment) (target : Handle) (value : Value) (store : Store)
    (outcome : Except Fault Handle × Store)
    : Prop :=
  ∃ given after, outcome = (.ok given, after)
    ∧ after.heap.read given.cell = ⟨environment.builtins.void, .void⟩
    ∧ Store.Sets target value store after

/-- What is not void is in a cell of its heap. -/
theorem Heap.inside_of_value {heap : Heap} {cell : CellId} {value : Value}
    (holds : heap.value cell = value) (something : value ≠ .void)
    : cell.index < heap.cells.size := by
  refine Nat.lt_of_not_le fun beyond => something ?_
  rw [← holds, Heap.value, read_beyond beyond]
  rfl

variable {environment : Environment} {store : Store} {self : Handle}

/-- A new cell is added to those that are there. -/
theorem Store.Keeps.alloc (store : Store) (object : Object)
    : Store.Keeps store ⟨(store.heap.alloc object).2, store.system⟩ where
  grows := Nat.le_of_lt (Nat.lt_of_lt_of_eq (Nat.lt_succ_self _) (size_alloc ..).symm)
  read _ inside := (read_alloc ..).trans (if_neg (Nat.ne_of_lt inside))
  system := rfl

/-- What is not void stays where it is while only new cells are made. -/
theorem Store.Keeps.value {after : Store} {cell : CellId} {value : Value}
    (keeps : Store.Keeps store after) (holds : store.heap.value cell = value)
    (something : value ≠ .void)
    : after.heap.value cell = value :=
  (congrArg Object.value (keeps.read cell (inside_of_value holds something))).trans holds

theorem Store.Sets.write (inside : self.cell.index < store.heap.cells.size) (value : Value)
    : Store.Sets self value store ⟨store.heap.write self.cell value, store.system⟩ where
  value := value_write_self inside value
  typed := type_write ..
  grows := Nat.le_of_eq (size_write ..).symm
  others _ _ other := read_write_of_ne other value
  system := rfl

/-- A value that has been replaced stays so while only new cells are made. -/
theorem Store.Sets.keeps {value : Value} {middle after : Store}
    (sets : Store.Sets self value store middle) (inside : self.cell.index < store.heap.cells.size)
    (keeps : Store.Keeps middle after)
    : Store.Sets self value store after where
  value := by
    rw [Heap.value, keeps.read _ (Nat.lt_of_lt_of_le inside sets.grows)]
    exact sets.value
  typed := by
    rw [keeps.read _ (Nat.lt_of_lt_of_le inside sets.grows)]
    exact sets.typed
  grows := Nat.le_trans sets.grows keeps.grows
  others cell old other :=
    (keeps.read cell (Nat.lt_of_lt_of_le old sets.grows)).trans (sets.others cell old other)
  system := keeps.system.trans sets.system

/-- What is replaced after new cells were made is replaced. -/
theorem Store.Keeps.sets {value : Value} {middle after : Store} (keeps : Store.Keeps store middle)
    (inside : self.cell.index < store.heap.cells.size) (sets : Store.Sets self value middle after)
    : Store.Sets self value store after where
  value := sets.value
  typed := sets.typed.trans (congrArg Object.type (keeps.read _ inside))
  grows := Nat.le_trans keeps.grows sets.grows
  others cell old other :=
    (sets.others cell (Nat.lt_of_lt_of_le old keeps.grows) other).trans (keeps.read cell old)
  system := sets.system.trans keeps.system

/-- Of two replacements the later one counts. -/
theorem Store.Sets.trans {earlier value : Value} {middle after : Store}
    (first : Store.Sets self earlier store middle) (later : Store.Sets self value middle after)
    : Store.Sets self value store after where
  value := later.value
  typed := later.typed.trans first.typed
  grows := Nat.le_trans first.grows later.grows
  others cell old other :=
    (later.others cell (Nat.lt_of_lt_of_le old first.grows) other).trans
      (first.others cell old other)
  system := later.system.trans first.system

namespace Effect

theorem new_gives (environment : Environment) (type : TypeId) (value : Value)
    : Gives store value (Effect.new type value environment store) :=
  ⟨⟨store.heap.cells.size⟩, _, rfl, Nat.le_refl _, (value_alloc ..).trans (if_pos rfl),
    .alloc store ⟨type, value⟩⟩

theorem bool_gives (value : Bool)
    : Gives store (.bool value) (Effect.bool value environment store) :=
  new_gives environment environment.builtins.bool (.bool value)

theorem int_gives (value : Int64) : Gives store (.int value) (Effect.int value environment store) :=
  new_gives environment environment.builtins.int (.int value)

theorem string_gives (value : String)
    : Gives store (.string value) (Effect.string value environment store) :=
  new_gives environment environment.builtins.string (.string value)

/-- What is replaced is referred to. -/
theorem change_sets (environment : Environment)
    (inside : self.cell.index < store.heap.cells.size) (value : Value)
    : ∃ after, Effect.change self value environment store = (.ok self.toReference, after)
        ∧ Store.Sets self value store after :=
  ⟨_, rfl, .write inside value⟩

/-- What becomes another value gives nothing. -/
theorem become_becomes (environment : Environment)
    (inside : self.cell.index < store.heap.cells.size) (value : Value)
    : Becomes environment self value store (Effect.become self value environment store) :=
  ⟨.owned ⟨_⟩, _, rfl, (read_alloc ..).trans (if_pos rfl),
    (Store.Sets.write inside value).keeps inside (.alloc ⟨_, store.system⟩ _)⟩

end Effect

end BuildScript
