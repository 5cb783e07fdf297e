import BuildScript.Proofs.Accepted
import BuildScript.Proofs.Run.AcceptedFaults
import BuildScript.Proofs.Run.Overwriting
import BuildScript.Proofs.Run.ParameterBinding
import BuildScript.Proofs.Run.Readiness
import BuildScript.Proofs.Run.ValueSemantics

/-! Values that accepted scripts come by in spite of what their types promise. The operation that
has the name of an enumeration is taken for a constructor of it, what is assigned to an object
through a base class is seen whole, a function may end without a `return`, an argument that is a
variable is read after those that follow it, and an object that is assigned to gets new members.

What holds in every run is said first: which copy a cast makes, what a function gives, what its
parameters take, and what becomes of the members of an object that is assigned to.
-/

namespace BuildScript

namespace Run

variable {setting : RunSetting} {machine after : Machine} {call : Caller}

-----------------------------------------------------------------------------------------
-- How values come about
-----------------------------------------------------------------------------------------

/-- Expressions are evaluated after those that stand before them, by induction over these. -/
theorem evaluateAll_append {first rest : List TypedExpr} {values : List Handle}
    (ended : evaluateAll call (first ++ rest) setting machine = (.ok values, after))
    : ∃ earlier middle later, values = earlier ++ later
        ∧ evaluateAll call first setting machine = (.ok earlier, middle)
        ∧ evaluateAll call rest setting middle = (.ok later, after) := by
  induction first generalizing machine values with
  | nil => exact ⟨[], machine, values, rfl, rfl, ended⟩
  | cons expr first ih =>
      rw [List.cons_append, evaluateAll] at ended
      obtain ⟨value, middle, evaluated, ended⟩ := of_bind ended
      obtain ⟨others, last, ended, same⟩ := of_bind ended
      cases same
      obtain ⟨earlier, before, later, rfl, firsts, rests⟩ := ih ended
      refine ⟨value :: earlier, before, later, rfl, ?_, rests⟩
      rw [evaluateAll, run_bind, evaluated]
      simp only
      rw [run_bind, firsts]
      rfl

/-- A variable that is evaluated gives a reference to its cell. -/
theorem evaluate_variable {index : Nat} {name : String} {type : TypeId} {span : Span}
    {value : Handle}
    (ended : evaluate call (.mk (.id index name) type span) setting machine = (.ok value, after))
    : ∃ handle, machine.lookup? index = some handle ∧ value = handle.toReference
        ∧ after = machine := by
  rw [evaluate, evaluateKind, checked_run, variableAt, run_bind, run_get] at ended
  cases found : machine.lookup? index with
  | none =>
      simp only [found] at ended
      cases ended
  | some handle =>
      have given : (pure handle.toReference : Run Handle) setting machine =
          (.ok handle.toReference, machine) :=
        rfl
      simp only [found, given] at ended
      split at ended
      · cases ended
      · cases ended
        exact ⟨handle, rfl, rfl, rfl⟩

/-- A variable among operands gives a reference to its cell, whatever is evaluated after it. -/
theorem evaluateAll_variable {earlier later : List TypedExpr} {index : Nat} {name : String}
    {type : TypeId} {span : Span} {values : List Handle}
    (ended : evaluateAll call (earlier ++ .mk (.id index name) type span :: later) setting machine =
      (.ok values, after))
    : ∃ before middle handle, evaluateAll call earlier setting machine = (.ok before, middle)
        ∧ middle.lookup? index = some handle
        ∧ values[earlier.length]? = some handle.toReference := by
  obtain ⟨before, middle, values, rfl, first, others⟩ := evaluateAll_append ended
  rw [evaluateAll] at others
  obtain ⟨value, last, evaluated, remaining⟩ := of_bind others
  obtain ⟨handle, bound, rfl, rfl⟩ := evaluate_variable evaluated
  obtain ⟨rest, _, _, same⟩ := of_bind remaining
  cases same
  refine ⟨before, last, handle, first, bound, ?_⟩
  rw [← length_evaluateAll first, List.getElem?_append_right (Nat.le_refl _), Nat.sub_self]
  rfl

end Run

-----------------------------------------------------------------------------------------
-- Assignments
-----------------------------------------------------------------------------------------

/-- Assigning an object to another one gives new cells to all members that it takes over, with
copies of what the other object has there. The other members stay where they are, and so does all
else in the heap, so that a reference to a member goes on to give what the object had there before.
-/
theorem Operation.assignObject_renews (environment : Environment) (result : TypeId)
    {store : Store} {target source : Handle} {members overwriting : List (Nat × CellId)}
    (tidy : store.heap.Tidy) (object : store.heap.value target.cell = .object members)
    (overwrites : store.heap.value source.cell = .object overwriting)
    : let outcome := Operation.assignObject.perform (some target) [source] result environment store
      let after := outcome.2.heap
      outcome.1 = .ok target.toReference
        ∧ (∀ index ∈ overwriting.map (·.1), ∃ original copy, (index, original) ∈ overwriting
          ∧ (after.value target.cell).member? index = some copy
          ∧ store.heap.Replica after original copy)
        ∧ (∀ index ∉ overwriting.map (·.1),
          (after.value target.cell).member? index = (Value.object members).member? index)
        ∧ ∀ cell : CellId, cell.index < store.heap.cells.size → cell ≠ target.cell →
          after.read cell = store.heap.read cell := by
  have inside : target.cell.index < store.heap.cells.size := by
    refine Nat.lt_of_not_le fun beyond => ?_
    rw [Heap.value, Heap.read_beyond beyond] at object
    cases object
  have performs : Operation.assignObject.perform (some target) [source] result environment store =
      Effect.overwrite target source environment store := rfl
  obtain ⟨names, copied, replicas⟩ := Heap.Replica.copyValue tidy source.cell
  have makes : Heap.Makes (fun _ => True) (Heap.copyValue (store.heap.value source.cell))
      Value.parts :=
    .copyValue _
  have works := makes store.heap
  rw [overwrites] at copied replicas works
  rw [performs, Effect.overwrite_run, overwrites]
  simp only
  generalize Heap.copyValue (.object overwriting) store.heap = made at *
  have written : (made.2.write target.cell ((store.heap.value target.cell).overwritten
      made.1)).value target.cell = (Value.object members).overwritten (.object
        (overwriting.map fun member => (member.1, names member.2))) := by
    rw [Heap.value_write_self (Nat.lt_of_lt_of_le inside works.grows), object, copied]
    rfl
  rw [written]
  have numbers : (overwriting.map fun member => (member.1, names member.2)).map (·.1) =
      overwriting.map (·.1) := by
    rw [List.map_map]
    rfl
  refine ⟨trivial, fun index among => ?taken, fun index absent => ?left,
    fun cell present other => ?kept⟩
  case taken =>
    rcases Value.member?_overwritten members (overwriting.map fun member =>
        (member.1, names member.2)) index with ⟨copy, among', found⟩ | ⟨absent, _⟩
    · obtain ⟨⟨_, original⟩, taken, same⟩ := List.mem_map.mp among'
      cases same
      refine ⟨original, _, taken, found, ?_⟩
      refine (replicas original (List.mem_map_of_mem taken)).mono (Nat.le_of_eq ?_) ?_
      · rw [Heap.size_write]
      · intro cell new _
        exact Heap.read_write_of_ne (fun same : cell = target.cell =>
          Nat.not_lt_of_le new (same ▸ inside)) _
    · exact absurd (numbers ▸ among) absent
  case left =>
    rcases Value.member?_overwritten members (overwriting.map fun member =>
        (member.1, names member.2)) index with ⟨copy, among, _⟩ | ⟨_, found⟩
    · exact absurd (numbers ▸ List.mem_map_of_mem among) absent
    · exact found
  case kept =>
    rw [Heap.read_write_of_ne other]
    exact works.kept cell present List.not_mem_nil

-----------------------------------------------------------------------------------------
-- Runs
-----------------------------------------------------------------------------------------

/-- A call that is made in a directory leaves the heap, by cases on what is called. -/
theorem ExprKind.heap_entered (kind : ExprKind) (machine : Machine)
    : (kind.entered machine).store.heap = machine.store.heap := by
  cases kind <;> rfl

/-- A reference is one. -/
theorem Handle.isReference_toReference (handle : Handle)
    : handle.toReference.isReference = true := by
  cases handle <;> rfl

/-- Whether the body of a function may come to its end without a `return` in its place. -/
def FunctionBody.mayEnd : FunctionBody → Bool
  | .script (some (.mk body _)) =>
    body.any fun
      | .implicitReturn _ => true
      | _ => false
  | _ => false

namespace Program

variable {program : Program} {limits : Limits} {system : BuildSystem} {moment : Moment}

/-- What a cast gives. A reference is one to the value itself, which may be seen as a class. A value
is a copy in new cells: of those members only that belong to a class, if the cast is to one or the
value is seen as one, and otherwise of all that is there, whatever type the cast has.
-/
theorem Reaches.cast_copies_seen (reached : program.Reaches limits system moment) {value : Handle}
    (inUse : value ∈ moment.machine.handles ++ (moment.activity.taken ++ moment.held))
    (kind : CastKind) (type : TypeId)
    : ∃ made heap, Run.cast kind type value (program.setting limits) moment.machine =
          (.ok made, moment.machine.withHeap heap)
        ∧ moment.heap.Grown heap
        ∧ match kind with
          | .reference => made = value.toReference
          | .baseReference => made = value.toReferenceAs (program.registry.decayed type)
          | .value => ∃ copied, made = .owned copied
            ∧ match value.base? with
              | none => moment.heap.Replica heap value.cell copied
              | some base => Heap.Slice program.registry base moment.heap heap value.cell copied
          | .baseValue => ∃ copied, made = .owned copied
            ∧ Heap.Slice program.registry (program.registry.decayed type) moment.heap heap
                value.cell copied := by
  have tidy : moment.heap.Tidy := ⟨_, reached.owned⟩
  have whole : moment.heap.Replica (Heap.copy value.cell moment.heap).2 value.cell
      (Heap.copy value.cell moment.heap).1 :=
    .copy tidy (reached.present value inUse) (.refl _)
  have part (base : TypeId) := Heap.Slice.slicedCopy program.registry base tidy value.cell
  have growsWhole : moment.heap.Grown (Heap.copy value.cell moment.heap).2 :=
    .makes (.refl _) (.copy value.cell)
  have growsPart (base : TypeId)
      : moment.heap.Grown (Heap.slicedCopy program.registry base value.cell moment.heap).2 :=
    .makes (.refl _) (.slicedCopy program.registry base value.cell)
  cases kind with
  | reference => exact ⟨_, _, rfl, .refl _, rfl⟩
  | baseReference => exact ⟨_, _, rfl, .refl _, rfl⟩
  | baseValue => exact ⟨_, _, rfl, growsPart _, _, rfl, part _⟩
  | value =>
      cases value with
      | owned cell => exact ⟨_, _, rfl, growsWhole, _, rfl, whole⟩
      | reference cell base? =>
          cases base? with
          | none => exact ⟨_, _, rfl, growsWhole, _, rfl, whole⟩
          | some base => exact ⟨_, _, rfl, growsPart base, _, rfl, part base⟩

/-- A script that keeps the result of an assignment to an object of a derived class. -/
def assignedText : String :=
  "class B \x7b int x; \x7d class D : B \x7b int y; \x7d "
    ++ "D d; B b; B& assigned = (d = b); int main() \x7b return 0; \x7d"

set_option maxRecDepth 100000 in
/-- The script above is accepted. Its last variable refers to an object of the derived class, which
it does not see as one of the base.
-/
theorem assigned_text
    : ((ofText? assignedText).bind fun program =>
        let moment := program.lastMoment ⟨20, 20⟩
        moment.machine.globals.handles.head?.map fun assigned =>
          (assigned.isReference, assigned.base?,
            (program.registry.type (moment.heap.read assigned.cell).type).name,
            (moment.heap.value assigned.cell).slots.length)) = some (true, none, "D", 2) := by
  decide +kernel

/-- Witness: as a value, what an assignment to an object of a derived class gives is a copy of all
of it.
-/
theorem Reaches.cast_copies_seen_assigned
    : ∃ program value copied heap, ofText? assignedText = some program ∧ program.Accepted
        ∧ program.Reaches ⟨20, 20⟩ (BuildSystem.ofRoot "/") (program.lastMoment ⟨20, 20⟩)
        ∧ value ∈ (program.lastMoment ⟨20, 20⟩).machine.globals.handles ∧ value.isReference = true
        ∧ Run.cast .value program.builtins.int value (program.setting ⟨20, 20⟩)
            (program.lastMoment ⟨20, 20⟩).machine =
          (.ok (.owned copied), (program.lastMoment ⟨20, 20⟩).machine.withHeap heap)
        ∧ (program.registry.type (heap.read copied).type).name = "D"
        ∧ (heap.value copied).slots.length = 2 := by
  obtain ⟨program, compiled, found⟩ := Option.bind_eq_some_iff.mp assigned_text
  obtain ⟨value, first, same⟩ := Option.map_eq_some_iff.mp found
  obtain ⟨refers, same⟩ := Prod.mk.inj same
  obtain ⟨whole, same⟩ := Prod.mk.inj same
  obtain ⟨derived, slots⟩ := Prod.mk.inj same
  have reached : program.Reaches ⟨20, 20⟩ (BuildSystem.ofRoot "/") (program.lastMoment ⟨20, 20⟩) :=
    program.reaches_end ⟨20, 20⟩ _
  have among := List.mem_of_head? first
  have inUse : value ∈ (program.lastMoment ⟨20, 20⟩).machine.handles := by
    simp [Machine.handles, among]
  obtain ⟨made, heap, casts, _, copied, rfl, copy⟩ :=
    reached.cast_copies_seen (List.mem_append_left _ inUse) .value program.builtins.int
  rw [whole] at copy
  exact ⟨program, value, copied, heap, compiled, ofText?_accepted compiled, reached, among, refers,
    casts, copy.type.symm ▸ derived, copy.slots.symm ▸ slots⟩

/-- A place of a type stores the value that is bound to it. -/
theorem Reaches.bind_stores {depth? : Option Nat} {type : TypeId} {value given : Handle}
    {machine after : Machine} {held : List Handle}
    (reached : program.Reaches limits system ⟨depth?, .bind type value, machine, held⟩)
    (bound : Run.bind type value (program.setting limits) machine = (.ok given, after))
    : machine.store.heap.Grown after.store.heap
        ∧ Stored (program.registry.type type).isReference machine.store.heap after.store.heap value
            given := by
  obtain ⟨stored, heap, binds, grown, kept, _⟩ := Run.bind_stores (program.setting limits) machine
    type ⟨_, reached.owned⟩ (.refl _)
    (reached.present value (List.mem_append_right _ List.mem_cons_self))
  cases binds.symm.trans bound
  exact ⟨grown, kept⟩

/-- A function of a script gives a reference where it is declared to, and nowhere else. What it
gives is stored of the value of an expression that one of its `return`s has, as it is when this was
evaluated. Only where one of them has no expression, as the one does that is put at the end of a
body, it may be void instead.
-/
theorem Reaches.call_stores_returned {depth : Nat} {function : FunctionId} {block : TypedBlock}
    {self? : Option Handle} {arguments held : List Handle} {machine after : Machine}
    {given : Handle}
    (reached : program.Reaches limits system
      ⟨some (depth + 1), .call function self? arguments, machine, held⟩)
    (accepted : program.Accepted)
    (scripted : (program.registry.function function).body = .script (some block))
    (called : Run.callWithin (depth + 1) function self? arguments (program.setting limits) machine =
      (.ok given, after))
    : let type := (program.registry.function function).returnType?.getD program.builtins.void
      let byReference := (program.registry.type type).isReference
      given.isReference = byReference
        ∧ ((∃ expr, some expr ∈ block.returns ∧ ∃ before value last others,
            program.Reaches limits system ⟨some depth, .evaluate expr, before, others⟩
            ∧ Run.evaluate (Run.callWithin depth) expr (program.setting limits) before =
              (.ok value, last)
            ∧ Stored byReference last.store.heap after.store.heap value given)
          ∨ none ∈ block.returns
            ∧ after.store.heap.read given.cell = ⟨program.builtins.void, .void⟩) := by
  have ended : Run.callScript (Run.callWithin depth) function
      ((program.registry.function function).returnType?.getD program.builtins.void)
      (program.registry.function function).params block self? arguments (program.setting limits)
      machine = (.ok given, after) := by
    rw [Run.callWithin_script depth self? arguments scripted, Run.checked_run] at called
    split at called
    · next outcome =>
      split at called <;> cases called
      exact outcome
    · cases called
  obtain ⟨params, before, bound, ended⟩ := Run.of_bind ended
  obtain ⟨returned?, middle, executed, ended⟩ := Run.of_bind ended
  obtain ⟨last, inside, gives, rfl⟩ := Run.of_inFrame executed
  have body := reached.tail (.calls (.body scripted bound depth self? held))
  have regular := Reaches.regular body accepted
  have within : (program.setting limits).registry.WellScoped := accepted.wellScoped
  have inPlace := within function
  have ends := accepted.endsInReturn function
  rw [scripted] at ends
  rw [show ((program.setting limits).registry.function function).body = _ from scripted] at inPlace
  obtain ⟨value, returned⟩ := Option.isSome_iff_exists.mp
    (Run.returned_isSome (some depth) within inPlace ends (regular.start rfl) inside)
  obtain rfl := gives.trans returned
  have result := reached.tail (.calls (.result scripted bound executed rfl held))
  obtain ⟨grown, kept⟩ := Reaches.bind_stores result ended
  refine ⟨kept.isReference, ?_⟩
  rcases Run.Returns.executeBlock within (some depth) block _ held last value regular
    inside returned with
    ⟨expr, among, start, final, others, leads, evaluated, same⟩ | ⟨among, cell, rfl, void⟩
  · refine .inl ⟨expr, among, start, value, final, others, body.trans leads, evaluated, ?_⟩
    rw [same]
    exact kept
  · have present := Reaches.present result (.owned cell) (List.mem_append_right _ (.head _))
    have same : given.cell = cell := by cases kept <;> rfl
    exact .inr ⟨among, same ▸ (grown.read present).trans void⟩

/-- A script that ends without a `return`. -/
def endingText : String := "int main() \x7b \x7d"

/-- What the call of `main` gives with which a run begins, and the machine on which it is made. -/
def mainGives? (program : Program) (limits : Limits) (system : BuildSystem)
    : Option (Nat × Machine × Handle × Machine) :=
  match program.prepare (program.setting limits) (Machine.ofSystem system) with
  | (.ok _, prepared) =>
    match limits.callDepth - prepared.frames.length with
    | 0 => none
    | depth + 1 =>
      match Run.callWithin (depth + 1) program.main none [] (program.setting limits) prepared with
      | (.ok given, after) => some (depth, prepared, given, after)
      | _ => none
  | _ => none

theorem reaches_mainCall {depth : Nat} {prepared after : Machine} {given : Handle}
    (gives : program.mainGives? limits system = some (depth, prepared, given, after))
    : program.Reaches limits system ⟨some (depth + 1), .call program.main none [], prepared, []⟩
        ∧ Run.callWithin (depth + 1) program.main none [] (program.setting limits) prepared =
          (.ok given, after) := by
  unfold mainGives? at gives
  split at gives
  · next _ prepared outcome =>
    split at gives
    · cases gives
    · next depth limit =>
      split at gives
      · next given after called =>
        cases gives
        have began : program.Reaches limits system ⟨none, .call program.main none [], _, []⟩ :=
          .single (.prepares (.main outcome))
        have within := began.tail (.calls (.within program.main none [] _ []))
        rw [show (program.setting limits).limits = limits from rfl, limit] at within
        exact ⟨within, called⟩
      · cases gives
  · cases gives

set_option maxRecDepth 100000 in
/-- The script above is accepted. It is declared to return an integer, but returns nothing. -/
theorem ending_text
    : ((ofText? endingText).bind fun program =>
        (program.mainGives? ⟨20, 20⟩ (BuildSystem.ofRoot "/")).map fun (_, _, given, after) =>
          let function := program.registry.function program.main
          (function.body.mayEnd, decide (function.returnType? = some program.builtins.int),
            (program.registry.type program.builtins.int).isReference,
            decide ((after.store.heap.read given.cell).type = program.builtins.void))) =
        some (true, true, false, true) := by
  decide +kernel

/-- Witness: a function that is declared to return an integer gives a value of its own, which may be
void, if the function ends without a `return`.
-/
theorem Reaches.call_stores_returned_ending
    : ∃ program depth block prepared given after, ofText? endingText = some program
        ∧ program.Accepted
        ∧ program.Reaches ⟨20, 20⟩ (BuildSystem.ofRoot "/")
          ⟨some (depth + 1), .call program.main none [], prepared, []⟩
        ∧ (program.registry.function program.main).body = .script (some block)
        ∧ Run.callWithin (depth + 1) program.main none [] (program.setting ⟨20, 20⟩) prepared =
          (.ok given, after)
        ∧ (program.registry.function program.main).returnType? = some program.builtins.int
        ∧ given.isReference = false
        ∧ (after.store.heap.read given.cell).type = program.builtins.void := by
  obtain ⟨program, compiled, found⟩ := Option.bind_eq_some_iff.mp ending_text
  obtain ⟨⟨depth, prepared, given, after⟩, gives, same⟩ := Option.map_eq_some_iff.mp found
  obtain ⟨ends, same⟩ := Prod.mk.inj same
  obtain ⟨declared, same⟩ := Prod.mk.inj same
  obtain ⟨byValue, void⟩ := Prod.mk.inj same
  obtain ⟨reached, called⟩ := reaches_mainCall gives
  have declared := of_decide_eq_true declared
  match body : (program.registry.function program.main).body with
  | .script (some block) =>
      obtain ⟨asDeclared, _⟩ := reached.call_stores_returned (ofText?_accepted compiled) body called
      rw [declared, Option.getD_some, byValue] at asDeclared
      exact ⟨program, depth, block, prepared, given, after, compiled, ofText?_accepted compiled,
        reached, body, called, declared, asDeclared, of_decide_eq_true void⟩
  | .builtin _ | .component _ | .script none =>
      rw [body] at ends
      cases ends

/-- Arguments are stored when all of them have been evaluated. A variable among the operands of a
call gives a reference to its cell. Every parameter that is no reference takes a copy of what the
cell holds at the end, in spite of what is done to the variable by the operands after it.
-/
theorem Reaches.arguments_stored_last {depth? : Option Nat} {kind : ExprKind} {type : TypeId}
    {span : Span} {machine after : Machine} {held values arguments : List Handle}
    {function : FunctionId} {self? : Option Handle}
    (reached : program.Reaches limits system
      ⟨depth?, .evaluate (.mk kind type span), machine, held⟩)
    (evaluated : Run.evaluateAll (Run.caller depth?) kind.operands (program.setting limits)
      machine = (.ok values, after))
    (calls : kind.call? (machine.frames.head?.bind (·.self?)) values =
      some (function, self?, arguments))
    : (∀ earlier index name idType idSpan later,
        kind.operands = earlier ++ .mk (.id index name) idType idSpan :: later →
        ∃ before middle handle,
          Run.evaluateAll (Run.caller depth?) earlier (program.setting limits) machine =
            (.ok before, middle)
          ∧ middle.lookup? index = some handle
          ∧ values[earlier.length]? = some handle.toReference)
      ∧ ∃ bindings heap,
        Run.bindParams (program.registry.function function).params arguments
            (program.setting limits) (kind.entered after) =
          (.ok bindings, (kind.entered after).withHeap heap)
        ∧ List.Forall₂ (fun given binding => binding.1 = given.1.index
            ∧ Stored (program.registry.type given.1.type).isReference after.store.heap heap given.2
              binding.2)
            ((program.registry.function function).params.zip arguments) bindings := by
  have begins := reached.tail (.evaluates (.call evaluated calls type span held))
  constructor
  · intro earlier index name idType idSpan later split
    rw [split] at evaluated
    exact Run.evaluateAll_variable evaluated
  · have tidy : after.store.heap.Tidy := by
      rw [← ExprKind.heap_entered kind]
      exact ⟨_, Reaches.owned begins⟩
    have grown : after.store.heap.Grown (kind.entered after).store.heap := by
      rw [ExprKind.heap_entered]
      exact .refl _
    obtain ⟨bindings, heap, bound, _, stored, _⟩ := Run.bindParams_stores
      (program.setting limits) (kind.entered after) (program.registry.function function).params
      arguments tidy grown
      fun argument among => ExprKind.heap_entered kind after ▸ Reaches.present begins argument
        (List.mem_append_right _ (List.mem_append_left _ (List.mem_append_left _ among)))
    exact ⟨bindings, heap, bound, stored⟩

/-- What a variable holds that is the first argument of the call that `main` returns after its first
statement, before and after the arguments are evaluated, and whether a reference to it is taken.
-/
def firstArgument? (program : Program) (limits : Limits) (system : BuildSystem)
    : Option (Int64 × Int64 × Bool) :=
  match program.insideMain? limits system with
  | some ⟨depth?, .executeAll (.returnValue (some
        (.mk (.call function (.mk (.id index name) idType idSpan :: later)) _ _)) _ :: _), machine,
      []⟩ =>
    match machine.lookup? index, Run.evaluateAll (Run.caller depth?)
        (.mk (.id index name) idType idSpan :: later) (program.setting limits) machine,
      (program.registry.function function).params with
    | some handle, (.ok _, after), param :: _ =>
      some ((machine.store.heap.value handle.cell).asInt,
        (after.store.heap.value handle.cell).asInt,
        (program.registry.type param.type).isReference)
    | _, _, _ => none
  | _ => none

/-- A script that gives a function the value of a variable before the variable is incremented. -/
def countingText : String :=
  "int f(int a, int b) \x7b return a * 10 + b; \x7d "
    ++ "int main() \x7b int x = 1; return f(x, ++x); \x7d"

set_option maxRecDepth 100000 in
/-- The script above is accepted. The first argument is 1 at first, but 2 when it is stored. -/
theorem counting_text
    : ((ofText? countingText).bind fun program =>
        program.firstArgument? ⟨20, 20⟩ (BuildSystem.ofRoot "/")) = some (1, 2, false) := by
  decide +kernel

/-- Witness: the first parameter of a function takes 2 from a variable that holds 1 when it is
evaluated, since the second argument increments it.
-/
theorem Reaches.arguments_stored_last_counting
    : ∃ program depth? function index name idType idSpan later type span machine after handle
          arguments param bindings heap copied,
        ofText? countingText = some program ∧ program.Accepted
        ∧ program.Reaches ⟨20, 20⟩ (BuildSystem.ofRoot "/")
          ⟨depth?, .evaluate (.mk (.call function (.mk (.id index name) idType idSpan :: later))
            type span), machine, []⟩
        ∧ machine.lookup? index = some handle
        ∧ (machine.store.heap.value handle.cell).asInt = 1
        ∧ Run.evaluateAll (Run.caller depth?) (.mk (.id index name) idType idSpan :: later)
            (program.setting ⟨20, 20⟩) machine = (.ok arguments, after)
        ∧ Run.bindParams (program.registry.function function).params arguments
            (program.setting ⟨20, 20⟩) after =
          (.ok ((param, .owned copied) :: bindings), after.withHeap heap)
        ∧ (heap.value copied).asInt = 2 := by
  obtain ⟨program, compiled, found⟩ := Option.bind_eq_some_iff.mp counting_text
  unfold firstArgument? at found
  split at found
  case h_2 => cases found
  case h_1 depth? function index name idType idSpan later type span _ _ machine inside =>
    split at found
    case h_2 => cases found
    case h_1 handle arguments after param params bound evaluated takes =>
      obtain ⟨first, found⟩ := Prod.mk.inj (Option.some.inj found)
      obtain ⟨last, byValue⟩ := Prod.mk.inj found
      have reached := ((reaches_insideMain inside).tail (.executes (.first ..))).tail
        (.executes (.returnValue ..))
      obtain ⟨reads, bindings, heap, binds, stored⟩ :=
        Reaches.arguments_stored_last reached evaluated rfl
      obtain ⟨_, _, _, none, here, given⟩ := reads [] index name idType idSpan later rfl
      cases none
      cases bound.symm.trans here
      obtain ⟨rest, rfl⟩ : ∃ rest, arguments = handle.toReference :: rest := by
        cases arguments with
        | nil => cases given
        | cons argument rest => exact ⟨rest, congrArg (· :: rest) (Option.some.inj given)⟩
      rw [takes, List.zip_cons_cons] at stored
      cases stored with
      | @cons _ binding _ bindings head others =>
          obtain ⟨here, stored⟩ := head
          rw [byValue] at stored
          obtain ⟨copied, owns, replica⟩ :=
            stored.exists_replica (Handle.isReference_toReference handle)
          rw [Handle.cell_toReference] at replica
          have same : binding = (param.index, .owned copied) := Prod.ext here owns
          rw [same] at binds
          exact ⟨program, depth?, function, index, name, idType, idSpan, later, type, span, machine,
            after, handle, _, param.index, bindings, heap, copied, compiled,
            ofText?_accepted compiled, reached, bound, first, evaluated, binds,
            replica.asInt.trans last⟩

/-- Assigning an object to another one gives new cells to all members that it takes over, at every
moment of a run. References to these members are left with what there was before.
-/
theorem Reaches.assignment_renews_members (reached : program.Reaches limits system moment)
    {target source : Handle} {members overwriting : List (Nat × CellId)}
    (object : moment.heap.value target.cell = .object members)
    (overwrites : moment.heap.value source.cell = .object overwriting) (result : TypeId)
    : let outcome := Operation.assignObject.perform (some target) [source] result
        ⟨program.registry, program.builtins⟩ moment.machine.store
      let after := outcome.2.heap
      outcome.1 = .ok target.toReference
        ∧ (∀ index ∈ overwriting.map (·.1), ∃ original copy, (index, original) ∈ overwriting
          ∧ (after.value target.cell).member? index = some copy
          ∧ moment.heap.Replica after original copy)
        ∧ (∀ index ∉ overwriting.map (·.1),
          (after.value target.cell).member? index = (Value.object members).member? index)
        ∧ ∀ cell : CellId, cell.index < moment.heap.cells.size → cell ≠ target.cell →
          after.read cell = moment.heap.read cell :=
  Operation.assignObject_renews _ result ⟨_, reached.owned⟩ object overwrites

/-- A script that refers to a member of an object. -/
def sharingText : String :=
  "class A \x7b int m; \x7d A o; A v; int& r = o.m; int main() \x7b v.m = 5; return r; \x7d"

/-- The member that the first of three variables refers to and an object in the last one has, and
one of the same number that an object in the other one has.
-/
def sharedMember? (machine : Machine) : Option (Handle × Handle × Handle × Nat × CellId) :=
  match machine.globals.handles with
  | [reference, source, target] =>
    match machine.store.heap.value target.cell, machine.store.heap.value source.cell with
    | .object [(index, member)], .object [(other, original)] =>
      if member = reference.cell ∧ other = index ∧ member ≠ target.cell then
        some (reference, source, target, index, original)
      else none
    | _, _ => none
  | _ => none

set_option maxRecDepth 100000 in
/-- The script above is accepted. At its end, one object holds 0 and the other one 5. -/
theorem sharing_text
    : ((ofText? sharingText).bind fun program =>
        let machine := (program.lastMoment ⟨20, 20⟩).machine
        (sharedMember? machine).map fun (reference, _, _, _, original) =>
          ((machine.store.heap.value reference.cell).asInt,
            (machine.store.heap.value original).asInt)) = some (0, 5) := by
  decide +kernel

/-- Witness: after an assignment, an object has the number of the other one, and the reference goes
on to give the one of before.
-/
theorem Reaches.assignment_renews_members_sharing
    : ∃ program target source reference index member, ofText? sharingText = some program
        ∧ program.Accepted
        ∧ program.Reaches ⟨20, 20⟩ (BuildSystem.ofRoot "/") (program.lastMoment ⟨20, 20⟩)
        ∧ [reference, source, target] =
          (program.lastMoment ⟨20, 20⟩).machine.globals.handles
        ∧ (program.lastMoment ⟨20, 20⟩).heap.value target.cell = .object [(index, reference.cell)]
        ∧ (program.lastMoment ⟨20, 20⟩).heap.value source.cell = .object [(index, member)]
        ∧ let after := (Operation.assignObject.perform (some target) [source] program.builtins.void
            ⟨program.registry, program.builtins⟩
            (program.lastMoment ⟨20, 20⟩).machine.store).2.heap
          (after.value reference.cell).asInt = 0
            ∧ ∃ copy, (after.value target.cell).member? index = some copy
              ∧ copy ≠ reference.cell ∧ (after.value copy).asInt = 5 := by
  obtain ⟨program, compiled, found⟩ := Option.bind_eq_some_iff.mp sharing_text
  obtain ⟨shared, shares, same⟩ := Option.map_eq_some_iff.mp found
  unfold sharedMember? at shares
  split at shares
  case h_2 => cases shares
  case h_1 reference source target handles =>
    split at shares
    case h_2 => cases shares
    case h_1 index member other original object overwrites =>
      split at shares
      case isFalse => cases shares
      case isTrue conditions =>
        cases shares
        obtain ⟨rfl, rfl, apart⟩ := conditions
        obtain ⟨before, assigned⟩ := Prod.mk.inj same
        have reached : program.Reaches ⟨20, 20⟩ (BuildSystem.ofRoot "/")
            (program.lastMoment ⟨20, 20⟩) :=
          program.reaches_end ⟨20, 20⟩ _
        have among : reference ∈ (program.lastMoment ⟨20, 20⟩).machine.globals.handles :=
          handles ▸ List.mem_cons_self
        have inUse : reference ∈ (program.lastMoment ⟨20, 20⟩).machine.handles := by
          simp [Machine.handles, among]
        have present := reached.present reference (List.mem_append_left _ inUse)
        obtain ⟨_, renewed, _, kept⟩ :=
          reached.assignment_renews_members object overwrites program.builtins.void
        obtain ⟨_, copy, member, found, replica⟩ := renewed other (.head _)
        cases List.mem_singleton.mp member
        refine ⟨program, target, source, reference, other, original, compiled,
          ofText?_accepted compiled, reached, handles.symm, object, overwrites, ?_, copy, found, ?_,
          replica.asInt.trans assigned⟩
        · rw [Heap.value, kept reference.cell present apart]
          exact before
        · exact fun same => Nat.not_lt.mpr replica.new.1 (same ▸ present)

end Program

-----------------------------------------------------------------------------------------
-- Accepted programs
-----------------------------------------------------------------------------------------

/-- The expression that a body returns, if it does nothing else. -/
def FunctionBody.returned? : FunctionBody → Option TypedExpr
  | .script (some (.mk [.returnValue value? _] _)) => value?
  | _ => none

namespace Program

/-- The type that `main` is declared to return. -/
def resultType (program : Program) : TypeId :=
  (program.registry.function program.main).returnType?.getD program.builtins.void

/-- What `main` gives when a program runs in the root directory and may take as much as in any
session, with the heap that is left, unless the run is stopped.
-/
def result? (program : Program) : Option (Handle × Heap) :=
  let session := Session.start Config.standard fun _ => none
  match program.run session.limits (BuildSystem.ofRoot "/") with
  | (.ok handle, machine) => some (handle, machine.store.heap)
  | (.error _, _) => none

/-- What an expression gives before anything else has run, with the heap that is left. -/
def valueOf? (program : Program) (expr : TypedExpr) : Option (Handle × Heap) :=
  let session := Session.start Config.standard fun _ => none
  match Run.evaluate Run.call expr (program.setting session.limits)
      (Machine.ofSystem (BuildSystem.ofRoot "/")) with
  | (.ok handle, machine) => some (handle, machine.store.heap)
  | (.error _, _) => none

/-- (Mistypes program) says that `main` returns the value of an expression which is neither of the
type of the expression nor of one derived from it.
-/
def Mistypes (program : Program) : Prop :=
  ∃ expr ∈ (program.registry.function program.main).body.returned?,
    ∃ result ∈ program.valueOf? expr,
      program.registry.decayed expr.type ∉
        program.registry.lineage (result.2.typeOf result.1)

/-- (GivesOther program) says that `main` gives something that is neither of the type that it is
declared to return nor of one derived from it.
-/
def GivesOther (program : Program) : Prop :=
  ∃ result ∈ program.result?,
    program.registry.decayed program.resultType ∉
      program.registry.lineage (result.2.typeOf result.1)

/-- (GivesMore program) says that `main` returns by value, but gives an object of a class derived
from the one that it is declared to return, with members that the latter does not have.
-/
def GivesMore (program : Program) : Prop :=
  ∃ result ∈ program.result?,
    result.1.isReference = false
      ∧ program.resultType ∈ (program.registry.lineage (result.2.typeOf result.1)).tail
      ∧ ∃ index ∈ (result.2.value result.1.cell).slots,
          index ∉ (program.registry.allMembers program.resultType).map (·.index)

instance (program : Program) : Decidable program.Mistypes :=
  inferInstanceAs (Decidable (∃ _ ∈ _, ∃ _ ∈ program.valueOf? _, _ ∉ _))

instance (program : Program) : Decidable program.GivesOther :=
  inferInstanceAs (Decidable (∃ _ ∈ program.result?, _ ∉ _))

instance (program : Program) : Decidable program.GivesMore :=
  inferInstanceAs (Decidable (∃ _ ∈ program.result?, _ ∧ _ ∧ ∃ _ ∈ _, _ ∉ _))

/-- Whether the functions of a program all end in a `return`. -/
def alwaysReturns (program : Program) : Bool :=
  program.registry.functions.all fun function => !function.body.mayEnd

/-- A script with an enumeration that is named as an operation of enumerations is. -/
def namingText : String :=
  "enum to_string \x7b A \x7d  to_string main() \x7b return to_string(); \x7d"

/-- A script that assigns to an object of a derived class an object of its base. -/
def slicingText : String :=
  "class B \x7b int x; \x7d class D : B \x7b int y; \x7d "
    ++ "B main() \x7b D d; B b; B x = (d = b); return x; \x7d"

/-- The same script, where a reference takes the place of the variable. -/
def referringText : String :=
  "int f(int a, int b) \x7b return a * 10 + b; \x7d "
    ++ "int main() \x7b int x = 1; int& r = x; return f(r, ++x); \x7d"

/-- A script that reads a member through a reference after an assignment to the object. -/
def detachingText : String :=
  "class A \x7b int m; \x7d "
    ++ "int main() \x7b A o; A v; v.m = 5; int& r = o.m; o = v; return r; \x7d"

/-- The same script, where the member is read through the object. -/
def attachedText : String :=
  "class A \x7b int m; \x7d "
    ++ "int main() \x7b A o; A v; v.m = 5; int& r = o.m; o = v; return o.m; \x7d"

set_option maxRecDepth 100000 in
/-- The scripts above are accepted, and this is what they give. -/
theorem surprising_texts
    : ((ofText? namingText).map fun program =>
        decide (program.alwaysReturns ∧ program.Mistypes)) = some true ∧
      ((ofText? slicingText).map fun program =>
        decide (program.alwaysReturns ∧ program.GivesMore)) = some true ∧
      ((ofText? endingText).map fun program =>
        decide (program.resultType = program.builtins.int ∧ program.GivesOther)) = some true ∧
      ((ofText? countingText).map (·.outcome.1)) = some (some 22) ∧
      ((ofText? referringText).map (·.outcome.1)) = some (some 12) ∧
      ((ofText? detachingText).map (·.outcome.1)) = some (some 0) ∧
      ((ofText? attachedText).map (·.outcome.1)) = some (some 5) := by
  refine ⟨?naming, ?slicing, ?ending, ?counting, ?referring, ?detaching, ?attached⟩
  case naming => decide +kernel
  case slicing => decide +kernel
  case ending => decide +kernel
  case counting => decide +kernel
  case referring => decide +kernel
  case detaching => decide +kernel
  case attached => decide +kernel

/-- An operation of enumerations is a constructor of the enumeration that has its name. So an
expression may give a value of another type than its own, where all functions end in a `return`.
-/
theorem Accepted.mistypes_expression
    : ∃ program, ofText? namingText = some program ∧ program.Accepted ∧ program.alwaysReturns ∧
        program.Mistypes := by
  obtain ⟨program, compiled, mistypes⟩ := Option.map_eq_some_iff.mp surprising_texts.1
  exact ⟨program, compiled, ofText?_accepted compiled, of_decide_eq_true mistypes⟩

/-- What is assigned to an object of a derived class by the operation of its base is seen whole
when it is copied, so that a variable of the base class holds an object of the derived one.
-/
theorem Accepted.stores_derived
    : ∃ program, ofText? slicingText = some program ∧ program.Accepted ∧ program.alwaysReturns ∧
        program.GivesMore := by
  obtain ⟨program, compiled, more⟩ := Option.map_eq_some_iff.mp surprising_texts.2.1
  exact ⟨program, compiled, ofText?_accepted compiled, of_decide_eq_true more⟩

/-- A function that is declared to return an integer may give nothing. -/
theorem Accepted.returns_nothing
    : ∃ program, ofText? endingText = some program ∧ program.Accepted ∧
        program.resultType = program.builtins.int ∧ program.GivesOther := by
  obtain ⟨_, _, ending, _⟩ := surprising_texts
  obtain ⟨program, compiled, other⟩ := Option.map_eq_some_iff.mp ending
  exact ⟨program, compiled, ofText?_accepted compiled, of_decide_eq_true other⟩

/-- An argument that is a variable is read when all arguments are there, so that the increment
that follows it changes what the function is given. By a reference, it is read in its turn.
-/
theorem Accepted.reads_late
    : (∃ program, ofText? countingText = some program ∧ program.Accepted ∧
        program.outcome.1 = some 22) ∧
      ∃ program, ofText? referringText = some program ∧ program.Accepted ∧
        program.outcome.1 = some 12 := by
  obtain ⟨_, _, _, counting, referring, _⟩ := surprising_texts
  constructor
  · obtain ⟨program, compiled, late⟩ := Option.map_eq_some_iff.mp counting
    exact ⟨program, compiled, ofText?_accepted compiled, late⟩
  · obtain ⟨program, compiled, inTurn⟩ := Option.map_eq_some_iff.mp referring
    exact ⟨program, compiled, ofText?_accepted compiled, inTurn⟩

/-- An assignment to an object leaves a reference to a member of it behind, which goes on to give
the value of before, while the object has the new one.
-/
theorem Accepted.detaches_reference
    : (∃ program, ofText? detachingText = some program ∧ program.Accepted ∧
        program.outcome.1 = some 0) ∧
      ∃ program, ofText? attachedText = some program ∧ program.Accepted ∧
        program.outcome.1 = some 5 := by
  obtain ⟨_, _, _, _, _, detaching, attached⟩ := surprising_texts
  constructor
  · obtain ⟨program, compiled, old⟩ := Option.map_eq_some_iff.mp detaching
    exact ⟨program, compiled, ofText?_accepted compiled, old⟩
  · obtain ⟨program, compiled, new⟩ := Option.map_eq_some_iff.mp attached
    exact ⟨program, compiled, ofText?_accepted compiled, new⟩

end Program

end BuildScript
