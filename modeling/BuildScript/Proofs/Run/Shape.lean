import BuildScript.Run.Machine

/-! Which variables a machine has, whatever their values: those in the scopes and among the
parameters of each call, and those outside of functions.
-/

namespace BuildScript

/-- The numbers of some variables. -/
def Bindings.indices (bindings : Bindings) : List Nat := bindings.map (·.1)

/-- A variable that is set is there once, before the others. -/
theorem Bindings.indices_set (bindings : Bindings) (index : Nat) (handle : Handle)
    : (Bindings.set bindings index handle).indices =
        index :: bindings.indices.filter (· != index) := by
  rw [indices, indices, List.filter_map]
  rfl

theorem Bindings.mem_indices_set {bindings : Bindings} {index other : Nat} {handle : Handle}
    : other ∈ (Bindings.set bindings index handle).indices ↔
        other = index ∨ other ∈ bindings.indices := by
  rw [indices_set, List.mem_cons, List.mem_filter, bne_iff_ne]
  by_cases same : other = index
  · exact iff_of_true (.inl same) (.inl same)
  · exact or_congr_right (and_iff_left same)

/-- A call without the values of its variables. -/
structure Frame.Shape where
  function : FunctionId
  scopes : List (List Nat)
  params : List Nat
  self? : Option Handle

/-- The shape of a call. -/
def Frame.shape (frame : Frame) : Frame.Shape :=
  ⟨frame.function, frame.scopes.map Bindings.indices, frame.params.indices, frame.self?⟩

/-- A machine without its heap and the values of its variables. -/
structure Machine.Shape where
  frames : List Frame.Shape
  globals : List Nat
  statics : List Nat

/-- The shape of a machine. -/
def Machine.shape (machine : Machine) : Machine.Shape :=
  ⟨machine.frames.map Frame.shape, machine.globals.indices, machine.statics.indices⟩

namespace Machine

/-- Machines have the same shape when they have the same variables. -/
def SameShape (before after : Machine) : Prop := after.shape = before.shape

theorem SameShape.refl (machine : Machine) : SameShape machine machine := rfl

theorem SameShape.trans {before middle after : Machine} (first : SameShape before middle)
    (later : SameShape middle after)
    : SameShape before after :=
  Eq.trans later first

/-- (Encloses before after) says that the variables of a machine during a call are the same. -/
def Encloses (before after : Machine) : Prop :=
  before.shape.frames ≠ [] → after.shape = before.shape

theorem SameShape.encloses {before after : Machine} (same : SameShape before after)
    : Encloses before after :=
  fun _ => same

theorem Encloses.trans {before middle after : Machine} (first : Encloses before middle)
    (later : Encloses middle after)
    : Encloses before after := by
  intro inCall
  have same := first inCall
  rw [later (same ▸ inCall), same]

/-- (Declares indices before after) says that the variables of a machine during a call are the
same, except that variables of the given numbers may have been added to the innermost scope.
-/
def Declares (indices : List Nat) (before after : Machine) : Prop :=
  ∀ frame rest scope outer,
    before.shape.frames = frame :: rest → frame.scopes = scope :: outer →
      ∃ inner, (∀ index ∈ inner, index ∈ scope ∨ index ∈ indices)
        ∧ after.shape =
            { before.shape with frames := { frame with scopes := inner :: outer } :: rest }

theorem Encloses.declares {before after : Machine} (same : Encloses before after)
    (indices : List Nat)
    : Declares indices before after := by
  intro frame rest scope outer frames scopes
  refine ⟨scope, fun index member => .inl member, ?_⟩
  rw [same (by rw [frames]; exact List.cons_ne_nil _ _), ← scopes, ← frames]

theorem Declares.trans {first later : List Nat} {before middle after : Machine}
    (start : Declares first before middle) (rest : Declares later middle after)
    : Declares (first ++ later) before after := by
  intro frame below scope outer frames scopes
  obtain ⟨inner, among, reached⟩ := start frame below scope outer frames scopes
  obtain ⟨last, amongLast, ended⟩ :=
    rest { frame with scopes := inner :: outer } below inner outer (by rw [reached]) rfl
  refine ⟨last, fun index member => ?_, by rw [ended, reached]⟩
  rcases amongLast index member with earlier | new
  · exact (among index earlier).imp id (List.mem_append_left later)
  · exact .inr (List.mem_append_right first new)

/-- More variables may be taken into account than were added. -/
theorem Declares.wider {fewer indices : List Nat} {before after : Machine}
    (declares : Declares fewer before after) (among : ∀ index ∈ fewer, index ∈ indices)
    : Declares indices before after := by
  intro frame rest scope outer frames scopes
  obtain ⟨inner, added, reached⟩ := declares frame rest scope outer frames scopes
  exact ⟨inner, fun index member => (added index member).imp id (among index), reached⟩

/-- (Composes first later whole) says that machines that are related by two relations in turn are
related by a third one, and so are machines that are related by the first alone.
-/
structure Composes (first later whole : Machine → Machine → Prop) : Prop where
  both : ∀ {before middle after : Machine}, first before middle → later middle after →
    whole before after
  alone : ∀ {before after : Machine}, first before after → whole before after

theorem SameShape.composes : Composes SameShape SameShape SameShape := ⟨.trans, id⟩

theorem Encloses.composes : Composes Encloses Encloses Encloses := ⟨.trans, id⟩

theorem SameShape.composesEncloses : Composes SameShape Encloses Encloses :=
  ⟨fun same => same.encloses.trans, SameShape.encloses⟩

theorem SameShape.composesDeclares (indices : List Nat)
    : Composes SameShape (Declares indices) (Declares indices) :=
  ⟨fun same => (same.encloses.declares []).trans, fun same => same.encloses.declares indices⟩

theorem Declares.composes (first later : List Nat)
    : Composes (Declares first) (Declares later) (Declares (first ++ later)) :=
  ⟨.trans, fun declares => declares.wider fun _ => List.mem_append_left later⟩

/-- (Gathers globals statics before after) says that the calls of a machine are the same, and that
variables of the given numbers may have been added outside of functions.
-/
structure Gathers (globals statics : List Nat) (before after : Machine) : Prop where
  frames : after.shape.frames = before.shape.frames
  globals : ∀ index ∈ after.shape.globals, index ∈ before.shape.globals ∨ index ∈ globals
  statics : ∀ index ∈ after.shape.statics, index ∈ before.shape.statics ∨ index ∈ statics

theorem SameShape.gathers {before after : Machine} (same : SameShape before after)
    (globals statics : List Nat)
    : Gathers globals statics before after :=
  ⟨congrArg Shape.frames same, fun _ member => .inl (congrArg Shape.globals same ▸ member),
    fun _ member => .inl (congrArg Shape.statics same ▸ member)⟩

theorem Gathers.trans {globals moreGlobals statics moreStatics : List Nat}
    {before middle after : Machine} (first : Gathers globals statics before middle)
    (later : Gathers moreGlobals moreStatics middle after)
    : Gathers (globals ++ moreGlobals) (statics ++ moreStatics) before after := by
  refine ⟨later.frames.trans first.frames, fun index member => ?_, fun index member => ?_⟩
  · rcases later.globals index member with earlier | new
    · exact (first.globals index earlier).imp id (List.mem_append_left _)
    · exact .inr (List.mem_append_right _ new)
  · rcases later.statics index member with earlier | new
    · exact (first.statics index earlier).imp id (List.mem_append_left _)
    · exact .inr (List.mem_append_right _ new)

/-- More variables may be taken into account than were added. -/
theorem Gathers.wider {globals moreGlobals statics moreStatics : List Nat}
    {before after : Machine} (gathers : Gathers globals statics before after)
    (among : globals ⊆ moreGlobals) (amongStatics : statics ⊆ moreStatics)
    : Gathers moreGlobals moreStatics before after :=
  ⟨gathers.frames, fun index member => (gathers.globals index member).imp id (among ·),
    fun index member => (gathers.statics index member).imp id (amongStatics ·)⟩

theorem Gathers.composes (globals moreGlobals statics moreStatics : List Nat)
    : Composes (Gathers globals statics) (Gathers moreGlobals moreStatics)
        (Gathers (globals ++ moreGlobals) (statics ++ moreStatics)) :=
  ⟨.trans, fun gathers =>
    gathers.wider (List.subset_append_left _ _) (List.subset_append_left _ _)⟩

theorem SameShape.composesGathers (globals statics : List Nat)
    : Composes SameShape (Gathers globals statics) (Gathers globals statics) :=
  ⟨fun same => (same.gathers [] []).trans, fun same => same.gathers globals statics⟩

theorem Gathers.composesSameShape (globals statics : List Nat)
    : Composes (Gathers globals statics) SameShape (Gathers globals statics) := by
  refine ⟨fun gathers same => ?_, id⟩
  have whole := gathers.trans (same.gathers [] [])
  rwa [List.append_nil, List.append_nil] at whole

-----------------------------------------------------------------------------------------
-- Changes of a machine
-----------------------------------------------------------------------------------------

/-- Setting a variable adds no other one. -/
theorem indices_set {bindings : Bindings} {index other : Nat} {handle : Handle}
    (member : other ∈ (Bindings.set bindings index handle).indices)
    : other ∈ bindings.indices ∨ other ∈ [index] :=
  (Bindings.mem_indices_set.mp member).symm.imp id List.mem_singleton.mpr

theorem Declares.addVariable (machine : Machine) (index : Nat) (handle : Handle)
    : Declares [index] machine (machine.addVariable index handle) := by
  obtain ⟨store, frames, globals, statics, returned?, breaking⟩ := machine
  intro frame rest scope outer found scopes
  cases frames with
  | nil => exact nomatch found
  | cons top below =>
      obtain ⟨rfl, rfl⟩ := List.cons.inj found
      obtain ⟨function, inner, params, self?⟩ := top
      cases inner with
      | nil => exact nomatch scopes
      | cons bindings others =>
          obtain ⟨rfl, rfl⟩ := List.cons.inj scopes
          exact ⟨(Bindings.set bindings index handle).indices, fun _ => indices_set, rfl⟩

/-- The shape of a machine with the innermost scope of its innermost call closed. -/
def Shape.leaveScope (shape : Shape) : Shape :=
  { shape with
    frames :=
      match shape.frames with
      | [] => []
      | frame :: rest => { frame with scopes := frame.scopes.tail } :: rest }

theorem shape_leaveScope (machine : Machine)
    : machine.leaveScope.shape = machine.shape.leaveScope := by
  obtain ⟨store, frames, globals, statics, returned?, breaking⟩ := machine
  cases frames with
  | nil => rfl
  | cons frame rest => simp [leaveScope, onFrame, shape, Shape.leaveScope, Frame.shape]

/-- A scope that is opened and closed takes its variables with it. -/
theorem Declares.scope {indices : List Nat} {before after : Machine}
    (declares : Declares indices before.enterScope after)
    : Encloses before after.leaveScope := by
  intro inCall
  obtain ⟨store, frames, globals, statics, returned?, breaking⟩ := before
  cases frames with
  | nil => exact absurd rfl inCall
  | cons frame rest =>
      obtain ⟨inner, _, ended⟩ := declares { frame with scopes := [] :: frame.scopes }.shape
        (rest.map Frame.shape) [] (frame.scopes.map Bindings.indices) rfl rfl
      rw [shape_leaveScope, ended]
      rfl

/-- A call that is opened and ended takes its variables with it. -/
theorem Encloses.frame {frame : Frame} {before after : Machine}
    (same : Encloses { before with frames := frame :: before.frames } after)
    : SameShape before { after with frames := after.frames.tail, returned? := none } := by
  have reached := same (List.cons_ne_nil _ _)
  have calls := congrArg (List.tail ∘ Shape.frames) reached
  have outside := congrArg Shape.globals reached
  have others := congrArg Shape.statics reached
  simp only [shape, Function.comp_apply, List.map_cons, List.tail_cons] at calls outside others
  simp only [SameShape, shape, outside, others, ← calls, List.map_tail]

end Machine

end BuildScript
