import BuildScript.Proofs.Run.Ownership
import BuildScript.Run.Machine

/-! Sound machines. Every cell of a sound machine belongs to one value, to one variable or other
place of the machine, or to one value that is in use besides, and objects have members of allowed
numbers only.
-/

namespace BuildScript

-----------------------------------------------------------------------------------------
-- Handles
-----------------------------------------------------------------------------------------

/-- The handles of some variables. -/
def Bindings.handles (bindings : Bindings) : List Handle := bindings.map (·.2)

/-- The handles of a call: of its variables and parameters and of the object that it works on. -/
def Frame.handles (frame : Frame) : List Handle :=
  frame.scopes.flatMap Bindings.handles ++ frame.params.handles ++ frame.self?.toList

/-- All handles of a machine: those of its calls, of the variables outside of functions and of a
value that is being returned.
-/
def Machine.handles (machine : Machine) : List Handle :=
  machine.frames.flatMap Frame.handles ++ machine.globals.handles ++ machine.statics.handles
    ++ machine.returned?.toList

/-- A variable that is set adds its handle and may take the place of another one. -/
theorem Bindings.count_set_le (bindings : Bindings) (index : Nat) (handle other : Handle)
    : (Bindings.set bindings index handle).handles.count other ≤
        [handle].count other + bindings.handles.count other := by
  have fewer := ((List.filter_sublist (p := fun binding : Nat × Handle =>
    binding.1 != index) (l := bindings)).map (·.2)).count_le other
  simp only [Bindings.set, Bindings.handles, List.map_cons, List.count_cons] at fewer ⊢
  simp only [List.count_nil]
  omega

/-- A new variable adds its handle, by cases on where it is put. -/
theorem Machine.count_addVariable_le (machine : Machine) (index : Nat) (handle other : Handle)
    : (machine.addVariable index handle).handles.count other ≤
        [handle].count other + machine.handles.count other := by
  obtain ⟨store, frames, globals, statics, returned?, breaking⟩ := machine
  cases frames with
  | nil =>
      have added := Bindings.count_set_le globals index handle other
      simp only [Machine.addVariable, Machine.handles, List.count_append] at added ⊢
      omega
  | cons frame rest =>
      obtain ⟨function, scopes, params, self?⟩ := frame
      cases scopes with
      | nil =>
          have added := Bindings.count_set_le params index handle other
          simp only [Machine.addVariable, Frame.addVariable, Machine.handles, Frame.handles,
            List.flatMap_cons, List.flatMap_nil, List.count_append] at added ⊢
          omega
      | cons scope outer =>
          have added := Bindings.count_set_le scope index handle other
          simp only [Machine.addVariable, Frame.addVariable, Machine.handles, Frame.handles,
            List.flatMap_cons, List.count_append] at added ⊢
          omega

/-- A scope that is opened has no handles yet. -/
theorem Machine.handles_enterScope (machine : Machine)
    : machine.enterScope.handles = machine.handles := by
  obtain ⟨store, frames, globals, statics, returned?, breaking⟩ := machine
  cases frames <;> rfl

/-- A scope that is closed gives up its handles. -/
theorem Machine.count_leaveScope_le (machine : Machine) (handle : Handle)
    : machine.leaveScope.handles.count handle ≤ machine.handles.count handle := by
  obtain ⟨store, frames, globals, statics, returned?, breaking⟩ := machine
  cases frames with
  | nil => exact Nat.le_refl _
  | cons frame rest =>
      obtain ⟨function, scopes, params, self?⟩ := frame
      cases scopes with
      | nil => exact Nat.le_refl _
      | cons scope outer =>
          simp only [Machine.leaveScope, Machine.onFrame, Machine.handles, Frame.handles,
            List.tail_cons, List.flatMap_cons, List.count_append]
          omega

/-- Whatever handles are among others own no more than those. -/
theorem count_owns_le {fewer handles : List Handle}
    (less : ∀ handle, fewer.count handle ≤ handles.count handle) (cell : CellId)
    : (fewer.flatMap Handle.owns).count cell ≤ (handles.flatMap Handle.owns).count cell := by
  induction fewer generalizing handles with
  | nil => exact Nat.zero_le _
  | cons first rest ih =>
      have member : first ∈ handles := by
        have some := less first
        rw [List.count_cons_self] at some
        exact List.count_pos_iff.mp (by omega)
      have split := ((List.perm_cons_erase member).flatMap_right Handle.owns).count_eq cell
      have left : ∀ handle, rest.count handle ≤ (handles.erase first).count handle := by
        intro handle
        have some := less handle
        rw [List.count_cons] at some
        rw [List.count_erase]
        omega
      have taken := ih left
      rw [List.flatMap_cons, List.count_append] at split ⊢
      omega

-----------------------------------------------------------------------------------------
-- Heaps that develop
-----------------------------------------------------------------------------------------

/-- (Develops allowed roots before after made?) says that a heap has come to hold more, where some
roots keep their cells and a value may have been made, which is on a cell of the heap and owns no
cell that belongs to anything else.
-/
structure Heap.Develops (allowed : Nat → Prop) (roots : List CellId) (before after : Heap)
    (made? : Option Handle)
    : Prop where
  grows : before.cells.size ≤ after.cells.size
  owned : after.Owned (made?.toList.flatMap Handle.owns ++ roots)
  present : ∀ handle ∈ made?, handle.cell.index < after.cells.size
  slotted : after.Slotted allowed

/-- A heap that develops may have grown before, and roots may be given up. -/
theorem Heap.Develops.before {allowed : Nat → Prop} {roots fewer : List CellId}
    {before middle after : Heap} {made? : Option Handle}
    (develops : Develops allowed roots middle after made?)
    (grows : before.cells.size ≤ middle.cells.size)
    (less : ∀ cell, fewer.count cell ≤ roots.count cell)
    : Develops allowed fewer before after made? where
  grows := Nat.le_trans grows develops.grows
  owned := develops.owned.fewer fun cell => by
    rw [List.count_append, List.count_append]
    exact Nat.add_le_add_left (less cell) _
  present := develops.present
  slotted := develops.slotted

namespace Heap.Works

variable {allowed : Nat → Prop} {written roots made : List CellId} {before after : Heap}

/-- A heap develops by work that gives something. -/
theorem develops {handle : Handle} (works : Works allowed written before after handle.owns)
    (present : handle.cell.index < after.cells.size) (owned : before.Owned roots)
    (slotted : before.Slotted allowed)
    : Develops allowed roots before after (some handle) where
  grows := works.grows
  owned := by
    show after.Owned ([handle].flatMap Handle.owns ++ roots)
    rw [List.flatMap_singleton]
    exact works.owned owned
  present _ member := Option.some.inj member ▸ present
  slotted := works.slotted slotted

/-- A heap develops by work that gives nothing. -/
theorem developsIdle (works : Works allowed written before after made)
    (owned : before.Owned roots) (slotted : before.Slotted allowed)
    : Develops allowed roots before after none where
  grows := works.grows
  owned := (works.forget (by simp)).owned owned
  present _ member := nomatch member
  slotted := works.slotted slotted

end Heap.Works

/-- (Develops allowed given effect) says that the heap develops by an action of an operation when
some handles are on cells of it, and members of classes have allowed numbers.
-/
def Effect.Develops (allowed : Nat → Prop) (given : List Handle) (effect : Effect Handle) : Prop :=
  ∀ (environment : Environment) (store : Store) (roots : List CellId),
    (∀ type, ∀ member ∈ environment.registry.allMembers type, allowed member.index) →
    store.heap.Owned roots → store.heap.Slotted allowed →
    (∀ handle ∈ given, handle.cell.index < store.heap.cells.size) →
      Heap.Develops allowed roots store.heap (effect environment store).2.heap
        (effect environment store).1.toOption

namespace Effect.Develops

variable {allowed : Nat → Prop} {given : List Handle}

/-- A heap develops by a new value without parts. -/
theorem leaf {effect : Effect Handle} (leaf : effect.Leaf) : effect.Develops allowed given := by
  intro environment store roots members owned slotted present
  obtain ⟨type, value, system, partless, slotless, outcome⟩ := leaf environment store
  have making : Heap.Makes allowed (Heap.new type value) fun cell => [cell] :=
    .new partless slotless
  rw [outcome]
  exact Heap.Works.develops (making store.heap)
    ((making store.heap).new _ (List.mem_singleton.mpr rfl)).2 owned slotted

/-- A heap develops by a new cell that was made of new cells. -/
theorem making {action : StateM Heap CellId}
    (makes : Heap.Makes allowed action fun cell => [cell])
    : (.owned <$> onHeap action : Effect Handle).Develops allowed given :=
  fun _ store _ _ owned slotted _ =>
    Heap.Works.develops (makes store.heap)
      ((makes store.heap).new _ (List.mem_singleton.mpr rfl)).2 owned slotted

theorem throw (fault : Fault)
    : (MonadExcept.throw fault : Effect Handle).Develops allowed given :=
  fun _ store _ _ owned slotted _ => (Heap.Works.refl allowed store.heap).developsIdle owned slotted

/-- A heap develops by every operation on a value in it. -/
theorem operationOn (operation : Operation) (self : Handle) (operands : List Handle)
    (result : TypeId)
    : (operation.perform (some self) operands result).Develops allowed [self] := by
  intro environment store roots members owned slotted present
  let task : Effect.Task :=
    ⟨allowed, environment, self, store.heap, present self (List.mem_singleton.mpr rfl),
      owned.closed, members⟩
  have serves : (operation.perform (some task.self) operands result).Serves task [] :=
    .operation operation operands result
  have served := serves store (Heap.Works.refl allowed store.heap)
  cases outcome : operation.perform (some self) operands result environment store with
  | mk result after =>
      rw [outcome] at served
      cases result with
      | ok handle => exact served.works.develops served.present owned slotted
      | error fault => exact served.developsIdle owned slotted

/-- A heap develops by every operation, whether it works on a value or on none. -/
theorem operation (operation : Operation) (self? : Option Handle) (operands : List Handle)
    (result : TypeId)
    : (operation.perform self? operands result).Develops allowed (operands ++ self?.toList) := by
  intro environment store roots members owned slotted present
  cases self? with
  | some self =>
      exact operationOn operation self operands result environment store roots members owned
        slotted fun handle member => present handle (List.mem_append_right _ member)
  | none =>
      -- The void value that the operation works on is given up at the end.
      rw [Operation.perform_none]
      have making : Heap.Makes allowed (Heap.new environment.builtins.void .void) fun cell =>
          [cell] :=
        .new rfl rfl
      have works := making store.heap
      have root := works.new _ (List.mem_singleton.mpr rfl)
      have developed := operationOn operation (.owned _) operands result environment
        ⟨_, store.system⟩ _ members (works.owned owned) (works.slotted slotted)
        fun handle member => List.mem_singleton.mp member ▸ root.2
      exact developed.before works.grows fun cell => by
        rw [List.count_append]
        exact Nat.le_add_left _ _

end Effect.Develops

-----------------------------------------------------------------------------------------
-- Soundness
-----------------------------------------------------------------------------------------

/-- (Sound allowed machine held) says that no cell has two owners in a machine and among some
handles in use, that all handles are on cells of the heap, and that objects have members of
allowed numbers.
-/
structure Machine.Sound (allowed : Nat → Prop) (machine : Machine) (held : List Handle)
    : Prop where
  owned : machine.store.heap.Owned ((machine.handles ++ held).flatMap Handle.owns)
  present : ∀ handle ∈ machine.handles ++ held,
    handle.cell.index < machine.store.heap.cells.size
  slotted : machine.store.heap.Slotted allowed

namespace Machine.Sound

variable {allowed : Nat → Prop} {machine after : Machine} {held kept : List Handle}

/-- A machine stays sound as long as its heap stays and it has no more handles. -/
theorem rearranged (sound : machine.Sound allowed held)
    (same : after.store.heap = machine.store.heap)
    (less : ∀ handle,
      (after.handles ++ kept).count handle ≤ (machine.handles ++ held).count handle)
    : after.Sound allowed kept where
  owned := same ▸ sound.owned.fewer (count_owns_le less)
  present handle member := by
    rw [same]
    refine sound.present handle (List.count_pos_iff.mp ?_)
    exact Nat.lt_of_lt_of_le (List.count_pos_iff.mpr member) (less handle)
  slotted := same ▸ sound.slotted

/-- Fewer values may be in use. -/
theorem fewer (sound : machine.Sound allowed held)
    (less : ∀ handle, kept.count handle ≤ held.count handle)
    : machine.Sound allowed kept := by
  refine sound.rearranged rfl fun handle => ?_
  rw [List.count_append, List.count_append]
  exact Nat.add_le_add_left (less handle) _

/-- A machine stays sound when its handles stay and its heap develops. -/
theorem developed (sound : machine.Sound allowed held) (after : Machine) (made? : Option Handle)
    (handles : after.handles = machine.handles)
    (develops : Heap.Develops allowed ((machine.handles ++ held).flatMap Handle.owns)
      machine.store.heap after.store.heap made?)
    : after.Sound allowed (made?.toList ++ held) where
  owned := by
    refine develops.owned.fewer fun cell => ?_
    rw [handles]
    simp only [List.flatMap_append, List.count_append]
    omega
  present handle member := by
    rw [handles] at member
    rcases List.mem_append.mp member with old | used
    · exact Nat.lt_of_lt_of_le (sound.present handle (List.mem_append_left _ old)) develops.grows
    · rcases List.mem_append.mp used with new | old
      · exact develops.present handle (Option.mem_toList.mp new)
      · exact Nat.lt_of_lt_of_le (sound.present handle (List.mem_append_right _ old))
          develops.grows
  slotted := develops.slotted

/-- A reference to a cell of the heap may be used. -/
theorem refer {cell : CellId} (sound : machine.Sound allowed held) (base? : Option TypeId)
    (present : cell.index < machine.store.heap.cells.size)
    : machine.Sound allowed (.reference cell base? :: held) where
  owned := by
    have owned := sound.owned
    rw [List.flatMap_append] at owned ⊢
    exact owned
  present handle member := by
    rcases List.mem_append.mp member with old | used
    · exact sound.present handle (List.mem_append_left _ old)
    · rcases List.mem_cons.mp used with same | old
      · rw [same]
        exact present
      · exact sound.present handle (List.mem_append_right _ old)
  slotted := sound.slotted

/-- The parts of values are cells of the heap. -/
theorem part {whole part : CellId} (sound : machine.Sound allowed held)
    (holds : part ∈ (machine.store.heap.value whole).parts)
    : part.index < machine.store.heap.cells.size :=
  sound.owned.closed part (Heap.mem_parts holds)

end Machine.Sound

-----------------------------------------------------------------------------------------
-- What is found in a machine
-----------------------------------------------------------------------------------------

/-- The variable of a number is one of the variables. -/
theorem Bindings.mem_handles {bindings : Bindings} {index : Nat} {handle : Handle}
    (found : bindings.lookup index = some handle)
    : handle ∈ bindings.handles := by
  induction bindings with
  | nil => exact nomatch found
  | cons first rest ih =>
      rw [List.lookup_cons] at found
      split at found
      · exact List.mem_cons.mpr (.inl (Option.some.inj found).symm)
      · exact List.mem_cons_of_mem _ (ih found)

/-- The member of a number is one of the parts. -/
theorem Value.mem_parts_of_member? {value : Value} {index : Nat} {cell : CellId}
    (found : value.member? index = some cell)
    : cell ∈ value.parts := by
  have among (members : List (Nat × CellId)) (found : members.lookup index = some cell)
      : cell ∈ members.map (·.2) := by
    induction members with
    | nil => exact nomatch found
    | cons first rest ih =>
        rw [List.lookup_cons] at found
        split at found
        · exact List.mem_cons.mpr (.inl (Option.some.inj found).symm)
        · exact List.mem_cons_of_mem _ (ih found)
  cases value with
  | object members => exact among members found
  | _ => exact nomatch found

/-- What one of two searches finds is found by the first or by the second. -/
theorem Option.found_or {α : Type} {first second : Option α} {value : α}
    (found : (first <|> second) = some value)
    : first = some value ∨ second = some value := by
  cases first with
  | none => exact .inr found
  | some other => exact .inl found

/-- The variable of a number in a call is one of its handles, or a part of its object. -/
theorem Frame.lookup?_cases {frame : Frame} {heap : Heap} {index : Nat} {handle : Handle}
    (found : frame.lookup? heap index = some handle)
    : handle ∈ frame.handles ∨
        ∃ self cell, frame.self? = some self ∧ handle = .owned cell
          ∧ (heap.value self.cell).member? index = some cell := by
  unfold Frame.lookup? at found
  rcases Option.found_or found with inner | outer
  · obtain ⟨scope, among, found⟩ := List.exists_of_findSome?_eq_some inner
    refine .inl (List.mem_append_left _ (List.mem_append_left _ ?_))
    exact List.mem_flatMap.mpr ⟨scope, among, Bindings.mem_handles found⟩
  · rcases Option.found_or outer with param | member
    · exact .inl (List.mem_append_left _ (List.mem_append_right _ (Bindings.mem_handles param)))
    · obtain ⟨self, object, found⟩ := Option.bind_eq_some_iff.mp member
      obtain ⟨cell, part, same⟩ := Option.map_eq_some_iff.mp found
      exact .inr ⟨self, cell, object, same.symm, part⟩

namespace Machine.Sound

variable {allowed : Nat → Prop} {machine : Machine} {held : List Handle}

/-- The variable of a number is on a cell of the heap, by cases on where it is found. -/
theorem lookup? (sound : machine.Sound allowed held) {index : Nat} {handle : Handle}
    (found : machine.lookup? index = some handle)
    : handle.cell.index < machine.store.heap.cells.size := by
  have inside (member : handle ∈ machine.handles) :=
    sound.present handle (List.mem_append_left held member)
  unfold Machine.lookup? at found
  simp only [Machine.handles, List.mem_append] at inside
  rcases Option.found_or found with called | outside
  · obtain ⟨frame, innermost, found⟩ := Option.bind_eq_some_iff.mp called
    have among : frame ∈ machine.frames := List.mem_of_head? innermost
    rcases Frame.lookup?_cases found with member | ⟨self, cell, _, rfl, part⟩
    · exact inside (.inl (.inl (.inl (List.mem_flatMap.mpr ⟨frame, among, member⟩))))
    · exact sound.part (Value.mem_parts_of_member? part)
  · rcases Option.found_or outside with global | static
    · exact inside (.inl (.inl (.inr (Bindings.mem_handles global))))
    · exact inside (.inl (.inr (Bindings.mem_handles static)))

/-- The object that the innermost call works on is on a cell of the heap. -/
theorem self? (sound : machine.Sound allowed held) {handle : Handle}
    (found : machine.frames.head?.bind (·.self?) = some handle)
    : handle.cell.index < machine.store.heap.cells.size := by
  obtain ⟨frame, innermost, object⟩ := Option.bind_eq_some_iff.mp found
  refine sound.present handle (List.mem_append_left held ?_)
  simp only [Machine.handles, List.mem_append]
  refine .inl (.inl (.inl (List.mem_flatMap.mpr ⟨frame, List.mem_of_head? innermost, ?_⟩)))
  exact List.mem_append_right _ (Option.mem_toList.mpr object)

end Machine.Sound

end BuildScript
