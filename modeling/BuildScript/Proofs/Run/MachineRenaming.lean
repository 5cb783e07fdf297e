import BuildScript.Proofs.Run.OperationRenaming
import BuildScript.Proofs.Run.Lawfulness
import BuildScript.Proofs.Run.Soundness

/-! Machines that run alike. A machine mirrors another one when its cells have other names, and one
of its calls may have a scope more, without variables.
-/

namespace BuildScript

variable {names : CellId → CellId}

-----------------------------------------------------------------------------------------
-- Renamed variables
-----------------------------------------------------------------------------------------

/-- (rename names bindings) is variables whose values are in renamed cells. -/
def Bindings.rename (names : CellId → CellId) (bindings : Bindings) : Bindings :=
  bindings.map fun binding => (binding.1, binding.2.rename names)

@[simp]
theorem Bindings.lookup_rename (bindings : Bindings) (index : Nat)
    : List.lookup index (bindings.rename names) =
        (List.lookup index bindings).map (Handle.rename names) :=
  BuildScript.lookup_rename (Handle.rename names) bindings index

theorem Bindings.rename_id (bindings : Bindings) : bindings.rename id = bindings := by
  simp [Bindings.rename]

/-- Names matter for the cell of a handle only. -/
theorem Handle.rename_congr {other : CellId → CellId} {handle : Handle}
    (agree : other handle.cell = names handle.cell)
    : handle.rename other = handle.rename names := by
  cases handle with
  | owned cell => exact congrArg owned agree
  | reference cell base? => exact congrArg (reference · base?) agree

theorem Bindings.rename_congr {other : CellId → CellId} {bindings : Bindings}
    (agree : ∀ handle ∈ bindings.handles, other handle.cell = names handle.cell)
    : bindings.rename other = bindings.rename names := by
  refine List.map_congr_left fun binding among => ?_
  rw [Handle.rename_congr (agree binding.2 (List.mem_map_of_mem among))]

theorem Bindings.set_rename (bindings : Bindings) (index : Nat) (handle : Handle)
    : (bindings.rename names).set index (handle.rename names) =
        (bindings.set index handle).rename names := by
  simp only [Bindings.set, Bindings.rename, List.map_cons, List.filter_map]
  rfl

/-- (rename names frame) is a call whose variables and object are in renamed cells. -/
def Frame.rename (names : CellId → CellId) (frame : Frame) : Frame :=
  ⟨frame.function, frame.scopes.map (Bindings.rename names), frame.params.rename names,
    frame.self?.map (Handle.rename names)⟩

theorem Frame.rename_id (frame : Frame) : frame.rename id = frame := by
  have scopes : Bindings.rename id = id := funext Bindings.rename_id
  have handles : Handle.rename id = id := funext Handle.rename_id
  simp [Frame.rename, scopes, handles, Bindings.rename_id]

theorem Frame.rename_congr {other : CellId → CellId} {frame : Frame}
    (agree : ∀ handle ∈ frame.handles, other handle.cell = names handle.cell)
    : frame.rename other = frame.rename names := by
  simp only [Frame.handles, List.mem_append, List.mem_flatMap, Option.mem_toList] at agree
  have scopes : frame.scopes.map (Bindings.rename other) =
      frame.scopes.map (Bindings.rename names) :=
    List.map_congr_left fun scope among => Bindings.rename_congr fun handle held =>
      agree handle (.inl (.inl ⟨scope, among, held⟩))
  have params : frame.params.rename other = frame.params.rename names :=
    Bindings.rename_congr fun handle held => agree handle (.inl (.inr held))
  have self : frame.self?.map (Handle.rename other) = frame.self?.map (Handle.rename names) :=
    Option.map_congr fun handle held => Handle.rename_congr (agree handle (.inr held))
  rw [Frame.rename, Frame.rename, scopes, params, self]

/-- What is found in the innermost of some scopes is found there in renamed ones. -/
theorem findSome?_rename (scopes : List Bindings) (index : Nat)
    : (scopes.map (Bindings.rename names)).findSome? (List.lookup index) =
        (scopes.findSome? (List.lookup index)).map (Handle.rename names) := by
  induction scopes with
  | nil => rfl
  | cons scope rest ih =>
      rw [List.map_cons, List.findSome?_cons, List.findSome?_cons, Bindings.lookup_rename]
      cases List.lookup index scope with
      | none => exact ih
      | some handle => rfl

/-- A variable of a call is found in a mirrored heap under the new name of its cell. -/
theorem Frame.lookup?_rename {heap twin : Heap} (mirrors : heap.Mirrors names twin) (frame : Frame)
    (index : Nat)
    : (frame.rename names).lookup? twin index =
        (frame.lookup? heap index).map (Handle.rename names) := by
  obtain ⟨function, scopes, params, self?⟩ := frame
  have member : ((self?.map (Handle.rename names)).bind fun self =>
      ((twin.value self.cell).member? index).map Handle.owned) =
        (self?.bind fun self => ((heap.value self.cell).member? index).map Handle.owned).map
          (Handle.rename names) := by
    cases self? with
    | none => rfl
    | some self =>
        simp only [Option.map_some, Option.bind_some, Handle.cell_rename, mirrors.value,
          Value.member?_rename, Option.map_map]
        rfl
  simp only [Frame.lookup?, Frame.rename, findSome?_rename, Bindings.lookup_rename, member]
  cases scopes.findSome? (List.lookup index) with
  | some handle => rfl
  | none => cases List.lookup index params <;> rfl

theorem Frame.addVariable_rename (frame : Frame) (index : Nat) (handle : Handle)
    : (frame.rename names).addVariable index (handle.rename names) =
        (frame.addVariable index handle).rename names := by
  obtain ⟨function, scopes, params, self?⟩ := frame
  cases scopes <;> simp [Frame.addVariable, Frame.rename, Bindings.set_rename]

-----------------------------------------------------------------------------------------
-- A scope more
-----------------------------------------------------------------------------------------

/-- Where a scope is added: how many calls are further in than the one that it is added to, and how
many scopes of that call are.
-/
structure Padding where
  calls : Nat
  scopes : Nat

namespace Padding

/-- Where the added scope is once a scope is entered. -/
def inner : Option Padding → Option Padding
  | some ⟨0, scopes⟩ => some ⟨0, scopes + 1⟩
  | padding? => padding?

/-- Where the added scope is once a call is begun. -/
def called : Option Padding → Option Padding :=
  Option.map fun padding => ⟨padding.calls + 1, padding.scopes⟩

/-- Whether the added scope is the one that variables are declared in. -/
def IsInnermost (padding? : Option Padding) : Prop := padding? = some ⟨0, 0⟩

theorem not_isInnermost_inner (padding? : Option Padding) : ¬ IsInnermost (inner padding?) := by
  intro innermost
  match padding? with
  | none => exact nomatch innermost
  | some ⟨0, scopes⟩ => exact nomatch innermost
  | some ⟨calls + 1, scopes⟩ => exact nomatch innermost

end Padding

open Padding

/-- (Padded padding? frames more) says that calls are others to one of which a scope was added,
if there is a place for it.
-/
inductive Padded : Option Padding → List Frame → List Frame → Prop where
  | same (frames : List Frame) : Padded none frames frames
  | scope (function : FunctionId) (inner outer : List Bindings) (params : Bindings)
      (self? : Option Handle) (rest : List Frame)
      : Padded (some ⟨0, inner.length⟩) (⟨function, inner ++ outer, params, self?⟩ :: rest)
          (⟨function, inner ++ [] :: outer, params, self?⟩ :: rest)
  | call {padding : Padding} {frames more : List Frame} (frame : Frame)
      (padded : Padded (some padding) frames more)
      : Padded (called (some padding)) (frame :: frames) (frame :: more)

namespace Padded

variable {padding? : Option Padding} {frames more : List Frame}

theorem eq_of_none (padded : Padded none frames more) : more = frames := by
  cases padded
  rfl

theorem length (padded : Padded padding? frames more) : more.length = frames.length := by
  induction padded with
  | same | scope => rfl
  | call frame padded ih => rw [List.length_cons, List.length_cons, ih]

/-- The innermost call works on the same object. -/
theorem self? (padded : Padded padding? frames more)
    : more.head?.bind (·.self?) = frames.head?.bind (·.self?) := by
  cases padded <;> rfl

/-- The innermost call has the same variables. -/
theorem lookup? (padded : Padded padding? frames more) (heap : Heap) (index : Nat)
    : (more.head?.bind fun frame => frame.lookup? heap index) =
        frames.head?.bind fun frame => frame.lookup? heap index := by
  cases padded with
  | same | call => rfl
  | scope function inner outer params self? rest =>
      simp only [List.head?_cons, Option.bind_some, Frame.lookup?, List.findSome?_append,
        List.findSome?_cons, List.lookup_nil]

theorem enterScope (padded : Padded padding? frames more)
    : Padded (inner padding?)
        (frames.modifyHead fun frame => { frame with scopes := [] :: frame.scopes })
        (more.modifyHead fun frame => { frame with scopes := [] :: frame.scopes }) := by
  cases padded with
  | same => exact .same _
  | scope function inner outer params self? rest =>
      exact .scope function ([] :: inner) outer params self? rest
  | call frame padded => exact .call _ padded

theorem leaveScope (padded : Padded (inner padding?) frames more)
    : Padded padding?
        (frames.modifyHead fun frame => { frame with scopes := frame.scopes.tail })
        (more.modifyHead fun frame => { frame with scopes := frame.scopes.tail }) := by
  match padding? with
  | none =>
      cases padded
      exact .same _
  | some ⟨0, scopes⟩ =>
      generalize place : inner (some ⟨0, scopes⟩) = place? at padded
      cases padded with
      | same => exact nomatch place
      | call => exact nomatch place
      | scope function inner outer params self? rest =>
          cases inner with
          | nil => exact nomatch place
          | cons scope inner =>
              cases place
              exact .scope function inner outer params self? rest
  | some ⟨calls + 1, scopes⟩ =>
      generalize place : inner (some ⟨calls + 1, scopes⟩) = place? at padded
      cases padded with
      | same => exact nomatch place
      | scope => exact nomatch place
      | call frame padded =>
          have left := padded.call { frame with scopes := frame.scopes.tail }
          rwa [← place] at left

theorem enterCall (padded : Padded padding? frames more) (frame : Frame)
    : Padded (called padding?) (frame :: frames) (frame :: more) := by
  cases padding? with
  | none =>
      cases padded
      exact .same _
  | some padding => exact .call frame padded

theorem leaveCall (padded : Padded (called padding?) frames more)
    : Padded padding? frames.tail more.tail := by
  cases padding? with
  | none =>
      cases padded
      exact .same _
  | some padding =>
      generalize place : called (some padding) = place? at padded
      cases padded with
      | same => exact nomatch place
      | scope => exact nomatch place
      | @call other _ _ frame padded =>
          obtain ⟨calls, scopes⟩ := padding
          obtain ⟨calls', scopes'⟩ := other
          cases place
          exact padded

/-- A variable is declared in the same scope, unless that is the one that was added. -/
theorem addVariable (padded : Padded padding? frames more) (outer : ¬ IsInnermost padding?)
    (index : Nat) (handle : Handle)
    : Padded padding? (frames.modifyHead fun frame => frame.addVariable index handle)
        (more.modifyHead fun frame => frame.addVariable index handle) := by
  cases padded with
  | same => exact .same _
  | call frame padded => exact .call _ padded
  | scope function inner outer' params self? rest =>
      cases inner with
      | nil => exact absurd rfl outer
      | cons scope inner =>
          exact .scope function (scope.set index handle :: inner) outer' params self? rest

end Padded

-----------------------------------------------------------------------------------------
-- Mirrored machines
-----------------------------------------------------------------------------------------

/-- (Mirrors names padding? machine twin) says that a machine mirrors another one, where a scope may
have been added to one of its calls.
-/
structure Machine.Mirrors (names : CellId → CellId) (padding? : Option Padding)
    (machine twin : Machine)
    : Prop where
  store : machine.store.Mirrors names twin.store
  frames : Padded padding? (machine.frames.map (Frame.rename names)) twin.frames
  globals : twin.globals = machine.globals.rename names
  statics : twin.statics = machine.statics.rename names
  returned : twin.returned? = machine.returned?.map (Handle.rename names)
  breaking : twin.breaking = machine.breaking

namespace Machine

/-- (alloc machine object) is a machine with one cell more. -/
def alloc (machine : Machine) (object : Object) : Machine :=
  { machine with store := ⟨(machine.store.heap.alloc object).2, machine.store.system⟩ }

theorem frames_onFrame (change : Frame → Frame) (machine : Machine)
    : (machine.onFrame change).frames = machine.frames.modifyHead change := by
  unfold onFrame
  cases machine.frames <;> rfl

namespace Mirrors

variable {padding? : Option Padding} {machine twin : Machine}

theorem refl (machine : Machine) : machine.Mirrors id none machine where
  store := ⟨.refl _, rfl⟩
  frames := by
    rw [show Frame.rename id = id from funext Frame.rename_id, List.map_id]
    exact .same _
  globals := machine.globals.rename_id.symm
  statics := machine.statics.rename_id.symm
  returned := by rw [show Handle.rename id = id from funext Handle.rename_id, Option.map_id_fun, id]
  breaking := rfl

/-- A machine that mirrors another one without new names and without a scope more is the same. -/
theorem eq_of_id (mirrors : machine.Mirrors id none twin) : twin = machine := by
  have frames := mirrors.frames
  rw [show Frame.rename id = id from funext Frame.rename_id, List.map_id] at frames
  have globals := mirrors.globals.trans (Bindings.rename_id _)
  have statics := mirrors.statics.trans (Bindings.rename_id _)
  have returned := mirrors.returned
  rw [show Handle.rename id = id from funext Handle.rename_id, Option.map_id_fun, id] at returned
  have store := mirrors.store.eq_of_id
  cases machine
  cases twin
  exact (Machine.mk.injEq ..).mpr
    ⟨store, frames.eq_of_none, globals, statics, returned, mirrors.breaking⟩

theorem length (mirrors : machine.Mirrors names padding? twin)
    : twin.frames.length = machine.frames.length := by
  rw [mirrors.frames.length, List.length_map]

/-- The innermost calls work on objects that are renamed into each other. -/
theorem self? (mirrors : machine.Mirrors names padding? twin)
    : twin.frames.head?.bind (·.self?) =
        (machine.frames.head?.bind (·.self?)).map (Handle.rename names) := by
  rw [mirrors.frames.self?]
  cases machine.frames <;> rfl

/-- The variables of a number are renamed into each other. -/
theorem lookup? (mirrors : machine.Mirrors names padding? twin) (index : Nat)
    : twin.lookup? index = (machine.lookup? index).map (Handle.rename names) := by
  have innermost : (twin.frames.head?.bind fun frame => frame.lookup? twin.store.heap index) =
      (machine.frames.head?.bind fun frame => frame.lookup? machine.store.heap index).map
        (Handle.rename names) := by
    rw [mirrors.frames.lookup?]
    cases machine.frames with
    | nil => rfl
    | cons frame rest => exact frame.lookup?_rename mirrors.store.heap index
  simp only [Machine.lookup?, innermost, mirrors.globals, mirrors.statics, Bindings.lookup_rename]
  cases machine.frames.head?.bind fun frame => frame.lookup? machine.store.heap index with
  | some handle => rfl
  | none => cases List.lookup index machine.globals <;> rfl

theorem interrupted (mirrors : machine.Mirrors names padding? twin)
    : Run.interrupted twin = Run.interrupted machine := by
  rw [Run.interrupted, Run.interrupted, mirrors.returned, mirrors.breaking, Option.isSome_map]

theorem onFrame {change change' : Frame → Frame} {place? : Option Padding}
    (mirrors : machine.Mirrors names padding? twin)
    (frames : Padded place? ((machine.frames.modifyHead change).map (Frame.rename names))
      (twin.frames.modifyHead change'))
    : (machine.onFrame change).Mirrors names place? (twin.onFrame change') where
  store := mirrors.store
  frames := by rwa [frames_onFrame, frames_onFrame]
  globals := mirrors.globals
  statics := mirrors.statics
  returned := mirrors.returned
  breaking := mirrors.breaking

theorem enterScope (mirrors : machine.Mirrors names padding? twin)
    : machine.enterScope.Mirrors names (inner padding?) twin.enterScope := by
  refine mirrors.onFrame ?_
  have entered := mirrors.frames.enterScope
  cases frames : machine.frames <;> rw [frames] at entered <;> exact entered

theorem leaveScope (mirrors : machine.Mirrors names (inner padding?) twin)
    : machine.leaveScope.Mirrors names padding? twin.leaveScope := by
  refine mirrors.onFrame ?_
  have left := mirrors.frames.leaveScope
  cases frames : machine.frames with
  | nil =>
      rw [frames] at left
      exact left
  | cons frame rest =>
      rw [frames] at left
      simp only [List.map_cons, List.modifyHead_cons, Frame.rename, List.map_tail] at left ⊢
      exact left

theorem enterCall (mirrors : machine.Mirrors names padding? twin) (frame : Frame)
    : Machine.Mirrors names (called padding?) { machine with frames := frame :: machine.frames }
        { twin with frames := frame.rename names :: twin.frames } where
  store := mirrors.store
  frames := mirrors.frames.enterCall (frame.rename names)
  globals := mirrors.globals
  statics := mirrors.statics
  returned := mirrors.returned
  breaking := mirrors.breaking

theorem takeReturned (mirrors : machine.Mirrors names (called padding?) twin)
    : (Run.takeReturned machine).Mirrors names padding? (Run.takeReturned twin) where
  store := mirrors.store
  frames := by
    rw [Run.takeReturned, Run.takeReturned, List.map_tail]
    exact mirrors.frames.leaveCall
  globals := mirrors.globals
  statics := mirrors.statics
  returned := rfl
  breaking := mirrors.breaking

theorem addVariable (mirrors : machine.Mirrors names padding? twin)
    (outer : ¬ IsInnermost padding?) (index : Nat) (handle : Handle)
    : (machine.addVariable index handle).Mirrors names padding?
        (twin.addVariable index (handle.rename names)) := by
  have added := mirrors.frames.addVariable outer index (handle.rename names)
  have same := mirrors.length
  unfold Machine.addVariable
  cases frames : machine.frames with
  | nil =>
      rw [frames, List.length_nil, List.length_eq_zero_iff] at same
      have padded := mirrors.frames
      rw [frames, same] at padded
      rw [same]
      exact { mirrors with
        frames := padded, globals := by rw [mirrors.globals, Bindings.set_rename] }
  | cons frame rest =>
      cases frames' : twin.frames with
      | nil =>
          rw [frames, frames'] at same
          exact nomatch same
      | cons frame' rest' =>
          rw [frames, frames', List.map_cons, List.modifyHead_cons, List.modifyHead_cons,
            Frame.addVariable_rename] at added
          exact { mirrors with frames := added }

theorem setStatic (mirrors : machine.Mirrors names padding? twin) (index : Nat) (handle : Handle)
    : Machine.Mirrors names padding? { machine with statics := machine.statics.set index handle }
        { twin with statics := twin.statics.set index (handle.rename names) } :=
  { mirrors with statics := by rw [mirrors.statics, Bindings.set_rename] }

theorem setGlobal (mirrors : machine.Mirrors names padding? twin) (index : Nat) (handle : Handle)
    : Machine.Mirrors names padding? { machine with globals := machine.globals.set index handle }
        { twin with globals := twin.globals.set index (handle.rename names) } :=
  { mirrors with globals := by rw [mirrors.globals, Bindings.set_rename] }

theorem request (mirrors : machine.Mirrors names padding? twin) (call : BuildCall)
    : (machine.request call).Mirrors names padding? (twin.request call) where
  store := ⟨mirrors.store.heap, congrArg (·.request call) mirrors.store.system⟩
  frames := mirrors.frames
  globals := mirrors.globals
  statics := mirrors.statics
  returned := mirrors.returned
  breaking := mirrors.breaking

theorem withStore {store store' : Store} (mirrors : machine.Mirrors names padding? twin)
    (stored : store.Mirrors names store')
    : Machine.Mirrors names padding? { machine with store } { twin with store := store' } where
  store := stored
  frames := mirrors.frames
  globals := mirrors.globals
  statics := mirrors.statics
  returned := mirrors.returned
  breaking := mirrors.breaking

/-- Names matter for the cells of the handles of a machine and of what is in its heap only. -/
theorem renamed {other : CellId → CellId} {store : Store}
    (mirrors : machine.Mirrors names padding? twin)
    (agree : ∀ handle ∈ machine.handles, other handle.cell = names handle.cell)
    (stored : machine.store.Mirrors other store)
    : Machine.Mirrors other padding? machine { twin with store } := by
  simp only [Machine.handles, List.mem_append] at agree
  have frames : machine.frames.map (Frame.rename other) = machine.frames.map (Frame.rename names) :=
    List.map_congr_left fun frame among => Frame.rename_congr fun handle held =>
      agree handle (.inl (.inl (.inl (List.mem_flatMap.mpr ⟨frame, among, held⟩))))
  refine ⟨stored, frames ▸ mirrors.frames, ?_, ?_, ?_, mirrors.breaking⟩
  · exact mirrors.globals.trans (Bindings.rename_congr fun handle held =>
      agree handle (.inl (.inl (.inr held)))).symm
  · exact mirrors.statics.trans (Bindings.rename_congr fun handle held =>
      agree handle (.inl (.inr held))).symm
  · exact mirrors.returned.trans (Option.map_congr fun handle held =>
      Handle.rename_congr (agree handle (.inr (Option.mem_toList.mpr held)))).symm

/-- A cell that is made in the mirror of a sound machine only is skipped by new names. -/
theorem skip {allowed : Nat → Prop} {held : List Handle}
    (mirrors : machine.Mirrors names padding? twin) (sound : machine.Sound allowed held)
    (object : Object)
    : machine.Mirrors (Heap.skipping machine.store.heap.cells.size names) padding?
        (twin.alloc object) :=
  mirrors.renamed
    (fun handle among =>
      Heap.skipping_below (sound.present handle (List.mem_append_left held among)) names)
    ⟨mirrors.store.heap.skip sound.owned.closed object, mirrors.store.system⟩

/-- A scope that was entered in the mirror only is an added one. -/
theorem enterPadding (mirrors : machine.Mirrors names none twin) (called : machine.frames ≠ [])
    : machine.Mirrors names (some ⟨0, 0⟩) twin.enterScope := by
  have padded := mirrors.frames
  refine { mirrors with frames := ?_ }
  rw [Machine.enterScope, frames_onFrame, padded.eq_of_none]
  cases frames : machine.frames with
  | nil => exact absurd frames called
  | cons frame rest =>
      exact .scope frame.function [] (frame.rename names).scopes _ _ _

/-- The added scope is left in the mirror only. -/
theorem leavePadding (mirrors : machine.Mirrors names (some ⟨0, 0⟩) twin)
    : machine.Mirrors names none twin.leaveScope := by
  have padded := mirrors.frames
  refine { mirrors with frames := ?_ }
  rw [Machine.leaveScope, frames_onFrame]
  generalize machine.frames.map (Frame.rename names) = frames at padded ⊢
  generalize twin.frames = more at padded ⊢
  generalize place : some (Padding.mk 0 0) = place? at padded
  cases padded with
  | same | call => cases place
  | scope function inner outer params self? rest =>
      cases inner with
      | nil => exact .same _
      | cons scope inner => cases place

end Mirrors

end Machine

end BuildScript
