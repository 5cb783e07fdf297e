import BuildScript.Proofs.Run.OperationWork
import BuildScript.Proofs.Text.Sizes

/-! How large strings and lists become. A size that is asked for is checked against the limit
before anything is made, and what takes a part of a value stays within it. What joins values,
inserts, replaces, pads with wide characters or changes the case is not checked: it goes past the
limit, though not far, since it works on values that kept it.
-/

namespace BuildScript

/-- The size of a value as a string, in bytes, or as a list, in elements. -/
def Value.extent (value : Value) : Nat := max value.asString.utf8ByteSize value.elements.length

/-- (heap.Limited limit) says that no string and no list in a heap is larger than a limit. -/
def Heap.Limited (heap : Heap) (limit : Nat) : Prop := ∀ cell, (heap.value cell).extent ≤ limit

namespace Value

theorem extent_string (text : String) : (string text).extent = text.utf8ByteSize :=
  Nat.max_zero _

theorem extent_list (elements : List CellId) : (list elements).extent = elements.length := by
  show max "".utf8ByteSize elements.length = _
  rw [String.utf8ByteSize_empty, Nat.zero_max]

theorem extent_string_le {text : String} {limit : Nat} (small : text.utf8ByteSize ≤ limit)
    : (string text).extent ≤ limit := by
  rw [extent_string]
  exact small

theorem extent_list_le {elements : List CellId} {limit : Nat} (small : elements.length ≤ limit)
    : (list elements).extent ≤ limit := by
  rw [extent_list]
  exact small

theorem size_asString_le (value : Value) : value.asString.utf8ByteSize ≤ value.extent :=
  Nat.le_max_left ..

theorem length_elements_le (value : Value) : value.elements.length ≤ value.extent :=
  Nat.le_max_right ..

end Value

-----------------------------------------------------------------------------------------
-- The heap and actions on it
-----------------------------------------------------------------------------------------

namespace Heap

variable {limit : Nat} {heap : Heap} {α β : Type}

theorem Limited.mono {larger : Nat} (within : heap.Limited limit) (le : limit ≤ larger)
    : heap.Limited larger :=
  fun cell => Nat.le_trans (within cell) le

theorem Limited.alloc {object : Object} (within : heap.Limited limit)
    (small : object.value.extent ≤ limit)
    : (heap.alloc object).2.Limited limit := by
  intro cell
  rw [value_alloc]
  split
  · exact small
  · exact within cell

theorem Limited.write {value : Value} (within : heap.Limited limit) (small : value.extent ≤ limit)
    (target : CellId)
    : (heap.write target value).Limited limit := by
  intro cell
  rw [Heap.value, read_write]
  split
  · exact small
  · exact within cell

/-- (Keeps limit action) says that an action leaves no larger string or list than a limit, if there
was none before.
-/
def Keeps (limit : Nat) (action : StateM Heap α) : Prop :=
  ∀ heap, heap.Limited limit → (action heap).2.Limited limit

theorem Keeps.new {type : TypeId} {value : Value} (small : value.extent ≤ limit)
    : Keeps limit (Heap.new type value) :=
  fun _ within => within.alloc small

theorem Keeps.mapM {change : α → StateM Heap β} (keeps : ∀ element, Keeps limit (change element))
    (elements : List α)
    : Keeps limit (elements.mapM change) := by
  induction elements with
  | nil => exact fun _ within => within
  | cons first rest ih =>
      intro heap within
      rw [List.mapM_cons]
      exact ih _ (keeps first heap within)

/-- Actions on the elements of a list give as many elements, by induction over them. -/
theorem length_mapM (change : α → StateM Heap β) (elements : List α) (heap : Heap)
    : (elements.mapM change heap).1.length = elements.length := by
  induction elements generalizing heap with
  | nil => rfl
  | cons first rest ih =>
      rw [List.mapM_cons]
      exact congrArg (· + 1) (ih _)

/-- A value is as large when its parts are replaced. -/
theorem extent_mapParts (change : CellId → StateM Heap CellId) (value : Value) (heap : Heap)
    : (value.mapParts change heap).1.extent = value.extent := by
  cases value with
  | list elements =>
      rw [Value.extent_list, ← length_mapM change elements heap]
      exact Value.extent_list _
  | external value? => cases value? <;> rfl
  | _ => rfl

theorem Keeps.mapParts {change : CellId → StateM Heap CellId}
    (keeps : ∀ cell, Keeps limit (change cell)) (value : Value)
    : Keeps limit (value.mapParts change) := by
  intro heap within
  cases value with
  | list elements => exact Keeps.mapM keeps elements heap within
  | external value? =>
      cases value? with
      | none => exact within
      | some cell => exact keeps cell heap within
  | object members =>
      have keeps (member : Nat × CellId) : Keeps limit ((member.1, ·) <$> change member.2) :=
        keeps member.2
      exact Keeps.mapM keeps members heap within
  | _ => exact within

/-- A value that is put together from replaced parts goes into a new cell. -/
theorem Limited.remake {change : CellId → StateM Heap CellId}
    (keeps : ∀ cell, Keeps limit (change cell)) {type : TypeId} {value : Value}
    (small : value.extent ≤ limit) (within : heap.Limited limit)
    : ((value.mapParts change heap).2.alloc ⟨type, (value.mapParts change heap).1⟩).2.Limited
        limit :=
  (Keeps.mapParts keeps value heap within).alloc (by rw [extent_mapParts]; exact small)

/-- Copies are as large as what they are made from, by induction over the depth. -/
theorem Keeps.copyWithin (depth : Nat) (cell : CellId)
    : Keeps limit (Heap.copyWithin depth cell) := by
  induction depth generalizing cell with
  | zero => exact .new (Nat.zero_le _)
  | succ depth ih => exact fun heap within => within.remake ih (within cell)

theorem Keeps.copyValue (value : Value) : Keeps limit (Heap.copyValue value) :=
  fun heap => Keeps.mapParts (Keeps.copyWithin heap.cells.size) value heap

theorem extent_copyValue (value : Value) (heap : Heap)
    : (Heap.copyValue value heap).1.extent = value.extent :=
  extent_mapParts _ value heap

theorem Keeps.copy (cell : CellId) : Keeps limit (Heap.copy cell) :=
  fun _ within => within.remake (Keeps.copyWithin _) (within cell)

/-- Defaults are empty, by induction over the depth. -/
theorem Keeps.defaultWithin (registry : Registry) (depth : Nat) (type : TypeId)
    : Keeps limit (Heap.defaultWithin registry depth type) := by
  induction depth generalizing type with
  | zero => exact .new (Nat.zero_le _)
  | succ depth ih =>
      rw [Heap.defaultWithin]
      split
      case h_14 =>
        intro heap within
        have keeps (member : Member)
            : Keeps limit ((member.index, ·) <$> Heap.defaultWithin registry depth
                (registry.decayed member.type)) :=
          ih _
        exact (Keeps.mapM keeps (registry.allMembers type) heap within).alloc (Nat.zero_le _)
      all_goals exact .new (Nat.zero_le _)

theorem Keeps.createDefault (registry : Registry) (type : TypeId)
    : Keeps limit (Heap.createDefault registry type) :=
  Keeps.defaultWithin registry _ _

end Heap

/-- A value that another one is copied into becomes as large as that, or an object. -/
theorem Value.extent_overwritten_le (old copied : Value)
    : (old.overwritten copied).extent ≤ copied.extent := by
  unfold overwritten
  split
  · exact Nat.zero_le _
  · exact Nat.le_refl _

namespace Effect

/-- (Exceeds limit excess effect) says that an action goes past a limit by no more than an excess:
where it comes to its end, it leaves no larger string or list, if none was larger than the limit
before.
-/
def Exceeds {α : Type} (limit excess : Nat) (effect : Effect α) : Prop :=
  ∀ environment store value after, store.heap.Limited limit →
    effect environment store = (.ok value, after) → after.heap.Limited (limit + excess)

namespace Exceeds

variable {α β : Type} {limit excess : Nat}

-----------------------------------------------------------------------------------------
-- What comes before
-----------------------------------------------------------------------------------------

/-- An action that fails leaves nothing of which there is something to say. -/
theorem throw (fault : Fault) : (MonadExcept.throw fault : Effect α).Exceeds limit excess := by
  rintro environment store value last within ⟨⟩

/-- An action may follow one that leaves the heap alone. -/
theorem after {first : Effect α} (quiet : first.Quiet) {next : α → Effect β}
    (exceeds : ∀ value, (next value).Exceeds limit excess)
    : (first >>= next).Exceeds limit excess := by
  intro environment store value last within ended
  have same := quiet environment store
  rw [run_bind] at ended
  cases outcome : first environment store with
  | mk result middle =>
      rw [outcome] at same ended
      cases result with
      | ok given => exact exceeds given environment middle value last (same ▸ within) ended
      | error fault => cases ended

/-- An action may look at the store first, in which nothing is larger than the limit. -/
theorem look {next : Store → Effect β}
    (exceeds : ∀ store, store.heap.Limited limit → (next store).Exceeds limit excess)
    : (MonadState.get >>= next).Exceeds limit excess :=
  fun environment store value last within =>
    exceeds store within environment store value last within

theorem valueOf {handle : Handle} {next : Value → Effect β}
    (exceeds : ∀ value, value.extent ≤ limit → (next value).Exceeds limit excess)
    : (Effect.valueOf handle >>= next).Exceeds limit excess :=
  fun environment store value last within =>
    exceeds _ (within handle.cell) environment store value last within

theorem valuesOf {handles : List Handle} {next : List Value → Effect β}
    (exceeds : ∀ values, values.length = handles.length → (∀ value ∈ values, value.extent ≤ limit) →
      (next values).Exceeds limit excess)
    : (Effect.valuesOf handles >>= next).Exceeds limit excess := by
  intro environment store value last within
  refine exceeds _ (List.length_map ..) ?_ environment store value last within
  intro value among
  obtain ⟨handle, -, rfl⟩ := List.mem_map.mp among
  exact within handle.cell

/-- An action may need something that can fail. -/
theorem ofExcept {ε : Type} {fault : ε → Fault} {outcome : Except ε α} {next : α → Effect β}
    (exceeds : ∀ value, outcome = .ok value → (next value).Exceeds limit excess)
    : (Effect.ofExcept fault outcome >>= next).Exceeds limit excess := by
  cases outcome with
  | ok value => exact exceeds value rfl
  | error reason => exact throw _

/-- An action may make something on the heap first that keeps the limit. -/
theorem making {action : StateM Heap α} (keeps : Heap.Keeps limit action) {next : α → Effect β}
    (exceeds : ∀ heap, (next (action heap).1).Exceeds limit excess)
    : (onHeap action >>= next).Exceeds limit excess :=
  fun environment store value last within =>
    exceeds store.heap environment ⟨(action store.heap).2, store.system⟩ value last
      (keeps store.heap within)

theorem operand {operands : List Handle} {index : Nat} {next : Handle → Effect β}
    (exceeds : ∀ handle, (next handle).Exceeds limit excess)
    : (Effect.operand operands index >>= next).Exceeds limit excess := by
  unfold Effect.operand
  split
  · exact exceeds _
  · intro environment store value last within
    exact exceeds _ environment _ value last (within.alloc (Nat.zero_le _))

theorem copies {originals : List CellId} {next : List CellId → Effect β}
    (exceeds : ∀ copied, copied.length = originals.length → (next copied).Exceeds limit excess)
    : (ListOperation.copies originals >>= next).Exceeds limit excess :=
  making (Heap.Keeps.mapM Heap.Keeps.copy originals) fun _ => exceeds _ (Heap.length_mapM ..)

theorem defaults {type : TypeId} {count : Nat} {next : List CellId → Effect β}
    (exceeds : ∀ made, made.length = count → (next made).Exceeds limit excess)
    : (ListOperation.defaults type count >>= next).Exceeds limit excess := by
  intro environment
  exact making (Heap.Keeps.mapM (Heap.Keeps.createDefault environment.registry)
    (List.replicate count _)) (fun heap => exceeds _
      ((Heap.length_mapM _ _ heap).trans List.length_replicate)) environment

-----------------------------------------------------------------------------------------
-- What comes last
-----------------------------------------------------------------------------------------

theorem new {type : TypeId} {value : Value} (small : value.extent ≤ limit + excess)
    : (Effect.new type value).Exceeds limit excess := by
  rintro environment store given last within ⟨⟩
  exact (within.mono (Nat.le_add_right ..)).alloc small

theorem void : Effect.void.Exceeds limit excess := after .read fun _ => new (Nat.zero_le _)

theorem bool (value : Bool) : (Effect.bool value).Exceeds limit excess :=
  after .read fun _ => new (Nat.zero_le _)

theorem int (value : Int64) : (Effect.int value).Exceeds limit excess :=
  after .read fun _ => new (Nat.zero_le _)

theorem place (place? : Option Nat) : (Effect.place place?).Exceeds limit excess := int _

theorem test (comparison : Comparison) (a b : Value)
    : (Effect.test comparison a b).Exceeds limit excess :=
  after .get fun _ => bool _

theorem string {text : String} (small : text.utf8ByteSize ≤ limit + excess)
    : (Effect.string text).Exceeds limit excess :=
  after .read fun _ => new (Value.extent_string_le small)

theorem newList {type : TypeId} {elements : List CellId} (small : elements.length ≤ limit + excess)
    : (ListOperation.newList type elements).Exceeds limit excess :=
  new (Value.extent_list_le small)

/-- A value is written before an action that gives what it is asked for. -/
theorem writing {self : Handle} {value : Value} (small : value.extent ≤ limit + excess)
    {next : Effect α} (exceeds : next.Exceeds (limit + excess) 0)
    : (setValue self value >>= fun _ => next).Exceeds limit excess :=
  fun environment _ given last within =>
    exceeds environment _ given last ((within.mono (Nat.le_add_right ..)).write small self.cell)

theorem change {self : Handle} {value : Value} (small : value.extent ≤ limit + excess)
    : (Effect.change self value).Exceeds limit excess := by
  refine writing small ?_
  rintro environment store given last within ⟨⟩
  exact within

theorem become {self : Handle} {value : Value} (small : value.extent ≤ limit + excess)
    : (Effect.become self value).Exceeds limit excess :=
  writing small void

theorem overwrite (target source : Handle)
    : (Effect.overwrite target source).Exceeds limit excess := by
  intro environment store given last within ended
  rw [overwrite_run] at ended
  cases ended
  refine ((Heap.Keeps.copyValue _ _ within).write ?_ target.cell).mono (Nat.le_add_right ..)
  refine Nat.le_trans (Value.extent_overwritten_le ..) ?_
  rw [Heap.extent_copyValue]
  exact within source.cell

/-- A copy of a cell keeps the limit. -/
theorem own (cell : CellId)
    : (.owned <$> onHeap (Heap.copy cell) : Effect Handle).Exceeds limit excess := by
  rintro environment store given last within ⟨⟩
  exact (Heap.Keeps.copy cell store.heap within).mono (Nat.le_add_right ..)

end Exceeds

end Effect

theorem Container.checkSize_ok {container : Container} {size : Int} {checked : Nat}
    (passed : container.checkSize size = .ok checked)
    : checked ≤ maxContainerSize ∧ checked = size.toNat := by
  unfold checkSize at passed
  split at passed
  · cases passed
  · split at passed
    · cases passed
    · next fits =>
      cases passed
      exact ⟨Nat.not_lt.mp fits, rfl⟩

/-- A text is repeated only if the outcome keeps the limit. The size is computed up to a bound that
is beyond the limit.
-/
theorem repetitions_le {text : String} {count : Int} {times : Nat}
    (counted : repetitions text count = .ok times)
    : times * text.utf8ByteSize ≤ maxContainerSize := by
  obtain ⟨size, passed, counted⟩ := Text.ok_of_bind counted
  obtain ⟨small, rfl⟩ := Container.checkSize_ok passed
  have beyond : maxContainerSize < unlimited := by decide
  cases counted
  split
  · rw [Nat.zero_mul]
    exact Nat.zero_le _
  · rw [Nat.mul_comm]
    omega

-----------------------------------------------------------------------------------------
-- Operations
-----------------------------------------------------------------------------------------

/-- How far an operation of strings may go past the limit. Joining two texts adds the bytes of the
second one, upper case may take three times the bytes, and padding may go too far by its last
character.
-/
def StringOperation.excess : StringOperation → Nat
  | append | appendTo | insert | replace | lower | makeLower => maxContainerSize
  | upper | makeUpper => 2 * maxContainerSize
  | resizeWith => 3
  | _ => 0

/-- How far an operation of lists may go past the limit, by one element or by a list of them. -/
def ListOperation.excess : ListOperation → Nat
  | pushBack | pushFront | insert | append | appendTo => 1
  | pushBackAll | pushFrontAll | insertAll | appendAll | appendAllTo => maxContainerSize
  | _ => 0

/-- How far an operation may go past the limit, if it is one of strings or lists. -/
def Operation.excess? : Operation → Option Nat
  | string operation => some operation.excess
  | list operation => some operation.excess
  | _ => none

namespace Value

variable {limit : Nat} {value? : Option Value}

/-- What stands for a value that may not be given is not larger. -/
theorem extent_given_le (small : ∀ value ∈ value?, value.extent ≤ limit)
    : (value?.getD .void).extent ≤ limit := by
  cases value? with
  | none => exact Nat.zero_le _
  | some value => exact small value rfl

theorem size_given_le (small : ∀ value ∈ value?, value.extent ≤ limit)
    : ((value?.map asString).getD "").utf8ByteSize ≤ limit := by
  cases value? with
  | none => exact Nat.zero_le _
  | some value => exact Nat.le_trans value.size_asString_le (small value rfl)

theorem extent_headD_le {values : List Value} (small : ∀ value ∈ values, value.extent ≤ limit)
    : (values.headD .void).extent ≤ limit := by
  rw [List.headD_eq_head?_getD]
  exact extent_given_le fun value among => small value (List.mem_of_head? among)

end Value

namespace Effect.Exceeds

/-- Operations of strings keep to their excess, by cases on the operation. -/
theorem stringOperation (operation : StringOperation) (self : Handle) (operands : List Handle)
    (unfilled : operation = .resize → operands.length ≤ 1)
    : (operation.perform self operands).Exceeds maxContainerSize operation.excess := by
  refine valueOf fun this limited => valuesOf fun values given small => ?_
  have text := Nat.le_trans this.size_asString_le limited
  have first : (values.headD .void).asString.utf8ByteSize ≤ maxContainerSize :=
    Nat.le_trans (Value.size_asString_le _) (Value.extent_headD_le small)
  have other (index : Nat)
      : ((values[index]?.map Value.asString).getD "").utf8ByteSize ≤ maxContainerSize :=
    Value.size_given_le fun value among => small value (List.mem_of_getElem? among)
  have joined : (this.asString ++ (values.headD .void).asString).utf8ByteSize
      ≤ maxContainerSize + maxContainerSize := by
    rw [String.utf8ByteSize_append]
    exact Nat.add_le_add text first
  have lowered : (Text.toLower this.asString).utf8ByteSize
      ≤ maxContainerSize + maxContainerSize :=
    Nat.le_trans (Text.size_toLower _) (by omega)
  have raised : (Text.toUpper this.asString).utf8ByteSize
      ≤ maxContainerSize + 2 * maxContainerSize :=
    Nat.le_trans (Text.size_toUpper _) (by omega)
  cases operation with
  | default => exact string (Nat.zero_le _)
  | copy => exact string first
  | repeated =>
      refine ofExcept fun times counted => string ?_
      rw [Text.size_repeated]
      exact repetitions_le counted
  | isEmpty | startsWith | endsWith | contains => exact bool _
  | size => exact int _
  | compare comparison => exact test comparison _ _
  | append => exact string joined
  | appendTo => exact change (Value.extent_string_le joined)
  | assign => exact operand fun source => overwrite self source
  | clear => exact become (Nat.zero_le _)
  | insert =>
      refine ofExcept fun result inserted => become (Value.extent_string_le ?_)
      rw [Text.size_insert inserted]
      exact Nat.add_le_add text (other 1)
  | eraseFrom | erase =>
      exact ofExcept fun result erased => become (Value.extent_string_le
        (Nat.le_trans (Text.size_erase erased) text))
  | replace =>
      exact ofExcept fun result replaced => become (Value.extent_string_le
        (Nat.le_trans (Text.size_replace replaced) (Nat.add_le_add text (other 2))))
  | substringFrom | substring =>
      exact ofExcept fun result taken => string (Nat.le_trans (Text.size_substring taken) text)
  | resize =>
      refine ofExcept fun size fits => ofExcept fun result resized =>
        become (Value.extent_string_le ?_)
      have none : values[1]? = none := List.getElem?_eq_none (given ▸ unfilled rfl)
      have narrow : ∀ c ∈ "\x00".toList, c.utf8Size ≤ 0 + 1 :=
        List.forall_mem_singleton.mpr (Nat.le_refl _)
      rw [none] at resized
      exact Nat.le_trans (Text.size_resize narrow resized) (Container.checkSize_ok fits).1
  | resizeWith =>
      exact ofExcept fun size fits => ofExcept fun result resized =>
        become (Value.extent_string_le (Nat.le_trans
          (Text.size_resize (fun c _ => c.utf8Size_le_four) resized)
          (Nat.add_le_add_right (Container.checkSize_ok fits).1 3)))
  | find | findFrom | findNotOf | findNotOfFrom => exact ofExcept fun _ _ => place _
  | findLast | findLastNotOf => exact place _
  | lower => exact string lowered
  | makeLower => exact become (Value.extent_string_le lowered)
  | upper => exact string raised
  | makeUpper => exact become (Value.extent_string_le raised)

theorem extreme (order : Ordering) (elements : List CellId) {limit excess : Nat}
    : (ListOperation.extreme order elements).Exceeds limit excess := by
  refine after .get fun store => ?_
  dsimp only
  split
  · exact own _
  · exact throw _

theorem present (element? : Option CellId) {limit excess : Nat}
    : (ListOperation.present element?).Exceeds limit excess := by
  unfold ListOperation.present
  split
  · rintro environment store given last within ⟨⟩
    exact within.mono (Nat.le_add_right ..)
  · exact throw _

/-- Operations of lists keep to their excess, by cases on the operation. -/
theorem listOperation (operation : ListOperation) (self : Handle) (operands : List Handle)
    (result : TypeId)
    : (operation.perform self operands result).Exceeds maxContainerSize operation.excess := by
  refine look fun store within => valuesOf fun values given small => ?_
  let elements := (store.heap.value self.cell).elements
  have whole : elements.length ≤ maxContainerSize :=
    Nat.le_trans (Value.length_elements_le _) (within self.cell)
  have first : (values.headD .void).elements.length ≤ maxContainerSize :=
    Nat.le_trans (Value.length_elements_le _) (Value.extent_headD_le small)
  have second : (values[1]?.getD Value.void).elements.length ≤ maxContainerSize :=
    Nat.le_trans (Value.length_elements_le _)
      (Value.extent_given_le fun value among => small value (List.mem_of_getElem? among))
  have grown {original added : List CellId} {count : Nat} (kept : original.length = elements.length)
      (more : added.length ≤ count)
      : (original ++ added).length ≤ maxContainerSize + count := by
    rw [List.length_append, kept]
    exact Nat.add_le_add whole more
  have shrunk {kept : List CellId} (fewer : kept.length ≤ elements.length)
      : (Value.list kept).extent ≤ maxContainerSize :=
    Value.extent_list_le (Nat.le_trans fewer whole)
  cases operation with
  | default => exact after .read fun _ => newList (Nat.zero_le _)
  | pushBack =>
      exact operand fun source => copies fun copied one =>
        become (Value.extent_list_le (grown rfl (Nat.le_of_eq one)))
  | pushBackAll =>
      exact copies fun copied many =>
        become (Value.extent_list_le (grown rfl (many ▸ first)))
  | pushFront =>
      refine operand fun source => copies fun copied one => become (Value.extent_list_le ?_)
      rw [List.perm_append_comm.length_eq]
      exact grown rfl (Nat.le_of_eq one)
  | pushFrontAll =>
      refine copies fun copied many => become (Value.extent_list_le ?_)
      rw [List.perm_append_comm.length_eq]
      exact grown rfl (many ▸ first)
  | popBack =>
      dsimp only
      split
      · exact throw _
      · exact become (shrunk (List.dropLast_sublist _).length_le)
  | popFront =>
      dsimp only
      split
      · exact throw _
      · next first rest begins =>
        have begins : elements = first :: rest := begins
        exact become (shrunk (begins ▸ Nat.le_succ _))
  | «at» => exact ofExcept fun place inside => present _
  | front | back => exact present _
  | insert =>
      refine ofExcept fun place inside => operand fun source => copies fun copied one =>
        become (Value.extent_list_le ?_)
      rw [(Sequence.insertAt_perm ..).length_eq, List.perm_append_comm.length_eq]
      exact grown rfl (Nat.le_of_eq one)
  | insertAll =>
      refine ofExcept fun place inside => copies fun copied many =>
        become (Value.extent_list_le ?_)
      rw [(Sequence.insertAt_perm ..).length_eq, List.perm_append_comm.length_eq]
      exact grown rfl (many ▸ second)
  | eraseAt | erase =>
      exact ofExcept fun place inside =>
        become (shrunk (Sequence.eraseRange_sublist ..).length_le)
  | remove | removeFirst =>
      refine operand fun unwanted => after .get fun store => writing ?_ (int _)
      exact shrunk (Sequence.removeFirst_sublist ..).length_le
  | removeLast =>
      refine operand fun unwanted => after .get fun store => writing ?_ (int _)
      exact shrunk (Sequence.removeLast_sublist ..).length_le
  | clear => exact become (Nat.zero_le _)
  | resize =>
      refine ofExcept fun size fits => defaults fun made count => become (Value.extent_list_le ?_)
      have fits := (Container.checkSize_ok fits).1
      rw [List.length_append, List.length_take, count]
      omega
  | sort =>
      exact after .get fun store => become (shrunk (Nat.le_of_eq (Sequence.sort_perm ..).length_eq))
  | reverse => exact become (shrunk (Nat.le_of_eq List.length_reverse))
  | min | max => exact extreme _ _
  | sublistFrom | sublist =>
      refine ofExcept fun place inside => copies fun copied many => newList ?_
      rw [many]
      exact Nat.le_trans ((List.take_sublist ..).trans (List.drop_sublist ..)).length_le whole
  | size => exact int _
  | isEmpty => exact bool _
  | find | findFrom =>
      exact ofExcept fun offset inside => operand fun wanted => after .get fun store => place _
  | append =>
      exact copies fun copied same => operand fun source => copies fun added one =>
        newList (grown same (Nat.le_of_eq one))
  | appendAll =>
      exact copies fun copied same => copies fun added many => newList (grown same (many ▸ first))
  | appendTo =>
      exact operand fun source => copies fun copied one =>
        change (Value.extent_list_le (grown rfl (Nat.le_of_eq one)))
  | appendAllTo =>
      exact copies fun copied many => change (Value.extent_list_le (grown rfl (many ▸ first)))
  | assign => exact operand fun source => overwrite self source

end Effect.Exceeds

open Effect in
/-- Strings and lists do not outgrow the limit by much. Where an operation of strings or lists that
is given none beyond the limit comes to its end, all strings and lists on the heap, among them what
it gives and what it works on, are within the limit or go past it by no more than the excess of the
operation. Most have none. Witness: by cases on the operation, from what happens to the size.
-/
theorem Operation.keeps_container_limit {operation : Operation} {excess : Nat}
    (excessive : operation.excess? = some excess) {operands : List Handle}
    (unfilled : operation = .string .resize → operands.length ≤ 1) {self? : Option Handle}
    {result : TypeId} {environment : Environment} {store after : Store} {given : Handle}
    (within : store.heap.Limited maxContainerSize)
    (ended : operation.perform self? operands result environment store = (.ok given, after))
    : after.heap.Limited (maxContainerSize + excess) := by
  have exceeds : (operation.perform self? operands result).Exceeds maxContainerSize excess := by
    refine Exceeds.operand fun self => ?_
    cases operation with
    | string operation =>
        cases excessive
        exact .stringOperation operation self operands fun same => unfilled (congrArg _ same)
    | list operation =>
        cases excessive
        exact .listOperation operation self operands result
    | _ => cases excessive
  exact exceeds environment store given after within ended

theorem Heap.empty_limited (limit : Nat) : Heap.empty.Limited limit := fun _ => Nat.zero_le _

/-- Witness: an empty list is given a size, and has as many elements then. -/
theorem Operation.keeps_container_limit_resize
    : ∃ environment store after given, store.heap.Limited maxContainerSize
        ∧ (Operation.list .resize).perform (some (.owned ⟨0⟩)) [.owned ⟨1⟩] ⟨0⟩ environment store
            = (.ok given, after)
        ∧ (after.heap.value ⟨0⟩).elements.length = 3
        ∧ after.heap.Limited maxContainerSize := by
  let store : Store :=
    ⟨((Heap.empty.alloc ⟨⟨0⟩, .list []⟩).2.alloc ⟨⟨0⟩, .int 3⟩).2, .ofRoot "/"⟩
  have within : store.heap.Limited maxContainerSize :=
    ((Heap.empty_limited _).alloc (Nat.zero_le _)).alloc (Nat.zero_le _)
  obtain ⟨given, after, ended, sized⟩ : ∃ given after,
      (Operation.list .resize).perform (some (.owned ⟨0⟩)) [.owned ⟨1⟩] ⟨0⟩ default store
          = (.ok given, after)
        ∧ (after.heap.value ⟨0⟩).elements.length = 3 := by
    refine ⟨_, _, rfl, ?_⟩
    decide +kernel
  have modest : (Operation.list .resize).excess? = some 0 := rfl
  have kept := Operation.keeps_container_limit modest (fun other => by cases other) within ended
  exact ⟨default, store, after, given, within, ended, sized, kept⟩

/-- The limit is not checked where texts are joined. A text of as many bytes as are allowed and one
of a single byte are joined without a fault, and the outcome goes past the limit.
-/
theorem Operation.outgrows_container_limit
    : ∃ environment store after given, store.heap.Limited maxContainerSize
        ∧ (Operation.string .append).perform (some (.owned ⟨0⟩)) [.owned ⟨1⟩] ⟨0⟩ environment store
            = (.ok given, after)
        ∧ (after.heap.value given.cell).asString.utf8ByteSize = maxContainerSize + 1 := by
  have joins (text : String) (small : text.utf8ByteSize ≤ maxContainerSize)
      : ∃ store after given, store.heap.Limited maxContainerSize
        ∧ (Operation.string .append).perform (some (.owned ⟨0⟩)) [.owned ⟨1⟩] ⟨0⟩ default store
            = (.ok given, after)
        ∧ (after.heap.value given.cell).asString = text ++ "b" :=
    ⟨⟨((Heap.empty.alloc ⟨⟨0⟩, .string text⟩).2.alloc ⟨⟨0⟩, .string "b"⟩).2, .ofRoot "/"⟩, _, _,
      ((Heap.empty_limited _).alloc (Value.extent_string_le small)).alloc (by decide +kernel),
      rfl, rfl⟩
  have longest := Text.size_repeated "a" maxContainerSize
  rw [show "a".utf8ByteSize = 1 from rfl, Nat.mul_one] at longest
  obtain ⟨store, after, given, within, ended, joined⟩ := joins _ (Nat.le_of_eq longest)
  refine ⟨default, store, after, given, within, ended, ?_⟩
  rw [joined, String.utf8ByteSize_append, longest, show "b".utf8ByteSize = 1 from rfl]

end BuildScript
