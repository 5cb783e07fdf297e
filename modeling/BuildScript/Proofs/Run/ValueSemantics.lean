import BuildScript.Proofs.Accepted
import BuildScript.Proofs.Run.AcceptedFaults
import BuildScript.Proofs.Run.MomentSoundness
import BuildScript.Proofs.Run.Replicas

/-! Values stand apart from each other. At every moment of a run, the values in the machine and
those in use are trees that share no cell, so that what is written to one of them changes no
other one. Where a value is stored that belongs elsewhere, the place gets a copy of all of it, or
an alias if it takes references.

A value is never the same as one that it is a part of, and so work on a value changes nothing about
which values its parts are the same as.
-/

namespace BuildScript

-----------------------------------------------------------------------------------------
-- Values and their trees
-----------------------------------------------------------------------------------------

namespace Value

variable {same other : CellId → CellId → Bool} {a b : Value}

/-- Values that are made the same way have parts that are the same, by cases on how they are made.
-/
theorem parts_of_sameBy (equal : sameBy same a b = true)
    : List.Forall₂ (fun first second => same first second = true) a.parts b.parts := by
  unfold sameBy at equal
  split at equal
  case h_8 a b =>
    rw [Bool.and_eq_true, beq_iff_eq, List.all_eq_true] at equal
    exact List.forall₂_iff_zip.mpr ⟨equal.1, fun among => equal.2 _ among⟩
  case h_10 a b => exact .cons equal .nil
  case h_13 a b =>
    rw [Bool.and_eq_true, beq_iff_eq, List.all_eq_true] at equal
    refine List.forall₂_map_left_iff.mpr (List.forall₂_map_right_iff.mpr ?_)
    refine List.forall₂_iff_zip.mpr ⟨equal.1, fun among => ?_⟩
    exact (Bool.and_eq_true_iff.mp (equal.2 _ among)).2
  case h_14 => exact absurd equal Bool.false_ne_true
  all_goals exact .nil

/-- Values are made the same way or not whatever decides on it, if that agrees on their parts. -/
theorem sameBy_congr
    (agree : ∀ first ∈ a.parts, ∀ second ∈ b.parts, other first second = same first second)
    : sameBy other a b = sameBy same a b := by
  cases a with
  | list first =>
      cases b with
      | list second =>
          refine congrArg (first.length == second.length && ·) (Bool.eq_iff_iff.mpr ?_)
          rw [List.all_eq_true, List.all_eq_true]
          refine forall₂_congr fun pair among => ?_
          rw [agree _ (List.of_mem_zip among).1 _ (List.of_mem_zip among).2]
      | _ => rfl
  | external first? =>
      cases first? with
      | none =>
          cases b with
          | external second? => cases second? <;> rfl
          | _ => rfl
      | some first =>
          cases b with
          | external second? =>
              cases second? with
              | none => rfl
              | some second =>
                  exact agree first (List.mem_singleton_self _) second (List.mem_singleton_self _)
          | _ => rfl
  | object first =>
      cases b with
      | object second =>
          refine congrArg (first.length == second.length && ·) (Bool.eq_iff_iff.mpr ?_)
          rw [List.all_eq_true, List.all_eq_true]
          refine forall₂_congr fun pair among => ?_
          rw [agree _ (List.mem_map_of_mem (List.of_mem_zip among).1) _
            (List.mem_map_of_mem (List.of_mem_zip among).2)]
      | _ => rfl
  | _ => cases b <;> rfl

end Value

namespace Heap

variable {heap before after : Heap} {roots : List CellId} {a b : CellId}

/-- (Within heap inner outer) says that a cell is another one or a part of it, however deep. -/
def Within (heap : Heap) : CellId → CellId → Prop := Relation.ReflTransGen heap.PartOf

/-- (SameTree before after cell) says that the value in a cell is the same in two heaps, with all
its parts.
-/
def SameTree (before after : Heap) (cell : CellId) : Prop :=
  ∀ inner, before.Within inner cell → after.read inner = before.read inner

/-- (Separate heap owners) says that every cell of a heap has at most one owner or is part of at
most one value, that no value is a part of itself, that a cell which is within two others makes
one of them a part of the other, and that owned cells are within nothing else.
-/
structure Separate (heap : Heap) (owners : List CellId) : Prop where
  once : (owners ++ heap.parts).Nodup
  founded : WellFounded heap.PartOf
  apart : ∀ inner first second, heap.Within inner first → heap.Within inner second →
    heap.Within first second ∨ heap.Within second first
  owned : ∀ owner ∈ owners, ∀ outer, heap.Within owner outer → outer = owner

theorem PartOf.present {part whole : CellId} (held : heap.PartOf part whole)
    : whole.index < heap.cells.size := by
  refine Nat.lt_of_not_le fun beyond => ?_
  rw [PartOf, value, read_beyond beyond] at held
  exact absurd held List.not_mem_nil

/-- A cell is a part of one value only: were it a part of two, it would remain one when the first
is written over.
-/
theorem Owned.rightUnique (owned : heap.Owned roots) : Relator.RightUnique heap.PartOf := by
  intro part first second inFirst inSecond
  by_contra different
  have exchanged := count_parts_write (PartOf.present inFirst) .void part
  have within := count_value_le (heap.write first .void) second part
  rw [value, read_write_of_ne (Ne.symm different)] at within
  have counted := owned.counted part
  have twice := List.count_pos_iff.mpr inFirst
  have again : 0 < ((heap.read second).value.parts).count part := List.count_pos_iff.mpr inSecond
  have empty : Value.void.parts = [] := rfl
  rw [empty, List.count_nil] at exchanged
  split at counted <;> omega

/-- The values of an owned heap stand apart. -/
theorem Owned.separate (owned : heap.Owned roots) : heap.Separate roots where
  once := List.nodup_iff_count_le_one.mpr fun cell => by
    have counted := owned.counted cell
    rw [List.count_append]
    split at counted <;> omega
  founded := owned.founded
  apart _ _ _ first second :=
    Relation.ReflTransGen.total_of_right_unique owned.rightUnique first second
  owned owner root outer within := by
    rcases Relation.ReflTransGen.cases_head within with same | ⟨whole, part, _⟩
    · exact same.symm
    · exact absurd (mem_parts part) (owned.free root)

-----------------------------------------------------------------------------------------
-- Writing
-----------------------------------------------------------------------------------------

/-- What is within a cell of a closed heap is a cell of it. -/
theorem Within.present (closed : heap.Closed) {inner outer : CellId}
    (within : heap.Within inner outer) (present : outer.index < heap.cells.size)
    : inner.index < heap.cells.size := by
  rcases Relation.ReflTransGen.cases_head within with same | ⟨whole, part, _⟩
  · exact same ▸ present
  · exact closed inner (mem_parts part)

/-- Writing to a cell changes no value that the cell is not within. -/
theorem sameTree_write {target cell : CellId} (value : Value)
    (outside : ¬heap.Within target cell)
    : heap.SameTree (heap.write target value) cell := by
  intro inner within
  refine read_write_of_ne (fun same => outside ?_) value
  exact same ▸ within

/-- Work on a heap changes no value that none of the written cells is within. -/
theorem Works.sameTree {allowed : Nat → Prop} {written made : List CellId}
    (works : Works allowed written heap after made) (closed : heap.Closed) {cell : CellId}
    (present : cell.index < heap.cells.size)
    (outside : ∀ target ∈ written, ¬heap.Within target cell)
    : heap.SameTree after cell :=
  fun inner within => works.kept inner (within.present closed present) fun target =>
    outside inner target within

/-- An operation changes no value that the one it works on is not within, whether it fails or not.
-/
theorem Owned.sameTree_operation {store : Store} (owned : store.heap.Owned roots)
    (operation : Operation) (self? : Option Handle) (operands : List Handle) (result : TypeId)
    (environment : Environment)
    (inside : ∀ self ∈ self?, self.cell.index < store.heap.cells.size) {cell : CellId}
    (present : cell.index < store.heap.cells.size)
    (outside : ∀ self ∈ self?, ¬store.heap.Within self.cell cell)
    : store.heap.SameTree
        (operation.perform self? operands result environment store).2.heap cell := by
  cases self? with
  | some self =>
      obtain ⟨made, works⟩ := operation.works self operands result environment store
        owned.closed (inside self rfl)
      exact works.sameTree owned.closed present fun target member =>
        List.mem_singleton.mp member ▸ outside self rfl
  | none =>
      -- The void value that the operation works on instead is in a new cell.
      rw [Operation.perform_none]
      have making : Makes (fun _ => True) (Heap.new environment.builtins.void .void) fun cell =>
          [cell] :=
        .new rfl rfl
      have new := making store.heap
      have fresh := new.new _ (List.mem_singleton.mpr rfl)
      have closed := new.closed owned.closed
      obtain ⟨made, works⟩ := operation.works (.owned _) operands result environment
        ⟨_, store.system⟩ closed fresh.2
      intro inner within
      have old := within.present owned.closed present
      have kept := works.kept inner (Nat.lt_of_lt_of_le old new.grows) fun member => by
        rw [List.mem_singleton.mp member] at old
        exact Nat.not_lt.mpr fresh.1 old
      exact kept.trans (new.kept inner old List.not_mem_nil)

-----------------------------------------------------------------------------------------
-- Values that are the same
-----------------------------------------------------------------------------------------

/-- A cell that is the same as another one down to some depth has the same type, and parts that are
the same as its parts.
-/
theorem parts_of_sameWithin {depth : Nat} (same : heap.sameWithin (depth + 1) a b = true)
    : List.Forall₂ (fun first second => heap.sameWithin depth first second = true)
        (heap.value a).parts (heap.value b).parts :=
  Value.parts_of_sameBy (Bool.and_eq_true_iff.mp same).2

theorem SameTree.part (stays : before.SameTree after a) {part : CellId}
    (held : before.PartOf part a)
    : before.SameTree after part :=
  fun inner within => stays inner (within.tail held)

/-- Values that stay as they are stay the same as each other or different, by induction over the
depth.
-/
theorem SameTree.sameWithin {depth : Nat} (first : before.SameTree after a)
    (second : before.SameTree after b)
    : after.sameWithin depth a b = before.sameWithin depth a b := by
  induction depth generalizing a b with
  | zero => rfl
  | succ depth ih =>
      unfold Heap.sameWithin
      simp only [first a .refl, second b .refl]
      exact congrArg _ (Value.sameBy_congr fun part held part' held' =>
        ih (first.part held) (second.part held'))

/-- How deep two cells are compared does not matter beyond the number of all cells. -/
theorem Tidy.same_eq (tidy : heap.Tidy) {depth : Nat} (present : a.index < heap.cells.size)
    (deep : heap.cells.size ≤ depth)
    : heap.same a b = heap.sameWithin depth a b := by
  have least := tidy.shallow present
  have mirrors := Mirrors.refl heap
  exact (mirrors.sameWithin least (Nat.le_succ _) b).trans (mirrors.sameWithin least deep b).symm

namespace Shallow

variable {depth : Nat}

/-- What is within a cell is no deeper, by induction over the way to it. -/
theorem within {inner outer : CellId} (shallow : heap.Shallow depth outer)
    (within : heap.Within inner outer)
    : heap.Shallow depth inner := by
  induction within using Relation.ReflTransGen.head_induction_on with
  | refl => exact shallow
  | head held _ ih =>
      cases depth with
      | zero => exact ih.elim
      | succ depth => exact (ih.2 _ held).deeper

/-- Cells that are the same are as deep, by induction over the depth. -/
theorem same {more : Nat} (shallow : heap.Shallow depth a) (closed : heap.Closed)
    (present : b.index < heap.cells.size) (same : heap.sameWithin more a b = true)
    : heap.Shallow depth b := by
  induction depth generalizing a b more with
  | zero => exact shallow.elim
  | succ depth ih =>
      cases more with
      | zero => exact absurd same Bool.false_ne_true
      | succ more =>
          refine ⟨present, fun part held => ?_⟩
          obtain ⟨lengths, each⟩ := List.forall₂_iff_get.mp (parts_of_sameWithin same)
          obtain ⟨⟨place, inside⟩, rfl⟩ := List.mem_iff_get.mp held
          have inside' : place < (heap.value a).parts.length := lengths ▸ inside
          exact ih (shallow.2 _ (List.get_mem _ ⟨place, inside'⟩)) (closed _ (mem_parts held))
            (each place inside' inside)

end Shallow

/-- A part of a value is not the same as anything that the value is within, since it is less deep
than that.
-/
theorem Tidy.same_part (tidy : heap.Tidy) {part whole : CellId} (held : heap.PartOf part whole)
    (inside : heap.Within whole b) (present : b.index < heap.cells.size)
    : heap.same part b = false := by
  refine Bool.eq_false_iff.mpr fun same => ?_
  have endless (depth : Nat) : ¬heap.Shallow depth whole := by
    induction depth with
    | zero => exact id
    | succ depth ih =>
        intro shallow
        exact ih (((shallow.2 part held).same tidy.closed present same).within inside)
  exact endless _ (tidy.shallow held.present)

/-- Work on a value that parts belong to before and after does not change what they are the same
as.
-/
theorem Works.same {allowed : Nat → Prop} {made : List CellId} {part whole : CellId}
    (works : Works allowed [whole] before after made) (tidy : before.Tidy)
    (held : before.PartOf part whole) (still : after.PartOf part whole)
    (present : b.index < before.cells.size)
    : after.same part b = before.same part b := by
  obtain ⟨roots, owned⟩ := tidy
  have tidy : before.Tidy := ⟨roots, owned⟩
  have tidied : after.Tidy := ⟨_, works.owned owned⟩
  have later {cell : CellId} (inside : cell.index < before.cells.size)
      : cell.index < after.cells.size :=
    Nat.lt_of_lt_of_le inside works.grows
  have acyclic {cell : CellId} (circle : Relation.TransGen before.PartOf cell cell) : False :=
    owned.founded.transGen.asymmetric _ _ circle circle
  by_cases inside : before.Within whole b
  · -- The way from the value to what it is within is left as it is.
    have within : after.Within whole b := by
      clear present
      induction inside with
      | refl => exact .refl
      | @tail middle outer inner holds ih =>
          refine ih.tail ?_
          have other : outer ∉ [whole] := fun member => by
            obtain rfl := List.mem_singleton.mp member
            exact acyclic (.tail' inner holds)
          rw [PartOf, value, works.kept outer holds.present other]
          exact holds
    rw [tidy.same_part held inside present, tidied.same_part still within (later present)]
  · have unmoved : before.SameTree after part := by
      refine works.sameTree owned.closed (owned.closed part (mem_parts held))
        fun target member => ?_
      rw [List.mem_singleton.mp member]
      exact fun within => acyclic (.tail' within held)
    have stays : before.SameTree after b :=
      works.sameTree owned.closed present fun target member =>
        List.mem_singleton.mp member ▸ inside
    have inner := owned.closed part (mem_parts held)
    rw [tidied.same_eq (later inner) (Nat.le_refl _), tidy.same_eq inner works.grows,
      unmoved.sameWithin stays]

end Heap

-----------------------------------------------------------------------------------------
-- What is stored
-----------------------------------------------------------------------------------------

/-- (Stored byReference before after value stored) says what is stored of a value in a place: an
alias where a reference goes, and otherwise a value of its own. That is the value itself if it is
owned, and a copy of all that it refers to if it is not.
-/
inductive Stored (byReference : Bool) (before after : Heap) : Handle → Handle → Prop where
  | refer (value : Handle) (refers : byReference = true)
      : Stored byReference before after value value.toReference
  | owner (cell : CellId) (owns : byReference = false)
      : Stored byReference before after (.owned cell) (.owned cell)
  | copy {cell copied : CellId} (base? : Option TypeId) (owns : byReference = false)
      (replica : before.Replica after cell copied)
      : Stored byReference before after (.reference cell base?) (.owned copied)

namespace Stored

variable {byReference : Bool} {before after : Heap} {value stored : Handle}

/-- What is stored is a reference where a reference goes, and nowhere else. -/
theorem isReference (kept : Stored byReference before after value stored)
    : stored.isReference = byReference := by
  cases kept with
  | refer value refers => cases value <;> exact refers.symm
  | owner cell owns => exact owns.symm
  | copy base? owns replica => exact owns.symm

/-- A reference is stored by value as a copy of what it refers to. -/
theorem exists_replica (kept : Stored false before after value stored)
    (refers : value.isReference = true)
    : ∃ copied, stored = .owned copied ∧ before.Replica after value.cell copied := by
  cases kept with
  | refer value other => cases other
  | owner cell owns => cases refers
  | copy base? owns replica => exact ⟨_, rfl, replica⟩

/-- What is stored stays so when more cells are made. -/
theorem makes {α : Type} {action : StateM Heap α} {cells : α → List CellId}
    (kept : Stored byReference before after value stored)
    (makes : Heap.Makes (fun _ => True) action cells)
    : Stored byReference before (action after).2 value stored := by
  cases kept with
  | refer value refers => exact .refer value refers
  | owner cell owns => exact .owner cell owns
  | copy base? owns replica => exact .copy base? owns (replica.makes makes)

end Stored

/-- The machine with other cells. -/
def Machine.withHeap (machine : Machine) (heap : Heap) : Machine :=
  { machine with store := { machine.store with heap } }

namespace Run

variable {base : Heap}

/-- A value is stored in a place of a type, and whatever has been stored before stays so. -/
theorem bind_stores (setting : RunSetting) (machine : Machine) (type : TypeId) {value : Handle}
    (tidy : base.Tidy)
    (grown : base.Grown machine.store.heap) (present : value.cell.index < base.cells.size)
    : ∃ stored heap, Run.bind type value setting machine = (.ok stored, machine.withHeap heap)
        ∧ base.Grown heap
        ∧ Stored (setting.registry.type type).isReference base heap value stored
        ∧ ∀ byReference other kept, Stored byReference base machine.store.heap other kept →
          Stored byReference base heap other kept := by
  have binds : Run.bind type value setting machine =
      (if (setting.registry.type type).isReference then return value.toReference else own value :
        Run Handle) setting machine :=
    rfl
  rw [binds]
  split
  case isTrue refers => exact ⟨_, _, rfl, grown, .refer value refers, fun _ _ _ kept => kept⟩
  case isFalse owns =>
    have owns := Bool.eq_false_iff.mpr owns
    cases value with
    | owned cell => exact ⟨_, _, rfl, grown, .owner cell owns, fun _ _ _ kept => kept⟩
    | reference cell base? =>
        exact ⟨.owned (Heap.copy cell machine.store.heap).1, _, rfl, grown.makes (.copy cell),
          .copy base? owns (.copy tidy present grown), fun _ _ _ kept => kept.makes (.copy cell)⟩

/-- Every parameter of a function stores its argument as it is when all of them have been
evaluated, by induction over the parameters.
-/
theorem bindParams_stores (setting : RunSetting) (machine : Machine) (params : List Param)
    (arguments : List Handle) (tidy : base.Tidy)
    (grown : base.Grown machine.store.heap)
    (present : ∀ argument ∈ arguments, argument.cell.index < base.cells.size)
    : ∃ bindings heap,
        Run.bindParams params arguments setting machine = (.ok bindings, machine.withHeap heap)
        ∧ base.Grown heap
        ∧ List.Forall₂ (fun given binding => binding.1 = given.1.index
            ∧ Stored (setting.registry.type given.1.type).isReference base heap given.2 binding.2)
            (params.zip arguments) bindings
        ∧ ∀ byReference other kept, Stored byReference base machine.store.heap other kept →
          Stored byReference base heap other kept := by
  induction params, arguments using bindParams.induct generalizing machine with
  | case1 param params argument arguments ih =>
      obtain ⟨presentFirst, presentRest⟩ := List.forall_mem_cons.mp present
      obtain ⟨stored, middle, first, grown, kept, stays⟩ :=
        bind_stores setting machine param.type tidy grown presentFirst
      obtain ⟨bindings, after, rest, grown, others, remains⟩ :=
        ih (machine.withHeap middle) grown presentRest
      refine ⟨(param.index, stored) :: bindings, after, ?_, grown,
        .cons ⟨rfl, remains _ _ _ kept⟩ others, fun _ _ _ kept => remains _ _ _ (stays _ _ _ kept)⟩
      rw [bindParams, run_bind, first]
      simp only
      rw [run_bind, rest]
      rfl
  | case2 params arguments missing =>
      have none : params.zip arguments = [] := by
        cases params with
        | nil => rfl
        | cons param params =>
            cases arguments with
            | nil => rfl
            | cons argument arguments =>
                exact absurd rfl (missing param params argument arguments rfl)
      refine ⟨[], _, ?_, grown, none ▸ .nil, fun _ _ _ kept => kept⟩
      rw [bindParams]
      · rfl
      · exact missing

end Run

-----------------------------------------------------------------------------------------
-- Moments
-----------------------------------------------------------------------------------------

/-- All numbers that members have are numbers. -/
theorem RunSetting.admits_any (setting : RunSetting) : setting.Admits fun _ => True :=
  ⟨fun _ _ _ => trivial, fun _ => FunctionBody.setsOnly_any _⟩

theorem Program.setsOnly_any (program : Program) : program.SetsOnly fun _ => True :=
  ⟨fun decl _ => TypedExpr.maySetOnly_any decl.initial?,
    fun decl _ => TypedExpr.maySetOnly_any decl.initial?⟩

/-- The cells that are owned at a moment: by a variable, a parameter or the value of a `return`,
or by a value that is in use.
-/
def Moment.owners (moment : Moment) : List CellId :=
  (moment.machine.handles ++ (moment.activity.taken ++ moment.held)).flatMap Handle.owns

/-- The heap at a moment. -/
def Moment.heap (moment : Moment) : Heap := moment.machine.store.heap

/-- The values at a moment of a run are owned. -/
theorem Program.Reaches.owned {program : Program} {limits : Limits} {system : BuildSystem}
    {moment : Moment} (reached : program.Reaches limits system moment)
    : moment.heap.Owned moment.owners :=
  (reached.sound (RunSetting.admits_any _) program.setsOnly_any).machine.owned

/-- What a machine holds and what is in use at a moment of a run is in cells of the heap. -/
theorem Program.Reaches.present {program : Program} {limits : Limits} {system : BuildSystem}
    {moment : Moment} (reached : program.Reaches limits system moment)
    : ∀ value ∈ moment.machine.handles ++ (moment.activity.taken ++ moment.held),
        value.cell.index < moment.heap.cells.size :=
  (reached.sound (RunSetting.admits_any _) program.setsOnly_any).machine.present

/-- At every moment of a run, no cell has two owners, values that are made of others are trees of
their own, and neither a write to a cell nor an operation on a value changes another one that this
is not a part of, however deep.
-/
theorem Program.Reaches.values_apart {program : Program} {limits : Limits} {system : BuildSystem}
    {moment : Moment} (reached : program.Reaches limits system moment)
    : moment.heap.Separate moment.owners ∧
        ∀ cell : CellId, cell.index < moment.heap.cells.size →
          (∀ target value, ¬moment.heap.Within target cell →
            moment.heap.SameTree (moment.heap.write target value) cell) ∧
          ∀ (operation : Operation) (self? : Option Handle) (operands : List Handle)
            (result : TypeId),
            (∀ self ∈ self?, self.cell.index < moment.heap.cells.size
              ∧ ¬moment.heap.Within self.cell cell) →
              moment.heap.SameTree
                (operation.perform self? operands result ⟨program.registry, program.builtins⟩
                  moment.machine.store).2.heap
                cell := by
  have owned := reached.owned
  refine ⟨owned.separate, fun cell present => ⟨fun target value outside => ?_,
    fun operation self? operands result outside => ?_⟩⟩
  · exact Heap.sameTree_write value outside
  · exact owned.sameTree_operation operation self? operands result _
      (fun self given => (outside self given).1) present fun self given => (outside self given).2

namespace Program

/-- A script with two objects of one class, of which one is assigned to the other. -/
def assigningText : String :=
  "class A \x7b int m; \x7d A a; A b; list<A> all = \x7ba, b\x7d; "
    ++ "int main() \x7b a.m = 1; b = a; b.m = 2; return a.m; \x7d"

/-- The moment at the end of a run that begins in the root directory. -/
def lastMoment (program : Program) (limits : Limits) : Moment :=
  let (result, machine) := program.run limits (BuildSystem.ofRoot "/")
  ⟨none, .rest, machine, result.toOption.toList⟩

set_option maxRecDepth 100000 in
/-- The script above is accepted. Its three variables and its result are owned at the end of a run
of it, and one of the variables has been assigned to another one.
-/
theorem assigning_text
    : ((ofText? assigningText).map fun program =>
        ((program.lastMoment ⟨20, 20⟩).owners.length, program.outcome.1)) =
          some (4, some 1) := by
  decide +kernel

/-- Witness: the values that the run of a script leaves stand apart, among them two objects of
which one has been assigned to the other.
-/
theorem Reaches.values_apart_assigning
    : ∃ program, ofText? assigningText = some program ∧ program.Accepted ∧
        program.Reaches ⟨20, 20⟩ (BuildSystem.ofRoot "/") (program.lastMoment ⟨20, 20⟩) ∧
        (program.lastMoment ⟨20, 20⟩).owners.length = 4 ∧
        (program.lastMoment ⟨20, 20⟩).heap.Separate (program.lastMoment ⟨20, 20⟩).owners := by
  obtain ⟨program, compiled, counted⟩ := Option.map_eq_some_iff.mp assigning_text
  have reached : program.Reaches ⟨20, 20⟩ (BuildSystem.ofRoot "/") (program.lastMoment ⟨20, 20⟩) :=
    program.reaches_end ⟨20, 20⟩ _
  exact ⟨program, compiled, ofText?_accepted compiled, reached, congrArg Prod.fst counted,
    reached.values_apart.1⟩

end Program

end BuildScript
