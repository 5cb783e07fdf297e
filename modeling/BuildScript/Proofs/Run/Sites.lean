import BuildScript.Proofs.Workspace.Numbering

/-! Sites of declarations, and the storage that belongs to each of them while a program runs. When
all numbers of a program are distinct, a number is declared at one site, and the machine finds it
in the storage of that site or nowhere.
-/

namespace BuildScript

-----------------------------------------------------------------------------------------
-- Numbers gathered from several places
-----------------------------------------------------------------------------------------

section Gathering

variable {α : Type} [Inhabited α] {gather : α → List Nat} {elements : Array α}

/-- What an element that is not there has is what the default has. -/
theorem nodup_gather (distinct : (elements.toList.flatMap gather).Nodup)
    (none : gather default = []) (place : Nat)
    : (gather (elements.getD place default)).Nodup := by
  rw [Array.getD_eq_getD_getElem?]
  cases found : elements[place]? with
  | none =>
      rw [Option.getD_none, none]
      exact List.nodup_nil
  | some element =>
      exact (List.nodup_flatMap.mp distinct).1 element
        (Array.mem_toList_iff.mpr (Array.mem_of_getElem? found))

/-- A number is gathered from one place only. -/
theorem gather_unique (distinct : (elements.toList.flatMap gather).Nodup)
    (none : gather default = []) {first second number : Nat}
    (inFirst : number ∈ gather (elements.getD first default))
    (inSecond : number ∈ gather (elements.getD second default))
    : first = second := by
  have present {place : Nat} (member : number ∈ gather (elements.getD place default))
      : ∃ inside : place < elements.toList.length, number ∈ gather elements.toList[place] := by
    by_cases inside : place < elements.size
    · refine ⟨inside, ?_⟩
      rw [Array.getD, dif_pos inside] at member
      exact member
    · rw [Array.getD, dif_neg inside, none] at member
      cases member
  obtain ⟨insideFirst, inFirst⟩ := present inFirst
  obtain ⟨insideSecond, inSecond⟩ := present inSecond
  have apart := List.pairwise_iff_getElem.mp (List.nodup_flatMap.mp distinct).2
  rcases Nat.lt_trichotomy first second with before | same | after
  · exact absurd inSecond (apart first second insideFirst insideSecond before inFirst)
  · exact same
  · exact absurd inFirst (apart second first insideSecond insideFirst after inSecond)

/-- What is gathered from one place is among all. -/
theorem mem_gathered (none : gather default = []) (place : Nat) {number : Nat}
    (member : number ∈ gather (elements.getD place default))
    : number ∈ elements.toList.flatMap gather := by
  rw [Array.getD_eq_getD_getElem?] at member
  cases found : elements[place]? with
  | none =>
      rw [found, Option.getD_none, none] at member
      cases member
  | some element =>
      rw [found] at member
      exact List.mem_flatMap.mpr
        ⟨element, Array.mem_toList_iff.mpr (Array.mem_of_getElem? found), member⟩

end Gathering

-----------------------------------------------------------------------------------------
-- Sites
-----------------------------------------------------------------------------------------

/-- Where variables are declared: in the body of a function, among its parameters, as members of a
type, or outside of functions in the script that is run or in another one.
-/
inductive Site where
  | body (function : FunctionId)
  | params (function : FunctionId)
  | members (type : TypeId)
  | globals
  | statics
deriving DecidableEq

namespace Program

/-- The numbers of the variables that are declared at a site, in order. -/
def numbersAt (program : Program) : Site → List Nat
  | .body function => (program.registry.function function).body.declared
  | .params function => (program.registry.function function).params.map (·.index)
  | .members type => (program.registry.type type).members.map (·.index)
  | .globals => program.globalNumbers
  | .statics => program.staticNumbers

variable {program : Program}

/-- The parts of the numbers of a program have none in common. -/
theorem count_numbers_le (distinct : program.numbers.Nodup) (number : Nat)
    : program.globalNumbers.count number
        + (program.registry.functions.toList.flatMap FunctionInfo.numbers).count number
        + (program.registry.types.toList.flatMap TypeInfo.numbers).count number
        + program.staticNumbers.count number ≤ 1 := by
  have once := List.nodup_iff_count_le_one.mp distinct number
  rw [numbers, Registry.numbers, ← List.map_flatMap] at once
  simp only [List.count_append] at once
  simp only [globalNumbers, staticNumbers]
  omega

theorem functions_nodup (distinct : program.numbers.Nodup)
    : (program.registry.functions.toList.flatMap FunctionInfo.numbers).Nodup :=
  List.nodup_iff_count_le_one.mpr fun number => by
    have once := count_numbers_le distinct number
    omega

theorem types_nodup (distinct : program.numbers.Nodup)
    : (program.registry.types.toList.flatMap TypeInfo.numbers).Nodup :=
  List.nodup_iff_count_le_one.mpr fun number => by
    have once := count_numbers_le distinct number
    omega

/-- The parameters and the variables of a function have distinct numbers. -/
theorem function_nodup (distinct : program.numbers.Nodup) (function : FunctionId)
    : (program.registry.function function).numbers.Nodup :=
  nodup_gather (functions_nodup distinct) rfl function.index

/-- No number is declared twice at a site. -/
theorem numbersAt_nodup (distinct : program.numbers.Nodup) (site : Site)
    : (program.numbersAt site).Nodup := by
  cases site with
  | body function => exact (List.nodup_append.mp (function_nodup distinct function)).2.1
  | params function => exact (List.nodup_append.mp (function_nodup distinct function)).1
  | members type => exact nodup_gather (types_nodup distinct) rfl type.index
  | globals | statics =>
      refine List.nodup_iff_count_le_one.mpr fun number => ?_
      have once := count_numbers_le distinct number
      simp only [numbersAt]
      omega

/-- The numbers that are kept together with those of a site. -/
def partAt (program : Program) : Site → List Nat
  | .body _ | .params _ => program.registry.functions.toList.flatMap FunctionInfo.numbers
  | .members _ => program.registry.types.toList.flatMap TypeInfo.numbers
  | .globals => program.globalNumbers
  | .statics => program.staticNumbers

theorem mem_partAt {site : Site} {number : Nat} (declared : number ∈ program.numbersAt site)
    : number ∈ program.partAt site := by
  cases site with
  | body function =>
      exact mem_gathered rfl function.index (List.mem_append_right _ declared)
  | params function =>
      exact mem_gathered rfl function.index (List.mem_append_left _ declared)
  | members type => exact mem_gathered rfl type.index declared
  | globals | statics => exact declared

/-- A number is declared at one site at most, by cases on two sites that have it. -/
theorem site_unique (distinct : program.numbers.Nodup) {first second : Site} {number : Nat}
    (inFirst : number ∈ program.numbersAt first) (inSecond : number ∈ program.numbersAt second)
    : first = second := by
  have same {one other : FunctionId}
      (inOne : number ∈ (program.registry.function one).numbers)
      (inOther : number ∈ (program.registry.function other).numbers)
      : one = other :=
    congrArg FunctionId.mk (gather_unique (functions_nodup distinct) rfl inOne inOther)
  have apart {function : FunctionId} (inBody : number ∈ program.numbersAt (.body function))
      (inParams : number ∈ program.numbersAt (.params function))
      : False :=
    (List.nodup_append.mp (function_nodup distinct function)).2.2 number inParams number inBody rfl
  have once := count_numbers_le distinct number
  have one := List.count_pos_iff.mpr (mem_partAt inFirst)
  have two := List.count_pos_iff.mpr (mem_partAt inSecond)
  -- Where the numbers of the two sites are not kept together, one of them does not have it.
  cases first <;> cases second <;> simp only [partAt] at one two <;> try omega
  case body.body f g =>
    rw [same (List.mem_append_right _ inFirst) (List.mem_append_right _ inSecond)]
  case body.params f g =>
    obtain rfl := same (List.mem_append_right _ inFirst) (List.mem_append_left _ inSecond)
    exact absurd inSecond (apart inFirst)
  case params.body f g =>
    obtain rfl := same (List.mem_append_left _ inFirst) (List.mem_append_right _ inSecond)
    exact absurd inFirst (apart inSecond)
  case params.params f g =>
    rw [same (List.mem_append_left _ inFirst) (List.mem_append_left _ inSecond)]
  case members.members f g =>
    exact congrArg (fun index => Site.members ⟨index⟩)
      (gather_unique (types_nodup distinct) rfl inFirst inSecond)
  case globals.globals => rfl
  case statics.statics => rfl

end Program

-----------------------------------------------------------------------------------------
-- Storage
-----------------------------------------------------------------------------------------

namespace Machine

/-- The members of the object that the innermost call works on, if it works on one. -/
def selfMembers (machine : Machine) : Bindings :=
  (machine.frames.head?.bind (·.self?)).elim [] fun self =>
    ((machine.store.heap.value self.cell).members?.getD []).map fun member =>
      (member.1, .owned member.2)

/-- The places in which variables are looked up: the scopes of the innermost call, its parameters,
the members of the object that it works on, and the variables outside of functions.
-/
def places (machine : Machine) : List Bindings :=
  (machine.frames.head?.elim [] fun frame => frame.scopes ++ [frame.params])
    ++ [machine.selfMembers, machine.globals, machine.statics]

/-- The storage that belongs to a site: for variables in the body of a function, the scopes of the
innermost call if it is a call of the function, and so on.
-/
def storage (machine : Machine) : Site → Bindings
  | .body function =>
    (machine.frames.head?.filter (·.function = function)).elim [] fun frame => frame.scopes.flatten
  | .params function => (machine.frames.head?.filter (·.function = function)).elim [] (·.params)
  | .members _ => machine.selfMembers
  | .globals => machine.globals
  | .statics => machine.statics

theorem lookup_selfMembers (machine : Machine) (index : Nat)
    : machine.selfMembers.lookup index =
        (machine.frames.head?.bind (·.self?)).bind fun self =>
          ((machine.store.heap.value self.cell).member? index).map .owned := by
  have converted (members : List (Nat × CellId))
      : (members.map fun member => (member.1, Handle.owned member.2)).lookup index =
          (members.lookup index).map .owned := by
    induction members with
    | nil => rfl
    | cons first rest ih =>
        rw [List.map_cons, List.lookup_cons, List.lookup_cons, ih]
        cases index == first.1 <;> rfl
  unfold selfMembers
  cases machine.frames.head?.bind (·.self?) with
  | none => rfl
  | some self =>
      simp only [Option.elim_some, Option.bind_some, Value.member?]
      cases (machine.store.heap.value self.cell).members? with
      | none => rfl
      | some members => exact converted members

/-- A variable is looked up in all places in order. -/
theorem lookup?_eq (machine : Machine) (index : Nat)
    : machine.lookup? index = machine.places.findSome? (List.lookup index) := by
  have first (place : Bindings) (others : List Bindings)
      : (place :: others).findSome? (List.lookup index) =
          (place.lookup index).or (others.findSome? (List.lookup index)) := by
    rw [List.findSome?_cons]
    cases place.lookup index <;> rfl
  rw [places, List.findSome?_append, first, first, first, List.findSome?_nil, Option.or_none,
    lookup_selfMembers, lookup?]
  cases machine.frames.head? with
  | none =>
      simp only [Option.elim_none, Option.bind_none, List.findSome?_nil, Option.none_or,
        Option.orElse_eq_orElse, Option.orElse_eq_or]
  | some frame =>
      simp only [Option.elim_some, Option.bind_some, Frame.lookup?, List.findSome?_append, first,
        List.findSome?_nil, Option.or_none, Option.or_assoc, Option.orElse_eq_orElse,
        Option.orElse_eq_or]

/-- A number is found in places that bind it at most once when one of them binds it, by induction
over the places.
-/
theorem findSome?_of_mem {places : List Bindings} {index : Nat} {handle : Handle}
    (apart : places.Pairwise fun first second =>
      first.lookup index = none ∨ second.lookup index = none)
    {place : Bindings} (among : place ∈ places) (bound : place.lookup index = some handle)
    : places.findSome? (List.lookup index) = some handle := by
  induction places with
  | nil => cases among
  | cons first rest ih =>
      obtain ⟨alone, apart⟩ := List.pairwise_cons.mp apart
      rcases List.mem_cons.mp among with rfl | later
      · rw [List.findSome?_cons, bound]
      · have absent : first.lookup index = none :=
          (alone place later).resolve_right (by rw [bound]; exact Option.some_ne_none _)
        rw [List.findSome?_cons, absent]
        exact ih apart later

/-- No two places bind a number of which at most one does, by induction over the places. -/
theorem countP_lookup_le_one {places : List Bindings} {index : Nat}
    (apart : places.Pairwise fun first second =>
      first.lookup index = none ∨ second.lookup index = none)
    : places.countP (fun place => (place.lookup index).isSome) ≤ 1 := by
  induction places with
  | nil => exact Nat.zero_le 1
  | cons first rest ih =>
      obtain ⟨alone, apart⟩ := List.pairwise_cons.mp apart
      rw [List.countP_cons]
      cases bound : first.lookup index with
      | none => exact ih apart
      | some handle =>
          have unbound : rest.countP (fun place => (place.lookup index).isSome) = 0 := by
            refine List.countP_eq_zero.mpr fun place among => ?_
            have absent := (alone place among).resolve_left
              (by rw [bound]; exact Option.some_ne_none _)
            rw [absent]
            exact Bool.false_ne_true
          rw [unbound]
          exact Nat.le_refl 1

/-- A number that places bind at most once is found in whatever order they are searched. -/
theorem findSome?_perm {places order : List Bindings} {index : Nat}
    (apart : places.Pairwise fun first second =>
      first.lookup index = none ∨ second.lookup index = none)
    (perm : order.Perm places)
    : order.findSome? (List.lookup index) = places.findSome? (List.lookup index) := by
  have apartInOrder := (perm.pairwise_iff fun {_ _} either => Or.symm either).mpr apart
  refine Option.ext fun handle => ⟨fun found => ?_, fun found => ?_⟩
  · obtain ⟨place, among, bound⟩ := List.exists_of_findSome?_eq_some found
    exact findSome?_of_mem apart (perm.mem_iff.mp among) bound
  · obtain ⟨place, among, bound⟩ := List.exists_of_findSome?_eq_some found
    exact findSome?_of_mem apartInOrder (perm.mem_iff.mpr among) bound

end Machine

-----------------------------------------------------------------------------------------
-- Machines that have variables in their places
-----------------------------------------------------------------------------------------

/-- (Fits program frame) says that a call has parameters of its function only, and that each of its
scopes has variables of the body of the function which no other one has.
-/
structure Frame.Shape.Fits (program : Program) (frame : Frame.Shape) : Prop where
  params : ∀ index ∈ frame.params, index ∈ program.numbersAt (.params frame.function)
  scopes : ∀ scope ∈ frame.scopes, ∀ index ∈ scope,
    index ∈ program.numbersAt (.body frame.function)
  apart : frame.scopes.Pairwise List.Disjoint

/-- (Fits program shape) says that all variables of a machine are those of the sites that they are
kept for.
-/
structure Machine.Shape.Fits (program : Program) (shape : Machine.Shape) : Prop where
  frames : ∀ frame ∈ shape.frames, frame.Fits program
  globals : ∀ index ∈ shape.globals, index ∈ program.numbersAt .globals
  statics : ∀ index ∈ shape.statics, index ∈ program.numbersAt .statics

/-- (Fits program machine) says so of a machine, and that the object which the innermost call
works on has members of types only.
-/
structure Machine.Fits (program : Program) (machine : Machine) : Prop where
  shape : machine.shape.Fits program
  members : ∀ index ∈ machine.selfMembers.indices, program.IsMember index

theorem Bindings.mem_indices {bindings : Bindings} {index : Nat} {handle : Handle}
    (bound : bindings.lookup index = some handle)
    : index ∈ bindings.indices :=
  List.mem_map_of_mem (mem_of_lookup bound)

/-- One of two places does not bind a number that they have not in common. -/
theorem Bindings.none_or {first second : Bindings} {index : Nat}
    (apart : index ∈ first.indices → index ∉ second.indices)
    : first.lookup index = none ∨ second.lookup index = none := by
  cases inFirst : first.lookup index with
  | none => exact .inl rfl
  | some one =>
      cases inSecond : second.lookup index with
      | none => exact .inr rfl
      | some two => exact absurd (mem_indices inSecond) (apart (mem_indices inFirst))

/-- A number is looked up in bindings that are put together as in one after the other, by
induction over them.
-/
theorem Bindings.lookup_flatten (places : List Bindings) (index : Nat)
    : List.lookup index places.flatten = places.findSome? (List.lookup index) := by
  induction places with
  | nil => rfl
  | cons first rest ih =>
      rw [List.flatten_cons, List.lookup_append, ih, List.findSome?_cons]
      cases first.lookup index <;> rfl

namespace Machine.Fits

variable {program : Program} {machine : Machine} {index : Nat}

/-- The innermost call has its own parameters and variables. -/
theorem frame (fits : machine.Fits program) {frame : Frame}
    (called : machine.frames.head? = some frame)
    : frame.shape.Fits program :=
  fits.shape.frames _ (List.mem_map_of_mem (List.mem_of_head? called))

/-- At most one place binds a number, by cases on the places. -/
theorem apart (fits : machine.Fits program) (distinct : program.numbers.Nodup)
    : machine.places.Pairwise fun first second =>
        first.lookup index = none ∨ second.lookup index = none := by
  have different {one other : Site} (ne : one ≠ other) {first second : Bindings}
      (inFirst : index ∈ first.indices → index ∈ program.numbersAt one)
      (inSecond : index ∈ second.indices → index ∈ program.numbersAt other)
      : first.lookup index = none ∨ second.lookup index = none :=
    Bindings.none_or fun one two =>
      ne (Program.site_unique distinct (inFirst one) (inSecond two))
  have globals := fits.shape.globals index
  have statics := fits.shape.statics index
  have beside {site : Site} (outside : ∀ type, site ≠ .members type) {place : Bindings}
      (inPlace : index ∈ place.indices → index ∈ program.numbersAt site)
      : place.lookup index = none ∨ machine.selfMembers.lookup index = none :=
    Bindings.none_or fun one two => by
      obtain ⟨type, member, inType, same⟩ := fits.members index two
      exact outside type (Program.site_unique distinct (inPlace one)
        (List.mem_map.mpr ⟨member, inType, same⟩))
  have others : [machine.selfMembers, machine.globals, machine.statics].Pairwise
      fun first second => first.lookup index = none ∨ second.lookup index = none := by
    simp only [List.pairwise_cons, List.forall_mem_cons, List.not_mem_nil, false_implies,
      implies_true, List.Pairwise.nil, and_true]
    exact ⟨⟨(beside (by simp) globals).symm, (beside (by simp) statics).symm⟩,
      different (by simp) globals statics⟩
  rw [places]
  cases called : machine.frames.head? with
  | none => exact others
  | some frame =>
      have fitsFrame := fits.frame called
      have scope {bindings : Bindings} (among : bindings ∈ frame.scopes)
          : index ∈ bindings.indices → index ∈ program.numbersAt (.body frame.function) :=
        fitsFrame.scopes bindings.indices (List.mem_map_of_mem among) index
      have params := fitsFrame.params index
      have scopes : frame.scopes.Pairwise
          fun first second => first.lookup index = none ∨ second.lookup index = none :=
        (List.pairwise_map.mp fitsFrame.apart).imp fun disjoint =>
          Bindings.none_or fun one two => disjoint one two
      refine List.pairwise_append.mpr ⟨List.pairwise_append.mpr
        ⟨scopes, List.pairwise_singleton _ _, ?_⟩, others, ?_⟩
      · intro bindings among only inParams
        rw [List.mem_singleton.mp inParams]
        exact different (by simp) (scope among) params
      · simp only [List.forall_mem_cons, List.not_mem_nil, false_implies, implies_true, and_true]
        intro place among
        rcases List.mem_append.mp among with inScopes | inParams
        · exact ⟨beside (by simp) (scope inScopes), different (by simp) (scope inScopes) globals,
            different (by simp) (scope inScopes) statics⟩
        · rw [List.mem_singleton.mp inParams]
          exact ⟨beside (by simp) params, different (by simp) params globals,
            different (by simp) params statics⟩

/-- What a place binds is declared at a site whose storage binds it, by cases on the places. -/
theorem declared_of_place (fits : machine.Fits program) (distinct : program.numbers.Nodup)
    {place : Bindings} (among : place ∈ machine.places) {handle : Handle}
    (bound : place.lookup index = some handle)
    : ∃ site, index ∈ program.numbersAt site
        ∧ (machine.storage site).lookup index = some handle := by
  have inPlace := Bindings.mem_indices bound
  have apart : machine.places.Pairwise fun first second =>
      first.lookup index = none ∨ second.lookup index = none :=
    fits.apart distinct
  rw [places] at among apart
  rcases List.mem_append.mp among with called | outside
  · cases innermost : machine.frames.head? with
    | none =>
        rw [innermost] at called
        cases called
    | some frame =>
        rw [innermost] at called apart
        have fitsFrame := fits.frame innermost
        rcases List.mem_append.mp called with inScopes | inParams
        · refine ⟨.body frame.function, fitsFrame.scopes _ (List.mem_map_of_mem inScopes) _ inPlace,
            ?_⟩
          have scopes := (List.pairwise_append.mp (List.pairwise_append.mp apart).1).1
          simp only [storage, innermost, Option.filter_some, decide_true, if_true, Option.elim_some]
          rw [Bindings.lookup_flatten]
          exact findSome?_of_mem scopes inScopes bound
        · obtain rfl := List.mem_singleton.mp inParams
          refine ⟨.params frame.function, fitsFrame.params _ inPlace, ?_⟩
          simpa only [storage, innermost, Option.filter_some, decide_true, if_true,
            Option.elim_some] using bound
  · simp only [List.mem_cons, List.not_mem_nil, or_false] at outside
    rcases outside with rfl | rfl | rfl
    · obtain ⟨type, member, inType, same⟩ := fits.members index inPlace
      exact ⟨.members type, List.mem_map.mpr ⟨member, inType, same⟩, bound⟩
    · exact ⟨.globals, fits.shape.globals index inPlace, bound⟩
    · exact ⟨.statics, fits.shape.statics index inPlace, bound⟩

end Machine.Fits

/-- What the storage of a site binds is bound in a place, by cases on the site. -/
theorem Machine.place_of_storage {machine : Machine} {site : Site} {index : Nat} {handle : Handle}
    (bound : (machine.storage site).lookup index = some handle)
    : ∃ place ∈ machine.places, place.lookup index = some handle := by
  have inCall {frame : Frame} (innermost : machine.frames.head? = some frame) {place : Bindings}
      (among : place ∈ frame.scopes ++ [frame.params])
      : place ∈ machine.places := by
    rw [places, innermost]
    exact List.mem_append_left _ among
  cases site with
  | body function =>
      cases called : machine.frames.head?.filter (·.function = function) with
      | none =>
          rw [storage, called] at bound
          cases bound
      | some frame =>
          rw [storage, called, Option.elim_some, Bindings.lookup_flatten] at bound
          obtain ⟨scope, among, inScope⟩ := List.exists_of_findSome?_eq_some bound
          exact ⟨scope, inCall (Option.filter_eq_some_iff.mp called).1
            (List.mem_append_left _ among), inScope⟩
  | params function =>
      cases called : machine.frames.head?.filter (·.function = function) with
      | none =>
          rw [storage, called] at bound
          cases bound
      | some frame =>
          rw [storage, called] at bound
          exact ⟨frame.params, inCall (Option.filter_eq_some_iff.mp called).1
            (List.mem_append_right _ (List.mem_singleton_self _)), bound⟩
  | members type => exact ⟨machine.selfMembers, by simp [places], bound⟩
  | globals => exact ⟨machine.globals, by simp [places], bound⟩
  | statics => exact ⟨machine.statics, by simp [places], bound⟩

namespace Machine.Fits

variable {program : Program} {machine : Machine} {index : Nat}

/-- A variable is found in the storage of the site that declares it, or not at all. -/
theorem lookup?_eq_storage (fits : machine.Fits program) (distinct : program.numbers.Nodup)
    {site : Site} (declared : index ∈ program.numbersAt site)
    : machine.lookup? index = (machine.storage site).lookup index := by
  rw [lookup?_eq]
  refine Option.ext fun handle => ⟨fun found => ?_, fun bound => ?_⟩
  · obtain ⟨place, among, bound⟩ := List.exists_of_findSome?_eq_some found
    obtain ⟨other, declaredThere, stored⟩ := fits.declared_of_place distinct among bound
    rwa [Program.site_unique distinct declared declaredThere]
  · obtain ⟨place, among, bound⟩ := place_of_storage bound
    exact findSome?_of_mem (fits.apart distinct) among bound

/-- A variable that is found is declared at a site. -/
theorem declared (fits : machine.Fits program) (distinct : program.numbers.Nodup) {handle : Handle}
    (found : machine.lookup? index = some handle)
    : ∃ site, index ∈ program.numbersAt site := by
  rw [lookup?_eq] at found
  obtain ⟨place, among, bound⟩ := List.exists_of_findSome?_eq_some found
  obtain ⟨site, declared, _⟩ := fits.declared_of_place distinct among bound
  exact ⟨site, declared⟩

end Machine.Fits

end BuildScript
