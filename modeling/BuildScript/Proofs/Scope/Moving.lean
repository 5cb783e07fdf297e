import BuildScript.Proofs.Scope.Nested

/-! Moving through nested scopes. Whatever is entered, left or registered, a nested table stays so,
and nothing changes outside the scope in which it is done.
-/

namespace BuildScript

namespace ScopeTable

variable {α : Type} {table after : ScopeTable α}

-----------------------------------------------------------------------------------------
-- Changes of one scope
-----------------------------------------------------------------------------------------

theorem OnlyAdds.nested {change : Scope α → Scope α} (adds : OnlyAdds change) (place : Nat)
    (nested : table.Nested)
    : (table.modifyScope place change).Nested := by
  have same := adds.links table place
  refine ⟨?_, fun other inside root => ?_, fun stands => ?_, fun {other name child} => ?_,
    fun other => ?_⟩
  · rw [size_modifyScope]
    exact nested.current
  · rw [size_modifyScope] at inside
    rw [(same other).2.1] at root
    exact nested.root other inside root
  · rw [(same _).2.1] at stands
    exact nested.earlier stands
  · rw [(same other).1, (same child).2.1, (same child).2.2]
    exact nested.child
  · rw [(same other).1]
    exact nested.names other

theorem OnlyAdds.changesWithin {change : Scope α → Scope α} (adds : OnlyAdds change) (place : Nat)
    (nested : table.Nested)
    : table.ChangesWithin (table.modifyScope place change) place := by
  have same := adds.links table place
  refine ⟨adds.nested place nested, Nat.le_of_eq (size_modifyScope place change).symm,
    fun other _ => (same other).2.1, fun other _ => (same other).2.2, fun other apart => ?_⟩
  rw [scope_modifyScope, if_neg]
  intro here
  rw [here.1] at apart
  exact apart .self

/-- Pairs of different names stay so when one of a name that is missing is added. -/
theorem nodup_concat {children : List (String × Nat)} {name : String} {child : Nat}
    (names : (children.map (·.1)).Nodup) (missing : children.lookup name = none)
    : ((children ++ [(name, child)]).map (·.1)).Nodup := by
  rw [List.map_append, List.nodup_append]
  refine ⟨names, List.nodup_singleton _, fun other among same inNew => ?_⟩
  obtain ⟨pair, inChildren, rfl⟩ := List.mem_map.mp among
  rw [List.mem_singleton.mp inNew]
  have differs := List.lookup_eq_none_iff.mp missing pair inChildren
  exact fun equal => absurd equal.symm (by simpa using differs)

-----------------------------------------------------------------------------------------
-- Named scopes
-----------------------------------------------------------------------------------------

theorem parent?_withChild (table : ScopeTable α) (name : String) (exported : Bool) (place : Nat)
    : ((table.withChild name exported).scope place).parent? =
        if place = table.scopes.size then some table.current
        else (table.scope place).parent? := by
  rw [scope_withChild]
  split
  · rfl
  · split
    · rfl
    · rfl

theorem name?_withChild (table : ScopeTable α) (name : String) (exported : Bool) (place : Nat)
    : ((table.withChild name exported).scope place).name? =
        if place = table.scopes.size then some name else (table.scope place).name? := by
  rw [scope_withChild]
  split
  · rfl
  · split
    · rfl
    · rfl

theorem lookup_withChild (inside : table.current < table.scopes.size) {name : String}
    (missing : (table.scope table.current).children.lookup name = none) (exported : Bool)
    (place : Nat) (other : String)
    : ((table.withChild name exported).scope place).children.lookup other =
        if place = table.current ∧ other = name then some table.scopes.size
        else (table.scope place).children.lookup other := by
  rw [scope_withChild]
  by_cases here : place = table.current
  · rw [here, if_neg (Nat.ne_of_lt inside), if_pos ⟨rfl, inside⟩, List.lookup_append]
    by_cases same : other = name
    · rw [same, missing, if_pos ⟨rfl, rfl⟩]
      simp
    · have apart : (other == name) = false := beq_eq_false_iff_ne.mpr same
      rw [if_neg (fun both => same both.2), List.lookup_cons, apart, List.lookup_nil,
        Option.or_none]
  · rw [if_neg (c := place = table.current ∧ other = name) fun both => here both.1]
    split
    · next new =>
        rw [scope_outside (Nat.le_of_eq new.symm)]
        rfl
    · rw [if_neg fun both => here both.1.symm]

theorem Nested.withChild (nested : table.Nested) {name : String}
    (missing : (table.scope table.current).children.lookup name = none) (exported : Bool)
    : (table.withChild name exported).Nested := by
  refine ⟨?_, fun place inside root => ?_, fun {place parent} stands => ?_,
    fun {place other child} => ?_, fun place => ?_⟩
  · rw [size_withChild]
    exact Nat.lt_succ_self _
  · rw [size_withChild] at inside
    rw [parent?_withChild] at root
    split at root
    · cases root
    · exact nested.root place (by omega) root
  · rw [parent?_withChild] at stands
    split at stands
    · next new =>
        cases stands
        rw [new]
        exact nested.current
    · exact nested.earlier stands
  · rw [lookup_withChild nested.current missing, parent?_withChild, name?_withChild]
    by_cases new : child = table.scopes.size
    · have unlinked : (table.scope place).children.lookup other ≠ some table.scopes.size :=
        fun found => Nat.lt_irrefl _ (inside_of_parent (nested.child.mp found).1)
      rw [if_pos new, if_pos new, new]
      split
      · next here => simp [here.1, here.2]
      · next elsewhere =>
          refine iff_of_false unlinked fun both => elsewhere ?_
          exact ⟨(Option.some.inj both.1).symm, (Option.some.inj both.2).symm⟩
    · rw [if_neg new, if_neg new, ← nested.child]
      split
      · next here =>
          rw [here.1, here.2, missing]
          simp [Ne.symm new]
      · exact Iff.rfl
  · rw [scope_withChild]
    split
    · exact .nil
    · split
      · next here =>
          rw [← here.1]
          exact nodup_concat (nested.names _) missing
      · exact nested.names place

theorem Nested.changesWithin_withChild (nested : table.Nested) {name : String}
    (missing : (table.scope table.current).children.lookup name = none) (exported : Bool)
    : table.ChangesWithin (table.withChild name exported) table.current := by
  refine ⟨nested.withChild missing exported, ?_, fun other inside => ?_, fun other inside => ?_,
    fun other apart => ?_⟩
  · rw [size_withChild]
    exact Nat.le_succ _
  · rw [parent?_withChild, if_neg (Nat.ne_of_lt inside)]
  · rw [name?_withChild, if_neg (Nat.ne_of_lt inside)]
  · rw [scope_withChild, if_neg, if_neg]
    · intro here
      rw [here.1] at apart
      exact apart .self
    · intro new
      refine apart (.step ?_ .self)
      rw [parent?_withChild, if_pos new]

/-- Entering a name changes nothing outside the current scope. -/
theorem Nested.changesWithin_enterNamed (nested : table.Nested) (name : String) (exported : Bool)
    : table.ChangesWithin (table.enterNamed name exported) table.current := by
  rcases enterNamed_cases table name exported with ⟨child, found, same⟩ | ⟨missing, same⟩
  · have adds := @onlyAdds_exported α exported
    have stands := (nested.child.mp found).1
    rw [same]
    refine ((adds.changesWithin child nested).setCurrent ?_).outward ?_
    · rw [size_modifyScope]
      exact inside_of_parent stands
    · refine Encloses.setCurrent (.step ?_ .self) child
      rw [(adds.links table child child).2.1]
      exact stands
  · rw [same]
    exact nested.changesWithin_withChild missing exported

theorem Nested.enterNamed (nested : table.Nested) (name : String) (exported : Bool)
    : (table.enterNamed name exported).Nested :=
  (nested.changesWithin_enterNamed name exported).nested

/-- What is entered is a child of the scope that was current. -/
theorem Nested.lookup_enterNamed (nested : table.Nested) (name : String) (exported : Bool)
    : ((table.enterNamed name exported).scope table.current).children.lookup name =
        some (table.enterNamed name exported).current := by
  rcases enterNamed_cases table name exported with ⟨child, found, same⟩ | ⟨missing, same⟩
  · rw [same]
    show ((table.modifyScope child _).scope table.current).children.lookup name = some child
    rw [((onlyAdds_exported exported).links table child _).1]
    exact found
  · rw [same, lookup_withChild nested.current missing, if_pos ⟨rfl, rfl⟩]
    rfl

/-- Paths lead to the same places when a change adds entries only, by induction over the path. -/
theorem OnlyAdds.navigate? {change : Scope α → Scope α} (adds : OnlyAdds change)
    (table : ScopeTable α) (place other : Nat) (path : List String)
    : (table.modifyScope place change).navigate? other path = table.navigate? other path := by
  induction path generalizing other with
  | nil => rfl
  | cons name rest ih =>
      show (((table.modifyScope place change).scope other).children.lookup name).bind _
        = ((table.scope other).children.lookup name).bind _
      rw [(adds.links table place other).1]
      exact congrArg _ (funext fun child => ih child)

/-- A change of a scope that adds entries only changes nothing below it. -/
theorem OnlyAdds.scopeAt? {change : Scope α → Scope α} (adds : OnlyAdds change)
    (nested : table.Nested) {place : Nat} (inside : place < table.scopes.size) (path : List String)
    : (table.modifyScope place change).scopeAt? place path =
        if path = [] then some (change (table.scope place)) else table.scopeAt? place path := by
  split
  · next none =>
      rw [none, scopeAt?_nil, scope_modifyScope, if_pos ⟨rfl, inside⟩]
  · next further =>
      rw [ScopeTable.scopeAt?, adds.navigate?]
      cases leads : table.navigate? place path with
      | none => simp [ScopeTable.scopeAt?, leads]
      | some found =>
          have apart : place ≠ found := by
            rintro rfl
            exact further (nested.eq_nil_of_navigate? leads)
          simp [ScopeTable.scopeAt?, leads, scope_modifyScope, apart]

/-- What is found below another name is as before. -/
theorem Nested.scopeAt?_enterNamed_of_ne (nested : table.Nested) (name : String) (exported : Bool)
    {other : String} (differs : other ≠ name) (rest : List String)
    : (table.enterNamed name exported).scopeAt? table.current (other :: rest) =
        table.scopeAt? table.current (other :: rest) := by
  have changes := nested.changesWithin_enterNamed name exported
  have linked := nested.lookup_enterNamed name exported
  obtain ⟨stands, named⟩ := changes.nested.child.mp linked
  rcases enterNamed_cases table name exported with ⟨child, found, same⟩ | ⟨missing, same⟩
  · have adds := @onlyAdds_exported α exported
    have inChild : table.ChangesWithin (table.enterNamed name exported) child := by
      rw [same]
      refine (adds.changesWithin child nested).setCurrent ?_
      rw [size_modifyScope]
      exact inside_of_parent (nested.child.mp found).1
    rw [inChild.scopeAt?_outside nested fun place leads encloses => ?_]
    rw [show (table.enterNamed name exported).current = child by rw [same]] at stands named
    obtain ⟨own, _, begins, called, _⟩ := changes.nested.path_into stands leads encloses
    rw [named] at called
    cases called
    exact differs (List.cons.inj begins).1
  · have elsewhere : ¬ (table.current = table.current ∧ other = name) := fun both => differs both.2
    rw [same, scopeAt?_cons, scopeAt?_cons, lookup_withChild nested.current missing,
      if_neg elsewhere]
    refine Option.bind_congr fun child found => ?_
    -- What is below the other child stands behind the current scope and before the new one.
    refine scopeAt?_kept
      (fun place => table.current < place ∧ place < table.scopes.size)
      (fun place kept => ?_) (fun place other child kept below => ?_) rest ?_
    · rw [scope_withChild, if_neg (Nat.ne_of_lt kept.2),
        if_neg fun here => absurd here.1 (Nat.ne_of_lt kept.1)]
    · have stands := (nested.child.mp below).1
      exact ⟨Nat.lt_trans kept.1 (nested.earlier stands), inside_of_parent stands⟩
    · have stands := (nested.child.mp found).1
      exact ⟨nested.earlier stands, inside_of_parent stands⟩

/-- Entering a name does not change what the scope around holds. -/
theorem Nested.held_enterNamed (nested : table.Nested) (name : String) (exported : Bool)
    : ((table.enterNamed name exported).scope table.current).held =
        (table.scope table.current).held := by
  rcases enterNamed_cases table name exported with ⟨child, found, same⟩ | ⟨missing, same⟩
  · rw [same]
    show Scope.held ((table.modifyScope child _).scope table.current) = _
    rw [scope_modifyScope, if_neg]
    exact fun here => absurd here.1 (Nat.ne_of_gt (nested.earlier (nested.child.mp found).1))
  · rw [same, scope_withChild, if_neg (Nat.ne_of_lt nested.current), if_pos ⟨rfl, nested.current⟩]
    rfl

/-- A name that is entered again holds what it held, and is exported if it is entered for export. -/
theorem Nested.held_reentered (nested : table.Nested) {name : String} {child : Nat}
    (found : (table.scope table.current).children.lookup name = some child) (exported : Bool)
    (path : List String)
    : ((table.enterNamed name exported).scopeAt? (table.enterNamed name exported).current path).map
        Scope.held =
      if path = [] then
        some ((table.scope child).exported || exported, (table.scope child).entries)
      else (table.scopeAt? child path).map Scope.held := by
  have entered : table.enterNamed name exported =
      { table.modifyScope child fun scope =>
          { scope with exported := scope.exported || exported } with
        current := child } := by
    rcases enterNamed_cases table name exported with ⟨other, present, same⟩ | ⟨missing, _⟩
    · rw [found] at present
      cases present
      exact same
    · rw [found] at missing
      cases missing
  have inside := inside_of_parent (nested.child.mp found).1
  rw [entered]
  show ((table.modifyScope child _).scopeAt? child path).map Scope.held = _
  rw [(onlyAdds_exported exported).scopeAt? nested inside]
  split
  · rfl
  · rfl

/-- A name that is entered for the first time holds nothing. -/
theorem held_entered {name : String}
    (missing : (table.scope table.current).children.lookup name = none) (exported : Bool)
    (path : List String)
    : ((table.enterNamed name exported).scopeAt? (table.enterNamed name exported).current path).map
        Scope.held =
      if path = [] then some (exported, []) else none := by
  have entered : table.enterNamed name exported = table.withChild name exported := by
    rcases enterNamed_cases table name exported with ⟨other, present, _⟩ | ⟨_, same⟩
    · rw [missing] at present
      cases present
    · exact same
  have new : (table.withChild name exported).scope table.scopes.size =
      ⟨some name, exported, some table.current, [], []⟩ := by
    rw [scope_withChild, if_pos rfl]
  rw [entered, show (table.withChild name exported).current = table.scopes.size from rfl]
  cases path with
  | nil => rw [scopeAt?_nil, new, if_pos rfl]; rfl
  | cons first rest => rw [scopeAt?_cons, new, if_neg (List.cons_ne_nil _ _)]; rfl

-----------------------------------------------------------------------------------------
-- Entries and anonymous scopes
-----------------------------------------------------------------------------------------

theorem Nested.changesWithin_register (nested : table.Nested) (name : String) (value : α)
    (exported : Bool)
    : table.ChangesWithin (table.register name value exported) table.current :=
  (onlyAdds_entry _).changesWithin _ nested

theorem Nested.register (nested : table.Nested) (name : String) (value : α) (exported : Bool)
    : (table.register name value exported).Nested :=
  (nested.changesWithin_register name value exported).nested

theorem scope_enterLocal (table : ScopeTable α) (place : Nat)
    : table.enterLocal.scope place =
        if place = table.scopes.size then ⟨none, false, some table.current, [], []⟩
        else table.scope place := by
  rw [ScopeTable.enterLocal, scope_push]

theorem Nested.enterLocal (nested : table.Nested) : table.enterLocal.Nested := by
  have size : table.enterLocal.scopes.size = table.scopes.size + 1 := Array.size_push _
  refine ⟨?_, fun place inside root => ?_, fun {place parent} stands => ?_,
    fun {place name child} => ?_, fun place => ?_⟩
  · rw [size]
    exact Nat.lt_succ_self _
  · rw [size] at inside
    rw [scope_enterLocal] at root
    split at root
    · cases root
    · exact nested.root place (by omega) root
  · rw [scope_enterLocal] at stands
    split at stands
    · next new =>
        cases stands
        rw [new]
        exact nested.current
    · exact nested.earlier stands
  · rw [scope_enterLocal, scope_enterLocal]
    split
    · next new =>
        -- Nothing stands in a scope that is not there yet.
        refine iff_of_false (fun found => by cases found) fun both => ?_
        split at both
        · cases both.2
        · have later := nested.earlier both.1
          have inside := inside_of_parent both.1
          omega
    · rw [nested.child]
      split
      · next new =>
          rw [scope_outside (Nat.le_of_eq new.symm)]
          refine iff_of_false (fun both => ?_) fun both => ?_
          · cases both.1
          · cases both.2
      · exact Iff.rfl
  · rw [scope_enterLocal]
    split
    · exact .nil
    · exact nested.names place

/-- A table that has lost its last scope, which is anonymous. -/
theorem scope_pop (table : ScopeTable α) (current place : Nat)
    : ScopeTable.scope ⟨table.scopes.pop, current⟩ place =
        if place < table.scopes.size - 1 then table.scope place else default := by
  simp only [ScopeTable.scope, Array.getD_eq_getD_getElem?, Array.getElem?_pop]
  split
  · rfl
  · rfl

theorem Nested.pop (nested : table.Nested) {last current : Nat}
    (size : last + 1 = table.scopes.size) (anonymous : (table.scope last).name? = none)
    (inside : current < last)
    : Nested ⟨table.scopes.pop, current⟩ := by
  have popped : table.scopes.size - 1 = last := by omega
  refine ⟨?_, fun place kept root => ?_, fun {place parent} stands => ?_,
    fun {place name child} => ?_, fun place => ?_⟩
  · simpa [popped] using inside
  · replace kept : place < table.scopes.size - 1 := by simpa using kept
    rw [scope_pop, if_pos kept] at root
    exact nested.root place (by omega) root
  · rw [scope_pop] at stands
    split at stands
    · exact nested.earlier stands
    · cases stands
  · rw [scope_pop, scope_pop, popped]
    by_cases kept : child < last
    · rw [if_pos kept]
      split
      · exact nested.child
      · next gone =>
          refine iff_of_false (fun found => by cases found) fun both => ?_
          have earlier := nested.earlier both.1
          omega
    · rw [if_neg kept]
      refine iff_of_false (fun found => ?_) fun both => by cases both.1
      split at found
      · obtain ⟨stands, named⟩ := nested.child.mp found
        have inTable := inside_of_parent stands
        obtain rfl : child = last := by omega
        rw [anonymous] at named
        cases named
      · cases found
  · rw [scope_pop]
    split
    · exact nested.names place
    · exact .nil

/-- Leaving a scope drops the last one if that was current and anonymous, and leads to the scope
around the current one. At the root it does nothing.
-/
theorem leave_cases (table : ScopeTable α)
    : ((table.scope table.current).parent? = none ∧ table.leave = table)
      ∨ ∃ parent, (table.scope table.current).parent? = some parent
        ∧ ((table.leave = ⟨table.scopes.pop, parent⟩ ∧ table.current + 1 = table.scopes.size
            ∧ (table.scope table.current).name? = none)
          ∨ table.leave = { table with current := parent }) := by
  unfold ScopeTable.leave
  dsimp only
  split
  · next root => exact .inl ⟨root, rfl⟩
  · next parent stands =>
      refine .inr ⟨parent, stands, ?_⟩
      split
      · next drops =>
          simp only [Bool.and_eq_true, Option.isNone_iff_eq_none, beq_iff_eq] at drops
          exact .inl ⟨rfl, drops.2, drops.1⟩
      · exact .inr rfl

theorem Nested.leave (nested : table.Nested) : table.leave.Nested := by
  rcases leave_cases table with ⟨_, same⟩ | ⟨parent, stands, ⟨same, last, anonymous⟩ | same⟩
  · rw [same]
    exact nested
  · rw [same]
    exact nested.pop last anonymous (nested.earlier stands)
  · rw [same]
    exact nested.setCurrent (Nat.lt_trans (nested.earlier stands) nested.current)

-----------------------------------------------------------------------------------------
-- What is kept
-----------------------------------------------------------------------------------------

/-- The scopes before the last one stay when that is dropped, with all that stands in them, if it is
anonymous.
-/
theorem Nested.down_pop (nested : table.Nested) {last : Nat}
    (size : last + 1 = table.scopes.size) (anonymous : (table.scope last).name? = none)
    (place : Nat) (name : String) (child : Nat) (_ : place < last)
    (found : (table.scope place).children.lookup name = some child)
    : child < last := by
  obtain ⟨stands, named⟩ := nested.child.mp found
  have inside := inside_of_parent stands
  have apart : child ≠ last := by
    rintro rfl
    rw [anonymous] at named
    cases named
  omega

theorem scope_pop_of_lt {last current place : Nat} (size : last + 1 = table.scopes.size)
    (kept : place < last)
    : ScopeTable.scope ⟨table.scopes.pop, current⟩ place = table.scope place := by
  rw [scope_pop, if_pos (by omega)]

/-- The scopes around one are those that were around it if all of them stay the same, by induction
over the number of steps.
-/
theorem Nested.outwardWithin_kept (nested : table.Nested) (kept : Nat → Prop)
    (same : ∀ place, kept place → after.scope place = table.scope place)
    (up : ∀ place parent, kept place → (table.scope place).parent? = some parent → kept parent)
    {bound wider place : Nat} (here : kept place) (within : place < bound)
    (withinWider : place < wider)
    : after.outwardWithin bound place = table.outwardWithin wider place := by
  induction bound generalizing wider place with
  | zero => omega
  | succ bound ih =>
      obtain ⟨wider, rfl⟩ := Nat.exists_eq_succ_of_ne_zero (Nat.ne_zero_of_lt withinWider)
      rw [outwardWithin, outwardWithin, same place here]
      cases stands : (table.scope place).parent? with
      | none => rfl
      | some parent =>
          have earlier := nested.earlier stands
          exact congrArg _ (ih (up place parent here stands) (by omega) (by omega))

/-- Scopes around one do not stand behind it, by induction over the number of steps. -/
theorem Nested.le_of_mem_outwardWithin (nested : table.Nested) {bound place outer : Nat}
    (among : outer ∈ table.outwardWithin bound place)
    : outer ≤ place := by
  induction bound generalizing place with
  | zero => cases among
  | succ bound ih =>
      rw [outwardWithin] at among
      rcases List.mem_cons.mp among with rfl | around
      · exact Nat.le_refl _
      · cases stands : (table.scope place).parent? with
        | none =>
            rw [stands] at around
            cases around
        | some parent =>
            rw [stands] at around
            exact Nat.le_trans (ih around) (Nat.le_of_lt (nested.earlier stands))

/-- Leaving a scope other than the root keeps the scopes around it, and what is kept there: no scope
that a path leads to from one of these is dropped or changed, and all paths lead where they led.
-/
structure Keeps (table after : ScopeTable α) : Prop where
  outward : after.outward = if table.current = 0 then table.outward else table.outward.tail
  navigate? : ∀ outer ∈ after.outward, ∀ path,
    after.navigate? outer path = table.navigate? outer path
  scope : ∀ outer ∈ after.outward, ∀ path place, table.navigate? outer path = some place →
    place < after.scopes.size ∧ after.scope place = table.scope place

theorem Nested.keeps_leave (nested : table.Nested) : table.Keeps table.leave := by
  have inside {outer place : Nat} {path : List String} (early : outer < table.scopes.size)
      (leads : table.navigate? outer path = some place) :=
    nested.shaped.navigate?_inside early leads
  rcases leave_cases table with ⟨root, same⟩ | ⟨parent, stands, left⟩
  · have first := nested.root _ nested.current root
    rw [same]
    refine ⟨by rw [if_pos first], fun _ _ _ => rfl, fun outer among path place leads => ⟨?_, rfl⟩⟩
    exact inside (Nat.lt_of_le_of_lt (nested.le_of_mem_outwardWithin among) nested.current) leads
  · have earlier := nested.earlier stands
    have tail : (if table.current = 0 then table.outward else table.outward.tail) =
        table.outwardWithin table.current parent := by
      rw [if_neg (Nat.ne_zero_of_lt earlier), outward, outwardWithin, stands]
      rfl
    rcases left with ⟨same, last, anonymous⟩ | same
    · have kept (place : Nat) (before : place < table.current)
          : ScopeTable.scope ⟨table.scopes.pop, parent⟩ place = table.scope place :=
        scope_pop_of_lt last before
      have up (place outer : Nat) (before : place < table.current)
          (standsIn : (table.scope place).parent? = some outer) :=
        Nat.lt_trans (nested.earlier standsIn) before
      have down := nested.down_pop last anonymous
      have around {outer : Nat} (among : outer ∈ table.leave.outward) : outer < table.current := by
        have back := nested.leave.le_of_mem_outwardWithin among
        rw [same] at back
        exact Nat.lt_of_le_of_lt back earlier
      refine ⟨?_, fun outer among path => ?_, fun outer among path place leads => ?_⟩
      · rw [tail, same]
        exact nested.outwardWithin_kept _ kept up earlier (Nat.lt_succ_self _) earlier
      · rw [same]
        exact (navigate?_kept _ kept down path (around among)).1
      · have before := (navigate?_kept _ kept down path (around among)).2 place leads
        rw [same]
        refine ⟨?_, kept place before⟩
        rw [Array.size_pop]
        omega
    · refine ⟨?_, fun outer among path => ?_, fun outer among path place leads => ?_⟩
      · rw [tail, same]
        show outwardWithin { table with current := parent } (parent + 1) parent = _
        refine nested.outwardWithin_kept (fun _ => True) (fun _ _ => ?_) (fun _ _ _ _ => trivial)
          trivial (Nat.lt_succ_self _) earlier
        rfl
      · rw [same]
        rfl
      · have back := nested.leave.le_of_mem_outwardWithin among
        rw [same] at back ⊢
        refine ⟨inside ?_ leads, rfl⟩
        exact Nat.lt_of_le_of_lt back (Nat.lt_trans earlier nested.current)

end ScopeTable

end BuildScript
