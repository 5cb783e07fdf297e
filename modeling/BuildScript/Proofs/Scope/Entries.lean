import BuildScript.Scope.Table

/-! What holds of all names in a table and of their meanings goes on to hold when the table is moved
through, when names get meanings, and when tables are merged.
-/

namespace BuildScript

namespace ScopeTable

variable {α : Type} {met : α → Prop} {suits : String → α → Prop} {table other : ScopeTable α}

/-- (Holds table met) says that all meanings of names in a table meet something. -/
def Holds (table : ScopeTable α) (met : α → Prop) : Prop :=
  ∀ place, ∀ entry ∈ (table.scope place).entries, met entry.value

/-- (HoldsNamed table suits) says that all names in a table and their meanings meet something. -/
def HoldsNamed (table : ScopeTable α) (suits : String → α → Prop) : Prop :=
  ∀ place, ∀ entry ∈ (table.scope place).entries, suits entry.name entry.value

theorem Holds.named (holds : table.Holds met) : table.HoldsNamed fun _ => met := holds

theorem HoldsNamed.mono {weaker : String → α → Prop} (holds : table.HoldsNamed suits)
    (implies : ∀ name value, suits name value → weaker name value)
    : table.HoldsNamed weaker :=
  fun place entry among => implies _ _ (holds place entry among)

theorem Holds.mono {weaker : α → Prop} (holds : table.Holds met)
    (implies : ∀ value, met value → weaker value)
    : table.Holds weaker :=
  holds.named.mono fun _ => implies

theorem HoldsNamed.empty : (empty : ScopeTable α).HoldsNamed suits := by
  intro place entry among
  cases place with
  | zero => exact nomatch among
  | succ place => exact nomatch among

-----------------------------------------------------------------------------------------
-- Places
-----------------------------------------------------------------------------------------

theorem scope_outside {place : Nat} (outside : table.scopes.size ≤ place)
    : table.scope place = default := by
  rw [scope, Array.getD_eq_getD_getElem?, Array.getElem?_eq_none outside]
  rfl

theorem scope_modifyScope (changed place : Nat) (change : Scope α → Scope α)
    : (table.modifyScope changed change).scope place =
        if changed = place ∧ place < table.scopes.size then change (table.scope place)
        else table.scope place := by
  simp only [scope, modifyScope, Array.getD_eq_getD_getElem?, Array.getElem?_modify]
  by_cases same : changed = place
  · by_cases inside : place < table.scopes.size
    · simp [same, inside]
    · simp [same, inside]
  · simp [same]

theorem scope_push (scope : Scope α) (current place : Nat)
    : ScopeTable.scope ⟨table.scopes.push scope, current⟩ place =
        if place = table.scopes.size then scope else table.scope place := by
  simp only [ScopeTable.scope, Array.getD_eq_getD_getElem?, Array.getElem?_push]
  split
  · rfl
  · rfl

/-- What holds of the names in every scope of a table can be checked scope by scope. -/
theorem holdsNamed_of_all [∀ name, DecidablePred (suits name)]
    (checked : (table.scopes.toList.all fun scope =>
      scope.entries.all fun entry => suits entry.name entry.value) = true)
    : table.HoldsNamed suits := by
  intro place entry among
  by_cases inside : place < table.scopes.size
  · rw [scope, Array.getD_eq_getD_getElem?, Array.getElem?_eq_getElem inside] at among
    have all := List.all_eq_true.mp checked _ (Array.getElem_mem_toList inside)
    exact of_decide_eq_true (List.all_eq_true.mp all entry among)
  · rw [scope_outside (Nat.le_of_not_lt inside)] at among
    exact nomatch among

/-- What holds of the meanings in every scope of a table can be checked scope by scope. -/
theorem holds_of_all [DecidablePred met]
    (checked : (table.scopes.toList.all fun scope =>
      scope.entries.all fun entry => met entry.value) = true)
    : table.Holds met :=
  @holdsNamed_of_all _ (fun _ => met) _ _ checked

-----------------------------------------------------------------------------------------
-- Moving
-----------------------------------------------------------------------------------------

theorem HoldsNamed.modifyScope (holds : table.HoldsNamed suits) {place : Nat}
    {change : Scope α → Scope α}
    (kept : ∀ entry ∈ (change (table.scope place)).entries, suits entry.name entry.value)
    : (table.modifyScope place change).HoldsNamed suits := by
  intro other entry among
  rw [scope_modifyScope] at among
  split at among
  · next same =>
      rw [← same.1] at among
      exact kept entry among
  · exact holds other entry among

theorem HoldsNamed.push (holds : table.HoldsNamed suits) {scope : Scope α} (current : Nat)
    (kept : ∀ entry ∈ scope.entries, suits entry.name entry.value)
    : HoldsNamed ⟨table.scopes.push scope, current⟩ suits := by
  intro place entry among
  rw [scope_push] at among
  split at among
  · exact kept entry among
  · exact holds place entry among

theorem HoldsNamed.enterNamed (holds : table.HoldsNamed suits) (name : String) (exported : Bool)
    : (table.enterNamed name exported).HoldsNamed suits := by
  unfold ScopeTable.enterNamed
  split
  · exact holds.modifyScope (holds _)
  · exact HoldsNamed.push (holds.modifyScope (holds _)) _ (fun _ absent => nomatch absent)

theorem HoldsNamed.enterLocal (holds : table.HoldsNamed suits)
    : table.enterLocal.HoldsNamed suits :=
  holds.push _ (fun _ absent => nomatch absent)

theorem HoldsNamed.leave (holds : table.HoldsNamed suits) : table.leave.HoldsNamed suits := by
  unfold ScopeTable.leave
  dsimp only
  split
  · exact holds
  · split
    · intro place entry among
      refine holds place entry ?_
      simp only [scope, Array.getD_eq_getD_getElem?, Array.getElem?_pop] at among ⊢
      split at among
      · exact among
      · exact nomatch among
    · exact holds

theorem HoldsNamed.register (holds : table.HoldsNamed suits) {name : String} {value : α}
    (exported : Bool) (meets : suits name value)
    : (table.register name value exported).HoldsNamed suits := by
  refine holds.modifyScope fun entry among => ?_
  rcases List.mem_append.mp among with old | new
  · exact holds _ entry old
  · rw [List.mem_singleton.mp new]
    exact meets

theorem Holds.enterNamed (holds : table.Holds met) (name : String) (exported : Bool)
    : (table.enterNamed name exported).Holds met :=
  holds.named.enterNamed name exported

theorem Holds.enterLocal (holds : table.Holds met) : table.enterLocal.Holds met :=
  holds.named.enterLocal

theorem Holds.leave (holds : table.Holds met) : table.leave.Holds met := holds.named.leave

theorem Holds.register (holds : table.Holds met) (name : String) {value : α} (exported : Bool)
    (meets : met value)
    : (table.register name value exported).Holds met :=
  holds.named.register exported meets

-----------------------------------------------------------------------------------------
-- Looking names up
-----------------------------------------------------------------------------------------

/-- What a path means in a scope is what its last name means somewhere. -/
theorem HoldsNamed.matchingIn (holds : table.HoldsNamed suits) (place : Nat) (path : List String)
    : ∀ value ∈ table.matchingIn place path,
        ∃ name, path.getLast? = some name ∧ suits name value := by
  intro value among
  unfold ScopeTable.matchingIn at among
  split at among
  · exact nomatch among
  · next last isLast =>
      split at among
      · exact nomatch among
      · next place _ =>
          obtain ⟨entry, found, rfl⟩ := List.mem_map.mp among
          obtain ⟨inScope, same⟩ := List.mem_filter.mp found
          rw [beq_iff_eq] at same
          exact ⟨last, isLast, same ▸ holds place entry inScope⟩

/-- What a path is found to mean is what its last name means somewhere. -/
theorem HoldsNamed.find? (holds : table.HoldsNamed suits) {path : List String} {value : α}
    (found : table.find? path = some value)
    : ∃ name, path.getLast? = some name ∧ suits name value := by
  obtain ⟨place, _, last⟩ := List.exists_of_findSome?_eq_some found
  exact holds.matchingIn place path value (List.mem_of_getLast? last)

theorem Holds.find? (holds : table.Holds met) {path : List String} {value : α}
    (found : table.find? path = some value)
    : met value := by
  obtain ⟨_, _, meets⟩ := holds.named.find? found
  exact meets

theorem Holds.findAll (holds : table.Holds met) (path : List String)
    : ∀ group ∈ table.findAll path, ∀ value ∈ group, met value := by
  intro group among value inGroup
  obtain ⟨place, _, rfl⟩ := List.mem_map.mp (List.mem_filter.mp among).1
  obtain ⟨_, _, meets⟩ := holds.named.matchingIn place path value inGroup
  exact meets

-----------------------------------------------------------------------------------------
-- Exports and imports
-----------------------------------------------------------------------------------------

/-- A fold keeps what each of its steps keeps, by induction over the list. -/
theorem foldl_keeps {β γ : Type} (state : β → Prop) {elements : List γ} {step : β → γ → β}
    {start : β} (holds : state start)
    (keeps : ∀ before, ∀ element ∈ elements, state before → state (step before element))
    : state (elements.foldl step start) := by
  induction elements generalizing start with
  | nil => exact holds
  | cons first rest ih =>
      exact ih (keeps start first (.head _) holds)
        fun before element among => keeps before element (.tail _ among)

/-- Collecting exports adds meanings of the table to another table only, by induction over the
number of steps.
-/
theorem HoldsNamed.collectWithin (holds : table.HoldsNamed suits) (bound place : Nat)
    {target : ScopeTable α} (start : target.HoldsNamed suits)
    : (table.collectWithin bound place target).HoldsNamed suits := by
  induction bound generalizing place target with
  | zero => exact start
  | succ bound ih =>
      rw [ScopeTable.collectWithin]
      refine foldl_keeps (HoldsNamed · suits) (foldl_keeps (HoldsNamed · suits) start
        fun before entry among kept => ?_) fun before child _ kept => ?_
      · exact kept.register true (holds place entry (List.mem_filter.mp among).1)
      · split
        · exact (ih child.2 (kept.enterNamed child.1 true)).leave
        · exact kept

theorem HoldsNamed.collectExports (holds : table.HoldsNamed suits)
    : table.collectExports.HoldsNamed suits :=
  holds.collectWithin _ 0 .empty

theorem HoldsNamed.mergeEntries (decide : α → α → MergeDecision) (holds : table.HoldsNamed suits)
    (place : Nat) {entries : List (ScopeEntry α)}
    (meet : ∀ entry ∈ entries, suits entry.name entry.value)
    : (mergeEntries decide table place entries).2.HoldsNamed suits := by
  induction entries generalizing table with
  | nil => exact holds
  | cons first rest ih =>
      have later : ∀ entry ∈ rest, suits entry.name entry.value :=
        fun entry among => meet entry (.tail _ among)
      rw [ScopeTable.mergeEntries]
      split
      · exact holds
      · exact ih holds later
      · refine ih (holds.modifyScope fun entry among => ?_) later
        rcases List.mem_append.mp among with old | new
        · exact holds place entry old
        · rw [List.mem_singleton.mp new]
          exact meet first (.head _)

theorem HoldsNamed.mergeChildren {merge : ScopeTable α → Nat → Nat → Option String × ScopeTable α}
    (keeps : ∀ {table : ScopeTable α} own child, table.HoldsNamed suits →
      (merge table own child).2.HoldsNamed suits)
    (holds : table.HoldsNamed suits) (place : Nat) (children : List (String × Nat))
    : (mergeChildren merge table place children).2.HoldsNamed suits := by
  induction children generalizing table with
  | nil => exact holds
  | cons first rest ih =>
      rw [ScopeTable.mergeChildren]
      dsimp only [childOf]
      have moved : HoldsNamed { table with current := place } suits := holds
      have entered : HoldsNamed
          { (ScopeTable.enterNamed { table with current := place } first.1 false) with
            current := table.current } suits := moved.enterNamed first.1 false
      have merged := keeps
        (ScopeTable.enterNamed { table with current := place } first.1 false).current first.2
        entered
      split
      · next name after outcome =>
          rw [outcome] at merged
          exact merged
      · next after outcome =>
          rw [outcome] at merged
          exact ih merged

/-- A merged table has meanings of both tables only, by induction over the number of steps. -/
theorem HoldsNamed.mergeWithin (decide : α → α → MergeDecision) (bound : Nat)
    (otherHolds : other.HoldsNamed suits) (holds : table.HoldsNamed suits) (place otherPlace : Nat)
    : (mergeWithin decide other bound table place otherPlace).2.HoldsNamed suits := by
  induction bound generalizing table place otherPlace with
  | zero => exact holds
  | succ bound ih =>
      rw [ScopeTable.mergeWithin]
      have merged := holds.mergeEntries decide place (otherHolds otherPlace)
      split
      · next name after outcome =>
          rw [outcome] at merged
          exact merged
      · next after outcome =>
          rw [outcome] at merged
          exact merged.mergeChildren (fun own child kept => ih kept own child) place _

theorem HoldsNamed.merge (decide : α → α → MergeDecision) (holds : table.HoldsNamed suits)
    (otherHolds : other.HoldsNamed suits)
    : (table.merge decide other).2.HoldsNamed suits :=
  otherHolds.mergeWithin decide _ holds 0 0

theorem Holds.collectExports (holds : table.Holds met) : table.collectExports.Holds met :=
  holds.named.collectExports

theorem Holds.merge (decide : α → α → MergeDecision) (holds : table.Holds met)
    (otherHolds : other.Holds met)
    : (table.merge decide other).2.Holds met :=
  holds.named.merge decide otherHolds.named

end ScopeTable

end BuildScript
