import BuildScript.Proofs.Registry.Growth
import BuildScript.Proofs.Scope.Entries

/-! Paths of named scopes. What stands at a path stays there while a table grows, and leaving
scopes leads back along the path by which they were entered.
-/

namespace BuildScript

namespace ScopeTable

variable {α : Type} {table middle after : ScopeTable α}

-----------------------------------------------------------------------------------------
-- Growth
-----------------------------------------------------------------------------------------

/-- One table widens to another one when children stay where they are and entries are only added.
-/
structure Widens (table after : ScopeTable α) : Prop where
  size : table.scopes.size ≤ after.scopes.size
  children : ∀ place name child, (table.scope place).children.lookup name = some child →
    (after.scope place).children.lookup name = some child
  entries : ∀ place, ∀ entry ∈ (table.scope place).entries, entry ∈ (after.scope place).entries

theorem Widens.refl (table : ScopeTable α) : table.Widens table :=
  ⟨Nat.le_refl _, fun _ _ _ found => found, fun _ _ among => among⟩

theorem Widens.trans (first : table.Widens middle) (later : middle.Widens after)
    : table.Widens after :=
  ⟨Nat.le_trans first.size later.size,
    fun place name child found => later.children place name child
      (first.children place name child found),
    fun place entry among => later.entries place entry (first.entries place entry among)⟩

/-- Which scope is current does not matter. -/
theorem Widens.setCurrent (widens : table.Widens after) (current : Nat)
    : table.Widens { after with current } :=
  ⟨widens.size, widens.children, widens.entries⟩

/-- A table has a shape when the current scope is one of its own, and when every child tells its
parent and has a name.
-/
structure Shaped (table : ScopeTable α) : Prop where
  current : table.current < table.scopes.size
  child : ∀ place name child, (table.scope place).children.lookup name = some child →
    child < table.scopes.size ∧ (table.scope child).parent? = some place
      ∧ (table.scope child).name?.isSome = true

/-- Whether every child of the scopes of a table tells its parent and has a name. -/
def isShaped (table : ScopeTable α) : Bool :=
  decide (table.current < table.scopes.size)
    && table.scopes.toList.zipIdx.all fun entry =>
      entry.1.children.all fun child =>
        decide (child.2 < table.scopes.size) && (table.scope child.2).parent? == some entry.2
          && (table.scope child.2).name?.isSome

/-- The check is right. -/
theorem shaped_of_isShaped (checked : table.isShaped = true) : table.Shaped := by
  simp only [isShaped, Bool.and_eq_true, decide_eq_true_eq, List.all_eq_true, beq_iff_eq]
    at checked
  refine ⟨checked.1, fun place name child found => ?_⟩
  by_cases inside : place < table.scopes.size
  · have entry : (table.scope place, place) ∈ table.scopes.toList.zipIdx := by
      rw [List.mem_zipIdx_iff_getElem?, scope, Array.getD_eq_getD_getElem?,
        Array.getElem?_toList, Array.getElem?_eq_getElem inside]
      rfl
    have linked := checked.2 _ entry _ (mem_of_lookup found)
    exact ⟨linked.1.1, linked.1.2, linked.2⟩
  · rw [scope_outside (Nat.le_of_not_lt inside)] at found
    cases found

theorem Shaped.setCurrent (shaped : table.Shaped) {current : Nat}
    (inside : current < table.scopes.size)
    : Shaped { table with current } :=
  ⟨inside, shaped.child⟩

-----------------------------------------------------------------------------------------
-- Paths
-----------------------------------------------------------------------------------------

theorem navigate?_concat (table : ScopeTable α) (place : Nat) (path : List String)
    (name : String)
    : table.navigate? place (path ++ [name]) =
        (table.navigate? place path).bind fun found =>
          (table.scope found).children.lookup name := by
  rw [navigate?, List.foldlM_append]
  show ((table.navigate? place path).bind fun found =>
    ((table.scope found).children.lookup name).bind some) = _
  cases table.navigate? place path with
  | none => rfl
  | some found => exact Option.bind_fun_some _

/-- A path leads to the same place in a wider table, by induction over the path. -/
theorem Widens.navigate? (widens : table.Widens after) {place found : Nat} {path : List String}
    (leads : table.navigate? place path = some found)
    : after.navigate? place path = some found := by
  induction path generalizing place with
  | nil => exact leads
  | cons name rest ih =>
      obtain ⟨child, first, later⟩ := Option.bind_eq_some_iff.mp leads
      exact Option.bind_eq_some_iff.mpr ⟨child, widens.children place name child first, ih later⟩

/-- A path from a scope of the table leads to one, by induction over the path. -/
theorem Shaped.navigate?_inside (shaped : table.Shaped) {place found : Nat} {path : List String}
    (inside : place < table.scopes.size) (leads : table.navigate? place path = some found)
    : found < table.scopes.size := by
  induction path generalizing place with
  | nil =>
      cases leads
      exact inside
  | cons name rest ih =>
      obtain ⟨child, first, later⟩ := Option.bind_eq_some_iff.mp leads
      exact ih (shaped.child place name child first).1 later

theorem mem_valuesIn {place : Nat} {name : String} {value : α}
    : value ∈ table.valuesIn place name ↔
        ∃ entry ∈ (table.scope place).entries, entry.name = name ∧ entry.value = value := by
  simp [valuesIn, and_assoc]

theorem Widens.valuesIn (widens : table.Widens after) {place : Nat} {name : String} {value : α}
    (among : value ∈ table.valuesIn place name)
    : value ∈ after.valuesIn place name := by
  obtain ⟨entry, inScope, same⟩ := mem_valuesIn.mp among
  exact mem_valuesIn.mpr ⟨entry, widens.entries place entry inScope, same⟩

/-- (HasAt table path name value) says that a name has a meaning in the scope at a path. -/
def HasAt (table : ScopeTable α) (path : List String) (name : String) (value : α) : Prop :=
  ∃ place, table.navigate? 0 path = some place ∧ value ∈ table.valuesIn place name

instance [DecidableEq α] (table : ScopeTable α) (path : List String) (name : String) (value : α)
    : Decidable (table.HasAt path name value) :=
  match found : table.navigate? 0 path with
  | none => .isFalse fun has => nomatch found.symm.trans has.choose_spec.1
  | some place =>
    decidable_of_iff (value ∈ table.valuesIn place name)
      ⟨fun among => ⟨place, found, among⟩, fun has => by
        obtain ⟨other, leads, among⟩ := has
        rw [found] at leads
        cases leads
        exact among⟩

theorem Widens.hasAt (widens : table.Widens after) {path : List String} {name : String} {value : α}
    (has : table.HasAt path name value)
    : after.HasAt path name value := by
  obtain ⟨place, leads, among⟩ := has
  exact ⟨place, widens.navigate? leads, widens.valuesIn among⟩

-----------------------------------------------------------------------------------------
-- Changes of one scope
-----------------------------------------------------------------------------------------

/-- A change of a scope that adds entries only. -/
structure OnlyAdds (change : Scope α → Scope α) : Prop where
  children : ∀ scope, (change scope).children = scope.children
  parent : ∀ scope, (change scope).parent? = scope.parent?
  name : ∀ scope, (change scope).name? = scope.name?
  entries : ∀ scope, ∀ entry ∈ scope.entries, entry ∈ (change scope).entries

theorem size_modifyScope (place : Nat) (change : Scope α → Scope α)
    : (table.modifyScope place change).scopes.size = table.scopes.size :=
  Array.size_modify

theorem OnlyAdds.widens {change : Scope α → Scope α} (adds : OnlyAdds change) (place : Nat)
    : table.Widens (table.modifyScope place change) := by
  refine ⟨Nat.le_of_eq (size_modifyScope place change).symm, fun other name child found => ?_,
    fun other entry among => ?_⟩
  · rw [scope_modifyScope]
    split
    · rw [adds.children]
      exact found
    · exact found
  · rw [scope_modifyScope]
    split
    · exact adds.entries _ entry among
    · exact among

/-- How scopes stand in each other does not change. -/
theorem OnlyAdds.links {change : Scope α → Scope α} (adds : OnlyAdds change)
    (table : ScopeTable α) (place other : Nat)
    : ((table.modifyScope place change).scope other).children = (table.scope other).children
      ∧ ((table.modifyScope place change).scope other).parent? = (table.scope other).parent?
      ∧ ((table.modifyScope place change).scope other).name? = (table.scope other).name? := by
  rw [scope_modifyScope]
  split
  · exact ⟨adds.children _, adds.parent _, adds.name _⟩
  · exact ⟨rfl, rfl, rfl⟩

theorem OnlyAdds.shaped {change : Scope α → Scope α} (adds : OnlyAdds change) (place : Nat)
    (shaped : table.Shaped)
    : (table.modifyScope place change).Shaped := by
  have same := adds.links table place
  refine ⟨?_, fun other name child found => ?_⟩
  · rw [size_modifyScope]
    exact shaped.current
  · rw [(same other).1] at found
    obtain ⟨inside, parent, named⟩ := shaped.child other name child found
    rw [size_modifyScope, (same child).2.1, (same child).2.2]
    exact ⟨inside, parent, named⟩

/-- Adding an entry to a scope adds entries only. -/
theorem onlyAdds_entry (entry : ScopeEntry α)
    : OnlyAdds fun scope : Scope α => { scope with entries := scope.entries ++ [entry] } :=
  ⟨fun _ => rfl, fun _ => rfl, fun _ => rfl, fun _ _ among => List.mem_append_left _ among⟩

theorem widens_register (table : ScopeTable α) (name : String) (value : α) (exported : Bool)
    : table.Widens (table.register name value exported) :=
  (onlyAdds_entry _).widens _

theorem Shaped.register (shaped : table.Shaped) (name : String) (value : α) (exported : Bool)
    : (table.register name value exported).Shaped :=
  (onlyAdds_entry _).shaped _ shaped

theorem Shaped.mem_register (shaped : table.Shaped) (name : String) (value : α) (exported : Bool)
    : value ∈ (table.register name value exported).valuesIn table.current name := by
  refine mem_valuesIn.mpr ⟨⟨name, value, exported⟩, ?_, rfl, rfl⟩
  rw [ScopeTable.register, scope_modifyScope, if_pos ⟨rfl, shaped.current⟩]
  exact List.mem_append_right _ (.head _)

-----------------------------------------------------------------------------------------
-- Entering and leaving
-----------------------------------------------------------------------------------------

/-- The table with a new named scope in the current one. -/
def withChild (table : ScopeTable α) (name : String) (exported : Bool) : ScopeTable α :=
  let linked := table.modifyScope table.current fun scope =>
    { scope with children := scope.children ++ [(name, table.scopes.size)] }
  { scopes := linked.scopes.push ⟨some name, exported, some table.current, [], []⟩
    current := table.scopes.size }

theorem scope_withChild (table : ScopeTable α) (name : String) (exported : Bool) (place : Nat)
    : (table.withChild name exported).scope place =
        if place = table.scopes.size then ⟨some name, exported, some table.current, [], []⟩
        else if table.current = place ∧ place < table.scopes.size then
          { table.scope place with
            children := (table.scope place).children ++ [(name, table.scopes.size)] }
        else table.scope place := by
  rw [withChild, scope_push, size_modifyScope, scope_modifyScope]

theorem size_withChild (table : ScopeTable α) (name : String) (exported : Bool)
    : (table.withChild name exported).scopes.size = table.scopes.size + 1 := by
  simp [withChild, modifyScope]

theorem widens_withChild (table : ScopeTable α) (name : String) (exported : Bool)
    : table.Widens (table.withChild name exported) := by
  refine ⟨?_, fun place other child found => ?_, fun place entry among => ?_⟩
  · rw [size_withChild]
    omega
  · rw [scope_withChild]
    split
    · next new =>
        rw [scope_outside (Nat.le_of_eq new.symm)] at found
        exact nomatch found
    · split
      · rw [List.lookup_append, found]
        rfl
      · exact found
  · rw [scope_withChild]
    split
    · next new =>
        rw [scope_outside (Nat.le_of_eq new.symm)] at among
        exact nomatch among
    · split
      · exact among
      · exact among

theorem Shaped.withChild (shaped : table.Shaped) (name : String) (exported : Bool)
    : (table.withChild name exported).Shaped := by
  have kept (child : Nat) (inside : child < table.scopes.size)
      : ((table.withChild name exported).scope child).parent? = (table.scope child).parent?
        ∧ ((table.withChild name exported).scope child).name? = (table.scope child).name? := by
    rw [scope_withChild, if_neg (Nat.ne_of_lt inside)]
    split
    · exact ⟨rfl, rfl⟩
    · exact ⟨rfl, rfl⟩
  have old (place child : Nat) (other : String)
      (found : (table.scope place).children.lookup other = some child)
      : child < table.scopes.size + 1
        ∧ ((table.withChild name exported).scope child).parent? = some place
        ∧ ((table.withChild name exported).scope child).name?.isSome = true := by
    obtain ⟨inside, parent, named⟩ := shaped.child place other child found
    rw [(kept child inside).1, (kept child inside).2]
    exact ⟨by omega, parent, named⟩
  refine ⟨?_, fun place other child found => ?_⟩
  · rw [size_withChild]
    exact Nat.lt_succ_self _
  · rw [size_withChild]
    rw [scope_withChild] at found
    split at found
    · exact nomatch found
    · split at found
      · next here =>
          rw [List.lookup_append] at found
          rcases Option.or_eq_some_iff.mp found with before | ⟨_, new⟩
          · exact old place child other before
          · simp only [List.lookup_cons, List.lookup_nil] at new
            split at new
            · cases new
              rw [scope_withChild, if_pos rfl]
              exact ⟨by omega, congrArg some here.1, rfl⟩
            · exact nomatch new
      · exact old place child other found

/-- Entering a name leads to a child that exists, or to a new one. -/
theorem enterNamed_cases (table : ScopeTable α) (name : String) (exported : Bool)
    : (∃ child, (table.scope table.current).children.lookup name = some child
          ∧ table.enterNamed name exported =
            { table.modifyScope child fun scope =>
                { scope with exported := scope.exported || exported } with
              current := child })
      ∨ ((table.scope table.current).children.lookup name = none
          ∧ table.enterNamed name exported = table.withChild name exported) := by
  unfold ScopeTable.enterNamed
  split
  · next child found => exact .inl ⟨child, found, rfl⟩
  · next missing => exact .inr ⟨missing, rfl⟩

theorem onlyAdds_exported (exported : Bool)
    : OnlyAdds fun scope : Scope α => { scope with exported := scope.exported || exported } :=
  ⟨fun _ => rfl, fun _ => rfl, fun _ => rfl, fun _ _ among => among⟩

theorem widens_enterNamed (table : ScopeTable α) (name : String) (exported : Bool)
    : table.Widens (table.enterNamed name exported) := by
  rcases enterNamed_cases table name exported with ⟨child, _, same⟩ | ⟨_, same⟩
  · rw [same]
    exact ((onlyAdds_exported exported).widens child).setCurrent child
  · rw [same]
    exact widens_withChild table name exported

theorem Shaped.enterNamed (shaped : table.Shaped) (name : String) (exported : Bool)
    : (table.enterNamed name exported).Shaped := by
  rcases enterNamed_cases table name exported with ⟨child, found, same⟩ | ⟨_, same⟩
  · rw [same]
    refine ((onlyAdds_exported exported).shaped child shaped).setCurrent ?_
    rw [size_modifyScope]
    exact (shaped.child _ _ _ found).1
  · rw [same]
    exact shaped.withChild name exported

/-- Entering a name goes one step further along the path. -/
theorem Shaped.navigate?_enterNamed (shaped : table.Shaped) {path : List String}
    (leads : table.navigate? 0 path = some table.current) (name : String) (exported : Bool)
    : (table.enterNamed name exported).navigate? 0 (path ++ [name]) =
        some (table.enterNamed name exported).current := by
  have kept := (widens_enterNamed table name exported).navigate? leads
  rw [navigate?_concat, kept]
  show ((table.enterNamed name exported).scope table.current).children.lookup name = _
  rcases enterNamed_cases table name exported with ⟨child, found, same⟩ | ⟨missing, same⟩
  · rw [same]
    exact (((onlyAdds_exported exported).widens child).setCurrent child).children _ _ _ found
  · rw [same, scope_withChild, if_neg (Nat.ne_of_lt shaped.current),
      if_pos ⟨rfl, shaped.current⟩, List.lookup_append, missing]
    simp [ScopeTable.withChild]

/-- Entering names one after the other goes along all of them, by induction over the names. -/
theorem Shaped.enterAll (shaped : table.Shaped) {path : List String}
    (leads : table.navigate? 0 path = some table.current) (names : List String)
    : let entered := names.foldl (fun table name => table.enterNamed name false) table
      entered.Shaped ∧ table.Widens entered
        ∧ entered.navigate? 0 (path ++ names) = some entered.current := by
  induction names generalizing table path with
  | nil =>
      rw [List.append_nil]
      exact ⟨shaped, .refl table, leads⟩
  | cons first rest ih =>
      have step := shaped.navigate?_enterNamed leads first false
      obtain ⟨shapedAll, widens, along⟩ := ih (shaped.enterNamed first false) step
      rw [List.append_assoc] at along
      exact ⟨shapedAll, (widens_enterNamed table first false).trans widens, along⟩

/-- Leaving a scope at the end of a path leads to the scope before it. -/
theorem Shaped.leave (shaped : table.Shaped) {path : List String} {name : String}
    (leads : table.navigate? 0 (path ++ [name]) = some table.current)
    : ∃ parent, table.navigate? 0 path = some parent
      ∧ table.leave = { table with current := parent } := by
  rw [navigate?_concat] at leads
  obtain ⟨parent, before, step⟩ := Option.bind_eq_some_iff.mp leads
  obtain ⟨_, parentOf, named⟩ := shaped.child parent name _ step
  refine ⟨parent, before, ?_⟩
  unfold ScopeTable.leave
  simp only [parentOf]
  rw [if_neg]
  rw [Option.isNone_eq_false_iff.mpr named]
  simp

/-- Leaving as many scopes as the path has names after a shorter one leads to the place of the
shorter path, by induction over what is left.
-/
theorem Shaped.leaveAll (shaped : table.Shaped) {path names : List String} (steps : List String)
    (same : steps.length = names.length)
    (leads : table.navigate? 0 (path ++ names) = some table.current)
    : ∃ place, table.navigate? 0 path = some place
      ∧ steps.foldl (fun table _ => table.leave) table = { table with current := place } := by
  induction steps generalizing table names with
  | nil =>
      have none := List.eq_nil_of_length_eq_zero same.symm
      rw [none, List.append_nil] at leads
      exact ⟨table.current, leads, rfl⟩
  | cons step rest ih =>
      have nonempty : names ≠ [] := fun none => by simp [none] at same
      obtain ⟨init, last, rfl⟩ := names.eq_nil_or_concat.resolve_left nonempty
      rw [List.concat_eq_append, ← List.append_assoc] at leads
      obtain ⟨parent, before, left⟩ := shaped.leave leads
      have inside : parent < table.scopes.size := by
        refine shaped.navigate?_inside ?_ before
        exact Nat.lt_of_le_of_lt (Nat.zero_le _) shaped.current
      have length : rest.length = init.length := by simpa using same
      obtain ⟨place, back, all⟩ := ih (shaped.setCurrent inside) length before
      refine ⟨place, back, ?_⟩
      rw [List.foldl_cons, left]
      exact all

/-- Leaving a new anonymous scope at once gives the table back. -/
theorem leave_enterLocal (table : ScopeTable α) : table.enterLocal.leave = table := by
  have entered : table.enterLocal.scope table.scopes.size =
      ⟨none, false, some table.current, [], []⟩ := by
    rw [enterLocal, scope_push, if_pos rfl]
  unfold ScopeTable.leave
  have current : table.enterLocal.current = table.scopes.size := rfl
  simp only [current, entered]
  rw [if_pos (by simp [enterLocal])]
  simp [enterLocal]

-----------------------------------------------------------------------------------------
-- Imports
-----------------------------------------------------------------------------------------

/-- A shaped table is enriched when it widens, still has a shape and is at the same scope. -/
structure Enriched (table after : ScopeTable α) : Prop where
  widens : table.Widens after
  shaped : after.Shaped
  current : after.current = table.current

theorem Enriched.refl (shaped : table.Shaped) : table.Enriched table :=
  ⟨.refl table, shaped, rfl⟩

theorem Enriched.trans (first : table.Enriched middle) (later : middle.Enriched after)
    : table.Enriched after :=
  ⟨first.widens.trans later.widens, later.shaped, later.current.trans first.current⟩

theorem OnlyAdds.enriched {change : Scope α → Scope α} (adds : OnlyAdds change) (place : Nat)
    (shaped : table.Shaped)
    : table.Enriched (table.modifyScope place change) :=
  ⟨adds.widens place, adds.shaped place shaped, rfl⟩

/-- Merged entries are added, by induction over the entries. -/
theorem Shaped.mergeEntries (decide : α → α → MergeDecision) (shaped : table.Shaped) (place : Nat)
    (entries : List (ScopeEntry α))
    : table.Enriched (mergeEntries decide table place entries).2 := by
  induction entries generalizing table with
  | nil => exact .refl shaped
  | cons first rest ih =>
      rw [ScopeTable.mergeEntries]
      split
      · exact .refl shaped
      · exact ih shaped
      · have added := (onlyAdds_entry ⟨first.name, first.value, false⟩).enriched place shaped
        exact added.trans (ih added.shaped)

/-- Making sure that a scope has a child of a name enriches the table, and the child is a scope of
it.
-/
theorem Shaped.childOf (shaped : table.Shaped) {place : Nat} (inside : place < table.scopes.size)
    (name : String)
    : table.Enriched (table.childOf place name).2
      ∧ (table.childOf place name).1 < (table.childOf place name).2.scopes.size := by
  have moved := shaped.setCurrent inside
  have widens := widens_enterNamed { table with current := place } name false
  have entered := moved.enterNamed name false
  refine ⟨⟨⟨widens.size, widens.children, widens.entries⟩, entered.setCurrent ?_, rfl⟩,
    entered.current⟩
  exact Nat.lt_of_lt_of_le shaped.current widens.size

/-- Merging children enriches a table if merging one child does, by induction over the children. -/
theorem Shaped.mergeChildren {merge : ScopeTable α → Nat → Nat → Option String × ScopeTable α}
    (enriches : ∀ {table : ScopeTable α} own child, table.Shaped → own < table.scopes.size →
      table.Enriched (merge table own child).2)
    (shaped : table.Shaped) {place : Nat} (inside : place < table.scopes.size)
    (children : List (String × Nat))
    : table.Enriched (mergeChildren merge table place children).2 := by
  induction children generalizing table with
  | nil => exact .refl shaped
  | cons first rest ih =>
      rw [ScopeTable.mergeChildren]
      obtain ⟨made, own⟩ := shaped.childOf inside first.1
      have merged := enriches _ first.2 made.shaped own
      have both := made.trans merged
      dsimp only
      split
      · next name after outcome =>
          rw [outcome] at both
          exact both
      · next after outcome =>
          rw [outcome] at both
          exact both.trans (ih both.shaped (Nat.lt_of_lt_of_le inside both.widens.size))

/-- Merging a scope enriches the table, by induction over the number of steps. -/
theorem Shaped.mergeWithin (decide : α → α → MergeDecision) (other : ScopeTable α) (bound : Nat)
    (shaped : table.Shaped) {place : Nat} (inside : place < table.scopes.size) (otherPlace : Nat)
    : table.Enriched (mergeWithin decide other bound table place otherPlace).2 := by
  induction bound generalizing table place otherPlace with
  | zero => exact .refl shaped
  | succ bound ih =>
      rw [ScopeTable.mergeWithin]
      have merged := shaped.mergeEntries decide place (other.scope otherPlace).entries
      split
      · next name after outcome =>
          rw [outcome] at merged
          exact merged
      · next after outcome =>
          rw [outcome] at merged
          exact merged.trans (merged.shaped.mergeChildren
            (fun own child shaped inside => ih shaped inside child)
            (Nat.lt_of_lt_of_le inside merged.widens.size) _)

theorem Shaped.merge (decide : α → α → MergeDecision) (shaped : table.Shaped)
    (other : ScopeTable α)
    : table.Enriched (table.merge decide other).2 :=
  shaped.mergeWithin decide other _ (Nat.lt_of_le_of_lt (Nat.zero_le _) shaped.current) 0

end ScopeTable

end BuildScript
