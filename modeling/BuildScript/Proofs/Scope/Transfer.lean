import BuildScript.Proofs.Scope.Visits
import BuildScript.Scope.Symbols

/-! Exports of one table in another one. Tables are built by moving through scopes, by giving names
meanings, by collecting exports and by merging other such tables. A merge transfers the exported
entries of a table, and these are not exported again.
-/

namespace BuildScript

namespace ScopeTable

variable {α : Type} {table middle after other : ScopeTable α} {decide : α → α → MergeDecision}
  {fresh : ScopeEntry α → Prop}

-----------------------------------------------------------------------------------------
-- Tables that are built
-----------------------------------------------------------------------------------------

/-- A table is built by any operations. What a merge has changed up to a conflict stays. -/
inductive Built : ScopeTable α → Prop where
  | empty : Built .empty
  | enterNamed {table : ScopeTable α} (built : Built table) (name : String) (exported : Bool)
      : Built (table.enterNamed name exported)
  | enterLocal {table : ScopeTable α} (built : Built table) : Built table.enterLocal
  | leave {table : ScopeTable α} (built : Built table) : Built table.leave
  | register {table : ScopeTable α} (built : Built table) (name : String) (value : α)
      (exported : Bool)
      : Built (table.register name value exported)
  | collectExports {table : ScopeTable α} (built : Built table) : Built table.collectExports
  | merge {table other : ScopeTable α} (built : Built table) (otherBuilt : Built other)
      (decide : α → α → MergeDecision)
      : Built (table.merge decide other).2

/-- Tables that are built are nested, by induction over the operations. -/
theorem Built.nested (built : table.Built) : table.Nested := by
  induction built with
  | empty => exact nested_empty
  | enterNamed _ name exported nested => exact nested.enterNamed name exported
  | enterLocal _ nested => exact nested.enterLocal
  | leave _ nested => exact nested.leave
  | register _ name value exported nested => exact nested.register name value exported
  | collectExports _ nested => exact nested.collectExports.1
  | merge _ _ decide nested otherNested =>
      exact (nested.imports_merge decide otherNested).within.nested

-----------------------------------------------------------------------------------------
-- What is new
-----------------------------------------------------------------------------------------

/-- A table is extended without exports when new scopes and entries stand behind the old ones and
are not for export, and when all new entries meet something.
-/
structure Extends (table after : ScopeTable α) (fresh : ScopeEntry α → Prop) : Prop where
  size : table.scopes.size ≤ after.scopes.size
  exported : ∀ place, (after.scope place).exported = (table.scope place).exported
  children : ∀ place, ∃ new, (after.scope place).children = (table.scope place).children ++ new
    ∧ ∀ child ∈ new, table.scopes.size ≤ child.2
  entries : ∀ place, ∃ new, (after.scope place).entries = (table.scope place).entries ++ new
    ∧ ∀ entry ∈ new, entry.exported = false ∧ fresh entry

theorem Extends.refl (table : ScopeTable α) (fresh : ScopeEntry α → Prop)
    : table.Extends table fresh :=
  ⟨Nat.le_refl _, fun _ => rfl, fun _ =>
    ⟨[], (List.append_nil _).symm, fun _ among => (by cases among)⟩,
    fun _ => ⟨[], (List.append_nil _).symm, fun _ among => (by cases among)⟩⟩

theorem Extends.setCurrent (grown : table.Extends after fresh) (current : Nat)
    : table.Extends { after with current } fresh :=
  ⟨grown.size, grown.exported, grown.children, grown.entries⟩

theorem Extends.trans (first : table.Extends middle fresh) (later : middle.Extends after fresh)
    : table.Extends after fresh := by
  refine ⟨Nat.le_trans first.size later.size,
    fun place => (later.exported place).trans (first.exported place), fun place => ?_,
    fun place => ?_⟩
  · obtain ⟨early, sameEarly, behindEarly⟩ := first.children place
    obtain ⟨late, sameLate, behindLate⟩ := later.children place
    refine ⟨early ++ late, by rw [sameLate, sameEarly, List.append_assoc], fun child among => ?_⟩
    rcases List.mem_append.mp among with inEarly | inLate
    · exact behindEarly child inEarly
    · exact Nat.le_trans first.size (behindLate child inLate)
  · obtain ⟨early, sameEarly, freshEarly⟩ := first.entries place
    obtain ⟨late, sameLate, freshLate⟩ := later.entries place
    refine ⟨early ++ late, by rw [sameLate, sameEarly, List.append_assoc], fun entry among => ?_⟩
    rcases List.mem_append.mp among with inEarly | inLate
    · exact freshEarly entry inEarly
    · exact freshLate entry inLate

theorem extends_added (table : ScopeTable α) (place : Nat) {entry : ScopeEntry α}
    (meets : fresh entry.imported)
    : table.Extends
        (table.modifyScope place fun scope =>
          { scope with entries := scope.entries ++ [entry.imported] })
        fresh := by
  refine ⟨Nat.le_of_eq (size_modifyScope _ _).symm, fun other => ?_, fun other => ?_,
    fun other => ?_⟩
  · rw [scope_modifyScope]
    split
    · rfl
    · rfl
  · refine ⟨[], ?_, fun _ among => (by cases among)⟩
    rw [List.append_nil, ((onlyAdds_entry _).links table place other).1]
  · rw [scope_modifyScope]
    split
    · refine ⟨[entry.imported], rfl, fun added among => ?_⟩
      rw [List.mem_singleton.mp among]
      exact ⟨rfl, meets⟩
    · exact ⟨[], (List.append_nil _).symm, fun _ among => (by cases among)⟩

/-- A change that leaves what is held by a scope, and what stands in it. -/
theorem extends_of_same {size : Nat} (larger : table.scopes.size ≤ size)
    (sizeAfter : after.scopes.size = size)
    (same : ∀ place, (after.scope place).held = (table.scope place).held)
    (children : ∀ place, ∃ new, (after.scope place).children = (table.scope place).children ++ new
      ∧ ∀ child ∈ new, table.scopes.size ≤ child.2)
    : table.Extends after fresh :=
  ⟨sizeAfter ▸ larger, fun place => congrArg Prod.fst (same place), children, fun place =>
    ⟨[], (congrArg Prod.snd (same place)).trans (List.append_nil _).symm,
      fun _ among => (by cases among)⟩⟩

theorem extends_withChild (table : ScopeTable α) (name : String)
    : table.Extends (table.withChild name false) fresh := by
  have outside : table.scope table.scopes.size = default := scope_outside (Nat.le_refl _)
  refine extends_of_same (Nat.le_succ _) (size_withChild table name false) (fun place => ?_)
    fun place => ?_
  · rw [scope_withChild]
    split
    · next new => rw [new, outside]; rfl
    · split
      · rfl
      · rfl
  · rw [scope_withChild]
    split
    · next new =>
        rw [new, outside]
        exact ⟨[], rfl, fun _ among => (by cases among)⟩
    · split
      · refine ⟨[(name, table.scopes.size)], rfl, fun child among => ?_⟩
        exact Nat.le_of_eq (congrArg Prod.snd (List.mem_singleton.mp among)).symm
      · exact ⟨[], (List.append_nil _).symm, fun _ among => (by cases among)⟩

/-- A scope is not changed when it is entered without being exported. -/
theorem modifyScope_unexported (table : ScopeTable α) (child : Nat)
    : (table.modifyScope child fun scope => { scope with exported := scope.exported || false }) =
        table := by
  have scopes : (table.scopes.modify child fun scope =>
      { scope with exported := scope.exported || false }) = table.scopes :=
    Array.ext (Array.size_modify) fun place _ _ => by simp [Array.getElem_modify]
  rw [modifyScope, scopes]

/-- A child that is made for a name is not for export. -/
theorem extends_childOf (table : ScopeTable α) (place : Nat) (name : String)
    : table.Extends (table.childOf place name).2 fresh := by
  have entered : Extends { table with current := place }
      (ScopeTable.enterNamed { table with current := place } name false) fresh := by
    rcases enterNamed_cases { table with current := place } name false with
      ⟨child, _, same⟩ | ⟨_, same⟩
    · rw [same, modifyScope_unexported]
      exact (Extends.refl { table with current := place } fresh).setCurrent child
    · rw [same]
      exact extends_withChild _ name
  exact ⟨entered.size, entered.exported, entered.children, entered.entries⟩

/-- Merged entries are new, by induction over the entries. -/
theorem extends_mergeEntries (decide : α → α → MergeDecision) (table : ScopeTable α) (place : Nat)
    {entries : List (ScopeEntry α)} (offers : ∀ source ∈ entries, fresh source.imported)
    : table.Extends (mergeEntries decide table place entries).2 fresh := by
  induction entries generalizing table with
  | nil => exact .refl table fresh
  | cons first rest ih =>
      have later : ∀ source ∈ rest, fresh source.imported :=
        fun source among => offers source (.tail _ among)
      rw [mergeEntries]
      split
      · exact .refl table fresh
      · exact ih table later
      · exact (extends_added table place (offers first (.head _))).trans (ih _ later)

/-- Merging children extends a table if merging each of them does, by induction over the children.
-/
theorem extends_mergeChildren
    {merge : ScopeTable α → Nat → Nat → Option String × ScopeTable α}
    {children : List (String × Nat)}
    (each : ∀ child ∈ children, ∀ (table : ScopeTable α) (own : Nat),
      table.Extends (merge table own child.2).2 fresh)
    (table : ScopeTable α) (place : Nat)
    : table.Extends (mergeChildren merge table place children).2 fresh := by
  induction children generalizing table with
  | nil => exact .refl table fresh
  | cons child children ih =>
      have first := (extends_childOf table place child.1).trans
        (each child (.head _) (table.childOf place child.1).2 (table.childOf place child.1).1)
      rw [mergeChildren]
      dsimp only
      split
      · next name stopped outcome =>
          rw [outcome] at first
          exact first
      · next merged outcome =>
          rw [outcome] at first
          exact first.trans (ih (fun child among => each child (.tail _ among)) merged)

/-- What is new after a merge is offered for it, by induction over the number of steps. -/
theorem Nested.extends_mergeWithin (otherNested : other.Nested)
    (decide : α → α → MergeDecision) (bound : Nat) (table : ScopeTable α) (place : Nat)
    {otherPlace : Nat}
    (offers : ∀ path, ∀ source ∈ other.entriesFrom otherPlace path, fresh source.imported)
    : table.Extends (mergeWithin decide other bound table place otherPlace).2 fresh := by
  induction bound generalizing table place otherPlace with
  | zero => exact .refl table fresh
  | succ bound ih =>
      have own := extends_mergeEntries decide table place (offers [])
      rw [entriesFrom_nil] at own
      rw [mergeWithin]
      split
      · next name stopped outcome =>
          rw [outcome] at own
          exact own
      · next merged outcome =>
          rw [outcome] at own
          refine own.trans (extends_mergeChildren (fun child among table own => ?_) merged place)
          refine ih table own fun path source inChild => offers (child.1 :: path) source ?_
          rw [entriesFrom_cons (lookup_of_mem (otherNested.names otherPlace) among)]
          exact inChild

-----------------------------------------------------------------------------------------
-- Exports stay
-----------------------------------------------------------------------------------------

/-- More steps than there are scopes make no difference, by induction over the number of steps. -/
theorem Nested.hasExportsWithin_enough (nested : table.Nested) {bound wider place : Nat}
    (enough : table.scopes.size ≤ place + bound) (enoughToo : table.scopes.size ≤ place + wider)
    : table.hasExportsWithin bound place = table.hasExportsWithin wider place := by
  have outside (bound : Nat) {place : Nat} (beyond : table.scopes.size ≤ place)
      : table.hasExportsWithin bound place = false := by
    cases bound with
    | zero => rfl
    | succ bound => rw [hasExportsWithin, scope_outside beyond]; rfl
  induction bound generalizing wider place with
  | zero => rw [outside 0 (by omega), outside wider (by omega)]
  | succ bound ih =>
      cases wider with
      | zero => rw [outside _ (by omega), outside 0 (by omega)]
      | succ wider =>
          rw [hasExportsWithin, hasExportsWithin]
          congr 1
          rw [Bool.eq_iff_iff, List.any_eq_true, List.any_eq_true]
          refine exists_congr fun child => and_congr_right fun among => ?_
          have later := nested.earlier (nested.child_of_mem among).1
          have same : table.hasExportsWithin bound child.2 = table.hasExportsWithin wider child.2 :=
            ih (by omega) (by omega)
          rw [same]

/-- Nothing new is for export, by induction over the number of steps. -/
theorem Extends.hasExportsWithin_new (grown : table.Extends after fresh) (bound : Nat)
    {place : Nat} (new : table.scopes.size ≤ place)
    : after.hasExportsWithin bound place = false := by
  induction bound generalizing place with
  | zero => rfl
  | succ bound ih =>
      obtain ⟨children, sameChildren, behind⟩ := grown.children place
      obtain ⟨entries, sameEntries, unexported⟩ := grown.entries place
      have exported := grown.exported place
      rw [scope_outside new] at sameChildren sameEntries exported
      simp only [hasExportsWithin, Bool.or_eq_false_iff, List.any_eq_false]
      refine ⟨⟨exported, fun entry among => ?_⟩, fun child among => ?_⟩
      · rw [sameEntries] at among
        exact Bool.eq_false_iff.mp (unexported entry among).1
      · rw [sameChildren] at among
        exact Bool.eq_false_iff.mp (ih (behind child among))

/-- There is to export what there was, by induction over the number of steps. -/
theorem Extends.hasExportsWithin (grown : table.Extends after fresh) (bound place : Nat)
    : after.hasExportsWithin bound place = table.hasExportsWithin bound place := by
  induction bound generalizing place with
  | zero => rfl
  | succ bound ih =>
      obtain ⟨children, sameChildren, behind⟩ := grown.children place
      obtain ⟨entries, sameEntries, unexported⟩ := grown.entries place
      have none : entries.any (·.exported) = false :=
        List.any_eq_false.mpr fun entry among => Bool.eq_false_iff.mp (unexported entry among).1
      have new : (children.any fun child => after.hasExportsWithin bound child.2) = false :=
        List.any_eq_false.mpr fun child among =>
          Bool.eq_false_iff.mp (grown.hasExportsWithin_new bound (behind child among))
      rw [ScopeTable.hasExportsWithin, ScopeTable.hasExportsWithin, grown.exported,
        sameEntries, sameChildren, List.any_append, List.any_append, none, new, Bool.or_false,
        Bool.or_false]
      simp only [ih]

theorem Extends.hasExports (grown : table.Extends after fresh) (nested : table.Nested)
    (place : Nat)
    : after.hasExports place = table.hasExports place := by
  rw [ScopeTable.hasExports, ScopeTable.hasExports, grown.hasExportsWithin]
  have size := grown.size
  exact nested.hasExportsWithin_enough (by omega) (by omega)

/-- More steps than there are scopes collect no more, by induction over the number of steps. -/
theorem Nested.collectWithin_enough (nested : table.Nested) {bound wider place : Nat}
    (enough : table.scopes.size ≤ place + bound) (enoughToo : table.scopes.size ≤ place + wider)
    (target : ScopeTable α)
    : table.collectWithin bound place target = table.collectWithin wider place target := by
  have outside (bound : Nat) {place : Nat} (beyond : table.scopes.size ≤ place)
      (target : ScopeTable α)
      : table.collectWithin bound place target = target := by
    cases bound with
    | zero => rfl
    | succ bound => rw [collectWithin, scope_outside beyond]; rfl
  induction bound generalizing wider place target with
  | zero => rw [outside 0 (by omega), outside wider (by omega)]
  | succ bound ih =>
      cases wider with
      | zero => rw [outside _ (by omega), outside 0 (by omega)]
      | succ wider =>
          rw [collectWithin, collectWithin]
          refine List.foldl_ext _ _ _ fun before child among => ?_
          have later := nested.earlier (nested.child_of_mem among).1
          have same (target : ScopeTable α)
              : table.collectWithin bound child.2 target =
                  table.collectWithin wider child.2 target :=
            ih (by omega) (by omega) target
          rw [same]

/-- What is collected is what was collected, by induction over the number of steps. -/
theorem Extends.collectWithin (grown : table.Extends after fresh) (nested : table.Nested)
    (bound place : Nat) (target : ScopeTable α)
    : after.collectWithin bound place target = table.collectWithin bound place target := by
  induction bound generalizing place target with
  | zero => rfl
  | succ bound ih =>
      obtain ⟨children, sameChildren, behind⟩ := grown.children place
      obtain ⟨entries, sameEntries, unexported⟩ := grown.entries place
      have none : entries.filter (·.exported) = [] :=
        List.filter_eq_nil_iff.mpr fun entry among =>
          Bool.eq_false_iff.mp (unexported entry among).1
      have new (target : ScopeTable α)
          : children.foldl
              (fun target child =>
                if table.hasExports child.2 then
                  (table.collectWithin bound child.2 (target.enterNamed child.1 true)).leave
                else target)
              target = target := by
        refine (List.foldl_ext _ (fun target _ => target) target fun before child among => ?_).trans
          (List.foldl_fixed children)
        rw [← grown.hasExports nested, ScopeTable.hasExports,
          grown.hasExportsWithin_new _ (behind child among), if_neg Bool.false_ne_true]
      rw [ScopeTable.collectWithin, ScopeTable.collectWithin, sameEntries, sameChildren,
        List.filter_append, none, List.append_nil, List.foldl_append]
      simp only [grown.hasExports nested, ih]
      exact new _

/-- Nothing that is new is exported. -/
theorem Extends.collectExports (grown : table.Extends after fresh) (nested : table.Nested)
    : after.collectExports = table.collectExports := by
  rw [ScopeTable.collectExports, grown.collectWithin nested]
  have size := grown.size
  exact nested.collectWithin_enough (by omega) (by omega) _

-----------------------------------------------------------------------------------------
-- Imports of exports
-----------------------------------------------------------------------------------------

/-- Merging the exports of one table into another one transfers just these. If there is no conflict,
what is found at a path from the root is what was found there, followed by the exported entries of
the other table at that path that are not skipped, in order. Nothing else is added, not even where
there is a conflict, the same scopes are around, and the same is exported. A conflict is one of an
exported entry with an entry of its name that is there when it is offered.
-/
theorem Built.merge_transfers_exports (built : table.Built) (otherBuilt : other.Built)
    (decide : α → α → MergeDecision)
    : let outcome := table.merge decide other.collectExports
      let added path := importedEntries decide (table.entriesAt path) (other.exportsFrom 0 path)
      (outcome.1 = none →
          (∀ path, outcome.2.entriesAt path = table.entriesAt path ++ added path)
          ∧ ∀ path name, outcome.2.matchingIn 0 (path ++ [name]) =
              table.matchingIn 0 (path ++ [name]) ++ namedValues (added path) name)
        ∧ (∀ place, ∀ entry ∈ (outcome.2.scope place).entries,
            entry ∈ (table.scope place).entries
              ∨ ∃ path, ∃ source ∈ other.exportsFrom 0 path, entry = source.imported)
        ∧ outcome.2.current = table.current
        ∧ outcome.2.outward = table.outward
        ∧ outcome.2.collectExports = table.collectExports
        ∧ ∀ name, outcome.1 = some name → ∃ path front entry back,
            other.exportsFrom 0 path = front ++ entry :: back ∧ entry.name = name
              ∧ ∃ old ∈ table.entriesAt path ++ importedEntries decide (table.entriesAt path) front,
                  old.name = name ∧ decide old.value entry.value = .conflict := by
  dsimp only
  have nested := built.nested
  obtain ⟨exportsNested, exports⟩ := otherBuilt.nested.collectExports
  have imports := nested.imports_merge decide exportsNested
  have grown : table.Extends (table.merge decide other.collectExports).2
      fun entry => ∃ path, ∃ source ∈ other.exportsFrom 0 path, entry = source.imported := by
    refine exportsNested.extends_mergeWithin decide _ table 0 fun path source among => ?_
    exact ⟨path, source, exports path ▸ among, rfl⟩
  have entries (succeeded : (table.merge decide other.collectExports).1 = none) (path : List String)
      : (table.merge decide other.collectExports).2.entriesAt path =
          table.entriesAt path
            ++ importedEntries decide (table.entriesAt path) (other.exportsFrom 0 path) := by
    rw [← exports path]
    exact (imports.success succeeded path).2
  refine ⟨fun succeeded => ⟨entries succeeded, fun path name => ?_⟩, fun place entry among => ?_,
    imports.current, ?_, grown.collectExports nested, fun name failed => ?_⟩
  · have along := entries succeeded path
    unfold entriesAt at along
    rw [matchingIn_concat, matchingIn_concat, along, namedValues_append]
    rfl
  · obtain ⟨new, same, offered⟩ := grown.entries place
    rw [same] at among
    rcases List.mem_append.mp among with old | inNew
    · exact .inl old
    · exact .inr (offered entry inNew).2
  · rw [outward, outward, imports.current]
    exact imports.within.outwardWithin nested _ nested.current
  · obtain ⟨path, conflict⟩ := imports.failure name failed
    rw [exports path] at conflict
    exact ⟨path, conflict_of_importConflict? conflict⟩

/-- An importer has a meaning for one name of a scope, gets one for another name, and does not see
what is not exported.
-/
theorem merge_transfers_exports_once
    : let table : ScopeTable Nat :=
        ((empty.enterNamed "text" false).register "trim" 1 true).enterLocal
      let other : ScopeTable Nat :=
        (((empty.enterNamed "text" true).register "trim" 1 true).register "pad" 2 true).register
          "blank" 3 false
      let outcome := table.merge (Symbols.mergeUnique id) other.collectExports
      outcome.1 = none
        ∧ outcome.2.entriesAt ["text"] = [⟨"trim", 1, true⟩, ⟨"pad", 2, false⟩]
        ∧ outcome.2.collectExports = table.collectExports := by
  have transfers := Built.merge_transfers_exports
    ((Built.empty.enterNamed "text" false).register "trim" (1 : Nat) true).enterLocal
    ((((Built.empty.enterNamed "text" true).register "trim" (1 : Nat) true).register "pad" 2
      true).register "blank" 3 false)
    (Symbols.mergeUnique id)
  refine ⟨by decide +kernel, ?_, transfers.2.2.2.2.1⟩
  exact ((transfers.1 (by decide +kernel)).1 ["text"]).trans (by decide +kernel)

end ScopeTable

end BuildScript
