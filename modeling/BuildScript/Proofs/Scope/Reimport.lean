import BuildScript.Proofs.Scope.Identity
import BuildScript.Proofs.Scope.Transfer
import Mathlib.Data.Finset.Dedup

/-! Imports that are made again or in another order. A table that has been merged is found again in
all of its parts, so that merging it once more changes nothing, and two tables are merged in either
order with one result.
-/

namespace BuildScript

namespace ScopeTable

variable {α κ : Type} {table middle after other : ScopeTable α} {decide : α → α → MergeDecision}
  {key : α → κ}

-----------------------------------------------------------------------------------------
-- Scopes that are merged
-----------------------------------------------------------------------------------------

/-- A path leads somewhere. -/
def Reaches (table : ScopeTable α) (place : Nat) (path : List String) : Prop :=
  ∃ found, table.navigate? place path = some found

theorem Widens.reaches (widens : table.Widens after) {place : Nat} {path : List String}
    (reaches : table.Reaches place path)
    : after.Reaches place path := by
  obtain ⟨found, leads⟩ := reaches
  exact ⟨found, widens.navigate? leads⟩

theorem reaches_cons_iff {place : Nat} {name : String} {rest : List String}
    : table.Reaches place (name :: rest) ↔
        ∃ child, (table.scope place).children.lookup name = some child
          ∧ table.Reaches child rest := by
  constructor
  · rintro ⟨found, leads⟩
    obtain ⟨child, first, later⟩ := Option.bind_eq_some_iff.mp leads
    exact ⟨child, first, found, later⟩
  · rintro ⟨child, first, found, later⟩
    exact ⟨found, Option.bind_eq_some_iff.mpr ⟨child, first, later⟩⟩

theorem Shaped.lookup_childOf (shaped : table.Shaped) {place : Nat}
    (inside : place < table.scopes.size) (name : String)
    : ((table.childOf place name).2.scope place).children.lookup name =
        some (table.childOf place name).1 := by
  have moved := shaped.setCurrent inside
  rcases enterNamed_cases { table with current := place } name false with
    ⟨child, found, same⟩ | ⟨missing, same⟩
  · show ((ScopeTable.enterNamed _ name false).scope place).children.lookup name =
      some (ScopeTable.enterNamed _ name false).current
    rw [same, modifyScope_unexported]
    exact found
  · show ((ScopeTable.enterNamed _ name false).scope place).children.lookup name =
      some (ScopeTable.enterNamed _ name false).current
    rw [same]
    exact (lookup_withChild moved.current missing false place name).trans (if_pos ⟨rfl, rfl⟩)

/-- Children that are merged are reached, with all that is reached from them, by induction over the
children.
-/
theorem Shaped.reaches_mergeChildren
    {merge : ScopeTable α → Nat → Nat → Option String × ScopeTable α}
    (enriches : ∀ {table : ScopeTable α} own child, table.Shaped → own < table.scopes.size →
      table.Enriched (merge table own child).2)
    {children : List (String × Nat)}
    (each : ∀ child ∈ children, ∀ {table : ScopeTable α} {own : Nat}, table.Shaped →
      own < table.scopes.size → (merge table own child.2).1 = none →
      ∀ path, other.Reaches child.2 path → (merge table own child.2).2.Reaches own path)
    (shaped : table.Shaped) {place : Nat} (inside : place < table.scopes.size)
    (succeeds : (ScopeTable.mergeChildren merge table place children).1 = none)
    : ∀ child ∈ children, ∀ path, other.Reaches child.2 path →
        (ScopeTable.mergeChildren merge table place children).2.Reaches place
        (child.1 :: path) := by
  induction children generalizing table with
  | nil =>
      intro child among
      cases among
  | cons first rest ih =>
      obtain ⟨made, own⟩ := shaped.childOf inside first.1
      have merged := enriches _ first.2 made.shaped own
      have linked := shaped.lookup_childOf inside first.1
      have below := each first (.head _) made.shaped own
      rw [ScopeTable.mergeChildren] at succeeds ⊢
      dsimp only at succeeds ⊢
      split
      · next name stopped outcome =>
          rw [outcome] at succeeds
          cases succeeds
      · next after outcome =>
          rw [outcome] at succeeds below merged
          have insideAfter : place < after.scopes.size :=
            Nat.lt_of_lt_of_le inside (made.trans merged).widens.size
          have later := merged.shaped.mergeChildren enriches insideAfter rest
          intro child among path reached
          rcases List.mem_cons.mp among with rfl | inRest
          · refine later.widens.reaches (reaches_cons_iff.mpr ⟨_, ?_, below rfl path reached⟩)
            exact merged.widens.children _ _ _ linked
          · exact ih (fun child inRest => each child (.tail _ inRest)) merged.shaped insideAfter
              succeeds child inRest path reached

/-- What is reached in a table is reached where it is merged, by induction over the number of steps.
-/
theorem Shaped.reaches_mergeWithin (otherNested : other.Nested)
    (decide : α → α → MergeDecision) {bound place otherPlace : Nat}
    (enough : other.scopes.size ≤ otherPlace + bound) (shaped : table.Shaped)
    (inside : place < table.scopes.size)
    (succeeds : (ScopeTable.mergeWithin decide other bound table place otherPlace).1 = none)
    (path : List String) (reached : other.Reaches otherPlace path)
    : (ScopeTable.mergeWithin decide other bound table place otherPlace).2.Reaches place path := by
  induction bound generalizing table place otherPlace path with
  | zero =>
      cases path with
      | nil => exact ⟨place, rfl⟩
      | cons name rest =>
          obtain ⟨child, found, _⟩ := reaches_cons_iff.mp reached
          rw [scope_outside (by omega)] at found
          cases found
  | succ bound ih =>
      have enriched := shaped.mergeEntries decide place (other.scope otherPlace).entries
      rw [ScopeTable.mergeWithin] at succeeds ⊢
      split
      · next name stopped outcome =>
          rw [outcome] at succeeds
          cases succeeds
      · next merged outcome =>
          rw [outcome] at enriched
          simp only [outcome] at succeeds
          cases path with
          | nil => exact ⟨place, rfl⟩
          | cons name rest =>
              obtain ⟨child, found, below⟩ := reaches_cons_iff.mp reached
              have each : ∀ child ∈ (other.scope otherPlace).children,
                  ∀ {table : ScopeTable α} {own : Nat}, table.Shaped → own < table.scopes.size →
                  (ScopeTable.mergeWithin decide other bound table own child.2).1 = none →
                  ∀ path, other.Reaches child.2 path →
                  (ScopeTable.mergeWithin decide other bound table own child.2).2.Reaches own
                    path := by
                intro child among table own shaped inside done path reached
                have later := otherNested.earlier (otherNested.child_of_mem among).1
                exact ih (by omega) shaped inside done path reached
              exact enriched.shaped.reaches_mergeChildren
                (fun own child shaped inside => shaped.mergeWithin decide other bound inside child)
                each (Nat.lt_of_lt_of_le inside enriched.widens.size) succeeds (name, child)
                (mem_of_lookup found) rest below

-----------------------------------------------------------------------------------------
-- Merging again
-----------------------------------------------------------------------------------------

/-- Entries of which none is added leave a table as it is, by induction over the entries. -/
theorem mergeEntries_idle {place : Nat} {entries : List (ScopeEntry α)}
    (compatible : importConflict? decide (table.scope place).entries entries = none)
    (nothing : importedEntries decide (table.scope place).entries entries = [])
    : mergeEntries decide table place entries = (none, table) := by
  induction entries with
  | nil => rfl
  | cons entry rest ih =>
      rw [importConflict?] at compatible
      rw [importedEntries] at nothing
      rw [mergeEntries, valuesIn, ← namedValues, mergeDecision?_entries]
      split at compatible
      · cases compatible
      · next unopposed =>
          split at nothing
          · next skipped =>
              rw [if_pos skipped] at compatible
              rw [if_neg unopposed]
              simp only [skipped, Bool.not_true]
              exact ih compatible nothing
          · cases nothing

/-- A child that is there is found. -/
theorem childOf_idle {place child : Nat} {name : String}
    (found : (table.scope place).children.lookup name = some child)
    : table.childOf place name = (child, table) := by
  have entered : ScopeTable.enterNamed { table with current := place } name false =
      { table with current := child } := by
    rcases enterNamed_cases { table with current := place } name false with
      ⟨other, present, same⟩ | ⟨missing, _⟩
    · rw [modifyScope_unexported] at same
      cases found.symm.trans present
      exact same
    · cases found.symm.trans missing
  rw [childOf]
  simp only [entered]

/-- Children that are merged already leave a table as it is, by induction over the children. -/
theorem mergeChildren_idle
    {merge : ScopeTable α → Nat → Nat → Option String × ScopeTable α} {place : Nat}
    {children : List (String × Nat)}
    (each : ∀ child ∈ children, ∃ own, (table.scope place).children.lookup child.1 = some own
      ∧ merge table own child.2 = (none, table))
    : mergeChildren merge table place children = (none, table) := by
  induction children with
  | nil => rfl
  | cons first rest ih =>
      obtain ⟨own, found, same⟩ := each first (.head _)
      rw [mergeChildren, childOf_idle found]
      simp only [same]
      exact ih fun child among => each child (.tail _ among)

/-- A scope that is merged already leaves a table as it is, by induction over the number of steps.
-/
theorem mergeWithin_idle (otherNested : other.Nested) (bound : Nat) {place otherPlace : Nat}
    (reaches : ∀ path, other.Reaches otherPlace path → table.Reaches place path)
    (compatible : ∀ path, importConflict? decide (table.entriesFrom place path)
      (other.entriesFrom otherPlace path) = none)
    (nothing : ∀ path, importedEntries decide (table.entriesFrom place path)
      (other.entriesFrom otherPlace path) = [])
    : mergeWithin decide other bound table place otherPlace = (none, table) := by
  induction bound generalizing place otherPlace with
  | zero => rfl
  | succ bound ih =>
      have entries := mergeEntries_idle (compatible []) (nothing [])
      rw [entriesFrom_nil] at entries
      rw [mergeWithin, entries]
      refine mergeChildren_idle fun child among => ?_
      have below := lookup_of_mem (otherNested.names otherPlace) among
      obtain ⟨own, found, _⟩ :=
        reaches_cons_iff.mp (reaches [child.1] (reaches_cons_iff.mpr ⟨_, below, _, rfl⟩))
      refine ⟨own, found, ih (fun path reached => ?_) (fun path => ?_) fun path => ?_⟩
      · obtain ⟨same, foundToo, reachedToo⟩ :=
          reaches_cons_iff.mp (reaches (child.1 :: path) (reaches_cons_iff.mpr ⟨_, below, reached⟩))
        cases found.symm.trans foundToo
        exact reachedToo
      · have along := compatible (child.1 :: path)
        rwa [entriesFrom_cons found, entriesFrom_cons below] at along
      · have along := nothing (child.1 :: path)
        rwa [entriesFrom_cons found, entriesFrom_cons below] at along

/-- Merging a table again changes nothing. -/
theorem Nested.merge_again (byIdentity : ByIdentity decide key) (nested : table.Nested)
    (otherNested : other.Nested) (succeeds : (table.merge decide other).1 = none)
    : (table.merge decide other).2.merge decide other = (none, (table.merge decide other).2) := by
  have imports := (nested.imports_merge decide otherNested).success succeeds
  refine mergeWithin_idle otherNested _ (fun path reached => ?_) (fun path => ?_) fun path => ?_
  · exact nested.shaped.reaches_mergeWithin otherNested decide (Nat.le_add_left _ _)
      (Nat.lt_of_le_of_lt (Nat.zero_le _) nested.current) succeeds path reached
  · obtain ⟨compatible, added⟩ := imports path
    have both := byIdentity.conflict_again compatible
    rw [importConflict?_append, compatible] at both
    rw [added]
    exact both
  · rw [(imports path).2]
    exact byIdentity.importedEntries_again _ _

-----------------------------------------------------------------------------------------
-- Either order
-----------------------------------------------------------------------------------------

variable {offered offeredToo : List String → List (ScopeEntry α)}
  {outcome outcomeToo : Option String × ScopeTable α} {first second : ScopeTable α}

/-- Merges one table and then another one, unless there is a conflict with the first one. -/
def mergeBoth (decide : α → α → MergeDecision) (table first second : ScopeTable α)
    : Option String × ScopeTable α :=
  match table.merge decide first with
  | (some name, table) => (some name, table)
  | (none, table) => table.merge decide second

theorem Nested.imports_mergeBoth (decide : α → α → MergeDecision) (nested : table.Nested)
    (firstNested : first.Nested) (secondNested : second.Nested)
    : Imports decide table 0 (fun path => first.entriesAt path ++ second.entriesAt path)
        (table.mergeBoth decide first second) := by
  have imports := nested.imports_merge decide firstNested
  unfold mergeBoth
  split
  · next name stopped merges =>
      rw [merges] at imports
      exact imports.stop
  · next merged merges =>
      rw [merges] at imports
      exact imports.trans (imports.within.nested.imports_merge decide secondNested)

/-- An import succeeds just when there is no conflict on any path. -/
theorem Imports.succeeds_iff {place : Nat} (imports : Imports decide table place offered outcome)
    : outcome.1 = none ↔
        ∀ path, importConflict? decide (table.entriesFrom place path) (offered path) = none := by
  refine ⟨fun succeeds path => (imports.success succeeds path).1, fun nothing => ?_⟩
  cases failed : outcome.1 with
  | none => rfl
  | some name =>
      obtain ⟨path, conflict⟩ := imports.failure name failed
      rw [nothing path] at conflict
      cases conflict

/-- Whether an import succeeds does not depend on the order. -/
theorem Imports.succeeds_perm (byIdentity : ByIdentity decide key)
    (imports : Imports decide table 0 offered outcome)
    (importsToo : Imports decide table 0 offeredToo outcomeToo)
    (perm : ∀ path, (offered path).Perm (offeredToo path))
    : outcome.1 = none ↔ outcomeToo.1 = none := by
  rw [imports.succeeds_iff, importsToo.succeeds_iff]
  exact forall_congr' fun path => byIdentity.conflict_perm (perm path)

/-- What is found from a scope on a path from the root is what is found from the root. -/
theorem Imports.entriesFrom_reached (nested : table.Nested)
    (imports : Imports decide table 0 offered outcome) {outer : Nat} {front : List String}
    (leads : table.navigate? 0 front = some outer) (path : List String)
    : outcome.2.entriesFrom outer path = outcome.2.entriesAt (front ++ path) := by
  rw [entriesAt, entriesFrom, entriesFrom, scopeAt?, scopeAt?, navigate?_append,
    imports.within.leads nested leads]
  rfl

/-- What is found from a scope on no path from the root is what was found there. -/
theorem Imports.entriesFrom_unreached (nested : table.Nested)
    (imports : Imports decide table 0 offered outcome) {outer : Nat}
    (inside : outer < table.scopes.size)
    (unreached : ∀ front, table.navigate? 0 front ≠ some outer) (path : List String)
    : outcome.2.entriesFrom outer path = table.entriesFrom outer path := by
  rw [entriesFrom, entriesFrom, scopeAt?_kept
    (fun place => place < table.scopes.size ∧ ∀ front, table.navigate? 0 front ≠ some place)
    (fun place kept => ?_) (fun place name child kept found => ?_) path ⟨inside, unreached⟩]
  · refine imports.apart place fun front leads => kept.2 front ?_
    exact (imports.within.navigate?_iff nested kept.1).mp leads
  · have stands := (nested.child.mp found).1
    refine ⟨inside_of_parent stands, fun front leads => ?_⟩
    rcases List.eq_nil_or_concat front with rfl | ⟨before, last, rfl⟩
    · cases leads
      exact absurd (nested.earlier stands) (Nat.not_lt_zero place)
    · rw [List.concat_eq_append] at leads
      obtain ⟨parent, leadsToParent, standsIn, _⟩ := nested.navigate?_concat_iff.mp leads
      rw [stands] at standsIn
      cases standsIn
      exact kept.2 before leadsToParent

/-- What two imports leave below all scopes that were there is related if it is on all paths. -/
theorem Imports.related {related : List (ScopeEntry α) → List (ScopeEntry α) → Prop}
    (refl : ∀ entries, related entries entries) (nested : table.Nested)
    (imports : Imports decide table 0 offered outcome)
    (importsToo : Imports decide table 0 offeredToo outcomeToo)
    (all : ∀ path, related (outcome.2.entriesAt path) (outcomeToo.2.entriesAt path))
    {outer : Nat} (inside : outer < table.scopes.size) (path : List String)
    : related (outcome.2.entriesFrom outer path) (outcomeToo.2.entriesFrom outer path) := by
  by_cases reached : ∃ front, table.navigate? 0 front = some outer
  · obtain ⟨front, leads⟩ := reached
    rw [imports.entriesFrom_reached nested leads, importsToo.entriesFrom_reached nested leads]
    exact all (front ++ path)
  · have unreached := not_exists.mp reached
    rw [imports.entriesFrom_unreached nested inside unreached,
      importsToo.entriesFrom_unreached nested inside unreached]
    exact refl _

-----------------------------------------------------------------------------------------
-- Look-ups
-----------------------------------------------------------------------------------------

/-- Scopes around the current one are scopes of the table. -/
theorem Nested.inside_of_mem_outward (nested : table.Nested) {outer : Nat}
    (around : outer ∈ table.outward)
    : outer < table.scopes.size :=
  Nat.lt_of_le_of_lt (nested.le_of_mem_outwardWithin around) nested.current

theorem Imports.outward (nested : table.Nested)
    (imports : Imports decide table 0 offered outcome)
    : outcome.2.outward = table.outward := by
  rw [ScopeTable.outward, ScopeTable.outward, imports.current]
  exact imports.within.outwardWithin nested _ nested.current

/-- Entries that are the same on all paths give all names the same values. -/
theorem Imports.values (nested : table.Nested)
    (imports : Imports decide table 0 offered outcome)
    (importsToo : Imports decide table 0 offeredToo outcomeToo)
    (same : ∀ path, SameEntries key (outcome.2.entriesAt path) (outcomeToo.2.entriesAt path))
    {outer : Nat} (around : outer ∈ table.outward) (path : List String) (value : κ)
    : value ∈ (outcome.2.matchingIn outer path).map key ↔
        value ∈ (outcomeToo.2.matchingIn outer path).map key := by
  rcases List.eq_nil_or_concat path with rfl | ⟨front, name, rfl⟩
  · exact Iff.rfl
  · rw [List.concat_eq_append, matchingIn_concat, matchingIn_concat]
    exact (imports.related (SameEntries.refl key) nested importsToo same
      (nested.inside_of_mem_outward around) front).values name value

/-- Groups of the same values, those without any left out, are the same sets. -/
theorem map_toFinset_filter [DecidableEq α] {places : List Nat} {values valuesToo : Nat → List α}
    (same : ∀ place ∈ places, ∀ value, value ∈ values place ↔ value ∈ valuesToo place)
    : ((places.map values).filter (!·.isEmpty)).map List.toFinset =
        ((places.map valuesToo).filter (!·.isEmpty)).map List.toFinset := by
  induction places with
  | nil => rfl
  | cons place rest ih =>
      have sets : (values place).toFinset = (valuesToo place).toFinset := by
        ext value
        rw [List.mem_toFinset, List.mem_toFinset]
        exact same place (.head _) value
      have empty : (values place).isEmpty = (valuesToo place).isEmpty := by
        rw [Bool.eq_iff_iff, List.isEmpty_iff, List.isEmpty_iff, List.eq_nil_iff_forall_not_mem,
          List.eq_nil_iff_forall_not_mem]
        simp only [same place (.head _)]
      have later := ih fun place among => same place (.tail _ among)
      rw [List.map_cons, List.map_cons, List.filter_cons, List.filter_cons, empty]
      split
      · rw [List.map_cons, List.map_cons, sets, later]
      · exact later

/-- Entries that are the same on all paths give all names the same groups of values. -/
theorem Imports.findAll [DecidableEq α] (nested : table.Nested)
    (imports : Imports decide table 0 offered outcome)
    (importsToo : Imports decide table 0 offeredToo outcomeToo)
    (same : ∀ path, SameEntries id (outcome.2.entriesAt path) (outcomeToo.2.entriesAt path))
    (path : List String)
    : (outcome.2.findAll path).map List.toFinset =
        (outcomeToo.2.findAll path).map List.toFinset := by
  rw [ScopeTable.findAll, ScopeTable.findAll, imports.outward nested, importsToo.outward nested]
  refine map_toFinset_filter fun outer around value => ?_
  have values := imports.values nested importsToo same around path value
  rwa [List.map_id, List.map_id] at values

/-- Looking for something in the same places with the same results, by induction over the places. -/
theorem findSome?_congr {places : List Nat} {find findToo : Nat → Option κ}
    (same : ∀ place ∈ places, find place = findToo place)
    : places.findSome? find = places.findSome? findToo := by
  induction places with
  | nil => rfl
  | cons place rest ih =>
      rw [List.findSome?_cons, List.findSome?_cons, same place (.head _),
        ih fun place among => same place (.tail _ among)]

/-- What two imports find first is one thing if the last values on all paths are. -/
theorem Imports.find? (nested : table.Nested) (imports : Imports decide table 0 offered outcome)
    (importsToo : Imports decide table 0 offeredToo outcomeToo)
    (last : ∀ path name, (namedValues (outcome.2.entriesAt path) name).getLast?.map key =
      (namedValues (outcomeToo.2.entriesAt path) name).getLast?.map key)
    (path : List String)
    : (outcome.2.find? path).map key = (outcomeToo.2.find? path).map key := by
  rw [ScopeTable.find?, ScopeTable.find?, imports.outward nested, importsToo.outward nested,
    List.map_findSome?, List.map_findSome?]
  refine findSome?_congr fun outer around => ?_
  rcases List.eq_nil_or_concat path with rfl | ⟨front, name, rfl⟩
  · rfl
  · have related := @Imports.related α table decide offered offeredToo outcome outcomeToo
      (fun entries others => (namedValues entries name).getLast?.map key =
        (namedValues others name).getLast?.map key)
      (fun _ => rfl) nested imports importsToo (fun path => last path name) outer
      (nested.inside_of_mem_outward around) front
    rw [List.concat_eq_append, Function.comp_apply, Function.comp_apply, matchingIn_concat,
      matchingIn_concat]
    exact related

-----------------------------------------------------------------------------------------
-- Two tables
-----------------------------------------------------------------------------------------

theorem mergeBoth_eq_iff
    : table.mergeBoth decide first second = (none, after) ↔
        (table.merge decide first).1 = none
          ∧ (table.merge decide first).2.merge decide second = (none, after) := by
  unfold mergeBoth
  split
  · next name stopped merges => simp [merges]
  · next merged merges => simp [merges]

/-- Two tables are merged in one order if they are in the other one. -/
theorem Nested.mergeBoth_succeeds_comm (byIdentity : ByIdentity decide key) (nested : table.Nested)
    (firstNested : first.Nested) (secondNested : second.Nested)
    : (table.mergeBoth decide first second).1 = none ↔
        (table.mergeBoth decide second first).1 = none :=
  (nested.imports_mergeBoth decide firstNested secondNested).succeeds_perm byIdentity
    (nested.imports_mergeBoth decide secondNested firstNested) fun _ => List.perm_append_comm

/-- Two tables leave the same entries in either order. -/
theorem Nested.mergeBoth_entries_comm (byIdentity : ByIdentity decide key) (nested : table.Nested)
    (firstNested : first.Nested) (secondNested : second.Nested)
    (succeeds : (table.mergeBoth decide first second).1 = none) (path : List String)
    : SameEntries key ((table.mergeBoth decide first second).2.entriesAt path)
        ((table.mergeBoth decide second first).2.entriesAt path) := by
  have imports := nested.imports_mergeBoth decide firstNested secondNested
  have importsToo := nested.imports_mergeBoth decide secondNested firstNested
  have succeedsToo :=
    (nested.mergeBoth_succeeds_comm byIdentity firstNested secondNested).mp succeeds
  rw [entriesAt, entriesAt, (imports.success succeeds path).2,
    (importsToo.success succeedsToo path).2]
  exact byIdentity.sameEntries_perm List.perm_append_comm

/-- Where one name means one thing, two tables leave the same meanings in either order. -/
theorem Nested.mergeBoth_find?_comm (byIdentity : ByIdentity decide key)
    (unique : ∀ old new, decide old new ≠ .conflict → key old = key new) (nested : table.Nested)
    (firstNested : first.Nested) (secondNested : second.Nested)
    (succeeds : (table.mergeBoth decide first second).1 = none) (path : List String)
    : ((table.mergeBoth decide first second).2.find? path).map key =
        ((table.mergeBoth decide second first).2.find? path).map key := by
  have imports := nested.imports_mergeBoth decide firstNested secondNested
  have importsToo := nested.imports_mergeBoth decide secondNested firstNested
  have succeedsToo :=
    (nested.mergeBoth_succeeds_comm byIdentity firstNested secondNested).mp succeeds
  refine imports.find? nested importsToo (fun path name => ?_) path
  obtain ⟨compatible, entries⟩ := imports.success succeeds path
  rw [entriesAt, entriesAt, entries, (importsToo.success succeedsToo path).2]
  exact byIdentity.last_perm unique List.perm_append_comm compatible name

/-- Two tables leave the same groups of meanings in either order. -/
theorem Nested.mergeBoth_findAll_comm [DecidableEq α] (byIdentity : ByIdentity decide id)
    (nested : table.Nested) (firstNested : first.Nested) (secondNested : second.Nested)
    (succeeds : (table.mergeBoth decide first second).1 = none) (path : List String)
    : ((table.mergeBoth decide first second).2.findAll path).map List.toFinset =
        ((table.mergeBoth decide second first).2.findAll path).map List.toFinset :=
  (nested.imports_mergeBoth decide firstNested secondNested).findAll nested
    (nested.imports_mergeBoth decide secondNested firstNested)
    (nested.mergeBoth_entries_comm byIdentity firstNested secondNested succeeds) path

/-- What holds of the meanings in three tables holds after a merge. -/
theorem Holds.mergeBoth {met : α → Prop} (decide : α → α → MergeDecision) (holds : table.Holds met)
    (firstHolds : first.Holds met) (secondHolds : second.Holds met)
    : (table.mergeBoth decide first second).2.Holds met := by
  have once := holds.merge decide firstHolds
  unfold ScopeTable.mergeBoth
  split
  · next name stopped merges =>
      rw [merges] at once
      exact once
  · next merged merges =>
      rw [merges] at once
      exact once.merge decide secondHolds

end ScopeTable

end BuildScript
