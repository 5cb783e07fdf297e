import BuildScript.Proofs.Scope.Identity
import BuildScript.Proofs.Scope.Moving

/-! Visits to named scopes. Exports are collected, and tables are merged, by visits, each of which
changes nothing outside the scope that is visited. What a table holds is read along paths.

What is collected for export. The collected table holds, at each path, the exported entries that
the table has there, in order.

Merging tables. A scope and all below it are merged by adding the entries that are not skipped,
path by path, or up to the first path on which there is a conflict.
-/

namespace BuildScript

namespace ScopeTable

variable {α : Type} {table after target : ScopeTable α}

-----------------------------------------------------------------------------------------
-- Visits
-----------------------------------------------------------------------------------------

/-- The entries in the scope that a path leads to. -/
def entriesFrom (table : ScopeTable α) (place : Nat) (path : List String)
    : List (ScopeEntry α) :=
  ((table.scopeAt? place path).map (·.entries)).getD []

/-- The entries in the scope at a path from the root. -/
def entriesAt (table : ScopeTable α) (path : List String) : List (ScopeEntry α) :=
  table.entriesFrom 0 path

/-- What is held tells the entries. -/
theorem values_of_held {found : Option (Scope α)} {held : Option (Bool × List (ScopeEntry α))}
    (holds : found.map Scope.held = held)
    : (held.map Prod.snd).getD [] = (found.map (·.entries)).getD [] := by
  rw [← holds, Option.map_map]
  rfl

theorem entriesFrom_of_held {place other : Nat} {path rest : List String}
    (held : (after.scopeAt? place path).map Scope.held = (table.scopeAt? other rest).map Scope.held)
    : after.entriesFrom place path = table.entriesFrom other rest := by
  rw [entriesFrom, ← values_of_held held, values_of_held rfl]
  rfl

theorem entriesFrom_cons {place child : Nat} {name : String}
    (found : (table.scope place).children.lookup name = some child) (rest : List String)
    : table.entriesFrom place (name :: rest) = table.entriesFrom child rest := by
  rw [entriesFrom, scopeAt?_cons, found]
  rfl

theorem entriesFrom_nil (table : ScopeTable α) (place : Nat)
    : table.entriesFrom place [] = (table.scope place).entries :=
  rfl

/-- Nothing is found in a scope that has no child of a name. -/
theorem entriesFrom_missing {place : Nat} {name : String}
    (missing : (table.scope place).children.lookup name = none) (rest : List String)
    : table.entriesFrom place (name :: rest) = [] := by
  rw [entriesFrom, scopeAt?_cons, missing]
  rfl

/-- What is found below a scope is found below the children that it has of each name. -/
def entriesBelow (table : ScopeTable α) (children : List (String × Nat))
    : List String → List (ScopeEntry α)
  | [] => []
  | name :: rest => ((children.lookup name).map (table.entriesFrom · rest)).getD []

theorem entriesFrom_eq_below (table : ScopeTable α) (place : Nat) (name : String)
    (rest : List String)
    : table.entriesFrom place (name :: rest) =
        table.entriesBelow (table.scope place).children (name :: rest) := by
  rw [entriesBelow]
  cases found : (table.scope place).children.lookup name with
  | none => exact entriesFrom_missing found rest
  | some child => exact entriesFrom_cons found rest

/-- What is held at the empty path only. -/
def here (entries : List (ScopeEntry α)) : List String → List (ScopeEntry α)
  | [] => entries
  | _ :: _ => []

/-- What is held below a name only. -/
def below (name : String) (held : List String → List (ScopeEntry α))
    : List String → List (ScopeEntry α)
  | [] => []
  | first :: rest => if first = name then held rest else []

/-- What is found from a scope is held there or found below it. -/
theorem entriesFrom_eq_append (table : ScopeTable α) (place : Nat) (path : List String)
    : table.entriesFrom place path =
        here (table.scope place).entries path
          ++ table.entriesBelow (table.scope place).children path := by
  cases path with
  | nil => exact (List.append_nil _).symm
  | cons name rest => exact table.entriesFrom_eq_below place name rest

theorem entriesBelow_nil (table : ScopeTable α) (path : List String)
    : table.entriesBelow [] path = [] := by
  cases path with
  | nil => rfl
  | cons name rest => rfl

/-- What is found below children is found below the first or below another one. -/
theorem entriesBelow_cons (table : ScopeTable α) {child : String × Nat}
    {children : List (String × Nat)} (names : ((child :: children).map (·.1)).Nodup)
    (path : List String)
    : table.entriesBelow (child :: children) path =
        below child.1 (table.entriesFrom child.2) path ++ table.entriesBelow children path := by
  cases path with
  | nil => rfl
  | cons name rest =>
      rw [entriesBelow, entriesBelow, below, List.lookup_cons]
      by_cases same : name = child.1
      · simp [same, lookup_rest names]
      · have apart : (name == child.1) = false := beq_eq_false_iff_ne.mpr same
        simp [same, apart]

/-- Nothing is found outside the table. -/
theorem entriesFrom_outside {place : Nat} (outside : table.scopes.size ≤ place)
    (path : List String)
    : table.entriesFrom place path = [] := by
  have nothing := scope_outside outside
  cases path with
  | nil => rw [entriesFrom_nil, nothing]; rfl
  | cons name rest =>
      refine entriesFrom_missing ?_ rest
      rw [nothing]
      rfl

/-- The meanings of a qualified name are those of its last part among the entries at its path. -/
theorem matchingIn_concat (table : ScopeTable α) (place : Nat) (path : List String) (name : String)
    : table.matchingIn place (path ++ [name]) =
        namedValues (table.entriesFrom place path) name := by
  unfold ScopeTable.matchingIn entriesFrom scopeAt?
  rw [List.getLast?_concat, List.dropLast_concat]
  cases leads : table.navigate? place path with
  | none => simp [namedValues]
  | some found => simp [valuesIn, namedValues]

/-- A named scope in the one at a place is visited when it is entered and what is done from then on
changes that scope only.
-/
structure Visited (table : ScopeTable α) (place : Nat) (name : String)
    (entered after : ScopeTable α)
    : Prop where
  within : table.ChangesWithin after place
  child : (after.scope place).children.lookup name = some entered.current
  inside : entered.current < after.scopes.size
  before : ∀ path,
    entered.entriesFrom entered.current path = table.entriesFrom place (name :: path)
  own : after.entriesFrom place [] = table.entriesFrom place []
  others : ∀ other rest, other ≠ name →
    after.entriesFrom place (other :: rest) = table.entriesFrom place (other :: rest)

/-- A visit changes what is below the name that is visited only. -/
theorem Nested.visited (nested : table.Nested) {place : Nat} (here : place < table.scopes.size)
    {name : String} {exported : Bool} {entered : ScopeTable α}
    (enters : entered = ScopeTable.enterNamed { table with current := place } name exported)
    (changes : entered.ChangesWithin after entered.current)
    : table.Visited place name entered after := by
  have moved := nested.setCurrent here
  obtain ⟨fresh, size, parent, called, outside⟩ : ChangesWithin { table with current := place }
      entered place := by
    rw [enters]
    exact moved.changesWithin_enterNamed name exported
  have entering : table.ChangesWithin entered place := ⟨fresh, size, parent, called, outside⟩
  have linked : (entered.scope place).children.lookup name = some entered.current := by
    rw [enters]
    exact moved.lookup_enterNamed name exported
  have inTable := fresh.current
  obtain ⟨stands, named⟩ := fresh.child.mp linked
  replace stands := (changes.parent _ inTable).trans stands
  replace named := (changes.name _ inTable).trans named
  refine ⟨entering.trans (changes.outward (.step stands .self)),
    changes.nested.child.mpr ⟨stands, named⟩, Nat.lt_of_lt_of_le inTable changes.size,
    fun path => ?_, ?_, fun other rest differs => ?_⟩
  · rw [enters]
    cases found : (table.scope place).children.lookup name with
    | none =>
        have held := @held_entered α { table with current := place } name found exported path
        rw [entriesFrom, entriesFrom, ← values_of_held held, scopeAt?_cons, found]
        split
        · rfl
        · rfl
    | some child =>
        have held := moved.held_reentered found exported path
        rw [entriesFrom_cons found, entriesFrom, ← values_of_held held, entriesFrom]
        split
        · next none => rw [none]; rfl
        · rw [Option.map_map]; rfl
  · refine entriesFrom_of_held ?_
    rw [changes.scopeAt?_outside fresh fun found leads encloses => ?_]
    · rw [enters]
      exact congrArg some (moved.held_enterNamed name exported)
    · obtain ⟨_, _, impossible, _⟩ := changes.nested.path_into stands leads encloses
      cases impossible
  · refine entriesFrom_of_held (congrArg _ ?_)
    rw [changes.scopeAt?_outside fresh fun found leads encloses => ?_]
    · rw [enters]
      exact moved.scopeAt?_enterNamed_of_ne name exported differs rest
    · obtain ⟨own, _, begins, called, _⟩ := changes.nested.path_into stands leads encloses
      rw [named] at called
      cases called
      exact differs (List.cons.inj begins).1

end ScopeTable

-----------------------------------------------------------------------------------------
-- Gained entries
-----------------------------------------------------------------------------------------

namespace ScopeTable

variable {α : Type} {table middle after target : ScopeTable α}

/-- A table gains entries in its current scope and below when they stand behind those that were
there, and when nothing else changes.
-/
structure Gains (table after : ScopeTable α) (gained : List String → List (ScopeEntry α)) : Prop
    where
  within : table.ChangesWithin after table.current
  current : after.current = table.current
  entries : ∀ path,
    after.entriesFrom table.current path = table.entriesFrom table.current path ++ gained path

theorem Gains.nothing (nested : table.Nested) : table.Gains table fun _ => [] :=
  ⟨.refl nested _, rfl, fun _ => (List.append_nil _).symm⟩

theorem Gains.trans {early late : List String → List (ScopeEntry α)}
    (first : table.Gains middle early) (later : middle.Gains after late)
    : table.Gains after fun path => early path ++ late path := by
  have within := later.within
  have entries := later.entries
  rw [first.current] at within entries
  refine ⟨first.within.trans within, later.current.trans first.current, fun path => ?_⟩
  rw [entries, first.entries, List.append_assoc]

theorem Gains.congr {gained same : List String → List (ScopeEntry α)}
    (gains : table.Gains after gained) (equal : ∀ path, gained path = same path)
    : table.Gains after same :=
  ⟨gains.within, gains.current, fun path => (equal path) ▸ gains.entries path⟩

theorem Nested.gains_register (nested : table.Nested) (name : String) (value : α)
    (exported : Bool)
    : table.Gains (table.register name value exported) (here [⟨name, value, exported⟩]) := by
  refine ⟨nested.changesWithin_register name value exported, rfl, fun path => ?_⟩
  rw [entriesFrom, ScopeTable.register, (onlyAdds_entry _).scopeAt? nested nested.current]
  cases path with
  | nil => rfl
  | cons first rest =>
      rw [if_neg (List.cons_ne_nil _ _)]
      exact (List.append_nil _).symm

/-- Registering entries one by one gains all of them, by induction over the entries. -/
theorem Nested.gains_registerAll (nested : table.Nested) (entries : List (ScopeEntry α))
    (exported : ∀ entry ∈ entries, entry.exported = true)
    : table.Gains
        (entries.foldl (fun table entry => table.register entry.name entry.value true) table)
        (here entries) := by
  induction entries generalizing table with
  | nil =>
      refine (Gains.nothing nested).congr fun path => ?_
      cases path with
      | nil => rfl
      | cons first rest => rfl
  | cons entry rest ih =>
      have first := nested.gains_register entry.name entry.value true
      have later := ih first.within.nested fun entry among => exported entry (.tail _ among)
      refine (first.trans later).congr fun path => ?_
      cases path with
      | nil =>
          show (⟨entry.name, entry.value, true⟩ : ScopeEntry α) :: rest = entry :: rest
          rw [← exported entry (.head _)]
      | cons name path => rfl

/-- What is gained in a named scope while it is visited is gained below its name. -/
theorem Nested.gains_visit (nested : table.Nested) (name : String) (exported : Bool)
    {gained : List String → List (ScopeEntry α)}
    (gains : (table.enterNamed name exported).Gains after gained)
    : table.Gains after.leave (below name gained) := by
  have visited : table.Visited table.current name (table.enterNamed name exported) after :=
    nested.visited nested.current rfl gains.within
  obtain ⟨stands, named⟩ := gains.within.nested.child.mp visited.child
  have back : after.leave = { after with current := table.current } := by
    rw [← gains.current] at stands named
    rcases leave_cases after with ⟨root, _⟩ | ⟨parent, standsIn, ⟨_, _, anonymous⟩ | same⟩
    · rw [root] at stands
      cases stands
    · rw [anonymous] at named
      cases named
    · rw [stands] at standsIn
      cases standsIn
      exact same
  have inside := Nat.lt_of_lt_of_le nested.current visited.within.size
  rw [back]
  refine ⟨visited.within.setCurrent inside, rfl, fun path => ?_⟩
  show after.entriesFrom table.current path = _
  cases path with
  | nil => exact visited.own.trans (List.append_nil _).symm
  | cons first rest =>
      rw [below]
      split
      · next same =>
          rw [same, entriesFrom_cons visited.child, gains.entries, visited.before]
      · next differs => exact (visited.others first rest differs).trans (List.append_nil _).symm

-----------------------------------------------------------------------------------------
-- Exports
-----------------------------------------------------------------------------------------

/-- The exported entries in the scope that a path leads to. -/
def exportsFrom (table : ScopeTable α) (place : Nat) (path : List String)
    : List (ScopeEntry α) :=
  (table.entriesFrom place path).filter (·.exported)

/-- The exported ones of entries below a name. -/
theorem filter_below (name : String) (held : List String → List (ScopeEntry α))
    (path : List String)
    : (below name held path).filter (·.exported) =
        below name (fun rest => (held rest).filter (·.exported)) path := by
  cases path with
  | nil => rfl
  | cons first rest =>
      rw [below, below]
      split
      · rfl
      · rfl

/-- Where nothing is to export there are no exported entries, by induction over the number of
steps.
-/
theorem Nested.exportsFrom_eq_nil (nested : table.Nested) {bound place : Nat}
    (enough : table.scopes.size ≤ place + bound)
    (nothing : table.hasExportsWithin bound place = false) (path : List String)
    : table.exportsFrom place path = [] := by
  induction bound generalizing place path with
  | zero => rw [exportsFrom, entriesFrom_outside (by omega)]; rfl
  | succ bound ih =>
      simp only [hasExportsWithin, Bool.or_eq_false_iff, List.any_eq_false] at nothing
      obtain ⟨⟨_, own⟩, children⟩ := nothing
      cases path with
      | nil => exact List.filter_eq_nil_iff.mpr own
      | cons name rest =>
          cases found : (table.scope place).children.lookup name with
          | none => rw [exportsFrom, entriesFrom_missing found]; rfl
          | some child =>
              have later := nested.earlier (nested.child.mp found).1
              have below := children (name, child) (mem_of_lookup found)
              rw [exportsFrom, entriesFrom_cons found]
              exact ih (by omega) (by simpa using below) rest

/-- Collecting from children gains what they export if collecting from each does, by induction over
the children.
-/
theorem gains_collectChildren {bound : Nat} {children : List (String × Nat)}
    (each : ∀ child ∈ children, ∀ {target : ScopeTable α}, target.Nested →
      target.Gains (table.collectWithin bound child.2 target) (table.exportsFrom child.2))
    (nothing : ∀ child ∈ children, table.hasExports child.2 = false →
      ∀ path, table.exportsFrom child.2 path = [])
    (names : (children.map (·.1)).Nodup) (nested : target.Nested)
    : target.Gains
        (children.foldl
          (fun target child =>
            if table.hasExports child.2 then
              (table.collectWithin bound child.2 (target.enterNamed child.1 true)).leave
            else target)
          target)
        (fun path => (table.entriesBelow children path).filter (·.exported)) := by
  induction children generalizing target with
  | nil => exact (Gains.nothing nested).congr fun path => by rw [entriesBelow_nil]; rfl
  | cons child children ih =>
      have first : target.Gains
          (if table.hasExports child.2 then
              (table.collectWithin bound child.2 (target.enterNamed child.1 true)).leave
            else target)
          (below child.1 (table.exportsFrom child.2)) := by
        split
        · exact nested.gains_visit child.1 true
            (each child (.head _) (nested.enterNamed child.1 true))
        · next skipped =>
            have empty := nothing child (.head _) (Bool.eq_false_iff.mpr skipped)
            refine (Gains.nothing nested).congr fun path => ?_
            cases path with
            | nil => rfl
            | cons name rest => simp [below, empty]
      have later := ih (fun child among => each child (.tail _ among))
        (fun child among => nothing child (.tail _ among)) (List.nodup_cons.mp names).2
        first.within.nested
      refine (first.trans later).congr fun path => ?_
      rw [entriesBelow_cons table names, List.filter_append, filter_below]
      rfl

/-- Collecting the exports of a scope gains just these, by induction over the number of steps. -/
theorem Nested.gains_collectWithin (nested : table.Nested) {bound place : Nat}
    (enough : table.scopes.size ≤ place + bound) (targetNested : target.Nested)
    : target.Gains (table.collectWithin bound place target) (table.exportsFrom place) := by
  induction bound generalizing place target with
  | zero =>
      refine (Gains.nothing targetNested).congr fun path => ?_
      rw [exportsFrom, entriesFrom_outside (by omega)]
      rfl
  | succ bound ih =>
      have own := targetNested.gains_registerAll ((table.scope place).entries.filter (·.exported))
        fun entry among => (List.mem_filter.mp among).2
      have each : ∀ child ∈ (table.scope place).children, ∀ {target : ScopeTable α},
          target.Nested →
          target.Gains (table.collectWithin bound child.2 target) (table.exportsFrom child.2) := by
        intro child among target targetNested
        have later := nested.earlier (nested.child_of_mem among).1
        exact ih (by omega) targetNested
      have children := gains_collectChildren each
        (fun child _ nothing => nested.exportsFrom_eq_nil (Nat.le_add_left _ _) nothing)
        (nested.names place) own.within.nested
      refine (own.trans children).congr fun path => ?_
      rw [exportsFrom, entriesFrom_eq_append, List.filter_append]
      cases path with
      | nil => rfl
      | cons name rest => rfl

/-- What is collected for export are the exported entries, at their paths. -/
theorem Nested.collectExports (nested : table.Nested)
    : table.collectExports.Nested
      ∧ ∀ path, table.collectExports.entriesAt path = table.exportsFrom 0 path := by
  have gains : (empty : ScopeTable α).Gains table.collectExports (table.exportsFrom 0) :=
    nested.gains_collectWithin (Nat.le_add_left _ _) nested_empty
  refine ⟨gains.within.nested, fun path => ?_⟩
  have entries : table.collectExports.entriesFrom 0 path =
      (empty : ScopeTable α).entriesFrom 0 path ++ table.exportsFrom 0 path := gains.entries path
  have none : (empty : ScopeTable α).entriesFrom 0 path = [] := by
    cases path with
    | nil => rfl
    | cons name rest => rfl
  rw [entriesAt, entries, none, List.nil_append]

end ScopeTable

-----------------------------------------------------------------------------------------
-- Outcomes and entries
-----------------------------------------------------------------------------------------

namespace ScopeTable

variable {α : Type} {table middle after other : ScopeTable α} {decide : α → α → MergeDecision}

/-- (Imports decide table place offered outcome) says that offering entries to a scope, and to those
below it, either adds them where they are not skipped, or finds one in conflict. Scopes that no path
leads to from there stay the same.
-/
structure Imports (decide : α → α → MergeDecision) (table : ScopeTable α) (place : Nat)
    (offered : List String → List (ScopeEntry α)) (outcome : Option String × ScopeTable α) : Prop
    where
  within : table.ChangesWithin outcome.2 place
  current : outcome.2.current = table.current
  apart : ∀ other, (∀ path, outcome.2.navigate? place path ≠ some other) →
    outcome.2.scope other = table.scope other
  success : outcome.1 = none → ∀ path,
    importConflict? decide (table.entriesFrom place path) (offered path) = none
      ∧ outcome.2.entriesFrom place path =
          table.entriesFrom place path
            ++ importedEntries decide (table.entriesFrom place path) (offered path)
  failure : ∀ name, outcome.1 = some name →
    ∃ path, importConflict? decide (table.entriesFrom place path) (offered path) = some name

theorem Imports.congr {place : Nat} {offered same : List String → List (ScopeEntry α)}
    {outcome : Option String × ScopeTable α}
    (imports : Imports decide table place offered outcome)
    (equal : ∀ path, offered path = same path)
    : Imports decide table place same outcome := by
  obtain rfl : offered = same := funext equal
  exact imports

/-- Nothing is offered. -/
theorem Imports.nothing (nested : table.Nested) (place : Nat)
    : Imports decide table place (fun _ => []) (none, table) :=
  ⟨.refl nested place, rfl, fun _ _ => rfl, fun _ _ => ⟨rfl, (List.append_nil _).symm⟩,
    fun _ failed => by cases failed⟩

/-- What is offered first may end the import. -/
theorem Imports.stop {place : Nat} {early late : List String → List (ScopeEntry α)} {name : String}
    (first : Imports decide table place early (some name, middle))
    : Imports decide table place (fun path => early path ++ late path) (some name, middle) := by
  refine ⟨first.within, first.current, first.apart, fun succeeded => (by cases succeeded),
    fun other failed => ?_⟩
  obtain ⟨path, conflict⟩ := first.failure other failed
  refine ⟨path, ?_⟩
  rw [importConflict?_append, conflict]
  rfl

/-- More may be offered when all that was offered first is imported. -/
theorem Imports.trans {place : Nat} {early late : List String → List (ScopeEntry α)}
    {outcome : Option String × ScopeTable α}
    (first : Imports decide table place early (none, middle))
    (later : Imports decide middle place late outcome)
    : Imports decide table place (fun path => early path ++ late path) outcome := by
  have before := first.success rfl
  refine ⟨first.within.trans later.within, later.current.trans first.current,
    fun other unreached => ?_,
    fun succeeded path => ?_, fun name failed => ?_⟩
  · exact (later.apart other unreached).trans (first.apart other fun path leads =>
      unreached path (later.within.leads first.within.nested leads))
  · obtain ⟨none, added⟩ := later.success succeeded path
    rw [(before path).2] at none added
    rw [importConflict?_append, importedEntries_append, (before path).1, none, added,
      List.append_assoc]
    exact ⟨rfl, rfl⟩
  · obtain ⟨path, conflict⟩ := later.failure name failed
    rw [(before path).2] at conflict
    refine ⟨path, ?_⟩
    rw [importConflict?_append, (before path).1, conflict]
    rfl

/-- Adding an entry to a scope adds it to what is found there. -/
theorem Nested.entriesFrom_added (nested : table.Nested) {place : Nat}
    (inside : place < table.scopes.size) (entry : ScopeEntry α) (path : List String)
    : (table.modifyScope place fun scope =>
          { scope with entries := scope.entries ++ [entry] }).entriesFrom place path =
        table.entriesFrom place path ++ here [entry] path := by
  rw [entriesFrom, (onlyAdds_entry _).scopeAt? nested inside]
  cases path with
  | nil => rfl
  | cons first rest =>
      rw [if_neg (List.cons_ne_nil _ _)]
      exact (List.append_nil _).symm

/-- Entries are imported into a scope one by one, by induction over them. -/
theorem Nested.imports_mergeEntries (decide : α → α → MergeDecision) (nested : table.Nested)
    {place : Nat} (inside : place < table.scopes.size) (entries : List (ScopeEntry α))
    : Imports decide table place (here entries) (mergeEntries decide table place entries) := by
  induction entries generalizing table with
  | nil =>
      refine (Imports.nothing nested place).congr fun path => ?_
      cases path with
      | nil => rfl
      | cons name rest => rfl
  | cons entry rest ih =>
      have split_ (path : List String)
          : here [entry] path ++ here rest path = here (entry :: rest) path := by
        cases path with
        | nil => rfl
        | cons name rest => rfl
      have own : table.entriesFrom place [] = (table.scope place).entries := rfl
      rw [mergeEntries, valuesIn, ← namedValues, mergeDecision?_entries]
      by_cases conflicts : entry.isDecided decide .conflict (table.scope place).entries = true
      · rw [if_pos conflicts]
        refine ⟨.refl nested place, rfl, fun _ _ => rfl, fun succeeded => (by cases succeeded),
          fun name failed => ⟨[], ?_⟩⟩
        rw [own, here, importConflict?, if_pos conflicts]
        exact failed
      · rw [if_neg conflicts]
        by_cases skipped : entry.isDecided decide .skip (table.scope place).entries = true
        · have first : Imports decide table place (here [entry]) (none, table) := by
            refine ⟨.refl nested place, rfl, fun _ _ => rfl, fun _ path => ?_,
              fun _ failed => by cases failed⟩
            cases path with
            | nil =>
                rw [own, here, importConflict?, importedEntries, if_neg conflicts, if_pos skipped,
                  if_pos skipped]
                exact ⟨rfl, (List.append_nil _).symm⟩
            | cons name rest => exact ⟨rfl, (List.append_nil _).symm⟩
          simp only [skipped, Bool.not_true]
          exact (first.trans (ih nested inside)).congr split_
        · have changes := (onlyAdds_entry entry.imported).changesWithin place nested
          have first : Imports decide table place (here [entry])
              (none, table.modifyScope place fun scope =>
                { scope with entries := scope.entries ++ [entry.imported] }) := by
            refine ⟨changes, rfl, fun other unreached => ?_, fun _ path => ?_,
              fun _ failed => by cases failed⟩
            · rw [scope_modifyScope, if_neg fun here => unreached [] (congrArg some here.1)]
            rw [nested.entriesFrom_added inside]
            cases path with
            | nil =>
                rw [own, here, importConflict?, importedEntries, if_neg conflicts, if_neg skipped,
                  if_neg skipped]
                exact ⟨rfl, rfl⟩
            | cons name rest => exact ⟨rfl, rfl⟩
          simp only [skipped, Bool.not_false]
          exact (first.trans (ih changes.nested (Nat.lt_of_lt_of_le inside changes.size))).congr
            split_

-----------------------------------------------------------------------------------------
-- Scopes below
-----------------------------------------------------------------------------------------

/-- A name is visited to merge what is offered below it. -/
theorem Nested.visited_childOf (nested : table.Nested) {place : Nat}
    (inside : place < table.scopes.size) (name : String)
    (changes : (table.childOf place name).2.ChangesWithin after (table.childOf place name).1)
    : table.Visited place name
        (ScopeTable.enterNamed { table with current := place } name false) after :=
  nested.visited inside rfl
    ⟨changes.nested, changes.size, changes.parent, changes.name, changes.outside⟩

theorem Nested.childOf (nested : table.Nested) {place : Nat} (inside : place < table.scopes.size)
    (name : String)
    : (table.childOf place name).2.Nested
      ∧ (table.childOf place name).1 < (table.childOf place name).2.scopes.size := by
  have moved := nested.setCurrent inside
  have changes := moved.changesWithin_enterNamed name false
  refine ⟨changes.nested.setCurrent ?_, changes.nested.current⟩
  exact Nat.lt_of_lt_of_le nested.current changes.size

/-- Only a scope and its child of a name change when that is made. -/
theorem scope_childOf (table : ScopeTable α) {place other : Nat} (name : String)
    (outer : place ≠ other) (inner : (table.childOf place name).1 ≠ other)
    : (table.childOf place name).2.scope other = table.scope other := by
  show (ScopeTable.enterNamed { table with current := place } name false).scope other = _
  replace inner
      : (ScopeTable.enterNamed { table with current := place } name false).current ≠ other :=
    inner
  rcases enterNamed_cases { table with current := place } name false with
    ⟨child, _, same⟩ | ⟨_, same⟩
  · rw [same] at inner ⊢
    exact (scope_modifyScope child other _).trans (if_neg fun here => inner here.1)
  · rw [same] at inner ⊢
    rw [scope_withChild, if_neg, if_neg fun here => outer here.1]
    · rfl
    · exact Ne.symm inner

/-- What is imported into a child is imported below its name. -/
theorem Nested.imports_child (nested : table.Nested) {place : Nat}
    (inside : place < table.scopes.size) (name : String)
    {offered : List String → List (ScopeEntry α)} {outcome : Option String × ScopeTable α}
    (imports : Imports decide (table.childOf place name).2 (table.childOf place name).1 offered
      outcome)
    : Imports decide table place (below name offered) outcome := by
  have visited := nested.visited_childOf inside name imports.within
  have before (rest : List String)
      : (table.childOf place name).2.entriesFrom (table.childOf place name).1 rest =
          table.entriesFrom place (name :: rest) := visited.before rest
  refine ⟨visited.within, imports.current, fun other unreached => ?_, fun succeeded path => ?_,
    fun conflict failed => ?_⟩
  · have linked : (outcome.2.scope place).children.lookup name =
        some (table.childOf place name).1 :=
      visited.child
    have along (rest : List String)
        : outcome.2.navigate? place (name :: rest) =
            outcome.2.navigate? (table.childOf place name).1 rest := by
      show ((outcome.2.scope place).children.lookup name).bind _ = _
      rw [linked]
      rfl
    refine (imports.apart other fun rest leads => unreached (name :: rest) ?_).trans
      (scope_childOf table name (fun same => unreached [] (congrArg some same))
        fun same => unreached [name] ?_)
    · rw [along, leads]
    · rw [along, ← same]
      rfl
  · cases path with
    | nil => exact ⟨rfl, visited.own.trans (List.append_nil _).symm⟩
    | cons first rest =>
        rw [below]
        split
        · next same =>
            have along := imports.success succeeded rest
            rw [before] at along
            rw [same, entriesFrom_cons visited.child]
            exact along
        · next differs =>
            exact ⟨rfl, (visited.others first rest differs).trans (List.append_nil _).symm⟩
  · obtain ⟨rest, found⟩ := imports.failure conflict failed
    rw [before] at found
    refine ⟨name :: rest, ?_⟩
    rw [below, if_pos rfl]
    exact found

/-- Children are imported by name if each of them is, by induction over the children. -/
theorem Nested.imports_mergeChildren
    {merge : ScopeTable α → Nat → Nat → Option String × ScopeTable α}
    {children : List (String × Nat)} (names : (children.map (·.1)).Nodup)
    (each : ∀ child ∈ children, ∀ {table : ScopeTable α} {own : Nat}, table.Nested →
      own < table.scopes.size →
      Imports decide table own (other.entriesFrom child.2) (merge table own child.2))
    (nested : table.Nested) {place : Nat} (inside : place < table.scopes.size)
    : Imports decide table place (other.entriesBelow children)
        (mergeChildren merge table place children) := by
  induction children generalizing table with
  | nil => exact (Imports.nothing nested place).congr fun path => (entriesBelow_nil _ path).symm
  | cons child children ih =>
      obtain ⟨nestedChild, insideChild⟩ := nested.childOf inside child.1
      have first := nested.imports_child inside child.1
        (each child (.head _) nestedChild insideChild)
      have parts (path : List String) := (other.entriesBelow_cons names path).symm
      rw [mergeChildren]
      dsimp only
      split
      · next name stopped outcome =>
          rw [outcome] at first
          exact first.stop.congr parts
      · next merged outcome =>
          rw [outcome] at first
          refine (first.trans (ih (List.nodup_cons.mp names).2
            (fun child among => each child (.tail _ among)) first.within.nested ?_)).congr parts
          exact Nat.lt_of_lt_of_le inside first.within.size

/-- A scope is imported with all below it, by induction over the number of steps. -/
theorem Nested.imports_mergeWithin (otherNested : other.Nested)
    (decide : α → α → MergeDecision) {bound place otherPlace : Nat}
    (enough : other.scopes.size ≤ otherPlace + bound)
    (nested : table.Nested) (inside : place < table.scopes.size)
    : Imports decide table place (other.entriesFrom otherPlace)
        (mergeWithin decide other bound table place otherPlace) := by
  induction bound generalizing table place otherPlace with
  | zero =>
      refine (Imports.nothing nested place).congr fun path => ?_
      rw [entriesFrom_outside (by omega)]
  | succ bound ih =>
      have own := nested.imports_mergeEntries decide inside (other.scope otherPlace).entries
      have parts (path : List String) := (other.entriesFrom_eq_append otherPlace path).symm
      rw [mergeWithin]
      split
      · next name stopped outcome =>
          rw [outcome] at own
          exact own.stop.congr parts
      · next merged outcome =>
          rw [outcome] at own
          refine (own.trans (own.within.nested.imports_mergeChildren
            (otherNested.names otherPlace) ?_
            (Nat.lt_of_lt_of_le inside own.within.size))).congr parts
          intro child among table own nested inside
          have later := otherNested.earlier (otherNested.child_of_mem among).1
          exact ih (by omega) nested inside

/-- Merging two tables imports the entries of one into the other, path by path. -/
theorem Nested.imports_merge (decide : α → α → MergeDecision) (nested : table.Nested)
    (otherNested : other.Nested)
    : Imports decide table 0 other.entriesAt (table.merge decide other) :=
  otherNested.imports_mergeWithin decide (Nat.le_add_left _ _) nested
    (Nat.lt_of_le_of_lt (Nat.zero_le _) nested.current)

end ScopeTable

end BuildScript
