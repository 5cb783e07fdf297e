/-! Tables of names in nested scopes. Named scopes are namespaces, classes and enumerations:
they stay when they are left, and entering a name again leads to the same scope. Anonymous
scopes are blocks, which are gone when they are left. A scope's parent and children are places
in the table, and a parent stands before its children.
-/

namespace BuildScript

/-- A name with its meaning, and whether importers see it. -/
structure ScopeEntry (α : Type) where
  name : String
  value : α
  exported : Bool
deriving Repr, DecidableEq

/-- A scope: the place of its parent, the places of its named children in the order in which
they were first entered, and its entries in the order in which they were made.
-/
structure Scope (α : Type) where
  name? : Option String
  exported : Bool
  parent? : Option Nat
  children : List (String × Nat)
  entries : List (ScopeEntry α)
deriving Repr, DecidableEq

instance {α : Type} : Inhabited (Scope α) := ⟨⟨none, false, none, [], []⟩⟩

/-- A table of scopes and the place of the one that is current. The root stands first. -/
structure ScopeTable (α : Type) where
  scopes : Array (Scope α)
  current : Nat
deriving Repr, DecidableEq

/-- What becomes of an imported entry beside an existing one of the same name. -/
inductive MergeDecision where
  | add
  | skip
  | conflict
deriving Repr, DecidableEq, Inhabited

namespace ScopeTable

variable {α : Type}

/-- The table with an empty root only. -/
def empty : ScopeTable α := ⟨#[⟨none, true, none, [], []⟩], 0⟩

instance : Inhabited (ScopeTable α) := ⟨empty⟩

/-- The scope at a place. -/
def scope (table : ScopeTable α) (place : Nat) : Scope α := table.scopes.getD place default

/-- Changes the scope at a place. -/
def modifyScope (table : ScopeTable α) (place : Nat) (change : Scope α → Scope α)
    : ScopeTable α :=
  { table with scopes := table.scopes.modify place change }

/-! ## Moving -/

/-- Enters the named child of the current scope, which is made when it is missing. -/
def enterNamed (table : ScopeTable α) (name : String) (exported : Bool) : ScopeTable α :=
  match (table.scope table.current).children.lookup name with
  | some child =>
    { table.modifyScope child fun scope =>
        { scope with exported := scope.exported || exported } with
      current := child }
  | none =>
    let child := table.scopes.size
    let linked := table.modifyScope table.current fun scope =>
      { scope with children := scope.children ++ [(name, child)] }
    { scopes := linked.scopes.push ⟨some name, exported, some table.current, [], []⟩
      current := child }

/-- Enters a new anonymous scope. -/
def enterLocal (table : ScopeTable α) : ScopeTable α :=
  { scopes := table.scopes.push ⟨none, false, some table.current, [], []⟩
    current := table.scopes.size }

/-- Leaves the current scope, unless it is the root. An anonymous scope is dropped if nothing
was added after it.
-/
def leave (table : ScopeTable α) : ScopeTable α :=
  let left := table.scope table.current
  match left.parent? with
  | none => table
  | some parent =>
    if left.name?.isNone && table.current + 1 == table.scopes.size then
      { scopes := table.scopes.pop, current := parent }
    else { table with current := parent }

/-! ## Entries -/

/-- Gives a name a meaning in the current scope. -/
def register (table : ScopeTable α) (name : String) (value : α) (exported : Bool)
    : ScopeTable α :=
  table.modifyScope table.current fun scope =>
    { scope with entries := scope.entries ++ [⟨name, value, exported⟩] }

/-- The meanings of a name in a scope, in order. -/
def valuesIn (table : ScopeTable α) (place : Nat) (name : String) : List α :=
  ((table.scope place).entries.filter (·.name == name)).map (·.value)

/-- The meanings of a name in the current scope, in order. -/
def findAllHere (table : ScopeTable α) (name : String) : List α :=
  table.valuesIn table.current name

/-- The first meaning of a name in the current scope. -/
def findHere? (table : ScopeTable α) (name : String) : Option α :=
  (table.findAllHere name).head?

/-- The places of a scope and those around it, innermost first, as far as `bound` steps go. -/
def outwardWithin (table : ScopeTable α) : Nat → Nat → List Nat
  | 0, _ => []
  | bound + 1, place =>
    place :: match (table.scope place).parent? with
      | none => []
      | some parent => table.outwardWithin bound parent

/-- The places of the current scope and those around it, innermost first. -/
def outward (table : ScopeTable α) : List Nat :=
  table.outwardWithin (table.current + 1) table.current

/-- Whether no anonymous scope is open. -/
def isGlobal (table : ScopeTable α) : Bool :=
  table.outward.all fun place => place == 0 || (table.scope place).name?.isSome

/-- The place that a path of named scopes leads to. -/
def navigate? (table : ScopeTable α) (place : Nat) (path : List String) : Option Nat :=
  path.foldlM (fun place name => (table.scope place).children.lookup name) place

/-- The meanings of a qualified name as seen from a scope, in order. -/
def matchingIn (table : ScopeTable α) (place : Nat) (path : List String) : List α :=
  match path.getLast? with
  | none => []
  | some last =>
    match table.navigate? place path.dropLast with
    | none => []
    | some found => table.valuesIn found last

/-- All meanings of a qualified name, grouped by scope, innermost first. -/
def findAll (table : ScopeTable α) (path : List String) : List (List α) :=
  (table.outward.map (table.matchingIn · path)).filter (!·.isEmpty)

/-- The meaning of a qualified name: the last one in the innermost scope that has any. -/
def find? (table : ScopeTable α) (path : List String) : Option α :=
  table.outward.findSome? fun place => (table.matchingIn place path).getLast?

/-! ## Exports -/

/-- Whether there is anything to export in a scope or below it, as far as `bound` steps go. -/
def hasExportsWithin (table : ScopeTable α) : Nat → Nat → Bool
  | 0, _ => false
  | bound + 1, place =>
    let scope := table.scope place
    scope.exported || scope.entries.any (·.exported)
      || scope.children.any fun child => table.hasExportsWithin bound child.2

/-- Whether there is anything to export in a scope or below it. -/
def hasExports (table : ScopeTable α) (place : Nat) : Bool :=
  table.hasExportsWithin table.scopes.size place

/-- Adds the exports of a scope to the current scope of another table, as far as `bound` steps
go.
-/
def collectWithin (table : ScopeTable α) : Nat → Nat → ScopeTable α → ScopeTable α
  | 0, _, target => target
  | bound + 1, place, target =>
    let scope := table.scope place
    let target := (scope.entries.filter (·.exported)).foldl
      (fun target entry => target.register entry.name entry.value true) target
    scope.children.foldl
      (fun target child =>
        if table.hasExports child.2 then
          (table.collectWithin bound child.2 (target.enterNamed child.1 true)).leave
        else target)
      target

/-- The table of the exported entries and of the named scopes that lead to them. -/
def collectExports (table : ScopeTable α) : ScopeTable α :=
  table.collectWithin table.scopes.size 0 empty

/-! ## Imports -/

/-- Whether an entry is to be added to existing ones of its name, or nothing if it is in
conflict with one of them.
-/
def mergeDecision? (decide : α → α → MergeDecision) (existing : List α) (value : α)
    : Option Bool :=
  existing.foldlM
    (fun add old =>
      match decide old value with
      | .add => some add
      | .skip => some false
      | .conflict => none)
    true

/-- Adds entries to a scope, none of them for export, up to the first one in conflict, whose
name is told.
-/
def mergeEntries (decide : α → α → MergeDecision) (table : ScopeTable α) (place : Nat)
    : List (ScopeEntry α) → Option String × ScopeTable α
  | [] => (none, table)
  | entry :: rest =>
    match mergeDecision? decide (table.valuesIn place entry.name) entry.value with
    | none => (some entry.name, table)
    | some false => mergeEntries decide table place rest
    | some true =>
      mergeEntries decide
        (table.modifyScope place fun scope =>
          { scope with entries := scope.entries ++ [⟨entry.name, entry.value, false⟩] })
        place rest

/-- The place of a named child, which is made when it is missing, and the table with it. -/
def childOf (table : ScopeTable α) (place : Nat) (name : String) : Nat × ScopeTable α :=
  let entered := { table with current := place }.enterNamed name false
  (entered.current, { entered with current := table.current })

/-- Merges children by name, up to the first conflict. -/
def mergeChildren (merge : ScopeTable α → Nat → Nat → Option String × ScopeTable α)
    (table : ScopeTable α) (place : Nat) : List (String × Nat) → Option String × ScopeTable α
  | [] => (none, table)
  | child :: rest =>
    let (own, table) := table.childOf place child.1
    match merge table own child.2 with
    | (some name, table) => (some name, table)
    | (none, table) => mergeChildren merge table place rest

/-- Merges a scope of another table and all below it into a scope, as far as `bound` steps go.
-/
def mergeWithin (decide : α → α → MergeDecision) (other : ScopeTable α)
    : Nat → ScopeTable α → Nat → Nat → Option String × ScopeTable α
  | 0, table, _, _ => (none, table)
  | bound + 1, table, place, otherPlace =>
    let source := other.scope otherPlace
    match mergeEntries decide table place source.entries with
    | (some name, table) => (some name, table)
    | (none, table) =>
      mergeChildren (mergeWithin decide other bound) table place source.children

/-- Merges the root of another table into the root, and tells the name of the first entry in
conflict.
-/
def merge (decide : α → α → MergeDecision) (table other : ScopeTable α)
    : Option String × ScopeTable α :=
  mergeWithin decide other other.scopes.size table 0 0

end ScopeTable

end BuildScript
