import BuildScript.Scope.Table
import BuildScript.Proofs.Scope.Transfer

/-! Trees of scopes with a cursor. A scope holds its entries and its named scopes by name. A cursor
is at one scope of a tree and knows the scopes around it: going into a named scope takes it out of
the scope around it, and going back puts it in its place again, while an anonymous scope is
forgotten when it is left. Names are looked up along the way back to the root.

A table of scopes is as good as a tree with a cursor. The scopes of the table that stand around
the current one hold, with all that is below them, what the cursor has there. Every action keeps
that, so that all look-ups give what they give in the tree.
-/

namespace BuildScript

/-- A scope: whether importers see it, its entries in the order in which they were made, and the
named scopes in it.
-/
inductive ScopeTree (α : Type) where
  | node (exported : Bool) (entries : List (ScopeEntry α)) (children : List (String × ScopeTree α))

/-- What is around a scope: the scope that has it as a child of a name, without that child, or the
scope in which it is a block.
-/
inductive ScopeAround (α : Type) where
  | child (exported : Bool) (entries : List (ScopeEntry α)) (name : String)
      (siblings : List (String × ScopeTree α))
  | block (outer : ScopeTree α)

/-- The current scope of a tree and what is around it, innermost first. -/
structure ScopeCursor (α : Type) where
  focus : ScopeTree α
  around : List (ScopeAround α)

namespace ScopeTree

variable {α : Type}

/-- A scope with nothing in it. -/
def empty (exported : Bool) : ScopeTree α := .node exported [] []

/-- Whether importers see a scope, and its entries. -/
def held : ScopeTree α → Bool × List (ScopeEntry α)
  | .node exported entries _ => (exported, entries)

/-- The named scopes in a scope. -/
def children : ScopeTree α → List (String × ScopeTree α)
  | .node _ _ children => children

/-- The named scope in a scope. -/
def child? (tree : ScopeTree α) (name : String) : Option (ScopeTree α) := tree.children.lookup name

/-- The scope at a path. -/
def at? (tree : ScopeTree α) : List String → Option (ScopeTree α)
  | [] => some tree
  | name :: rest => (tree.child? name).bind fun child => child.at? rest

/-- The scope with one more entry. -/
def add (entry : ScopeEntry α) : ScopeTree α → ScopeTree α
  | .node exported entries children => .node exported (entries ++ [entry]) children

/-- The scope, seen by importers from now on if it is entered for export. -/
def reenter (exported : Bool) : ScopeTree α → ScopeTree α
  | .node seen entries children => .node (seen || exported) entries children

/-- The meanings of a name in a scope, in order. -/
def values (tree : ScopeTree α) (name : String) : List α :=
  (tree.held.2.filter (·.name == name)).map (·.value)

/-- The meanings of a qualified name as seen from a scope, in order. -/
def matching (tree : ScopeTree α) (path : List String) : List α :=
  match path.getLast? with
  | none => []
  | some last => ((tree.at? path.dropLast).map (·.values last)).getD []

end ScopeTree

namespace ScopeAround

variable {α : Type}

/-- The scope around another one, which is put in its place. -/
def close : ScopeAround α → ScopeTree α → ScopeTree α
  | .child exported entries name siblings, inner =>
    .node exported entries ((name, inner) :: siblings)
  | .block outer, _ => outer

/-- What is around a child of a scope. -/
def ofChild (name : String) : ScopeTree α → ScopeAround α
  | .node exported entries children =>
    .child exported entries name (children.filter (·.1 != name))

/-- The name of the scope in the one around it, unless it is anonymous. -/
def name? : ScopeAround α → Option String
  | .child _ _ name _ => some name
  | .block _ => none

end ScopeAround

namespace ScopeCursor

variable {α : Type}

/-- At the root of a tree with nothing in it. -/
def root : ScopeCursor α := ⟨.empty true, []⟩

/-- Goes into a named scope, which is as it was left, or new. -/
def enterNamed (cursor : ScopeCursor α) (name : String) (exported : Bool) : ScopeCursor α where
  focus := ((cursor.focus.child? name).map (·.reenter exported)).getD (.empty exported)
  around := .ofChild name cursor.focus :: cursor.around

/-- Goes into a new anonymous scope. -/
def enterLocal (cursor : ScopeCursor α) : ScopeCursor α where
  focus := .empty false
  around := .block cursor.focus :: cursor.around

/-- Goes back to the scope around the current one, unless that is the root. -/
def leave (cursor : ScopeCursor α) : ScopeCursor α :=
  match cursor.around with
  | [] => cursor
  | around :: rest => ⟨around.close cursor.focus, rest⟩

/-- Gives a name a meaning in the current scope. -/
def register (cursor : ScopeCursor α) (name : String) (value : α) (exported : Bool)
    : ScopeCursor α :=
  { cursor with focus := cursor.focus.add ⟨name, value, exported⟩ }

/-- A scope and those around it, innermost first. -/
def outwardFrom (tree : ScopeTree α) : List (ScopeAround α) → List (ScopeTree α)
  | [] => [tree]
  | around :: rest => tree :: outwardFrom (around.close tree) rest

/-- The current scope and those around it, innermost first. -/
def outward (cursor : ScopeCursor α) : List (ScopeTree α) := outwardFrom cursor.focus cursor.around

/-- The meanings of a name in the current scope, in order. -/
def findAllHere (cursor : ScopeCursor α) (name : String) : List α := cursor.focus.values name

/-- The first meaning of a name in the current scope. -/
def findHere? (cursor : ScopeCursor α) (name : String) : Option α :=
  (cursor.findAllHere name).head?

/-- Whether no anonymous scope is open. -/
def isGlobal (cursor : ScopeCursor α) : Bool := cursor.around.all (·.name?.isSome)

/-- All meanings of a qualified name, grouped by scope, innermost first. -/
def findAll (cursor : ScopeCursor α) (path : List String) : List (List α) :=
  (cursor.outward.map (·.matching path)).filter (!·.isEmpty)

/-- The meaning of a qualified name: the last one in the innermost scope that has any. -/
def find? (cursor : ScopeCursor α) (path : List String) : Option α :=
  cursor.outward.findSome? fun tree => (tree.matching path).getLast?

end ScopeCursor

/-- What is done to a table of scopes while a script is read. -/
inductive ScopeAction (α : Type) where
  | enterNamed (name : String) (exported : Bool)
  | enterLocal
  | leave
  | register (name : String) (value : α) (exported : Bool)

namespace ScopeAction

variable {α : Type}

/-- The table after an action. -/
def onTable (table : ScopeTable α) : ScopeAction α → ScopeTable α
  | .enterNamed name exported => table.enterNamed name exported
  | .enterLocal => table.enterLocal
  | .leave => table.leave
  | .register name value exported => table.register name value exported

/-- The cursor after an action. -/
def onCursor (cursor : ScopeCursor α) : ScopeAction α → ScopeCursor α
  | .enterNamed name exported => cursor.enterNamed name exported
  | .enterLocal => cursor.enterLocal
  | .leave => cursor.leave
  | .register name value exported => cursor.register name value exported

end ScopeAction

namespace ScopeTable

variable {α : Type} {table after : ScopeTable α} {tree : ScopeTree α}
  {around : List (ScopeAround α)}

-----------------------------------------------------------------------------------------
-- Scopes and trees
-----------------------------------------------------------------------------------------

/-- (Mirrors table place tree) says that the same is held at all paths from a scope of a table and
from a tree.
-/
def Mirrors (table : ScopeTable α) (place : Nat) (tree : ScopeTree α) : Prop :=
  ∀ path, (table.scopeAt? place path).map Scope.held = (tree.at? path).map ScopeTree.held

/-- (Shows table place tree around) says that a table holds a tree at a place, and around it what
is around the tree.
-/
def Shows (table : ScopeTable α) (place : Nat) (tree : ScopeTree α) : List (ScopeAround α) → Prop
  | [] => table.Mirrors place tree ∧ place = 0
  | around :: rest =>
    table.Mirrors place tree ∧ ∃ parent, (table.scope place).parent? = some parent
      ∧ (table.scope place).name? = around.name? ∧ table.Shows parent (around.close tree) rest

theorem Shows.mirrors {place : Nat} (shows : table.Shows place tree around)
    : table.Mirrors place tree := by
  cases around with
  | nil => exact shows.1
  | cons first rest => exact shows.1

theorem Mirrors.child_of_some {place child : Nat} {name : String}
    (mirrors : table.Mirrors place tree)
    (found : (table.scope place).children.lookup name = some child)
    : ∃ inner, tree.child? name = some inner ∧ table.Mirrors child inner := by
  have below (rest : List String) : (table.scopeAt? child rest).map Scope.held =
      ((tree.child? name).bind fun inner => inner.at? rest).map ScopeTree.held := by
    have along := mirrors (name :: rest)
    rw [scopeAt?_cons, found] at along
    exact along
  cases has : tree.child? name with
  | none =>
      have here := below []
      rw [has] at here
      cases here
  | some inner =>
      refine ⟨inner, rfl, fun rest => ?_⟩
      have along := below rest
      rw [has] at along
      exact along

theorem Mirrors.child_of_none {place : Nat} {name : String} (mirrors : table.Mirrors place tree)
    (missing : (table.scope place).children.lookup name = none)
    : tree.child? name = none := by
  have along := mirrors [name]
  rw [scopeAt?_cons, missing] at along
  cases has : tree.child? name with
  | none => rfl
  | some inner => simp [ScopeTree.at?, has] at along

theorem Mirrors.matchingIn {place : Nat} (mirrors : table.Mirrors place tree) (path : List String)
    : table.matchingIn place path = tree.matching path := by
  unfold ScopeTable.matchingIn ScopeTree.matching
  cases path.getLast? with
  | none => rfl
  | some last =>
      have along := mirrors path.dropLast
      unfold scopeAt? at along
      cases leads : table.navigate? place path.dropLast with
      | none =>
          rw [leads] at along
          cases found : tree.at? path.dropLast with
          | none => rfl
          | some inner =>
              rw [found] at along
              cases along
      | some place =>
          rw [leads] at along
          cases found : tree.at? path.dropLast with
          | none =>
              rw [found] at along
              cases along
          | some inner =>
              rw [found] at along
              have held : (table.scope place).held = inner.held := Option.some.inj along
              have entries : (table.scope place).entries = inner.held.2 := congrArg Prod.snd held
              show table.valuesIn place last = inner.values last
              rw [valuesIn, ScopeTree.values, entries]

-----------------------------------------------------------------------------------------
-- Looking outward and changes
-----------------------------------------------------------------------------------------

/-- The scopes outward of a place hold what is outward of the tree, by induction over what is around
the tree.
-/
theorem Shows.matching (nested : table.Nested) {place : Nat}
    (shows : table.Shows place tree around) {bound : Nat} (within : place < bound)
    (path : List String)
    : (table.outwardWithin bound place).map (table.matchingIn · path) =
        (ScopeCursor.outwardFrom tree around).map (·.matching path) := by
  induction around generalizing place tree bound with
  | nil =>
      obtain ⟨mirrors, rfl⟩ := shows
      obtain ⟨bound, rfl⟩ := Nat.exists_eq_succ_of_ne_zero (Nat.ne_of_gt within)
      have root : (table.scope 0).parent? = none := by
        rw [Option.eq_none_iff_forall_ne_some]
        exact fun parent stands => Nat.not_lt_zero parent (nested.earlier stands)
      simp [outwardWithin, root, ScopeCursor.outwardFrom, mirrors.matchingIn path]
  | cons first rest ih =>
      obtain ⟨mirrors, parent, stands, named, outer⟩ := shows
      obtain ⟨bound, rfl⟩ := Nat.exists_eq_succ_of_ne_zero (Nat.ne_zero_of_lt within)
      have earlier := nested.earlier stands
      have later := ih outer (show parent < bound by omega)
      simp [outwardWithin, stands, ScopeCursor.outwardFrom, mirrors.matchingIn path, later]

/-- The scopes outward of a place are anonymous where the tree has blocks, by induction over what is
around the tree.
-/
theorem Shows.global (nested : table.Nested) {place : Nat}
    (shows : table.Shows place tree around) {bound : Nat} (within : place < bound)
    : ((table.outwardWithin bound place).all fun place =>
        place == 0 || (table.scope place).name?.isSome) = around.all (·.name?.isSome) := by
  induction around generalizing place tree bound with
  | nil =>
      obtain ⟨mirrors, rfl⟩ := shows
      obtain ⟨bound, rfl⟩ := Nat.exists_eq_succ_of_ne_zero (Nat.ne_of_gt within)
      have root : (table.scope 0).parent? = none := by
        rw [Option.eq_none_iff_forall_ne_some]
        exact fun parent stands => Nat.not_lt_zero parent (nested.earlier stands)
      simp [outwardWithin, root]
  | cons first rest ih =>
      obtain ⟨mirrors, parent, stands, named, outer⟩ := shows
      obtain ⟨bound, rfl⟩ := Nat.exists_eq_succ_of_ne_zero (Nat.ne_zero_of_lt within)
      have earlier := nested.earlier stands
      have later := ih outer (show parent < bound by omega)
      have inner : (place == 0) = false := beq_eq_false_iff_ne.mpr (Nat.ne_zero_of_lt earlier)
      simp only [outwardWithin, stands, List.all_cons, later, named, inner, Bool.false_or]

/-- When a table changes within a scope, around it is what was there before, by induction over what
is around the tree.
-/
theorem Shows.update (nested : table.Nested) {place : Nat} {newTree : ScopeTree α}
    (shows : table.Shows place tree around) (changes : table.ChangesWithin after place)
    (mirrors : after.Mirrors place newTree)
    : after.Shows place newTree around := by
  induction around generalizing place tree newTree with
  | nil => exact ⟨mirrors, shows.2⟩
  | cons first rest ih =>
      obtain ⟨_, parent, stands, named, outer⟩ := shows
      have inside := inside_of_parent stands
      replace stands := (changes.parent place inside).trans stands
      replace named := (changes.name place inside).trans named
      refine ⟨mirrors, parent, stands, named, ih outer (changes.outward (.step stands .self)) ?_⟩
      intro path
      have before := outer.mirrors path
      cases first with
      | block outerTree =>
          -- No path leads into an anonymous scope.
          rw [changes.scopeAt?_outside nested fun found leads encloses => ?_]
          · exact before
          · obtain ⟨name, _, _, own, _⟩ := changes.nested.path_into stands leads encloses
            rw [named] at own
            cases own
      | child exported entries name siblings =>
          cases path with
          | nil =>
              rw [changes.scopeAt?_outside nested fun found leads encloses => ?_]
              · exact before
              · obtain ⟨_, _, impossible, _⟩ := changes.nested.path_into stands leads encloses
                cases impossible
          | cons other path =>
              by_cases same : other = name
              · have linked := changes.nested.child.mpr ⟨stands, named⟩
                rw [same, scopeAt?_cons, show _ = some place from linked]
                simpa [ScopeTree.at?, ScopeTree.child?, ScopeTree.children, ScopeAround.close]
                  using mirrors path
              · rw [changes.scopeAt?_outside nested fun found leads encloses => ?_]
                · have apart : (other == name) = false := beq_eq_false_iff_ne.mpr same
                  simpa [ScopeTree.at?, ScopeTree.child?, ScopeTree.children, ScopeAround.close,
                    List.lookup_cons, apart] using before
                · obtain ⟨own, _, begins, called, _⟩ :=
                    changes.nested.path_into stands leads encloses
                  rw [named] at called
                  cases called
                  exact same (List.cons.inj begins).1

/-- A tree is shown by another table if all scopes that it comes from stay the same, by induction
over what is around it.
-/
theorem Shows.kept {place : Nat} (shows : table.Shows place tree around) (kept : Nat → Prop)
    (same : ∀ place, kept place → after.scope place = table.scope place)
    (down : ∀ place name child, kept place →
      (table.scope place).children.lookup name = some child → kept child)
    (up : ∀ place parent, kept place → (table.scope place).parent? = some parent → kept parent)
    (here : kept place)
    : after.Shows place tree around := by
  have mirrors : after.Mirrors place tree := fun path => by
    rw [scopeAt?_kept kept same down path here]
    exact shows.mirrors path
  induction around generalizing place tree with
  | nil => exact ⟨mirrors, shows.2⟩
  | cons first rest ih =>
      obtain ⟨_, parent, stands, named, outer⟩ := shows
      have around := up place parent here stands
      refine ⟨mirrors, parent, ?_, ?_, ih outer around fun path => ?_⟩
      · rw [same place here]
        exact stands
      · rw [same place here]
        exact named
      · rw [scopeAt?_kept kept same down path around]
        exact outer.mirrors path

-----------------------------------------------------------------------------------------
-- Actions
-----------------------------------------------------------------------------------------

/-- A table and a cursor agree when the table shows the cursor's scope where it is itself. -/
structure Agrees (table : ScopeTable α) (cursor : ScopeCursor α) : Prop where
  nested : table.Nested
  shows : table.Shows table.current cursor.focus cursor.around

variable {cursor : ScopeCursor α}

theorem lookup_filter_ne {children : List (String × ScopeTree α)} {name other : String}
    (differs : other ≠ name)
    : (children.filter (·.1 != name)).lookup other = children.lookup other := by
  induction children with
  | nil => rfl
  | cons first rest ih =>
      by_cases own : first.1 = name
      · have apart : (other == first.1) = false := by simpa [own] using differs
        rw [List.filter_cons_of_neg (by simp [own]), ih, List.lookup_cons, apart]
      · rw [List.filter_cons_of_pos (by simp [own]), List.lookup_cons, List.lookup_cons, ih]

/-- A child that is put back is found again, and the other children are as before. -/
theorem child?_close_ofChild (tree inner : ScopeTree α) (name other : String)
    : ((ScopeAround.ofChild name tree).close inner).child? other =
        if other = name then some inner else tree.child? other := by
  cases tree with
  | node exported entries children =>
      show List.lookup other ((name, inner) :: children.filter (·.1 != name)) = _
      rw [List.lookup_cons]
      split
      · next same => rw [if_pos (beq_iff_eq.mp same)]
      · next differs =>
          have apart := beq_eq_false_iff_ne.mp differs
          rw [if_neg apart, lookup_filter_ne apart]
          rfl

theorem held_close_ofChild (tree inner : ScopeTree α) (name : String)
    : ((ScopeAround.ofChild name tree).close inner).held = tree.held := by
  cases tree with
  | node exported entries children => rfl

theorem held_reenter (tree : ScopeTree α) (exported : Bool)
    : (tree.reenter exported).held = (tree.held.1 || exported, tree.held.2) := by
  cases tree with
  | node seen entries children => rfl

theorem children_reenter (tree : ScopeTree α) (exported : Bool)
    : (tree.reenter exported).children = tree.children := by
  cases tree with
  | node seen entries children => rfl

theorem held_add (tree : ScopeTree α) (entry : ScopeEntry α)
    : (tree.add entry).held = (tree.held.1, tree.held.2 ++ [entry]) := by
  cases tree with
  | node seen entries children => rfl

theorem children_add (tree : ScopeTree α) (entry : ScopeEntry α)
    : (tree.add entry).children = tree.children := by
  cases tree with
  | node seen entries children => rfl

/-- A tree with other children has something else at paths only where these begin. -/
theorem at?_of_children {tree other : ScopeTree α} (same : other.children = tree.children)
    (name : String) (rest : List String)
    : other.at? (name :: rest) = tree.at? (name :: rest) := by
  rw [ScopeTree.at?, ScopeTree.child?, same]
  rfl

theorem Agrees.register (agrees : table.Agrees cursor) (name : String) (value : α)
    (exported : Bool)
    : (table.register name value exported).Agrees (cursor.register name value exported) := by
  have changes := agrees.nested.changesWithin_register name value exported
  refine ⟨changes.nested, agrees.shows.update agrees.nested changes fun path => ?_⟩
  have before := agrees.shows.mirrors path
  rw [ScopeTable.register]
  show ((table.modifyScope table.current _).scopeAt? table.current path).map Scope.held = _
  rw [(onlyAdds_entry _).scopeAt? agrees.nested agrees.nested.current]
  cases path with
  | nil =>
      have held : (table.scope table.current).held = cursor.focus.held := Option.some.inj before
      rw [if_pos rfl]
      show _ = some (cursor.focus.add ⟨name, value, exported⟩).held
      rw [held_add, ← held]
      rfl
  | cons first rest =>
      rw [if_neg (List.cons_ne_nil _ _)]
      show _ = ((cursor.focus.add ⟨name, value, exported⟩).at? (first :: rest)).map _
      rw [at?_of_children (children_add _ _), ← before]

theorem Agrees.enterNamed (agrees : table.Agrees cursor) (name : String) (exported : Bool)
    : (table.enterNamed name exported).Agrees (cursor.enterNamed name exported) := by
  have nested := agrees.nested
  have changes := nested.changesWithin_enterNamed name exported
  have linked := nested.lookup_enterNamed name exported
  obtain ⟨stands, named⟩ := changes.nested.child.mp linked
  -- The scope that is entered holds what the tree has under its name.
  have inner : (table.enterNamed name exported).Mirrors (table.enterNamed name exported).current
      (cursor.enterNamed name exported).focus := by
    intro path
    cases found : (table.scope table.current).children.lookup name with
    | none =>
        have missing := agrees.shows.mirrors.child_of_none found
        rw [held_entered found, ScopeCursor.enterNamed, missing]
        cases path with
        | nil => rfl
        | cons first rest => rfl
    | some child =>
        obtain ⟨tree, has, mirrors⟩ := agrees.shows.mirrors.child_of_some found
        have below := mirrors path
        rw [nested.held_reentered found, ScopeCursor.enterNamed, has]
        show _ = ((tree.reenter exported).at? path).map ScopeTree.held
        cases path with
        | nil =>
            have held : (table.scope child).held = tree.held := Option.some.inj below
            rw [if_pos rfl]
            show _ = some (tree.reenter exported).held
            rw [held_reenter, ← held]
            rfl
        | cons first rest =>
            rw [if_neg (List.cons_ne_nil _ _), at?_of_children (children_reenter _ _)]
            exact below
  refine ⟨changes.nested, inner, table.current, stands, ?_, ?_⟩
  · rw [named]
    cases cursor.focus
    rfl
  · refine agrees.shows.update nested changes fun path => ?_
    have before := agrees.shows.mirrors path
    cases path with
    | nil =>
        show some (Scope.held ((table.enterNamed name exported).scope table.current)) =
          some ((ScopeAround.ofChild name cursor.focus).close _).held
        rw [nested.held_enterNamed, held_close_ofChild]
        exact before
    | cons first rest =>
        rw [ScopeTree.at?, child?_close_ofChild]
        split
        · next same =>
            rw [same, scopeAt?_cons, linked]
            exact inner rest
        · next differs =>
            rw [nested.scopeAt?_enterNamed_of_ne name exported differs]
            exact before

theorem Agrees.enterLocal (agrees : table.Agrees cursor)
    : table.enterLocal.Agrees cursor.enterLocal := by
  have new : table.enterLocal.scope table.scopes.size =
      ⟨none, false, some table.current, [], []⟩ := by
    rw [scope_enterLocal, if_pos rfl]
  refine ⟨agrees.nested.enterLocal, fun path => ?_, table.current, ?_, ?_, ?_⟩
  · show (table.enterLocal.scopeAt? table.scopes.size path).map Scope.held = _
    cases path with
    | nil => rw [scopeAt?_nil, new]; rfl
    | cons name rest => rw [scopeAt?_cons, new]; rfl
  · show (table.enterLocal.scope table.scopes.size).parent? = _
    rw [new]
  · show (table.enterLocal.scope table.scopes.size).name? = _
    rw [new]
    rfl
  · refine agrees.shows.kept (· < table.scopes.size) (fun place inside => ?_)
      (fun place name child _ found => ?_)
      (fun place parent inside stands => ?_) agrees.nested.current
    · rw [scope_enterLocal, if_neg (Nat.ne_of_lt inside)]
    · exact inside_of_parent (agrees.nested.child.mp found).1
    · exact Nat.lt_trans (agrees.nested.earlier stands) inside

theorem Agrees.leave (agrees : table.Agrees cursor) : table.leave.Agrees cursor.leave := by
  have nested := agrees.nested
  have shows := agrees.shows
  refine ⟨nested.leave, ?_⟩
  unfold ScopeCursor.leave
  cases around : cursor.around with
  | nil =>
      rw [around] at shows
      obtain ⟨_, root⟩ := shows
      rcases leave_cases table with ⟨_, same⟩ | ⟨parent, stands, _⟩
      · rw [same]
        exact agrees.shows
      · rw [root] at stands
        exact absurd (nested.earlier stands) (Nat.not_lt_zero parent)
  | cons first rest =>
      rw [around] at shows
      obtain ⟨_, parent, stands, _, outer⟩ := shows
      rcases leave_cases table with ⟨none, _⟩ | ⟨other, standsIn, ⟨same, last, anonymous⟩ | same⟩
      · rw [none] at stands
        cases stands
      · rw [stands] at standsIn
        cases standsIn
        rw [same]
        exact outer.kept (· < table.current) (fun place kept => scope_pop_of_lt last kept)
          (nested.down_pop last anonymous)
          (fun place parent kept stands => Nat.lt_trans (nested.earlier stands) kept)
          (nested.earlier stands)
      · rw [stands] at standsIn
        cases standsIn
        rw [same]
        exact outer.kept (fun _ => True) (fun _ _ => rfl) (fun _ _ _ _ _ => trivial)
          (fun _ _ _ _ => trivial)
          trivial

theorem Agrees.act (agrees : table.Agrees cursor) (action : ScopeAction α)
    : (action.onTable table).Agrees (action.onCursor cursor) := by
  cases action with
  | enterNamed name exported => exact agrees.enterNamed name exported
  | enterLocal => exact agrees.enterLocal
  | leave => exact agrees.leave
  | register name value exported => exact agrees.register name value exported

/-- Actions keep agreement, by induction over them. -/
theorem Agrees.actAll (agrees : table.Agrees cursor) (actions : List (ScopeAction α))
    : (actions.foldl ScopeAction.onTable table).Agrees
        (actions.foldl ScopeAction.onCursor cursor) := by
  induction actions generalizing table cursor with
  | nil => exact agrees
  | cons first rest ih => exact ih (agrees.act first)

-----------------------------------------------------------------------------------------
-- The tree in a table
-----------------------------------------------------------------------------------------

/-- The tree of the named scopes below a scope, as far as `bound` steps go. -/
def treeWithin (table : ScopeTable α) : Nat → Nat → ScopeTree α
  | 0, _ => .empty false
  | bound + 1, place =>
    let scope := table.scope place
    .node scope.exported scope.entries
      (scope.children.map fun child => (child.1, table.treeWithin bound child.2))

/-- The tree of the named scopes below a scope. -/
def treeAt (table : ScopeTable α) (place : Nat) : ScopeTree α :=
  table.treeWithin table.scopes.size place

/-- What is around a scope that stands in another one. -/
def aroundOf (table : ScopeTable α) (place parent : Nat) : ScopeAround α :=
  match (table.scope place).name? with
  | none => .block (table.treeAt parent)
  | some name => .ofChild name (table.treeAt parent)

/-- What is around a scope, as far as `bound` steps go. -/
def aroundWithin (table : ScopeTable α) : Nat → Nat → List (ScopeAround α)
  | 0, _ => []
  | bound + 1, place =>
    match (table.scope place).parent? with
    | none => []
    | some parent => table.aroundOf place parent :: table.aroundWithin bound parent

/-- The tree in a table, with the cursor at the current scope. -/
def toCursor (table : ScopeTable α) : ScopeCursor α where
  focus := table.treeAt table.current
  around := table.aroundWithin (table.current + 1) table.current

theorem lookup_map_snd {β γ : Type} (pairs : List (String × β)) (change : β → γ) (name : String)
    : (pairs.map fun pair => (pair.1, change pair.2)).lookup name =
        (pairs.lookup name).map change := by
  induction pairs with
  | nil => rfl
  | cons first rest ih =>
      rw [List.map_cons, List.lookup_cons, List.lookup_cons, ih]
      split
      · rfl
      · rfl

/-- The tree below a scope holds what is found from it, by induction over the number of steps. -/
theorem Nested.mirrors_treeWithin (nested : table.Nested) {bound place : Nat}
    (inside : place < table.scopes.size) (enough : table.scopes.size ≤ place + bound)
    : table.Mirrors place (table.treeWithin bound place) := by
  induction bound generalizing place with
  | zero => omega
  | succ bound ih =>
      intro path
      cases path with
      | nil => rfl
      | cons name rest =>
          rw [scopeAt?_cons, ScopeTree.at?, ScopeTree.child?, treeWithin, ScopeTree.children,
            lookup_map_snd]
          cases found : (table.scope place).children.lookup name with
          | none => rfl
          | some child =>
              have stands := (nested.child.mp found).1
              have later := nested.earlier stands
              exact ih (inside_of_parent stands) (by omega) rest

/-- A tree is put back into the scope around it. -/
theorem Nested.mirrors_close (nested : table.Nested) {place parent : Nat}
    (stands : (table.scope place).parent? = some parent) (mirrors : table.Mirrors place tree)
    : table.Mirrors parent ((table.aroundOf place parent).close tree) := by
  have inside := Nat.lt_trans (nested.earlier stands) (inside_of_parent stands)
  have outer : table.Mirrors parent (table.treeAt parent) :=
    nested.mirrors_treeWithin inside (Nat.le_add_left _ _)
  intro path
  unfold aroundOf
  split
  · exact outer path
  · next name named =>
      cases path with
      | nil =>
          show _ = some (((ScopeAround.ofChild name (table.treeAt parent)).close tree).held)
          rw [held_close_ofChild]
          exact outer []
      | cons other rest =>
          rw [ScopeTree.at?, child?_close_ofChild]
          split
          · next same =>
              rw [same, scopeAt?_cons, nested.child.mpr ⟨stands, named⟩]
              exact mirrors rest
          · exact outer (other :: rest)

theorem name?_aroundOf (table : ScopeTable α) (place parent : Nat)
    : (table.aroundOf place parent).name? = (table.scope place).name? := by
  unfold aroundOf
  split
  · next anonymous => exact anonymous.symm
  · next name named =>
      rw [named]
      cases table.treeAt parent
      rfl

/-- A table shows what is around a scope of it, by induction over the number of steps. -/
theorem Nested.shows_aroundWithin (nested : table.Nested) {bound place : Nat}
    (inside : place < table.scopes.size) (within : place < bound)
    (mirrors : table.Mirrors place tree)
    : table.Shows place tree (table.aroundWithin bound place) := by
  induction bound generalizing place tree with
  | zero => omega
  | succ bound ih =>
      rw [aroundWithin]
      cases stands : (table.scope place).parent? with
      | none => exact ⟨mirrors, nested.root place inside stands⟩
      | some parent =>
          have earlier := nested.earlier stands
          exact ⟨mirrors, parent, stands, (name?_aroundOf table place parent).symm,
            ih (Nat.lt_trans earlier inside) (by omega) (nested.mirrors_close stands mirrors)⟩

/-- A nested table agrees with the tree in it. -/
theorem Nested.agrees (nested : table.Nested) : table.Agrees table.toCursor :=
  ⟨nested, nested.shows_aroundWithin nested.current (Nat.lt_succ_self _)
    (nested.mirrors_treeWithin nested.current (Nat.le_add_left _ _))⟩

-----------------------------------------------------------------------------------------
-- Look-ups
-----------------------------------------------------------------------------------------

theorem Agrees.outward (agrees : table.Agrees cursor) (path : List String)
    : table.outward.map (table.matchingIn · path) = cursor.outward.map (·.matching path) :=
  agrees.shows.matching agrees.nested (Nat.lt_succ_self _) path

theorem Agrees.findAll (agrees : table.Agrees cursor) (path : List String)
    : table.findAll path = cursor.findAll path := by
  rw [ScopeTable.findAll, agrees.outward]
  rfl

theorem Agrees.find? (agrees : table.Agrees cursor) (path : List String)
    : table.find? path = cursor.find? path := by
  have table_ : table.find? path =
      (table.outward.map (table.matchingIn · path)).findSome? List.getLast? := by
    rw [List.findSome?_map]
    rfl
  rw [table_, agrees.outward, List.findSome?_map]
  rfl

theorem Agrees.findAllHere (agrees : table.Agrees cursor) (name : String)
    : table.findAllHere name = cursor.findAllHere name :=
  agrees.shows.mirrors.matchingIn [name]

theorem Agrees.isGlobal (agrees : table.Agrees cursor) : table.isGlobal = cursor.isGlobal :=
  agrees.shows.global agrees.nested (Nat.lt_succ_self _)

/-- A table of scopes refines a tree with a cursor. From any table that is built, whatever is
entered, left and registered, all look-ups give what they give in the tree that begins as that in
the table. An empty table begins as an empty tree. Leaving a scope neither drops nor changes a scope
that is still reached, nor lets a path lead elsewhere.
-/
theorem Built.refines_tree {start : ScopeTable α} (built : start.Built)
    (actions : List (ScopeAction α))
    : let table := actions.foldl ScopeAction.onTable start
      let cursor := actions.foldl ScopeAction.onCursor start.toCursor
      (ScopeTable.empty : ScopeTable α).toCursor = .root
        ∧ (∀ path, table.find? path = cursor.find? path)
        ∧ (∀ path, table.findAll path = cursor.findAll path)
        ∧ (∀ name, table.findHere? name = cursor.findHere? name)
        ∧ (∀ name, table.findAllHere name = cursor.findAllHere name)
        ∧ table.isGlobal = cursor.isGlobal
        ∧ table.Keeps table.leave := by
  have agrees := built.nested.agrees.actAll actions
  exact ⟨rfl, agrees.find?, agrees.findAll,
    fun name => congrArg List.head? (agrees.findAllHere name), agrees.findAllHere, agrees.isGlobal,
    agrees.nested.keeps_leave⟩

/-- A block in a namespace has a namespace of its own, which is gone when the block is left. -/
theorem refines_tree_once
    : let actions : List (ScopeAction Nat) :=
        [.enterNamed "text" false, .register "pad" 1 false, .leave, .enterLocal,
          .enterNamed "text" false, .register "pad" 2 false, .leave, .leave, .leave]
      let table := actions.foldl ScopeAction.onTable .empty
      table.find? ["text", "pad"] = some 1 ∧ table.Keeps table.leave := by
  have refines := Built.refines_tree (Built.empty (α := Nat))
    [.enterNamed "text" false, .register "pad" 1 false, .leave, .enterLocal,
      .enterNamed "text" false, .register "pad" 2 false, .leave, .leave, .leave]
  exact ⟨(refines.2.1 ["text", "pad"]).trans (by decide +kernel), refines.2.2.2.2.2.2⟩

end ScopeTable

end BuildScript
