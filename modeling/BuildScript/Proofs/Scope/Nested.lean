import BuildScript.Proofs.Scope.Paths
import Mathlib.Data.List.Induction
import Mathlib.Data.List.Nodup

/-! Scopes that stand in each other. A table nests when every scope stands in an earlier one and
when the named scopes are just the children of the scopes that they stand in. Where a nested table
changes within one scope, paths that lead elsewhere find what they found.
-/

namespace BuildScript

/-- Whether importers see a scope, and its entries. -/
def Scope.held {α : Type} (scope : Scope α) : Bool × List (ScopeEntry α) :=
  (scope.exported, scope.entries)

namespace ScopeTable

variable {α : Type} {table middle after : ScopeTable α}

-----------------------------------------------------------------------------------------
-- Nesting
-----------------------------------------------------------------------------------------

/-- A table nests when the current scope is one of its own, when all scopes but the first one stand
in earlier ones, and when the children of a scope are the named scopes that stand in it, each of
another name.
-/
structure Nested (table : ScopeTable α) : Prop where
  current : table.current < table.scopes.size
  root : ∀ place < table.scopes.size, (table.scope place).parent? = none → place = 0
  earlier : ∀ {place parent}, (table.scope place).parent? = some parent → parent < place
  child : ∀ {place name child}, (table.scope place).children.lookup name = some child ↔
    (table.scope child).parent? = some place ∧ (table.scope child).name? = some name
  names : ∀ place, ((table.scope place).children.map (·.1)).Nodup

/-- A scope that stands in another one is a scope of the table. -/
theorem inside_of_parent {place parent : Nat} (stands : (table.scope place).parent? = some parent)
    : place < table.scopes.size := by
  by_contra outside
  rw [scope_outside (Nat.le_of_not_lt outside)] at stands
  cases stands

theorem Nested.shaped (nested : table.Nested) : table.Shaped := by
  refine ⟨nested.current, fun place name child found => ?_⟩
  obtain ⟨parent, named⟩ := nested.child.mp found
  exact ⟨inside_of_parent parent, parent, by rw [named]; rfl⟩

theorem Nested.setCurrent (nested : table.Nested) {current : Nat}
    (inside : current < table.scopes.size)
    : Nested { table with current } :=
  ⟨inside, nested.root, nested.earlier, nested.child, nested.names⟩

theorem nested_empty : (empty : ScopeTable α).Nested := by
  have parent (place : Nat) : ((empty : ScopeTable α).scope place).parent? = none := by
    cases place with
    | zero => rfl
    | succ place => rfl
  have children (place : Nat) : ((empty : ScopeTable α).scope place).children = [] := by
    cases place with
    | zero => rfl
    | succ place => rfl
  refine ⟨Nat.zero_lt_one, fun place inside _ => Nat.lt_one_iff.mp inside, fun stands => ?_,
    ⟨fun found => ?_, fun stands => ?_⟩, fun place => ?_⟩
  · rw [parent] at stands
    cases stands
  · rw [children] at found
    cases found
  · rw [parent] at stands
    cases stands.1
  · rw [children]
    exact .nil

/-- The name of a pair is not found behind it if all names differ. -/
theorem lookup_rest {child : String × Nat} {children : List (String × Nat)}
    (names : ((child :: children).map (·.1)).Nodup)
    : children.lookup child.1 = none := by
  refine List.lookup_eq_none_iff.mpr fun other among => ?_
  have differs : child.1 ≠ other.1 := fun equal =>
    (List.nodup_cons.mp names).1 (List.mem_map.mpr ⟨other, among, equal.symm⟩)
  simpa using differs

/-- A pair is found by its name if all names differ, by induction over the pairs. -/
theorem lookup_of_mem {children : List (String × Nat)} (names : (children.map (·.1)).Nodup)
    {child : String × Nat} (among : child ∈ children)
    : children.lookup child.1 = some child.2 := by
  induction children with
  | nil => cases among
  | cons first rest ih =>
      rw [List.lookup_cons]
      rcases List.mem_cons.mp among with rfl | inRest
      · simp
      · have found := ih (List.nodup_cons.mp names).2 inRest
        have differs : (child.1 == first.1) = false := by
          rw [beq_eq_false_iff_ne]
          intro same
          rw [same, lookup_rest names] at found
          cases found
        rw [differs]
        exact found

/-- The children of a scope stand in it under their names. -/
theorem Nested.child_of_mem (nested : table.Nested) {place : Nat} {child : String × Nat}
    (among : child ∈ (table.scope place).children)
    : (table.scope child.2).parent? = some place
      ∧ (table.scope child.2).name? = some child.1 :=
  nested.child.mp (lookup_of_mem (nested.names place) among)

-----------------------------------------------------------------------------------------
-- Paths
-----------------------------------------------------------------------------------------

/-- The last step of a path leads to a named scope from the one that it stands in. -/
theorem Nested.navigate?_concat_iff (nested : table.Nested) {place found : Nat}
    {path : List String} {name : String}
    : table.navigate? place (path ++ [name]) = some found ↔
        ∃ parent, table.navigate? place path = some parent
          ∧ (table.scope found).parent? = some parent
          ∧ (table.scope found).name? = some name := by
  rw [navigate?_concat, Option.bind_eq_some_iff]
  simp only [nested.child]

theorem navigate?_append (table : ScopeTable α) (place : Nat) (front back : List String)
    : table.navigate? place (front ++ back) =
        (table.navigate? place front).bind fun found => table.navigate? found back :=
  List.foldlM_append

/-- Paths lead to later scopes, by induction from the end of the path. -/
theorem Nested.le_of_navigate? (nested : table.Nested) {place found : Nat} {path : List String}
    (leads : table.navigate? place path = some found)
    : place ≤ found := by
  induction path using List.reverseRecOn generalizing found with
  | nil =>
      cases leads
      exact Nat.le_refl _
  | append_singleton front name ih =>
      obtain ⟨parent, before, stands, _⟩ := nested.navigate?_concat_iff.mp leads
      exact Nat.le_of_lt (Nat.lt_of_le_of_lt (ih before) (nested.earlier stands))

/-- No path but the empty one leads back. -/
theorem Nested.eq_nil_of_navigate? (nested : table.Nested) {place : Nat} {path : List String}
    (leads : table.navigate? place path = some place)
    : path = [] := by
  rcases List.eq_nil_or_concat path with rfl | ⟨front, name, rfl⟩
  · rfl
  · rw [List.concat_eq_append] at leads
    obtain ⟨parent, before, stands, _⟩ := nested.navigate?_concat_iff.mp leads
    have back := nested.earlier stands
    have ahead := nested.le_of_navigate? before
    omega

-----------------------------------------------------------------------------------------
-- Scopes around scopes
-----------------------------------------------------------------------------------------

/-- (Encloses table outer inner) says that a scope is another one or stands around it. -/
inductive Encloses (table : ScopeTable α) (outer : Nat) : Nat → Prop where
  | self : Encloses table outer outer
  | step {inner parent : Nat} (stands : (table.scope inner).parent? = some parent)
      (encloses : Encloses table outer parent)
      : Encloses table outer inner

theorem Encloses.trans {outer between inner : Nat} (first : table.Encloses outer between)
    (later : table.Encloses between inner)
    : table.Encloses outer inner := by
  induction later with
  | self => exact first
  | step stands _ ih => exact .step stands ih

theorem Encloses.setCurrent {outer inner : Nat} (encloses : table.Encloses outer inner)
    (current : Nat)
    : Encloses { table with current } outer inner := by
  induction encloses with
  | self => exact .self
  | step stands _ ih => exact .step stands ih

theorem Nested.le_of_encloses (nested : table.Nested) {outer inner : Nat}
    (encloses : table.Encloses outer inner)
    : outer ≤ inner := by
  induction encloses with
  | self => exact Nat.le_refl _
  | step stands _ ih => exact Nat.le_of_lt (Nat.lt_of_le_of_lt ih (nested.earlier stands))

/-- A path into a scope from the one that it stands in begins with its name, by induction from the
end of the path.
-/
theorem Nested.path_into (nested : table.Nested) {place parent found : Nat}
    (stands : (table.scope place).parent? = some parent) {path : List String}
    (leads : table.navigate? parent path = some found) (encloses : table.Encloses place found)
    : ∃ name rest, path = name :: rest ∧ (table.scope place).name? = some name
        ∧ table.navigate? place rest = some found := by
  induction path using List.reverseRecOn generalizing found with
  | nil =>
      cases leads
      have back := nested.earlier stands
      have ahead := nested.le_of_encloses encloses
      omega
  | append_singleton front last ih =>
      obtain ⟨outer, before, standsIn, named⟩ := nested.navigate?_concat_iff.mp leads
      cases encloses with
      | self =>
          rw [stands] at standsIn
          cases standsIn
          obtain rfl := nested.eq_nil_of_navigate? before
          exact ⟨last, [], rfl, named, rfl⟩
      | step standsHere inner =>
          rw [standsIn] at standsHere
          cases standsHere
          obtain ⟨name, rest, rfl, own, leadsOn⟩ := ih before inner
          exact ⟨name, rest ++ [last], rfl, own,
            nested.navigate?_concat_iff.mpr ⟨_, leadsOn, standsIn, named⟩⟩

-----------------------------------------------------------------------------------------
-- Changes within a scope
-----------------------------------------------------------------------------------------

/-- A nested table changes within a scope when all scopes stay where they stand and nothing is
changed or added outside that scope.
-/
structure ChangesWithin (table after : ScopeTable α) (place : Nat) : Prop where
  nested : after.Nested
  size : table.scopes.size ≤ after.scopes.size
  parent : ∀ other < table.scopes.size,
    (after.scope other).parent? = (table.scope other).parent?
  name : ∀ other < table.scopes.size, (after.scope other).name? = (table.scope other).name?
  outside : ∀ other, ¬ after.Encloses place other → after.scope other = table.scope other

theorem ChangesWithin.refl (nested : table.Nested) (place : Nat)
    : table.ChangesWithin table place :=
  ⟨nested, Nat.le_refl _, fun _ _ => rfl, fun _ _ => rfl, fun _ _ => rfl⟩

theorem ChangesWithin.setCurrent {place : Nat} (changes : table.ChangesWithin after place)
    {current : Nat} (inside : current < after.scopes.size)
    : table.ChangesWithin { after with current } place :=
  ⟨changes.nested.setCurrent inside, changes.size, changes.parent, changes.name,
    fun other apart => changes.outside other fun encloses => apart (encloses.setCurrent current)⟩

/-- Scopes stay around each other. -/
theorem ChangesWithin.encloses {place : Nat} (changes : table.ChangesWithin after place)
    {outer inner : Nat}
    (encloses : table.Encloses outer inner)
    : after.Encloses outer inner := by
  induction encloses with
  | self => exact .self
  | step stands _ ih =>
      exact .step ((changes.parent _ (inside_of_parent stands)).trans stands) ih

theorem ChangesWithin.trans {place : Nat} (first : table.ChangesWithin middle place)
    (later : middle.ChangesWithin after place)
    : table.ChangesWithin after place := by
  refine ⟨later.nested, Nat.le_trans first.size later.size, fun other inside => ?_,
    fun other inside => ?_, fun other apart => ?_⟩
  · exact (later.parent other (Nat.lt_of_lt_of_le inside first.size)).trans
      (first.parent other inside)
  · exact (later.name other (Nat.lt_of_lt_of_le inside first.size)).trans (first.name other inside)
  · exact (later.outside other apart).trans
      (first.outside other fun encloses => apart (later.encloses encloses))

/-- What changes within a scope changes within all scopes around it. -/
theorem ChangesWithin.outward {place outer : Nat} (changes : table.ChangesWithin after place)
    (encloses : after.Encloses outer place)
    : table.ChangesWithin after outer :=
  ⟨changes.nested, changes.size, changes.parent, changes.name,
    fun other apart => changes.outside other fun inner => apart (encloses.trans inner)⟩

/-- The scopes around a scope are those that were around it, by induction over the number of steps.
-/
theorem ChangesWithin.outwardWithin {place : Nat} (nested : table.Nested)
    (changes : table.ChangesWithin after place) (bound : Nat) {inner : Nat}
    (inside : inner < table.scopes.size)
    : after.outwardWithin bound inner = table.outwardWithin bound inner := by
  induction bound generalizing inner with
  | zero => rfl
  | succ bound ih =>
      rw [ScopeTable.outwardWithin, ScopeTable.outwardWithin, changes.parent inner inside]
      cases stands : (table.scope inner).parent? with
      | none => rfl
      | some parent => exact congrArg _ (ih (Nat.lt_trans (nested.earlier stands) inside))

/-- Paths lead to the scopes of the table as before, by induction from the end of the path. -/
theorem ChangesWithin.navigate?_iff {place : Nat} (nested : table.Nested)
    (changes : table.ChangesWithin after place) {other found : Nat} {path : List String}
    (inside : found < table.scopes.size)
    : after.navigate? other path = some found ↔ table.navigate? other path = some found := by
  induction path using List.reverseRecOn generalizing found with
  | nil => exact Iff.rfl
  | append_singleton front name ih =>
      rw [changes.nested.navigate?_concat_iff, nested.navigate?_concat_iff,
        changes.parent found inside, changes.name found inside]
      refine exists_congr fun parent => and_congr_left fun stands => ih ?_
      exact Nat.lt_trans (nested.earlier stands.1) inside

/-- A path that leads to a scope still leads there. -/
theorem ChangesWithin.leads {place : Nat} (nested : table.Nested)
    (changes : table.ChangesWithin after place) {other found : Nat} {path : List String}
    (leads : table.navigate? other path = some found)
    : after.navigate? other path = some found := by
  rcases List.eq_nil_or_concat path with rfl | ⟨front, name, rfl⟩
  · exact leads
  · rw [List.concat_eq_append] at leads ⊢
    obtain ⟨parent, _, stands, _⟩ := nested.navigate?_concat_iff.mp leads
    exact (changes.navigate?_iff nested (inside_of_parent stands)).mpr leads

/-- The scope that a path leads to. -/
def scopeAt? (table : ScopeTable α) (place : Nat) (path : List String) : Option (Scope α) :=
  (table.navigate? place path).map table.scope

theorem scopeAt?_nil (table : ScopeTable α) (place : Nat)
    : table.scopeAt? place [] = some (table.scope place) :=
  rfl

theorem scopeAt?_cons (table : ScopeTable α) (place : Nat) (name : String) (rest : List String)
    : table.scopeAt? place (name :: rest) =
        ((table.scope place).children.lookup name).bind fun child => table.scopeAt? child rest := by
  unfold scopeAt?
  show (((table.scope place).children.lookup name).bind fun child =>
    table.navigate? child rest).map table.scope = _
  rw [Option.map_bind]
  rfl

/-- Paths lead through scopes that stay the same as before, by induction over the path. -/
theorem navigate?_kept (kept : Nat → Prop)
    (same : ∀ place, kept place → after.scope place = table.scope place)
    (down : ∀ place name child, kept place →
      (table.scope place).children.lookup name = some child → kept child)
    (path : List String) {place : Nat} (here : kept place)
    : after.navigate? place path = table.navigate? place path
      ∧ ∀ found, table.navigate? place path = some found → kept found := by
  induction path generalizing place with
  | nil =>
      refine ⟨rfl, fun found leads => ?_⟩
      cases leads
      exact here
  | cons name rest ih =>
      show ((after.scope place).children.lookup name).bind (after.navigate? · rest) =
          ((table.scope place).children.lookup name).bind (table.navigate? · rest)
        ∧ ∀ found, ((table.scope place).children.lookup name).bind (table.navigate? · rest) =
            some found → kept found
      rw [same place here]
      cases found : (table.scope place).children.lookup name with
      | none => exact ⟨rfl, fun _ leads => (by cases leads)⟩
      | some child => exact ih (down place name child here found)

/-- What is found on paths through scopes that stay the same is the same. -/
theorem scopeAt?_kept (kept : Nat → Prop)
    (same : ∀ place, kept place → after.scope place = table.scope place)
    (down : ∀ place name child, kept place →
      (table.scope place).children.lookup name = some child → kept child)
    (path : List String) {place : Nat} (here : kept place)
    : after.scopeAt? place path = table.scopeAt? place path := by
  obtain ⟨leads, ends⟩ := navigate?_kept kept same down path here
  rw [scopeAt?, scopeAt?, leads]
  cases found : table.navigate? place path with
  | none => rfl
  | some child => exact congrArg some (same child (ends child found))

/-- What a path finds is as before if the path does not lead into the scope that changes. -/
theorem ChangesWithin.scopeAt?_outside {place : Nat} (nested : table.Nested)
    (changes : table.ChangesWithin after place) {other : Nat} {path : List String}
    (apart : ∀ found, after.navigate? other path = some found → ¬ after.Encloses place found)
    : after.scopeAt? other path = table.scopeAt? other path := by
  unfold scopeAt?
  cases leads : after.navigate? other path with
  | some found =>
      have same := changes.outside found (apart found leads)
      have before : table.navigate? other path = some found := by
        rcases List.eq_nil_or_concat path with rfl | ⟨front, name, rfl⟩
        · exact leads
        · rw [List.concat_eq_append] at leads ⊢
          obtain ⟨parent, _, stands, _⟩ := changes.nested.navigate?_concat_iff.mp leads
          rw [same] at stands
          exact (changes.navigate?_iff nested (inside_of_parent stands)).mp leads
      rw [before, Option.map_some, Option.map_some, same]
  | none =>
      cases before : table.navigate? other path with
      | none => rfl
      | some found =>
          rw [changes.leads nested before] at leads
          cases leads

end ScopeTable

end BuildScript
