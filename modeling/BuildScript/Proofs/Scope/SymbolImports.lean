import BuildScript.Proofs.Scope.Reimport
import Mathlib.Data.List.Zip

/-! Imports of all four tables of a script. Importing the same names again changes nothing, and the
names of two scripts are imported in either order with one result.
-/

namespace BuildScript

variable {registry : Registry} {symbols first second imported : Symbols}

-----------------------------------------------------------------------------------------
-- Decisions
-----------------------------------------------------------------------------------------

/-- Where one name means one thing, values are decided on by what they are. -/
theorem byIdentity_mergeUnique {α β : Type} [BEq β] [LawfulBEq β] (identity : α → β)
    : ByIdentity (Symbols.mergeUnique identity) identity := by
  have skips (old new : α) : Symbols.mergeUnique identity old new = .skip ↔
      identity old = identity new := by
    unfold Symbols.mergeUnique
    split
    · next same => simpa using same
    · next differs => simpa using differs
  have conflicts (old new : α) : Symbols.mergeUnique identity old new = .conflict ↔
      identity old ≠ identity new := by
    unfold Symbols.mergeUnique
    split
    · next same => simpa using same
    · next differs => simpa using differs
  refine ⟨skips, fun old new => ?_, fun old other new same => ?_⟩
  · rw [conflicts, conflicts]
    exact Ne.symm
  · rw [conflicts, conflicts, same]
    exact id

theorem identity_of_mergeUnique {α β : Type} [BEq β] [LawfulBEq β] {identity : α → β}
    (old new : α) (together : Symbols.mergeUnique identity old new ≠ .conflict)
    : identity old = identity new := by
  unfold Symbols.mergeUnique at together
  split at together
  · next same => exact beq_iff_eq.mp same
  · exact absurd rfl together

theorem sameType_comm (registry : Registry) (one other : TypeId)
    : registry.sameType one other = registry.sameType other one := by
  unfold Registry.sameType
  rw [BEq.comm, BEq.comm (a := registry.typeName one)]

/-- Whether parameters are the same does not depend on the order. -/
theorem sameParams_comm (registry : Registry) (one other : List Param)
    : registry.sameParams one other = registry.sameParams other one := by
  unfold Registry.sameParams
  rw [BEq.comm, ← List.zip_swap, List.all_map]
  congr 2
  funext pair
  exact sameType_comm registry _ _

/-- Functions are decided on by what they are. -/
theorem byIdentity_mergeFunctions (registry : Registry)
    : ByIdentity (Symbols.mergeFunctions registry) id := by
  refine ⟨fun old new => ?_, fun old new => ?_, fun old other new same => ?_⟩
  · unfold Symbols.mergeFunctions
    split
    · next same => simpa using same
    · next differs =>
        have apart : old ≠ new := by simpa using differs
        split
        · simpa using apart
        · simpa using apart
  · unfold Symbols.mergeFunctions
    rw [sameParams_comm, BEq.comm]
    exact id
  · rw [show old = other from same]
    exact id

-----------------------------------------------------------------------------------------
-- All tables
-----------------------------------------------------------------------------------------

namespace Symbols

/-- Names are built by any operations on each of the tables. -/
structure Built (symbols : Symbols) : Prop where
  types : symbols.types.Built
  functions : symbols.functions.Built
  ids : symbols.ids.Built
  enums : symbols.enums.Built

/-- Merges the names of one script and then those of another one, unless there is a conflict with
the first ones.
-/
def mergeBoth (registry : Registry) (symbols first second : Symbols) : Option String × Symbols :=
  match symbols.merge registry first with
  | (some name, symbols) => (some name, symbols)
  | (none, symbols) => symbols.merge registry second

/-- What is left of the names when all tables are merged. -/
def merged (registry : Registry) (symbols imported : Symbols) : Symbols where
  types := (symbols.types.merge (mergeUnique id) imported.types).2
  functions := (symbols.functions.merge (mergeFunctions registry) imported.functions).2
  ids := (symbols.ids.merge (mergeUnique (·.index)) imported.ids).2
  enums := (symbols.enums.merge (mergeUnique (·.index)) imported.enums).2

/-- Names are merged if all tables are. -/
theorem merge_eq_iff {after : Symbols}
    : symbols.merge registry imported = (none, after) ↔
        (symbols.types.merge (mergeUnique id) imported.types).1 = none
          ∧ (symbols.functions.merge (mergeFunctions registry) imported.functions).1 = none
          ∧ (symbols.ids.merge (mergeUnique (·.index)) imported.ids).1 = none
          ∧ (symbols.enums.merge (mergeUnique (·.index)) imported.enums).1 = none
          ∧ after = symbols.merged registry imported := by
  unfold merge merged
  split
  · next name types outcome => simp [outcome]
  · next types outcome =>
      split
      · next name functions outcomeToo => simp [outcomeToo]
      · next functions outcomeToo =>
          split
          · next name ids outcomeOfIds => simp [outcomeOfIds]
          · next ids outcomeOfIds =>
              simp [outcome, outcomeToo, outcomeOfIds, eq_comm]

theorem mergeBoth_eq_iff_merged {after : Symbols}
    : symbols.mergeBoth registry first second = (none, after) ↔
        symbols.merge registry first = (none, symbols.merged registry first)
          ∧ (symbols.merged registry first).merge registry second = (none, after) := by
  unfold mergeBoth
  split
  · next name stopped merges => simp [merges]
  · next once merges =>
      obtain rfl := (merge_eq_iff.mp merges).2.2.2.2
      simp [merges]

/-- The names of two scripts are merged if both are in all tables. -/
theorem mergeBoth_eq_iff {after : Symbols}
    : symbols.mergeBoth registry first second = (none, after) ↔
        symbols.types.mergeBoth (mergeUnique id) first.types second.types = (none, after.types)
          ∧ symbols.functions.mergeBoth (mergeFunctions registry) first.functions second.functions =
              (none, after.functions)
          ∧ symbols.ids.mergeBoth (mergeUnique (·.index)) first.ids second.ids = (none, after.ids)
          ∧ symbols.enums.mergeBoth (mergeUnique (·.index)) first.enums second.enums =
              (none, after.enums) := by
  rw [mergeBoth_eq_iff_merged, merge_eq_iff, merge_eq_iff]
  constructor
  · rintro ⟨⟨types, functions, ids, enums, _⟩, typesToo, functionsToo, idsToo, enumsToo, rfl⟩
    exact ⟨ScopeTable.mergeBoth_eq_iff.mpr ⟨types, Prod.ext typesToo rfl⟩,
      ScopeTable.mergeBoth_eq_iff.mpr ⟨functions, Prod.ext functionsToo rfl⟩,
      ScopeTable.mergeBoth_eq_iff.mpr ⟨ids, Prod.ext idsToo rfl⟩,
      ScopeTable.mergeBoth_eq_iff.mpr ⟨enums, Prod.ext enumsToo rfl⟩⟩
  · rintro ⟨types, functions, ids, enums⟩
    obtain ⟨types, typesToo⟩ := ScopeTable.mergeBoth_eq_iff.mp types
    obtain ⟨functions, functionsToo⟩ := ScopeTable.mergeBoth_eq_iff.mp functions
    obtain ⟨ids, idsToo⟩ := ScopeTable.mergeBoth_eq_iff.mp ids
    obtain ⟨enums, enumsToo⟩ := ScopeTable.mergeBoth_eq_iff.mp enums
    refine ⟨⟨types, functions, ids, enums, rfl⟩, congrArg Prod.fst typesToo,
      congrArg Prod.fst functionsToo, congrArg Prod.fst idsToo, congrArg Prod.fst enumsToo, ?_⟩
    have sameTypes := congrArg Prod.snd typesToo
    have sameFunctions := congrArg Prod.snd functionsToo
    have sameIds := congrArg Prod.snd idsToo
    have sameEnums := congrArg Prod.snd enumsToo
    cases after
    simp only [merged, Symbols.mk.injEq]
    exact ⟨sameTypes.symm, sameFunctions.symm, sameIds.symm, sameEnums.symm⟩

/-- What is left of the names when those of two scripts are merged in all tables. -/
def bothMerged (registry : Registry) (symbols first second : Symbols) : Symbols where
  types := (symbols.types.mergeBoth (mergeUnique id) first.types second.types).2
  functions :=
    (symbols.functions.mergeBoth (mergeFunctions registry) first.functions second.functions).2
  ids := (symbols.ids.mergeBoth (mergeUnique (·.index)) first.ids second.ids).2
  enums := (symbols.enums.mergeBoth (mergeUnique (·.index)) first.enums second.enums).2

theorem mergeBoth_succeeds_iff
    : (symbols.mergeBoth registry first second).1 = none ↔
        (symbols.types.mergeBoth (mergeUnique id) first.types second.types).1 = none
          ∧ (symbols.functions.mergeBoth (mergeFunctions registry) first.functions
              second.functions).1 = none
          ∧ (symbols.ids.mergeBoth (mergeUnique (·.index)) first.ids second.ids).1 = none
          ∧ (symbols.enums.mergeBoth (mergeUnique (·.index)) first.enums second.enums).1 =
            none := by
  constructor
  · intro succeeds
    obtain ⟨types, functions, ids, enums⟩ :=
      mergeBoth_eq_iff.mp
        (Prod.ext succeeds rfl : symbols.mergeBoth registry first second = (none, _))
    exact ⟨congrArg Prod.fst types, congrArg Prod.fst functions, congrArg Prod.fst ids,
      congrArg Prod.fst enums⟩
  · rintro ⟨types, functions, ids, enums⟩
    have merges : symbols.mergeBoth registry first second =
        (none, bothMerged registry symbols first second) :=
      mergeBoth_eq_iff.mpr ⟨Prod.ext types rfl, Prod.ext functions rfl, Prod.ext ids rfl,
        Prod.ext enums rfl⟩
    exact congrArg Prod.fst merges

theorem mergeBoth_snd (succeeds : (symbols.mergeBoth registry first second).1 = none)
    : (symbols.mergeBoth registry first second).2 = bothMerged registry symbols first second := by
  obtain ⟨types, functions, ids, enums⟩ := mergeBoth_succeeds_iff.mp succeeds
  have merges : symbols.mergeBoth registry first second =
      (none, bothMerged registry symbols first second) :=
    mergeBoth_eq_iff.mpr ⟨Prod.ext types rfl, Prod.ext functions rfl, Prod.ext ids rfl,
      Prod.ext enums rfl⟩
  exact congrArg Prod.snd merges

-----------------------------------------------------------------------------------------
-- Either order
-----------------------------------------------------------------------------------------

/-- (Alike one other) says that two scripts have the same names with the same meanings: the same
entries at all paths, the same meaning for each name, and the same overloads. A variable and an
enumerator are known by their numbers.
-/
structure Alike (one other : Symbols) : Prop where
  types : ∀ path entry, entry ∈ one.types.entriesAt path ↔ entry ∈ other.types.entriesAt path
  functions : ∀ path entry,
    entry ∈ one.functions.entriesAt path ↔ entry ∈ other.functions.entriesAt path
  ids : ∀ path, SameEntries (·.index) (one.ids.entriesAt path) (other.ids.entriesAt path)
  enums : ∀ path, SameEntries (·.index) (one.enums.entriesAt path) (other.enums.entriesAt path)
  foundType : ∀ path, one.types.find? path = other.types.find? path
  foundId : ∀ path, (one.ids.find? path).map (·.index) = (other.ids.find? path).map (·.index)
  foundEnum : ∀ path, (one.enums.find? path).map (·.index) = (other.enums.find? path).map (·.index)
  overloads : ∀ path, (one.functions.findAll path).map List.toFinset =
    (other.functions.findAll path).map List.toFinset

/-- Numbers tell variables and enumerators apart when each number is given to one of them only. -/
structure Numbered (variableOf : Nat → VariableSymbol) (enumeratorOf : Nat → EnumeratorSymbol)
    (symbols : Symbols) : Prop where
  ids : symbols.ids.Holds fun symbol => variableOf symbol.index = symbol
  enums : symbols.enums.Holds fun symbol => enumeratorOf symbol.index = symbol

/-- Names that are alike are the same if numbers tell variables and enumerators apart. -/
structure Same (one other : Symbols) : Prop extends Alike one other where
  sameIds : ∀ path entry, entry ∈ one.ids.entriesAt path ↔ entry ∈ other.ids.entriesAt path
  sameEnums : ∀ path entry, entry ∈ one.enums.entriesAt path ↔ entry ∈ other.enums.entriesAt path
  sameFoundId : ∀ path, one.ids.find? path = other.ids.find? path
  sameFoundEnum : ∀ path, one.enums.find? path = other.enums.find? path

end Symbols

namespace ScopeTable

variable {α : Type} {one other : ScopeTable α} {index : α → Nat} {owner : Nat → α}

/-- What holds of all meanings holds of those at a path. -/
theorem Holds.entriesAt {met : α → Prop} {table : ScopeTable α} (holds : table.Holds met)
    (path : List String)
    : ∀ entry ∈ table.entriesAt path, met entry.value := by
  intro entry among
  rw [ScopeTable.entriesAt, entriesFrom, scopeAt?] at among
  cases leads : table.navigate? 0 path with
  | none =>
      rw [leads] at among
      cases among
  | some place =>
      rw [leads] at among
      exact holds place entry among

theorem injective_of_owner (owner : Nat → α) (index : α → Nat) (first second : α)
    (own : owner (index first) = first) (ownToo : owner (index second) = second)
    (same : index first = index second)
    : first = second := by
  rw [← own, ← ownToo, same]

/-- Tables with the same numbers at a path have the same entries there. -/
theorem Holds.entries_iff (holds : one.Holds fun value => owner (index value) = value)
    (holdsToo : other.Holds fun value => owner (index value) = value) {path : List String}
    (same : SameEntries index (one.entriesAt path) (other.entriesAt path))
    (entry : ScopeEntry α)
    : entry ∈ one.entriesAt path ↔ entry ∈ other.entriesAt path :=
  ⟨same.of_injective (injective_of_owner owner index) (holds.entriesAt path)
      (holdsToo.entriesAt path),
    SameEntries.of_injective (fun entry => (same entry).symm) (injective_of_owner owner index)
      (holdsToo.entriesAt path) (holds.entriesAt path)⟩

/-- Tables that find the same number find the same. -/
theorem Holds.find?_eq (holds : one.Holds fun value => owner (index value) = value)
    (holdsToo : other.Holds fun value => owner (index value) = value) {path : List String}
    (same : (one.find? path).map index = (other.find? path).map index)
    : one.find? path = other.find? path := by
  cases found : one.find? path with
  | none =>
      rw [found] at same
      exact (Option.map_eq_none_iff.mp same.symm).symm
  | some value =>
      rw [found] at same
      obtain ⟨valueToo, foundToo, equal⟩ := Option.map_eq_some_iff.mp same.symm
      rw [foundToo]
      exact congrArg some (injective_of_owner owner index _ _ (holds.find? found)
        (holdsToo.find? foundToo) equal.symm)

end ScopeTable

namespace Symbols

/-- Merging names again changes nothing. -/
theorem Built.merge_again (built : symbols.Built) (firstBuilt : first.Built)
    (succeeds : (symbols.merge registry first).1 = none)
    : (symbols.merge registry first).2.merge registry first =
        (none, (symbols.merge registry first).2) := by
  have merges : symbols.merge registry first = (none, (symbols.merge registry first).2) :=
    Prod.ext succeeds rfl
  obtain ⟨types, functions, ids, enums, after⟩ := merge_eq_iff.mp merges
  have typesAgain := built.types.nested.merge_again (byIdentity_mergeUnique id)
    firstBuilt.types.nested types
  have functionsAgain := built.functions.nested.merge_again (byIdentity_mergeFunctions registry)
    firstBuilt.functions.nested functions
  have idsAgain := built.ids.nested.merge_again (byIdentity_mergeUnique VariableSymbol.index)
    firstBuilt.ids.nested ids
  have enumsAgain := built.enums.nested.merge_again (byIdentity_mergeUnique EnumeratorSymbol.index)
    firstBuilt.enums.nested enums
  rw [after]
  refine merge_eq_iff.mpr ⟨congrArg Prod.fst typesAgain, congrArg Prod.fst functionsAgain,
    congrArg Prod.fst idsAgain, congrArg Prod.fst enumsAgain, ?_⟩
  unfold merged
  rw [Symbols.mk.injEq]
  exact ⟨(congrArg Prod.snd typesAgain).symm, (congrArg Prod.snd functionsAgain).symm,
    (congrArg Prod.snd idsAgain).symm, (congrArg Prod.snd enumsAgain).symm⟩

/-- The names of two scripts are merged in one order if they are in the other one. -/
theorem Built.mergeBoth_succeeds_comm (built : symbols.Built) (firstBuilt : first.Built)
    (secondBuilt : second.Built)
    : (symbols.mergeBoth registry first second).1 = none ↔
        (symbols.mergeBoth registry second first).1 = none := by
  rw [mergeBoth_succeeds_iff, mergeBoth_succeeds_iff,
    built.types.nested.mergeBoth_succeeds_comm (byIdentity_mergeUnique id) firstBuilt.types.nested
      secondBuilt.types.nested,
    built.functions.nested.mergeBoth_succeeds_comm (byIdentity_mergeFunctions registry)
      firstBuilt.functions.nested secondBuilt.functions.nested,
    built.ids.nested.mergeBoth_succeeds_comm (byIdentity_mergeUnique VariableSymbol.index)
      firstBuilt.ids.nested secondBuilt.ids.nested,
    built.enums.nested.mergeBoth_succeeds_comm (byIdentity_mergeUnique EnumeratorSymbol.index)
      firstBuilt.enums.nested secondBuilt.enums.nested]

/-- The names of two scripts are alike in either order. -/
theorem Built.alike (built : symbols.Built) (firstBuilt : first.Built) (secondBuilt : second.Built)
    (succeeds : (symbols.mergeBoth registry first second).1 = none)
    : Alike (bothMerged registry symbols first second)
        (bothMerged registry symbols second first) := by
  obtain ⟨types, functions, ids, enums⟩ := mergeBoth_succeeds_iff.mp succeeds
  have byType := byIdentity_mergeUnique (id : TypeId → TypeId)
  have byFunction := byIdentity_mergeFunctions registry
  have byVariable := byIdentity_mergeUnique VariableSymbol.index
  have byEnumerator := byIdentity_mergeUnique EnumeratorSymbol.index
  have sameTypes := built.types.nested.mergeBoth_entries_comm byType firstBuilt.types.nested
    secondBuilt.types.nested types
  have sameFunctions := built.functions.nested.mergeBoth_entries_comm byFunction
    firstBuilt.functions.nested secondBuilt.functions.nested functions
  have foundType := built.types.nested.mergeBoth_find?_comm byType identity_of_mergeUnique
    firstBuilt.types.nested secondBuilt.types.nested types
  simp only [SameEntries, ScopeEntry.map_id] at sameTypes sameFunctions
  simp only [Option.map_id, id] at foundType
  exact {
    types := sameTypes
    functions := sameFunctions
    ids := built.ids.nested.mergeBoth_entries_comm byVariable firstBuilt.ids.nested
      secondBuilt.ids.nested ids
    enums := built.enums.nested.mergeBoth_entries_comm byEnumerator firstBuilt.enums.nested
      secondBuilt.enums.nested enums
    foundType := foundType
    foundId := built.ids.nested.mergeBoth_find?_comm byVariable identity_of_mergeUnique
      firstBuilt.ids.nested secondBuilt.ids.nested ids
    foundEnum := built.enums.nested.mergeBoth_find?_comm byEnumerator identity_of_mergeUnique
      firstBuilt.enums.nested secondBuilt.enums.nested enums
    overloads := built.functions.nested.mergeBoth_findAll_comm byFunction
      firstBuilt.functions.nested secondBuilt.functions.nested functions }

/-- Numbers tell variables and enumerators apart after imports if they did before. -/
theorem Numbered.bothMerged {variableOf : Nat → VariableSymbol}
    {enumeratorOf : Nat → EnumeratorSymbol} (registry : Registry)
    (numbered : symbols.Numbered variableOf enumeratorOf)
    (firstNumbered : first.Numbered variableOf enumeratorOf)
    (secondNumbered : second.Numbered variableOf enumeratorOf)
    : (bothMerged registry symbols first second).Numbered variableOf enumeratorOf :=
  ⟨numbered.ids.mergeBoth _ firstNumbered.ids secondNumbered.ids,
    numbered.enums.mergeBoth _ firstNumbered.enums secondNumbered.enums⟩

/-- Imports are idempotent and commute. Importing the same names again succeeds and changes no
table. The names of two scripts are imported in either order if they are in one of them, and then
the names that are there are alike. They are the same where numbers tell variables and enumerators
apart.
-/
theorem Built.imports_commute (registry : Registry) (built : symbols.Built)
    (firstBuilt : first.Built) (secondBuilt : second.Built)
    : ((symbols.merge registry first).1 = none →
          (symbols.merge registry first).2.merge registry first =
            (none, (symbols.merge registry first).2))
        ∧ ((symbols.mergeBoth registry first second).1 = none ↔
            (symbols.mergeBoth registry second first).1 = none)
        ∧ ((symbols.mergeBoth registry first second).1 = none →
            Alike (symbols.mergeBoth registry first second).2
                (symbols.mergeBoth registry second first).2
              ∧ ∀ variableOf enumeratorOf, symbols.Numbered variableOf enumeratorOf →
                  first.Numbered variableOf enumeratorOf →
                  second.Numbered variableOf enumeratorOf →
                  Same (symbols.mergeBoth registry first second).2
                    (symbols.mergeBoth registry second first).2) := by
  refine ⟨fun succeeds => built.merge_again firstBuilt succeeds,
    built.mergeBoth_succeeds_comm firstBuilt secondBuilt, fun succeeds => ?_⟩
  have succeedsToo := (built.mergeBoth_succeeds_comm firstBuilt secondBuilt).mp succeeds
  have alike := built.alike firstBuilt secondBuilt succeeds
  rw [mergeBoth_snd succeeds, mergeBoth_snd succeedsToo]
  refine ⟨alike, fun variableOf enumeratorOf numbered firstNumbered secondNumbered => ?_⟩
  have one := numbered.bothMerged registry firstNumbered secondNumbered
  have other := numbered.bothMerged registry secondNumbered firstNumbered
  exact ⟨alike, fun path => one.ids.entries_iff other.ids (alike.ids path),
    fun path => one.enums.entries_iff other.enums (alike.enums path),
    fun path => one.ids.find?_eq other.ids (alike.foundId path),
    fun path => one.enums.find?_eq other.enums (alike.foundEnum path)⟩

/-- Variables alone. -/
def ofIds (ids : ScopeTable VariableSymbol) : Symbols := ⟨.empty, .empty, ids, .empty⟩

theorem built_ofIds {ids : ScopeTable VariableSymbol} (built : ids.Built) : (ofIds ids).Built :=
  ⟨.empty, .empty, built, .empty⟩

/-- Variables of two types, told apart by whether their numbers are even. -/
theorem numbered_ofIds {ids : ScopeTable VariableSymbol}
    (alternate : (ids.scopes.toList.all fun scope =>
      scope.entries.all fun entry => entry.value.type = ⟨entry.value.index % 2⟩) = true)
    : (ofIds ids).Numbered (fun index => ⟨⟨index % 2⟩, index⟩) fun index => ⟨⟨0⟩, 0, index⟩ := by
  refine ⟨fun place entry among => ?_, ScopeTable.holds_of_all rfl⟩
  have types : ids.Holds fun symbol => symbol.type = ⟨symbol.index % 2⟩ :=
    ScopeTable.holds_of_all alternate
  have type : entry.value.type = ⟨entry.value.index % 2⟩ := types place entry among
  exact congrArg (VariableSymbol.mk · entry.value.index) type.symm

/-- Two scripts export one variable that both have imported, and a variable of their own. The
variables with even numbers have one type, and those with odd numbers another one.
-/
theorem imports_commute_once
    : let shared : ScopeTable VariableSymbol :=
        (ScopeTable.empty.enterNamed "text" true).register "width" ⟨⟨1⟩, 1⟩ true
      let first := ofIds (shared.register "pad" ⟨⟨0⟩, 2⟩ true)
      let second := ofIds (shared.register "trim" ⟨⟨1⟩, 3⟩ true)
      (empty.mergeBoth Registry.empty first second).1 = none
        ∧ (empty.mergeBoth Registry.empty second first).1 = none
        ∧ (empty.merge Registry.empty first).2.merge Registry.empty first =
            (none, (empty.merge Registry.empty first).2)
        ∧ Same (empty.mergeBoth Registry.empty first second).2
            (empty.mergeBoth Registry.empty second first).2 := by
  have shared := (ScopeTable.Built.empty.enterNamed "text" true).register "width"
    (⟨⟨1⟩, 1⟩ : VariableSymbol) true
  obtain ⟨again, either, same⟩ := Built.imports_commute Registry.empty (built_ofIds .empty)
    (built_ofIds (shared.register "pad" ⟨⟨0⟩, 2⟩ true))
    (built_ofIds (shared.register "trim" ⟨⟨1⟩, 3⟩ true))
  refine ⟨?succeeds, either.mp ?succeeds, again ?_, (same ?succeeds).2 _ _ (numbered_ofIds ?_)
    (numbered_ofIds ?_) (numbered_ofIds ?_)⟩
  case succeeds => decide +kernel
  all_goals decide +kernel

/-- It is not so that what is imported in either order is the same. Where two scripts export
variables of one name and one number, the variable is the one that is imported first.
-/
theorem not_imports_same
    : ¬ ∀ (registry : Registry) (symbols first second : Symbols),
        symbols.Built → first.Built → second.Built →
        (symbols.mergeBoth registry first second).1 = none →
        ∀ path, (symbols.mergeBoth registry first second).2.ids.find? path =
          (symbols.mergeBoth registry second first).2.ids.find? path := by
  intro same
  let exports (type : TypeId) : Symbols :=
    ofIds (ScopeTable.empty.register "width" ⟨type, 1⟩ true).collectExports
  have built (type : TypeId) : (exports type).Built :=
    built_ofIds (.collectExports (.register .empty "width" (⟨type, 1⟩ : VariableSymbol) true))
  have merges : (empty.mergeBoth Registry.empty (exports ⟨0⟩) (exports ⟨1⟩)).1 = none := by
    decide +kernel
  have found := same Registry.empty empty (exports ⟨0⟩) (exports ⟨1⟩) (built_ofIds .empty)
    (built ⟨0⟩) (built ⟨1⟩) merges ["width"]
  have differs : (empty.mergeBoth Registry.empty (exports ⟨0⟩) (exports ⟨1⟩)).2.ids.find? ["width"]
      ≠ (empty.mergeBoth Registry.empty (exports ⟨1⟩) (exports ⟨0⟩)).2.ids.find? ["width"] := by
    decide +kernel
  exact differs found

end Symbols

end BuildScript
