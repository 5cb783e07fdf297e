import BuildScript.Scope.Symbols
import BuildScript.Scope.Table
import Mathlib.Data.List.Induction
import Mathlib.Data.List.Pairwise

/-! What becomes of entries that are imported into a scope. Each one is decided on beside the
entries that have its name, those that were imported before it included.

Some decisions are made by identity. Where entries are skipped just for being the same thing, and
where a conflict of two is one either way, it does not matter in which order entries are offered, or
how often.
-/

namespace BuildScript

section Decisions

variable {α : Type}

/-- An entry as importers keep it: it is not theirs to export. -/
def ScopeEntry.imported (entry : ScopeEntry α) : ScopeEntry α := { entry with exported := false }

/-- The values of a name among entries. -/
def namedValues (entries : List (ScopeEntry α)) (name : String) : List α :=
  (entries.filter (·.name == name)).map (·.value)

theorem mem_namedValues {entries : List (ScopeEntry α)} {name : String} {value : α}
    : value ∈ namedValues entries name ↔
        ∃ entry ∈ entries, entry.name = name ∧ entry.value = value := by
  simp [namedValues, and_assoc]

theorem namedValues_append (entries others : List (ScopeEntry α)) (name : String)
    : namedValues (entries ++ others) name =
        namedValues entries name ++ namedValues others name := by
  rw [namedValues, List.filter_append, List.map_append]
  rfl

/-- Whether something is decided on an entry for one of its name that is there already. -/
def ScopeEntry.isDecided (decide : α → α → MergeDecision) (decision : MergeDecision)
    (existing : List (ScopeEntry α)) (entry : ScopeEntry α) : Bool :=
  existing.any fun old => old.name == entry.name && decide old.value entry.value == decision

/-- The entries that an import adds to existing ones: those that are not skipped. -/
def importedEntries (decide : α → α → MergeDecision)
    : List (ScopeEntry α) → List (ScopeEntry α) → List (ScopeEntry α)
  | _, [] => []
  | existing, entry :: rest =>
    if entry.isDecided decide .skip existing then importedEntries decide existing rest
    else entry.imported :: importedEntries decide (existing ++ [entry.imported]) rest

/-- The name of the first entry that is in conflict with one that is there already. -/
def importConflict? (decide : α → α → MergeDecision)
    : List (ScopeEntry α) → List (ScopeEntry α) → Option String
  | _, [] => none
  | existing, entry :: rest =>
    if entry.isDecided decide .conflict existing then some entry.name
    else if entry.isDecided decide .skip existing then importConflict? decide existing rest
    else importConflict? decide (existing ++ [entry.imported]) rest

variable {decide : α → α → MergeDecision}

theorem ScopeEntry.isDecided_iff {decision : MergeDecision} {existing : List (ScopeEntry α)}
    {entry : ScopeEntry α}
    : entry.isDecided decide decision existing = true ↔
        ∃ old ∈ existing, old.name = entry.name ∧ decide old.value entry.value = decision := by
  simp [isDecided]

/-- Decisions for all values of a name come to one decision, by induction from the last value. -/
theorem mergeDecision?_eq (decide : α → α → MergeDecision) (values : List α) (value : α)
    : ScopeTable.mergeDecision? decide values value =
        if values.any fun old => decide old value == .conflict then none
        else some !values.any fun old => decide old value == .skip := by
  induction values using List.reverseRecOn with
  | nil => rfl
  | append_singleton front old ih =>
      rw [ScopeTable.mergeDecision?, List.foldlM_append]
      show (ScopeTable.mergeDecision? decide front value).bind _ = _
      rw [ih]
      simp only [List.foldlM_cons, List.foldlM_nil, List.any_append, List.any_cons, List.any_nil]
      generalize (front.any fun old => decide old value == .conflict) = conflicts
      generalize (front.any fun old => decide old value == .skip) = skips
      cases decide old value <;> cases conflicts <;> cases skips <;> rfl

/-- Deciding on an entry is deciding beside the values of its name. -/
theorem mergeDecision?_entries (decide : α → α → MergeDecision) (existing : List (ScopeEntry α))
    (entry : ScopeEntry α)
    : ScopeTable.mergeDecision? decide
          (namedValues existing entry.name) entry.value =
        if entry.isDecided decide .conflict existing then none
        else some !entry.isDecided decide .skip existing := by
  rw [mergeDecision?_eq, namedValues, List.any_map, List.any_map, List.any_filter, List.any_filter]
  rfl

-----------------------------------------------------------------------------------------
-- One import after another
-----------------------------------------------------------------------------------------

/-- Entries are added in two parts as they are at once, by induction over the first part. -/
theorem importedEntries_append (existing first later : List (ScopeEntry α))
    : importedEntries decide existing (first ++ later) =
        importedEntries decide existing first
          ++ importedEntries decide (existing ++ importedEntries decide existing first) later := by
  induction first generalizing existing with
  | nil => simp [importedEntries]
  | cons entry rest ih =>
      rw [List.cons_append, importedEntries, importedEntries]
      split
      · exact ih existing
      · rw [ih, List.cons_append, List.append_assoc, List.singleton_append]

/-- The first conflict is in the first part or in the second one, by induction over the first part.
-/
theorem importConflict?_append (existing first later : List (ScopeEntry α))
    : importConflict? decide existing (first ++ later) =
        (importConflict? decide existing first).or
          (importConflict? decide (existing ++ importedEntries decide existing first) later) := by
  induction first generalizing existing with
  | nil => simp [importConflict?, importedEntries]
  | cons entry rest ih =>
      rw [List.cons_append, importConflict?, importConflict?, importedEntries]
      split
      · rfl
      · split
        · exact ih existing
        · rw [ih, List.append_assoc, List.singleton_append]

/-- What is added is an entry that is offered, and is not for export, by induction over what is
offered.
-/
theorem mem_importedEntries {existing offered : List (ScopeEntry α)} {entry : ScopeEntry α}
    (among : entry ∈ importedEntries decide existing offered)
    : ∃ source ∈ offered, entry = source.imported := by
  induction offered generalizing existing with
  | nil => cases among
  | cons first rest ih =>
      rw [importedEntries] at among
      split at among
      · obtain ⟨source, inRest, same⟩ := ih among
        exact ⟨source, .tail _ inRest, same⟩
      · rcases List.mem_cons.mp among with rfl | later
        · exact ⟨first, .head _, rfl⟩
        · obtain ⟨source, inRest, same⟩ := ih later
          exact ⟨source, .tail _ inRest, same⟩

/-- A conflict is one of an offered entry with one that was there, or was added before it, by
induction over what is offered.
-/
theorem conflict_of_importConflict? {existing offered : List (ScopeEntry α)} {name : String}
    (conflict : importConflict? decide existing offered = some name)
    : ∃ front entry back, offered = front ++ entry :: back ∧ entry.name = name
      ∧ ∃ old ∈ existing ++ importedEntries decide existing front,
          old.name = name ∧ decide old.value entry.value = .conflict := by
  induction offered generalizing existing with
  | nil => cases conflict
  | cons first rest ih =>
      rw [importConflict?] at conflict
      split at conflict
      · next conflicts =>
          obtain ⟨old, among, same, decided⟩ := ScopeEntry.isDecided_iff.mp conflicts
          cases conflict
          refine ⟨[], first, rest, rfl, rfl, old, ?_, same, decided⟩
          rw [importedEntries, List.append_nil]
          exact among
      · split at conflict
        · next skipped =>
            obtain ⟨front, entry, back, rfl, named, old, among, same⟩ := ih conflict
            refine ⟨first :: front, entry, back, rfl, named, old, ?_, same⟩
            rw [importedEntries, if_pos skipped]
            exact among
        · next added =>
            obtain ⟨front, entry, back, rfl, named, old, among, same⟩ := ih conflict
            refine ⟨first :: front, entry, back, rfl, named, old, ?_, same⟩
            rw [importedEntries, if_neg added]
            simpa using among

end Decisions

variable {α κ : Type} {decide : α → α → MergeDecision} {key : α → κ}

/-- Values are decided on by what they are when a value is skipped just beside the same thing, and
when the same things are in conflict in both orders.
-/
structure ByIdentity (decide : α → α → MergeDecision) (key : α → κ) : Prop where
  skip : ∀ old new, decide old new = .skip ↔ key old = key new
  symm : ∀ old new, decide old new = .conflict → decide new old = .conflict
  same : ∀ old other new, key old = key other → decide old new = .conflict →
    decide other new = .conflict

/-- What an entry is, for those who look names up and for importers. -/
def ScopeEntry.identity (key : α → κ) (entry : ScopeEntry α) : String × κ :=
  (entry.name, key entry.value)

/-- Two entries go together if they have different names or are not in conflict. -/
def ScopeEntry.Compatible (decide : α → α → MergeDecision) (old new : ScopeEntry α) : Prop :=
  old.name = new.name → decide old.value new.value ≠ .conflict

theorem ScopeEntry.Compatible.symm (byIdentity : ByIdentity decide key) {old new : ScopeEntry α}
    (compatible : old.Compatible decide new)
    : new.Compatible decide old :=
  fun named conflict => compatible named.symm (byIdentity.symm _ _ conflict)

theorem ScopeEntry.Compatible.of_identity (byIdentity : ByIdentity decide key)
    {old other new : ScopeEntry α} (compatible : old.Compatible decide new)
    (same : old.identity key = other.identity key)
    : other.Compatible decide new :=
  fun named conflict => compatible ((congrArg Prod.fst same).trans named)
    (byIdentity.same _ _ _ (congrArg Prod.snd same).symm conflict)

theorem ScopeEntry.compatible_self (byIdentity : ByIdentity decide key) (entry : ScopeEntry α)
    : entry.Compatible decide entry := by
  intro _ conflict
  rw [(byIdentity.skip entry.value entry.value).mpr rfl] at conflict
  cases conflict

theorem ScopeEntry.not_conflict_iff {existing : List (ScopeEntry α)} {entry : ScopeEntry α}
    : ¬ entry.isDecided decide .conflict existing = true ↔
        ∀ old ∈ existing, old.Compatible decide entry := by
  rw [ScopeEntry.isDecided_iff]
  simp only [Compatible, not_exists, not_and]

theorem ScopeEntry.skipped_iff (byIdentity : ByIdentity decide key)
    {existing : List (ScopeEntry α)} {entry : ScopeEntry α}
    : entry.isDecided decide .skip existing = true ↔
        entry.identity key ∈ existing.map (·.identity key) := by
  rw [ScopeEntry.isDecided_iff, List.mem_map]
  simp only [byIdentity.skip, identity, Prod.mk.injEq]

-----------------------------------------------------------------------------------------
-- Conflicts and entries
-----------------------------------------------------------------------------------------

/-- There is no conflict just when all go together, by induction over what is offered. -/
theorem ByIdentity.importConflict?_eq_none_iff (byIdentity : ByIdentity decide key)
    {existing offered : List (ScopeEntry α)}
    : importConflict? decide existing offered = none ↔
        (∀ entry ∈ offered, ∀ old ∈ existing, old.Compatible decide entry)
          ∧ offered.Pairwise (ScopeEntry.Compatible decide) := by
  induction offered generalizing existing with
  | nil => simp [importConflict?]
  | cons entry rest ih =>
      rw [importConflict?, List.pairwise_cons, List.forall_mem_cons]
      by_cases conflicts : entry.isDecided decide .conflict existing = true
      · rw [if_pos conflicts]
        refine iff_of_false (fun none => by cases none) fun compatible => ?_
        exact ScopeEntry.not_conflict_iff.mpr compatible.1.1 conflicts
      · rw [if_neg conflicts]
        have own := ScopeEntry.not_conflict_iff.mp conflicts
        split
        · next skipped =>
            obtain ⟨old, among, same⟩ :=
              List.mem_map.mp ((ScopeEntry.skipped_iff byIdentity).mp skipped)
            rw [ih]
            refine ⟨fun both => ⟨⟨own, both.1⟩, fun later inRest => ?_, both.2⟩,
              fun both => ⟨both.1.2, both.2.2⟩⟩
            exact (both.1 later inRest old among).of_identity byIdentity same
        · rw [ih]
          have imported (later : ScopeEntry α)
              : entry.imported.Compatible decide later ↔ entry.Compatible decide later := Iff.rfl
          refine ⟨fun both => ⟨⟨own, fun later inRest old among => ?_⟩,
            fun later inRest => ?_, both.2⟩, fun both =>
              ⟨fun later inRest old among => ?_, both.2.2⟩⟩
          · exact both.1 later inRest old (List.mem_append_left _ among)
          · exact (imported later).mp (both.1 later inRest _ (List.mem_append_right _ (.head _)))
          · rcases List.mem_append.mp among with inExisting | new
            · exact both.1.2 later inRest old inExisting
            · rw [List.mem_singleton.mp new]
              exact (imported later).mpr (both.2.1 later inRest)

/-- Whether there is a conflict does not depend on the order. -/
theorem ByIdentity.conflict_perm (byIdentity : ByIdentity decide key)
    {existing offered other : List (ScopeEntry α)} (perm : offered.Perm other)
    : importConflict? decide existing offered = none ↔
        importConflict? decide existing other = none := by
  rw [byIdentity.importConflict?_eq_none_iff, byIdentity.importConflict?_eq_none_iff,
    perm.pairwise_iff (fun compatible => compatible.symm byIdentity)]
  simp only [perm.mem_iff]

/-- What is offered without conflict can be offered again. -/
theorem ByIdentity.conflict_again (byIdentity : ByIdentity decide key)
    {existing offered : List (ScopeEntry α)}
    (nothing : importConflict? decide existing offered = none)
    : importConflict? decide existing (offered ++ offered) = none := by
  rw [byIdentity.importConflict?_eq_none_iff] at nothing ⊢
  refine ⟨fun entry among => ?_, List.pairwise_append.mpr ⟨nothing.2, nothing.2, ?_⟩⟩
  · exact nothing.1 entry ((List.mem_append.mp among).elim id id)
  · have symm : Std.Symm (ScopeEntry.Compatible decide) :=
      ⟨fun _ _ compatible => compatible.symm byIdentity⟩
    exact nothing.2.forall_of_forall fun entry _ => entry.compatible_self byIdentity

/-- What is added are the things that are offered and not there yet, by induction over what is
offered.
-/
theorem ByIdentity.mem_importedEntries_iff (byIdentity : ByIdentity decide key)
    {existing offered : List (ScopeEntry α)} {identity : String × κ}
    : identity ∈ (importedEntries decide existing offered).map (·.identity key) ↔
        identity ∈ offered.map (·.identity key) ∧ identity ∉ existing.map (·.identity key) := by
  induction offered generalizing existing with
  | nil => simp [importedEntries]
  | cons entry rest ih =>
      have skips : entry.isDecided decide .skip existing = true ↔
          entry.identity key ∈ existing.map (·.identity key) := ScopeEntry.skipped_iff byIdentity
      rw [importedEntries]
      split
      · next skipped =>
          rw [skips] at skipped
          rw [ih, List.map_cons, List.mem_cons]
          constructor
          · rintro ⟨among, missing⟩
            exact ⟨.inr among, missing⟩
          · rintro ⟨rfl | among, missing⟩
            · exact absurd skipped missing
            · exact ⟨among, missing⟩
      · next added =>
          rw [skips] at added
          have own : entry.imported.identity key = entry.identity key := rfl
          rw [List.map_cons, List.mem_cons, ih, List.map_cons, List.mem_cons, List.map_append,
            List.mem_append, List.map_singleton, List.mem_singleton, own]
          by_cases same : identity = entry.identity key
          · simp [same, added]
          · simp [same]

/-- What has been added is not added again. -/
theorem ByIdentity.importedEntries_again (byIdentity : ByIdentity decide key)
    (existing offered : List (ScopeEntry α))
    : importedEntries decide (existing ++ importedEntries decide existing offered) offered =
        [] := by
  rw [← List.map_eq_nil_iff (f := (·.identity key)), List.eq_nil_iff_forall_not_mem]
  intro identity among
  rw [byIdentity.mem_importedEntries_iff, List.map_append, List.mem_append,
    byIdentity.mem_importedEntries_iff] at among
  tauto

-----------------------------------------------------------------------------------------
-- Other orders
-----------------------------------------------------------------------------------------

/-- An entry with what its value is. -/
def ScopeEntry.map (key : α → κ) (entry : ScopeEntry α) : ScopeEntry κ :=
  ⟨entry.name, key entry.value, entry.exported⟩

/-- (SameEntries key entries others) says that entries are the same but for their order and for
what does not tell what they are.
-/
def SameEntries (key : α → κ) (entries others : List (ScopeEntry α)) : Prop :=
  ∀ entry, entry ∈ entries.map (·.map key) ↔ entry ∈ others.map (·.map key)

theorem SameEntries.refl (key : α → κ) (entries : List (ScopeEntry α))
    : SameEntries key entries entries :=
  fun _ => Iff.rfl

/-- An entry that is added is known by what it is, as no such entry is for export. -/
theorem mem_imported_map_iff {existing offered : List (ScopeEntry α)} {entry : ScopeEntry κ}
    : entry ∈ (importedEntries decide existing offered).map (·.map key) ↔
        entry.exported = false
          ∧ (entry.name, entry.value) ∈
              (importedEntries decide existing offered).map (·.identity key) := by
  simp only [List.mem_map]
  constructor
  · rintro ⟨added, among, rfl⟩
    obtain ⟨source, _, rfl⟩ := mem_importedEntries among
    exact ⟨rfl, _, among, rfl⟩
  · rintro ⟨unexported, added, among, same⟩
    refine ⟨added, among, ?_⟩
    obtain ⟨source, _, rfl⟩ := mem_importedEntries among
    obtain ⟨name, value⟩ := Prod.mk.inj same
    cases entry with
    | mk entryName entryValue exported =>
        cases unexported
        cases name
        cases value
        rfl

/-- What is there after an import does not depend on the order. -/
theorem ByIdentity.sameEntries_perm (byIdentity : ByIdentity decide key)
    {existing offered other : List (ScopeEntry α)} (perm : offered.Perm other)
    : SameEntries key (existing ++ importedEntries decide existing offered)
        (existing ++ importedEntries decide existing other) := by
  intro entry
  rw [List.map_append, List.map_append, List.mem_append, List.mem_append, mem_imported_map_iff,
    mem_imported_map_iff, byIdentity.mem_importedEntries_iff, byIdentity.mem_importedEntries_iff,
    (perm.map _).mem_iff]

theorem mem_map_namedValues {entries : List (ScopeEntry α)} {name : String} {value : κ}
    : value ∈ (namedValues entries name).map key ↔
        ∃ entry ∈ entries.map (·.map key), entry.name = name ∧ entry.value = value := by
  simp only [List.mem_map, mem_namedValues]
  constructor
  · rintro ⟨_, ⟨entry, among, named, rfl⟩, rfl⟩
    exact ⟨_, ⟨entry, among, rfl⟩, named, rfl⟩
  · rintro ⟨_, ⟨entry, among, rfl⟩, named, rfl⟩
    exact ⟨entry.value, ⟨entry, among, named, rfl⟩, rfl⟩

/-- The same entries give a name the same values. -/
theorem SameEntries.values {entries others : List (ScopeEntry α)}
    (same : SameEntries key entries others) (name : String) (value : κ)
    : value ∈ (namedValues entries name).map key ↔ value ∈ (namedValues others name).map key := by
  rw [mem_map_namedValues, mem_map_namedValues]
  simp only [same _]

/-- Where one name means one thing, all values of a name that is offered are one thing. -/
theorem ByIdentity.values_of_offered (byIdentity : ByIdentity decide key)
    (unique : ∀ old new, decide old new ≠ .conflict → key old = key new)
    {existing offered : List (ScopeEntry α)}
    (compatible : importConflict? decide existing offered = none) {entry : ScopeEntry α}
    (among : entry ∈ offered)
    : ∀ value ∈ namedValues (existing ++ importedEntries decide existing offered) entry.name,
        key value = key entry.value := by
  rw [byIdentity.importConflict?_eq_none_iff] at compatible
  have symm : Std.Symm (ScopeEntry.Compatible decide) :=
    ⟨fun _ _ compatible => compatible.symm byIdentity⟩
  have together := compatible.2.forall_of_forall fun entry _ => entry.compatible_self byIdentity
  intro value inValues
  obtain ⟨other, inEntries, named, rfl⟩ := mem_namedValues.mp inValues
  rcases List.mem_append.mp inEntries with old | new
  · exact unique _ _ (compatible.1 entry among other old named)
  · obtain ⟨source, offeredToo, rfl⟩ := mem_importedEntries new
    exact unique _ _ (together offeredToo among named)

/-- An import gives no values to a name that is not offered. -/
theorem namedValues_not_offered (decide : α → α → MergeDecision) (existing : List (ScopeEntry α))
    {offered : List (ScopeEntry α)} {name : String} (missing : ∀ entry ∈ offered, entry.name ≠ name)
    : namedValues (existing ++ importedEntries decide existing offered) name =
        namedValues existing name := by
  have none : namedValues (importedEntries decide existing offered) name = [] := by
    refine List.eq_nil_iff_forall_not_mem.mpr fun value among => ?_
    obtain ⟨entry, added, named, _⟩ := mem_namedValues.mp among
    obtain ⟨source, isOffered, rfl⟩ := mem_importedEntries added
    exact missing source isOffered named
  rw [namedValues_append, none, List.append_nil]

/-- Lists of one value have the same last element if both are empty or neither is. -/
theorem getLast?_eq_of_all {values others : List κ} {value : κ}
    (all : ∀ each ∈ values, each = value)
    (allToo : ∀ each ∈ others, each = value) (same : ∀ each, each ∈ values ↔ each ∈ others)
    : values.getLast? = others.getLast? := by
  have empty : values.length = 0 ↔ others.length = 0 := by
    rw [List.length_eq_zero_iff, List.length_eq_zero_iff, List.eq_nil_iff_forall_not_mem,
      List.eq_nil_iff_forall_not_mem]
    simp only [same]
  rw [List.eq_replicate_of_mem all, List.eq_replicate_of_mem allToo, List.getLast?_replicate,
    List.getLast?_replicate]
  simp only [empty]

/-- Where one name means one thing, the last value of a name does not depend on the order. -/
theorem ByIdentity.last_perm (byIdentity : ByIdentity decide key)
    (unique : ∀ old new, decide old new ≠ .conflict → key old = key new)
    {existing offered other : List (ScopeEntry α)} (perm : offered.Perm other)
    (compatible : importConflict? decide existing offered = none) (name : String)
    : (namedValues (existing ++ importedEntries decide existing offered) name).getLast?.map key =
        (namedValues (existing ++ importedEntries decide existing other) name).getLast?.map
          key := by
  have same : ∀ value, value ∈ (namedValues (existing ++ importedEntries decide existing offered)
      name).map key ↔ value ∈ (namedValues (existing ++ importedEntries decide existing other)
      name).map key := (byIdentity.sameEntries_perm perm).values name
  have compatibleToo := (byIdentity.conflict_perm perm).mp compatible
  by_cases isOffered : ∃ entry ∈ offered, entry.name = name
  · obtain ⟨entry, among, rfl⟩ := isOffered
    have one := byIdentity.values_of_offered unique compatible among
    have two := byIdentity.values_of_offered unique compatibleToo (perm.mem_iff.mp among)
    rw [← List.getLast?_map, ← List.getLast?_map]
    exact getLast?_eq_of_all (List.forall_mem_map.mpr one) (List.forall_mem_map.mpr two) same
  · have missing (entry : ScopeEntry α) (among : entry ∈ offered) : entry.name ≠ name :=
      fun named => isOffered ⟨entry, among, named⟩
    rw [namedValues_not_offered decide existing missing,
      namedValues_not_offered decide existing fun entry among =>
        missing entry (perm.mem_iff.mpr among)]

theorem ScopeEntry.map_id (entries : List (ScopeEntry α))
    : entries.map (ScopeEntry.map id) = entries :=
  List.map_id entries

/-- Entries are the same altogether if what they are tells their values. -/
theorem SameEntries.of_injective {entries others : List (ScopeEntry α)}
    (same : SameEntries key entries others) {met : α → Prop}
    (injective : ∀ one other, met one → met other → key one = key other → one = other)
    (meets : ∀ entry ∈ entries, met entry.value) (meetsToo : ∀ entry ∈ others, met entry.value)
    {entry : ScopeEntry α} (among : entry ∈ entries)
    : entry ∈ others := by
  obtain ⟨other, inOthers, equal⟩ := List.mem_map.mp ((same _).mp (List.mem_map_of_mem among))
  simp only [ScopeEntry.map, ScopeEntry.mk.injEq] at equal
  obtain ⟨name, value, exported⟩ := equal
  have values := injective _ _ (meetsToo other inOthers) (meets entry among) value
  cases entry
  cases other
  cases name
  cases values
  cases exported
  exact inOthers

end BuildScript
