import BuildScript.Proofs.Registry.Names
import BuildScript.Proofs.Scope.Paths
import BuildScript.Proofs.Syntax.Parsing
import BuildScript.Proofs.Workspace.Loading

/-! What names of types identify. A script declares no name twice, and none that is provided. So
names identify the types of a program exactly if no two of its scripts declare the same name.
-/

namespace BuildScript

/-- The types that every script begins with. -/
def Prelude.provided : List TypeId := Prelude.standard.builtins.types

-----------------------------------------------------------------------------------------
-- Names in one script
-----------------------------------------------------------------------------------------

/-- Types of one script have different names, which are not provided either. -/
def Registry.Distinct (registry : Registry) (types : List TypeId) : Prop :=
  ((Prelude.provided ++ types).map registry.typeName).Nodup

/-- A type is located when every path of words that is its name leads to it. -/
def BuildState.Located (state : BuildState) (id : TypeId) : Prop :=
  ∀ path name, (∀ segment ∈ path ++ [name], isWord segment = true) →
    state.workspace.registry.typeName id = TypeExpr.joinPath (path ++ [name]) →
    state.symbols.types.HasAt path name id

/-- The types that a script has declared so far are located, just like the provided ones, and have
different names. The current scope stands at the path of the namespaces.
-/
structure BuildState.Locates (state : BuildState) (declared : List TypeId) : Prop where
  shaped : state.symbols.types.Shaped
  here : state.symbols.types.navigate? 0 state.namespaces = some state.symbols.types.current
  words : ∀ name ∈ state.namespaces, isWord name = true
  known : ∀ id ∈ Prelude.provided ++ declared, state.workspace.registry.Knows id
  located : ∀ id ∈ Prelude.provided ++ declared, state.Located id
  distinct : state.workspace.registry.Distinct declared

namespace BuildState.Locates

variable {before after : BuildState} {declared : List TypeId}

/-- What is located stays so while the registry goes on and the table widens. -/
theorem mono (locates : before.Locates declared)
    (precedes : before.workspace.registry.Precedes after.workspace.registry)
    (widens : before.symbols.types.Widens after.symbols.types)
    (shaped : after.symbols.types.Shaped)
    (here : after.symbols.types.navigate? 0 after.namespaces = some after.symbols.types.current)
    (words : ∀ name ∈ after.namespaces, isWord name = true)
    : after.Locates declared := by
  refine ⟨shaped, here, words, fun id among => precedes.knows id (locates.known id among),
    fun id among path name segments same => ?_, ?_⟩
  · rw [precedes.typeName id (locates.known id among)] at same
    exact widens.hasAt (locates.located id among path name segments same)
  · unfold Registry.Distinct
    rw [List.map_congr_left fun id among => precedes.typeName id (locates.known id among)]
    exact locates.distinct

/-- A type whose name means it at its path is located. -/
theorem located_of_hasAt {state : BuildState} {id : TypeId} {path : List String} {name : String}
    (words : ∀ segment ∈ path ++ [name], isWord segment = true)
    (same : state.workspace.registry.typeName id = TypeExpr.joinPath (path ++ [name]))
    (has : state.symbols.types.HasAt path name id)
    : state.Located id := by
  intro other last segments otherSame
  rw [same] at otherSame
  obtain ⟨paths, names⟩ := List.append_inj' (joinPath_injective (by simp) (by simp) words segments
    otherSame) rfl
  cases names
  rw [← paths]
  exact has

/-- A name that the current scope does not have is not the name of a type of the script. -/
theorem ne_of_free (locates : before.Locates declared) {name : String}
    (word : isWord name = true) (free : before.symbols.types.findHere? name = none)
    : ∀ id ∈ Prelude.provided ++ declared,
        before.workspace.registry.typeName id
          ≠ TypeExpr.joinPath (before.namespaces ++ [name]) := by
  intro id among same
  have segments : ∀ segment ∈ before.namespaces ++ [name], isWord segment = true := by
    intro segment inPath
    rcases List.mem_append.mp inPath with around | last
    · exact locates.words segment around
    · rw [List.mem_singleton.mp last]
      exact word
  obtain ⟨place, leads, found⟩ := locates.located id among _ _ segments same
  rw [locates.here] at leads
  cases leads
  have none := List.head?_eq_none_iff.mp free
  rw [ScopeTable.findAllHere] at none
  rw [none] at found
  exact nomatch found

/-- The declaration of a type whose name is free locates it too. -/
theorem addType (locates : before.Locates declared) {name : Token}
    (word : isWord name.value = true)
    (free : before.symbols.types.findHere? name.value = none) (contextKind : ContextKind)
    (kind : TypeKind) (base? : Option TypeId) (exported : Bool)
    : (before.addType name contextKind kind base? exported).Locates
        (declared ++ [⟨before.workspace.registry.types.size⟩]) := by
  have grows := before.grows_addType name contextKind kind base? exported
  have registered := locates.shaped.register name.value
    (⟨before.workspace.registry.types.size⟩ : TypeId) exported
  have widens := ScopeTable.widens_register before.symbols.types name.value
    (⟨before.workspace.registry.types.size⟩ : TypeId) exported
  have kept : (before.addType name contextKind kind base? exported).Locates declared :=
    locates.mono grows.precedes widens registered (widens.navigate? locates.here) locates.words
  have segments : ∀ segment ∈ before.namespaces ++ [name.value], isWord segment = true := by
    intro segment inPath
    rcases List.mem_append.mp inPath with around | last
    · exact locates.words segment around
    · rw [List.mem_singleton.mp last]
      exact word
  have named : (before.addType name contextKind kind base? exported).workspace.registry.typeName
      ⟨before.workspace.registry.types.size⟩
        = TypeExpr.joinPath (before.namespaces ++ [name.value]) := by
    rw [Registry.typeName, BuildState.type_addType, if_pos rfl]
  refine ⟨registered, kept.here, kept.words, fun id among => ?_, fun id among => ?_, ?_⟩
  · rw [← List.append_assoc] at among
    rcases List.mem_append.mp among with old | new
    · exact kept.known id old
    · rw [List.mem_singleton.mp new]
      exact before.knows_addType name contextKind kind base? exported
  · rw [← List.append_assoc] at among
    rcases List.mem_append.mp among with old | new
    · exact kept.located id old
    · rw [List.mem_singleton.mp new]
      exact located_of_hasAt segments named ⟨_, kept.here, locates.shaped.mem_register _ _ _⟩
  · unfold Registry.Distinct
    rw [← List.append_assoc, List.map_append, List.map_singleton, named]
    refine List.nodup_append.mpr ⟨kept.distinct, List.nodup_singleton _, ?_⟩
    intro other among last inLast same
    rw [List.mem_singleton.mp inLast] at same
    obtain ⟨id, inTypes, rfl⟩ := List.mem_map.mp among
    rw [grows.typeName (locates.known id inTypes)] at same
    exact locates.ne_of_free word free id inTypes same

/-- Named scopes are entered and left in the table of types as in all others. -/
theorem types_enterAll (names : List String) (symbols : Symbols)
    : (names.foldl (fun symbols name => symbols.enterNamed name false) symbols).types =
        names.foldl (fun table name => table.enterNamed name false) symbols.types := by
  induction names generalizing symbols with
  | nil => rfl
  | cons first rest ih => exact ih _

theorem types_leaveAll (names : List String) (symbols : Symbols)
    : (names.foldl (fun symbols _ => symbols.leave) symbols).types =
        names.foldl (fun table _ => table.leave) symbols.types := by
  induction names generalizing symbols with
  | nil => rfl
  | cons first rest ih => exact ih _

theorem enterScopes (locates : before.Locates declared) {names : List String}
    (words : ∀ name ∈ names, isWord name = true) (context : ContextId)
    : (before.enterScopes names context).Locates declared := by
  obtain ⟨shaped, widens, leads⟩ := locates.shaped.enterAll locates.here names
  have types := types_enterAll names before.symbols
  rw [← types] at shaped widens leads
  refine locates.mono (.refl _) widens shaped leads fun name among => ?_
  rcases List.mem_append.mp among with around | entered
  · exact locates.words name around
  · exact words name entered

theorem leaveScopes (locates : after.Locates declared) {names : List String}
    (inside : after.namespaces = before.namespaces ++ names)
    : (before.leaveScopes names after).Locates declared := by
  have here := locates.here
  rw [inside] at here
  obtain ⟨place, leads, left⟩ := locates.shaped.leaveAll names rfl here
  have types := types_leaveAll names after.symbols
  rw [left] at types
  have current : place < after.symbols.types.scopes.size := by
    refine locates.shaped.navigate?_inside ?_ leads
    exact Nat.lt_of_le_of_lt (Nat.zero_le _) locates.shaped.current
  have shaped := locates.shaped.setCurrent current
  have widens := (ScopeTable.Widens.refl after.symbols.types).setCurrent place
  refine locates.mono (.refl _) ?_ ?_ ?_ ?_
  · show after.symbols.types.Widens (names.foldl _ after.symbols).types
    rw [types]
    exact widens
  · show (names.foldl _ after.symbols).types.Shaped
    rw [types]
    exact shaped
  · show (names.foldl _ after.symbols).types.navigate? 0 before.namespaces =
      some (names.foldl _ after.symbols).types.current
    rw [types]
    exact leads
  · intro name among
    refine locates.words name ?_
    rw [inside]
    exact List.mem_append_left _ among

/-- Imported names leave everything located. -/
theorem merge (locates : before.Locates declared) {imported symbols : Symbols}
    (merged : before.symbols.merge before.workspace.registry imported = (none, symbols))
    : BuildState.Locates { before with symbols } declared := by
  have types : symbols.types = (before.symbols.types.merge (Symbols.mergeUnique id)
      imported.types).2 := by
    unfold Symbols.merge at merged
    split at merged
    · exact nomatch merged
    next outcome =>
      rw [outcome]
      split at merged
      · exact nomatch merged
      · split at merged
        · exact nomatch merged
        · obtain ⟨_, rfl⟩ := Prod.mk.inj merged
          rfl
  have enriched := locates.shaped.merge (Symbols.mergeUnique id) imported.types
  rw [← types] at enriched
  have here := enriched.widens.navigate? locates.here
  rw [← enriched.current] at here
  exact locates.mono (.refl _) enriched.widens enriched.shaped here locates.words

end BuildState.Locates

-----------------------------------------------------------------------------------------
-- Names in all scripts
-----------------------------------------------------------------------------------------

/-- The types that the finished scripts of a compilation declare. -/
def Workspace.declared (workspace : Workspace) : List TypeId :=
  workspace.modules.flatMap (·.scriptUnit.types)

/-- A workspace is named when its registry goes on from the provided one and is named by the
provided types, those of the finished scripts and those of scripts that are not finished, and when
each finished script has different names.
-/
structure Workspace.Named (workspace : Workspace) (pending : List TypeId) : Prop where
  begins : Prelude.standard.registry.Precedes workspace.registry
  registry : workspace.registry.Named (Prelude.provided ++ (workspace.declared ++ pending))
  modules : ∀ finished ∈ workspace.modules,
    workspace.registry.Distinct finished.scriptUnit.types

namespace Workspace.Named

variable {before after : Workspace} {pending types : List TypeId}

/-- A workspace stays named when its registry does and its modules stay the same. -/
theorem ofRegistry (named : before.Named pending)
    (precedes : before.registry.Precedes after.registry) (modules : after.modules = before.modules)
    (registry : after.registry.Named (Prelude.provided ++ (before.declared ++ types)))
    : after.Named types := by
  refine ⟨named.begins.trans precedes, ?_, fun finished among => ?_⟩
  · rw [Workspace.declared, modules]
    exact registry
  · rw [modules] at among
    have distinct := named.modules finished among
    unfold Registry.Distinct at distinct ⊢
    rw [List.map_congr_left fun id inTypes => precedes.typeName id
      (named.registry.plain id (included among inTypes)).known]
    exact distinct
where
  /-- The types of a finished script are among those that name the registry. -/
  included {finished : Module} {id : TypeId} (among : finished ∈ before.modules)
      (inTypes : id ∈ Prelude.provided ++ finished.scriptUnit.types)
      : id ∈ Prelude.provided ++ (before.declared ++ pending) := by
    rcases List.mem_append.mp inTypes with provided | declared
    · exact List.mem_append_left _ provided
    · refine List.mem_append_right _ (List.mem_append_left _ ?_)
      exact List.mem_flatMap.mpr ⟨finished, among, declared⟩

/-- A script with different names may be finished. -/
theorem finish (named : before.Named (pending ++ types)) (path : String)
    {scriptUnit : TypedUnit} (same : scriptUnit.types = types)
    (distinct : before.registry.Distinct scriptUnit.types)
    : Workspace.Named { before with modules := before.modules ++ [⟨path, scriptUnit⟩] }
        pending := by
  refine ⟨named.begins, ?_, fun finished among => ?_⟩
  · refine named.registry.perm ?_
    rw [Workspace.declared, Workspace.declared, List.flatMap_append, List.flatMap_singleton, same]
    refine List.Perm.append_left _ ?_
    rw [List.append_assoc]
    exact List.Perm.append_left _ List.perm_append_comm
  · rcases List.mem_append.mp among with old | new
    · exact named.modules finished old
    · rw [List.mem_singleton.mp new]
      exact distinct

end Workspace.Named

-----------------------------------------------------------------------------------------
-- The law of names
-----------------------------------------------------------------------------------------

/-- One workspace continues another one when its registry goes on from the other's and it stays
named, whatever is not finished.
-/
structure Workspace.Continues (before after : Workspace) : Prop where
  precedes : before.registry.Precedes after.registry
  named : ∀ {pending}, before.Named pending → after.Named pending

/-- A workspace takes up the types of a script when they name the registry too and have different
names.
-/
structure Workspace.TakesUp (before : Workspace) (types : List TypeId) (after : Workspace)
    : Prop where
  precedes : before.registry.Precedes after.registry
  named : ∀ {pending}, before.Named pending →
    after.Named (pending ++ types) ∧ after.registry.Distinct types

/-- A state continues another one when its workspace does, and when it has the same types in the
same namespaces.
-/
structure BuildState.Continues (before after : BuildState) : Prop where
  workspace : before.workspace.Continues after.workspace
  types : after.symbols.types = before.symbols.types
  namespaces : after.namespaces = before.namespaces

/-- A state takes up declared types when they name the registry too and are located. -/
structure BuildState.TakesUp (before : BuildState) (types : List TypeId) (after : BuildState)
    : Prop where
  precedes : before.workspace.registry.Precedes after.workspace.registry
  namespaces : after.namespaces = before.namespaces
  located : ∀ {pending declared}, before.workspace.Named (pending ++ declared) →
    before.Locates declared →
    after.workspace.Named (pending ++ (declared ++ types)) ∧ after.Locates (declared ++ types)

namespace Workspace.Continues

variable {before middle after : Workspace}

theorem trans (first : before.Continues middle) (later : middle.Continues after)
    : before.Continues after :=
  ⟨first.precedes.trans later.precedes, fun named => later.named (first.named named)⟩

/-- A workspace continues when its registry does. -/
theorem ofRegistry {workspace : Workspace} {registry : Registry}
    (precedes : workspace.registry.Precedes registry)
    (named : ∀ {own}, workspace.registry.Named own → registry.Named own)
    : workspace.Continues { workspace with registry } :=
  ⟨precedes, fun before => before.ofRegistry precedes rfl (named before.registry)⟩

theorem ofSame {workspace : Workspace} {registry : Registry}
    (same : workspace.registry.SameTypes registry)
    : workspace.Continues { workspace with registry } :=
  ofRegistry same.precedes fun named => named.ofSame same

/-- A workspace continues when neither the registry nor the modules change. -/
theorem quiet (registry : after.registry = before.registry)
    (modules : after.modules = before.modules)
    : before.Continues after := by
  have precedes : before.registry.Precedes after.registry := by
    rw [registry]
    exact .refl _
  refine ⟨precedes, fun named => named.ofRegistry precedes modules ?_⟩
  rw [registry]
  exact named.registry

/-- A workspace continues with each step of a declaration, by cases on the step. -/
theorem ofStep {workspace : Workspace} {b : BuiltinTypes} {registry : Registry}
    (step : workspace.registry.Step b registry)
    : workspace.Continues { workspace with registry } := by
  refine ofRegistry step.grows.precedes fun named => ?_
  cases step with
  | index => exact named.ofSame ⟨rfl, rfl, rfl⟩
  | reference id known => exact named.addReference known
  | component component => exact named.ofSame ⟨rfl, rfl, rfl⟩
  | context kind name parent? => exact named.ofSame ⟨rfl, rfl, rfl⟩
  | function info => exact named.ofSame ⟨rfl, rfl, rfl⟩
  | assignment context object reference =>
      exact named.ofSame (Registry.sameTypes_addBuiltin _ _ _ _ _ _)
  | deduction id type => exact named.ofSame ⟨rfl, rfl, rfl⟩
  | body id body => exact named.ofSame ⟨rfl, rfl, rfl⟩
  | enumeration id known => exact named.addEnumFunctions b known

end Workspace.Continues

namespace BuildState

variable {before middle after : BuildState} {first second types : List TypeId}

theorem Continues.takesUp (continues : before.Continues after) : before.TakesUp [] after := by
  refine ⟨continues.workspace.precedes, continues.namespaces, fun named locates => ?_⟩
  rw [List.append_nil]
  refine ⟨continues.workspace.named named, ?_⟩
  have types := continues.types
  have here := locates.here
  rw [← types, ← continues.namespaces] at here
  refine locates.mono continues.workspace.precedes ?_ ?_ here ?_
  · rw [types]
    exact .refl _
  · rw [types]
    exact locates.shaped
  · rw [continues.namespaces]
    exact locates.words

theorem TakesUp.trans (start : before.TakesUp first middle) (rest : middle.TakesUp second after)
    : before.TakesUp (first ++ second) after := by
  refine ⟨start.precedes.trans rest.precedes, rest.namespaces.trans start.namespaces,
    fun named locates => ?_⟩
  obtain ⟨named, locates⟩ := start.located named locates
  obtain ⟨named, locates⟩ := rest.located named locates
  rw [List.append_assoc] at named locates
  exact ⟨named, locates⟩

/-- A new type with a free name names the registry. -/
theorem named_addType {pending : List TypeId} (named : before.workspace.Named pending)
    {name : Token} (word : isWord name.value = true)
    (words : ∀ segment ∈ before.namespaces, isWord segment = true) (contextKind : ContextKind)
    {kind : TypeKind} (form : kind = .object ∨ ∃ names, kind = .enumeration names)
    (base? : Option TypeId) (exported : Bool)
    : (before.addType name contextKind kind base? exported).workspace.Named
        (pending ++ [⟨before.workspace.registry.types.size⟩]) := by
  have precedes := (before.grows_addType name contextKind kind base? exported).precedes
  have info := before.type_addType name contextKind kind base? exported
    ⟨before.workspace.registry.types.size⟩
  rw [if_pos rfl] at info
  have segments : ∀ segment ∈ before.namespaces ++ [name.value], isWord segment = true := by
    intro segment inPath
    rcases List.mem_append.mp inPath with around | last
    · exact words segment around
    · rw [List.mem_singleton.mp last]
      exact word
  have ending (c : Char) (mark : isWordPart c = false) (other : c ≠ ':')
      : (TypeExpr.joinPath (before.namespaces ++ [name.value])).toList.getLast? ≠ some c := by
    intro last
    rcases joinPath_chars segments c (List.mem_of_getLast? last) with part | colon
    · rw [mark] at part
      cases part
    · exact other colon
  have plain : (before.addType name contextKind kind base? exported).workspace.registry.Plain
      ⟨before.workspace.registry.types.size⟩ := by
    refine ⟨before.knows_addType name contextKind kind base? exported, ?_, ?_, ?_⟩
    · rw [info]
      rcases form with rfl | ⟨names, rfl⟩
      · rfl
      · rfl
    · rw [Registry.typeName, info]
      exact ending '&' (by decide) (by decide)
    · rw [Registry.typeName, info]
      exact ending '>' (by decide) (by decide)
  have added :=
    named.registry.addOwn precedes (Nat.lt_irrefl _) plain (fun id known unknown => ?_) rfl
  · rw [List.append_assoc, List.append_assoc] at added
    exact named.ofRegistry precedes rfl added
  · have size : (before.addType name contextKind kind base? exported).workspace.registry.types.size
        = before.workspace.registry.types.size + 1 := Array.size_push ..
    have inside : id.index < before.workspace.registry.types.size + 1 := by
      rw [← size]
      exact known
    exact Registry.eq_of_new inside unknown

/-- The declaration of a type with a free name takes it up. -/
theorem takesUp_addType (state : BuildState) {name : Token} (word : isWord name.value = true)
    (free : state.symbols.types.findHere? name.value = none) (contextKind : ContextKind)
    {kind : TypeKind} (form : kind = .object ∨ ∃ names, kind = .enumeration names)
    (base? : Option TypeId) (exported : Bool)
    : state.TakesUp [⟨state.workspace.registry.types.size⟩]
        (state.addType name contextKind kind base? exported) := by
  refine ⟨(state.grows_addType name contextKind kind base? exported).precedes, rfl,
    fun named locates => ?_⟩
  have added := named_addType named word locates.words contextKind form base? exported
  rw [List.append_assoc] at added
  exact ⟨added, locates.addType word free contextKind kind base? exported⟩

/-- What is declared in named scopes is taken up by the state around them. -/
theorem TakesUp.ofScopes {names : List String} {context : ContextId}
    (words : ∀ name ∈ names, isWord name = true)
    (inside : (before.enterScopes names context).TakesUp types after)
    : before.TakesUp types (before.leaveScopes names after) := by
  refine ⟨inside.precedes, rfl, fun named locates => ?_⟩
  obtain ⟨named, located⟩ := inside.located named (locates.enterScopes words context)
  exact ⟨named, located.leaveScopes inside.namespaces⟩

end BuildState

-----------------------------------------------------------------------------------------
-- Provided names
-----------------------------------------------------------------------------------------

set_option maxRecDepth 100000 in
/-- Scripts begin in the scope at the empty path of the provided names. The provided types are
located there, apart from those whose name cannot be written.
-/
theorem Prelude.standard_located
    : Prelude.standard.symbols.types.Shaped
      ∧ some Prelude.standard.symbols.types.current
        = Prelude.standard.symbols.types.navigate? 0 []
      ∧ ∀ id ∈ Prelude.provided,
        (∃ path ∈ [[], ["cmake"]],
          (∀ segment ∈ path ++ [(Prelude.standard.registry.type id).primaryName],
            isWord segment = true)
          ∧ Prelude.standard.registry.typeName id
            = TypeExpr.joinPath (path ++ [(Prelude.standard.registry.type id).primaryName])
          ∧ Prelude.standard.symbols.types.HasAt path
            (Prelude.standard.registry.type id).primaryName id)
        ∨ ∃ c ∈ (Prelude.standard.registry.typeName id).toList,
          isWordPart c = false ∧ c ≠ ':' := by
  unfold Prelude.provided
  exact ⟨ScopeTable.shaped_of_isShaped (by decide +kernel), by decide +kernel, by decide +kernel⟩

set_option maxRecDepth 100000 in
/-- The provided types have names of their own. -/
theorem Prelude.standard_named
    : Prelude.standard.registry.Named Prelude.provided
      ∧ Prelude.standard.registry.Distinct [] := by
  refine ⟨Registry.named_of_isNamed (by decide +kernel), ?distinct⟩
  case distinct =>
    unfold Registry.Distinct Prelude.provided
    decide +kernel

/-- A script begins with all provided types located. -/
theorem BuildState.Locates.ofPrelude {workspace : Workspace}
    (begins : Prelude.standard.registry.Precedes workspace.registry) (context : ContextId)
    : BuildState.Locates ⟨workspace, Prelude.standard.symbols, context, [], [], 0⟩ [] := by
  have start : BuildState.Locates
      ⟨.ofRegistry Prelude.standard.registry, Prelude.standard.symbols, context, [], [], 0⟩ [] := by
    obtain ⟨shaped, current, located⟩ := Prelude.standard_located
    refine ⟨shaped, current.symm, ?_, fun id among => ?_, fun id among => ?_,
      Prelude.standard_named.2⟩
    · exact fun _ absent => absurd absent List.not_mem_nil
    · rw [List.append_nil] at among
      exact Prelude.standard_closed.2.1 id among
    · rw [List.append_nil] at among
      rcases located id among with ⟨path, _, words, same, has⟩ |
        ⟨c, inName, mark, other⟩
      · exact located_of_hasAt words same has
      · intro path name segments same
        have inJoined : c ∈ (TypeExpr.joinPath (path ++ [name])).toList := same ▸ inName
        rcases joinPath_chars segments c inJoined with part | colon
        · rw [mark] at part
          cases part
        · exact absurd colon other
  exact start.mono begins (.refl _) start.shaped start.here start.words

namespace Workspace.TakesUp

variable {before middle after : Workspace} {types : List TypeId}

theorem thenContinues (first : before.TakesUp types middle) (later : middle.Continues after)
    : before.TakesUp types after := by
  refine ⟨first.precedes.trans later.precedes, fun {pending} named => ?_⟩
  obtain ⟨named, distinct⟩ := first.named named
  refine ⟨later.named named, ?_⟩
  unfold Registry.Distinct at distinct ⊢
  rw [List.map_congr_left fun id among => later.precedes.typeName id
    (named.registry.plain id ?_).known]
  · exact distinct
  · rcases List.mem_append.mp among with provided | declared
    · exact List.mem_append_left _ provided
    · exact List.mem_append_right _ (List.mem_append_right _ (List.mem_append_right _ declared))

/-- A workspace continues when a script that was taken up is finished. -/
theorem finish {path : String} {scriptUnit : TypedUnit}
    (takesUp : before.TakesUp scriptUnit.types after)
    : before.Continues { after with modules := after.modules ++ [⟨path, scriptUnit⟩] } := by
  refine ⟨takesUp.precedes, fun {pending} named => ?_⟩
  obtain ⟨named, distinct⟩ := takesUp.named named
  exact named.finish path rfl distinct

/-- A script that begins with the provided names is taken up by its workspace. -/
theorem ofScript {workspace : Workspace} {after : BuildState} {context : ContextId}
    (script : BuildState.TakesUp ⟨workspace, Prelude.standard.symbols, context, [], [], 0⟩ types
      after)
    : workspace.TakesUp types after.workspace := by
  refine ⟨script.precedes, fun {pending} named => ?_⟩
  have start : BuildState.Locates
      ⟨workspace, Prelude.standard.symbols, context, [], [], 0⟩ [] :=
    .ofPrelude named.begins context
  obtain ⟨named, locates⟩ := script.located (by rw [List.append_nil]; exact named) start
  rw [List.nil_append] at named locates
  exact ⟨named, locates.distinct⟩

end Workspace.TakesUp

/-- The law of names: what scripts load and declare is taken up with different names. -/
def DeclLaw.naming : DeclLaw Prelude.standard where
  load := Workspace.Continues
  keeps := BuildState.Continues
  refl _ := ⟨.quiet rfl rfl, rfl, rfl⟩
  trans first later :=
    ⟨first.workspace.trans later.workspace, later.types.trans first.types,
      later.namespaces.trans first.namespaces⟩
  workspace related := ⟨related, rfl, rfl⟩
  report _ _ := .quiet rfl rfl
  index _ := .ofSame ⟨rfl, rfl, rfl⟩
  reference workspace id known :=
    .ofRegistry (Registry.grows_addReference _ id).precedes fun named => named.addReference known
  generic workspace family value known :=
    .ofRegistry (Registry.grows_addGeneric _ _ family value).precedes fun named =>
      named.addGeneric _ family known
  names _ _ same := ⟨.quiet rfl rfl, same, rfl⟩
  signals _ _ _ := ⟨.quiet rfl rfl, rfl, rfl⟩
  localScope {before after} kept := by
    refine ⟨kept.workspace, ?_, kept.namespaces⟩
    show after.symbols.types.leave = before.symbols.types
    rw [kept.types]
    exact ScopeTable.leave_enterLocal before.symbols.types
  declares := BuildState.TakesUp
  loads := Workspace.TakesUp
  kept := BuildState.Continues.takesUp
  follow := BuildState.TakesUp.trans
  loadTrans := Workspace.Continues.trans
  loadThenLoads first later :=
    ⟨first.precedes.trans later.precedes, fun named => later.named (first.named named)⟩
  loadsThenLoad := Workspace.TakesUp.thenContinues
  quiet := .quiet
  step := .ofStep
  members _ _ :=
    .ofRegistry (Registry.precedes_setMembers _ _ _) fun named => named.setMembers _ _
  finished related _ := related.finish
  script := Workspace.TakesUp.ofScript
  declared state name contextKind kind base? exported word form _ free :=
    state.takesUp_addType word free contextKind form base? exported
  namedScopes := BuildState.TakesUp.ofScopes
  merged state imported symbols merged :=
    ⟨.refl _, rfl, fun named locates => by
      rw [List.append_nil]
      exact ⟨named, locates.merge merged⟩⟩

-----------------------------------------------------------------------------------------
-- Programs
-----------------------------------------------------------------------------------------

/-- The provided types name a workspace that has no other types and no modules. -/
theorem Workspace.Named.ofPrelude {workspace : Workspace}
    (registry : workspace.registry = Prelude.standard.registry) (modules : workspace.modules = [])
    : workspace.Named [] := by
  refine ⟨?_, ?_, fun finished among => ?_⟩
  · rw [registry]
    exact .refl _
  · rw [registry, Workspace.declared, modules]
    simpa using Prelude.standard_named.1
  · rw [modules] at among
    exact nomatch among

namespace Program

/-- The scripts of a program: its modules in the order in which they were finished, and the script
that is run.
-/
def scripts (program : Program) : List TypedUnit :=
  program.modules.map (·.scriptUnit) ++ [program.scriptUnit]

/-- The types that the scripts of a program declare. -/
def declared (program : Program) : List TypeId := program.scripts.flatMap (·.types)

/-- The types of an accepted program come from the provided and the declared ones, and each script
has different names.
-/
theorem Accepted.named {program : Program} (accepted : program.Accepted)
    : program.registry.Closed ∧ program.registry.Named (Prelude.provided ++ program.declared)
      ∧ ∀ scriptUnit ∈ program.scripts, program.registry.Distinct scriptUnit.types := by
  obtain ⟨before, after, start, empty, loads, closed, registry, modules, _⟩ :=
    accepted.loads .naming
  obtain ⟨named, distinct⟩ := loads.named (.ofPrelude start empty)
  rw [registry]
  refine ⟨closed.registry, ?_, fun scriptUnit among => ?_⟩
  · have own := named.registry
    rw [Workspace.declared, ← modules, List.nil_append] at own
    rw [declared, scripts, List.flatMap_append, List.flatMap_singleton, List.flatMap_map]
    exact own
  · rcases List.mem_append.mp among with inModules | main
    · obtain ⟨finished, inProgram, rfl⟩ := List.mem_map.mp inModules
      rw [modules] at inProgram
      exact named.modules finished inProgram
    · rw [List.mem_singleton.mp main]
      exact distinct

/-- Names with a declaration are all different if those of the scripts are. -/
theorem distinct_of_declared {program : Program}
    (scripts : ∀ scriptUnit ∈ program.scripts, program.registry.Distinct scriptUnit.types)
    (declared : (program.declared.map program.registry.typeName).Nodup)
    : ((Prelude.provided ++ program.declared).map program.registry.typeName).Nodup := by
  rw [List.map_append]
  refine List.nodup_append.mpr ⟨?_, declared, fun name provided other among same => ?_⟩
  · have main : program.scriptUnit ∈ program.scripts := List.mem_append_right _ (.head _)
    have distinct := scripts _ main
    rw [Registry.Distinct, List.map_append] at distinct
    exact (List.nodup_append.mp distinct).1
  · obtain ⟨id, inDeclared, rfl⟩ := List.mem_map.mp among
    obtain ⟨scriptUnit, inProgram, inScript⟩ := List.mem_flatMap.mp inDeclared
    have distinct := scripts scriptUnit inProgram
    rw [Registry.Distinct, List.map_append] at distinct
    exact (List.nodup_append.mp distinct).2.2 name provided _ (List.mem_map_of_mem inScript) same

/-- What names identify. In an accepted program each script declares types of different names, none
of which is provided. Names identify all types of the program exactly if no two of its scripts
declare the same name. If they do, then types that count as the same are the same, a list that is
asked for at any moment for a class is one of this very class, and a value of a class fits only
where this class or one that it is derived from is expected.
-/
theorem Accepted.names_identify_types {program : Program} (accepted : program.Accepted)
    : let registry := program.registry
      (∀ scriptUnit ∈ program.scripts, registry.Distinct scriptUnit.types)
      ∧ (registry.NamesIdentify ↔ (program.declared.map registry.typeName).Nodup)
      ∧ ((program.declared.map registry.typeName).Nodup →
          (∀ a b, registry.Knows a → registry.Knows b → registry.sameType a b = true → a = b)
          ∧ (∀ earlier : Registry, earlier.Closed → earlier.Precedes registry →
              ∀ value, earlier.Knows value → (earlier.type value).isObject = true →
                let made := earlier.addGeneric program.builtins .list value
                (made.2.type made.1).kind = .list value)
          ∧ ∀ param argument, registry.Knows param → registry.Knows argument →
              (registry.type (registry.decayed param)).isObject = true →
              (registry.type (registry.decayed argument)).isObject = true →
              (registry.fitness? param argument).isSome = true →
              registry.decayed param ∈ registry.lineage (registry.decayed argument)) := by
  obtain ⟨closed, named, scripts⟩ := accepted.named
  have identifies (declared : (program.declared.map program.registry.typeName).Nodup)
      : program.registry.NamesIdentify :=
    named.identify closed (distinct_of_declared scripts declared)
  refine ⟨scripts, ⟨fun identify => ?_, identifies⟩, fun declared => ⟨?_, ?_, ?_⟩⟩
  · have distinct := named.distinct identify
    rw [List.map_append] at distinct
    exact (List.nodup_append.mp distinct).2.1
  · exact fun a b aKnown bKnown same =>
      (identifies declared).eq_of_sameType aKnown bKnown same
  · intro earlier earlierClosed precedes value known object
    exact named.addGeneric_kind (identifies declared) earlierClosed precedes program.builtins .list
      known object
  · intro param argument paramKnown argumentKnown expected object fits
    exact (identifies declared).derived_of_fitness closed paramKnown argumentKnown expected object
      fits

/-- A script that declares a class and exports a function that makes an object of it. -/
def exportingText : String :=
  "class P \x7b int x; \x7d export P make() \x7b return P(); \x7d"

/-- A script that imports that one and declares a class of some name. -/
def importingText (name : String) : String :=
  "import \"m.cmsl\"; class " ++ name ++ " \x7b int y; \x7d int main() \x7b return 0; \x7d"

/-- The program of a script that may import the script that exports. -/
def linked? (source : String) : Option Program :=
  (Session.compileSource source
    (Session.start Config.standard (Sources.ofFiles [("m.cmsl", exportingText)]))).1

/-- Such a program is accepted. -/
theorem linked?_accepted {source : String} {program : Program}
    (compiled : linked? source = some program)
    : program.Accepted :=
  Session.compileSource_accepted compiled

set_option maxRecDepth 100000 in
/-- A script may declare another class than the one it imports, and then all names differ. -/
theorem linked?_importingText
    : ((linked? (importingText "Q")).map fun program =>
        decide (program.scripts.length = 2
          ∧ (program.declared.map program.registry.typeName).Nodup)) = some true := by
  decide +kernel

/-- Names identify the types of two scripts with classes of different names. -/
theorem Accepted.names_identify_types_importingText
    : ∃ program, linked? (importingText "Q") = some program ∧ program.scripts.length = 2
        ∧ program.registry.NamesIdentify
        ∧ ∀ a b, program.registry.Knows a → program.registry.Knows b →
            program.registry.sameType a b = true → a = b := by
  obtain ⟨program, compiled, checked⟩ := Option.map_eq_some_iff.mp linked?_importingText
  obtain ⟨two, different⟩ := of_decide_eq_true checked
  obtain ⟨_, identify, decides⟩ :=
    (linked?_accepted compiled).names_identify_types
  exact ⟨program, compiled, two, identify.mpr different, (decides different).1⟩

/-- A script that imports the same one and declares a class of the same name. -/
def clashingText : String :=
  "import \"m.cmsl\"; class P \x7b int y; \x7d int main() \x7b P p = make(); return 0; \x7d"

set_option maxRecDepth 100000 in
/-- A script that declares a class of the same name as one that is imported without its name is
accepted. Then there are two classes of one name, and an object of one is taken for the other.
-/
theorem linked?_clashing
    : ((linked? clashingText).map fun program =>
        decide (∃ a ∈ program.declared, ∃ b ∈ program.declared,
          program.registry.Knows a ∧ program.registry.Knows b ∧ a ≠ b
          ∧ program.registry.typeName a = program.registry.typeName b
          ∧ (program.registry.type a).isObject = true ∧ (program.registry.type b).isObject = true
          ∧ (program.registry.fitness? a b).isSome = true ∧ a ∉ program.registry.lineage b))
      = some true := by
  decide +kernel

/-- Names do not identify types in general: two scripts may declare classes of one name. -/
theorem Accepted.names_clash
    : ∃ program, linked? clashingText = some program ∧ program.Accepted
        ∧ ¬ program.registry.NamesIdentify
        ∧ ∃ a b, program.registry.Knows a ∧ program.registry.Knows b ∧ a ≠ b
          ∧ program.registry.sameType a b = true
          ∧ (program.registry.type a).isObject = true ∧ (program.registry.type b).isObject = true
          ∧ (program.registry.fitness? a b).isSome = true
          ∧ a ∉ program.registry.lineage b := by
  obtain ⟨program, compiled, checked⟩ := Option.map_eq_some_iff.mp linked?_clashing
  obtain ⟨a, _, b, _, aKnown, bKnown, different, same, aObject, bObject, fits, apart⟩ :=
    of_decide_eq_true checked
  refine ⟨program, compiled, linked?_accepted compiled,
    fun identify =>
      different (identify a b aKnown bKnown same), a, b, aKnown, bKnown, different, ?_,
    aObject, bObject, fits, apart⟩
  rw [Registry.sameType, same]
  simp

end Program

end BuildScript
