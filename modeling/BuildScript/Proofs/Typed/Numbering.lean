import BuildScript.Proofs.Registry.Numbers
import BuildScript.Proofs.Typed.Success

/-! What checks do with the numbers of identifiers. A check takes some numbers that are in hand and
leaves others, which are those of what it gives, and what it gives sets members only.
-/

namespace BuildScript

-----------------------------------------------------------------------------------------
-- Workspaces
-----------------------------------------------------------------------------------------

namespace Workspace

/-- The numbers that a workspace keeps: those of its registry, then those of its modules. -/
def numbers (workspace : Workspace) : List Nat :=
  workspace.registry.numbers
    ++ workspace.modules.flatMap fun other => other.scriptUnit.globals.map (·.index)

/-- The numbers of a workspace, with the next one. -/
def numbering (workspace : Workspace) : Numbering :=
  ⟨workspace.registry.nextIndex, workspace.numbers⟩

/-- (SetsOnly allowed workspace) says that the bodies of all functions and the variables of all
modules set members of allowed numbers only.
-/
structure SetsOnly (allowed : Nat → Prop) (workspace : Workspace) : Prop where
  functions : workspace.registry.SetsOnly allowed
  modules : ∀ other ∈ workspace.modules, ∀ decl ∈ other.scriptUnit.globals, decl.SetsOnly allowed

/-- (Allots allowed taken made pre post before after) says what becomes of the numbers in hand on
the way from one workspace to another one, where types keep their members. Provided that `pre`
holds and that all members have allowed numbers, allowed members only are set in the end if that
was so before, and `post` holds.
-/
structure Allots (allowed : Nat → Prop) (taken made : List Nat) (pre post : Prop)
    (before after : Workspace)
    : Prop where
  numbers : before.numbering.Allots taken made after.numbering
  members : before.registry.KeepsMembers after.registry
  sets : pre → after.registry.MembersAmong allowed → before.SetsOnly allowed →
    after.SetsOnly allowed ∧ post

namespace Allots

variable {allowed : Nat → Prop} {taken carried made : List Nat} {pre mid post : Prop}
  {before middle after : Workspace}

/-- Nothing happens to numbers when neither the registry nor the modules change. -/
theorem quiet (registry : after.registry = before.registry)
    (modules : after.modules = before.modules)
    (fewer : ∀ number, made.count number ≤ taken.count number) (sets : pre → post)
    : before.Allots allowed taken made pre post after := by
  have same : after.numbering = before.numbering := by
    rw [numbering, Workspace.numbers, registry, modules]
    rfl
  refine ⟨?_, ?_, fun holds _ given => ⟨⟨?_, ?_⟩, sets holds⟩⟩
  · rw [same]
    exact Numbering.Allots.fewer (.refl _) fewer
  · rw [registry]
    exact fun _ known => ⟨known, rfl⟩
  · rw [registry]
    exact given.functions
  · rw [modules]
    exact given.modules

theorem trans (start : before.Allots allowed taken carried pre mid middle)
    (rest : middle.Allots allowed carried made (pre ∧ mid) post after)
    : before.Allots allowed taken made pre post after := by
  refine ⟨start.numbers.trans rest.numbers, start.members.trans rest.members,
    fun holds among given => ?_⟩
  obtain ⟨given, reached⟩ := start.sets holds (rest.members.membersAmong among) given
  exact rest.sets ⟨holds, reached⟩ among given

/-- What is required may be more, and what is concluded less. -/
theorem weaken {more less : Prop} (allots : before.Allots allowed taken made pre post after)
    (requires : more → pre) (concludes : more → post → less)
    : before.Allots allowed taken made more less after :=
  ⟨allots.numbers, allots.members, fun holds among given =>
    (allots.sets (requires holds) among given).imp id (concludes holds)⟩

/-- What is required at the start may be required again later. -/
theorem andThen (start : before.Allots allowed taken carried pre mid middle)
    (rest : middle.Allots allowed carried made pre post after)
    : before.Allots allowed taken made pre post after :=
  start.trans (rest.weaken (fun both => both.1) fun _ concluded => concluded)

/-- More numbers may be in hand all the time. -/
theorem frame (allots : before.Allots allowed taken made pre post after) (more : List Nat)
    : before.Allots allowed (taken ++ more) (made ++ more) pre post after :=
  ⟨allots.numbers.frame more, allots.members, allots.sets⟩

/-- Counting goes on in a workspace when it does in the registry. -/
theorem numbersOf {registry : Registry}
    (numbers : before.registry.numbering.Allots taken made registry.numbering)
    : before.numbering.Allots taken made (numbering { before with registry }) :=
  numbers.beside _

theorem ofRegistry {registry : Registry} (allots : before.registry.Allots taken made registry)
    (sets : pre → post)
    : before.Allots allowed taken made pre post { before with registry } :=
  ⟨numbersOf allots.numbers, allots.members, fun holds _ given =>
    ⟨⟨allots.sets allowed given.functions, given.modules⟩, sets holds⟩⟩

end Allots

end Workspace

-----------------------------------------------------------------------------------------
-- Checks
-----------------------------------------------------------------------------------------

/-- (Allot allowed neighbours) says that neighbours which are reached leave no numbers in hand. -/
structure Neighbours.Allot (allowed : Nat → Prop) (neighbours : Neighbours) : Prop where
  importModule : ∀ {name span before symbols after},
    neighbours.importModule name span before = (some symbols, after) →
      before.Allots allowed [] [] True True after
  addDirectory : ∀ {name span before content after},
    neighbours.addDirectory name span before = (content, after) → content ≠ .failed →
      before.Allots allowed [] [] True True after
  addComponentFile : ∀ {name span before creation after},
    neighbours.addComponentFile name span before = (some creation, after) →
      before.Allots allowed [] [] True True after

namespace Build

variable {α β : Type} {allowed : Nat → Prop} {taken : List Nat} {pre : Prop}

/-- (Allots allowed taken pre action made post) says that a check which succeeds allots numbers: it
takes some that are in hand and leaves those of what it gives.
-/
def Allots (allowed : Nat → Prop) (taken : List Nat) (pre : Prop) (action : Build α)
    (made : α → List Nat) (post : α → Prop)
    : Prop :=
  ∀ setting : BuildSetting, setting.neighbours.Allot allowed → ∀ before value after,
    Gives action setting before value after →
      before.workspace.Allots allowed taken (made value) pre (post value) after.workspace

/-- (Steady allowed taken pre action post) says so of a check that leaves the numbers in hand as
they are.
-/
abbrev Steady (allowed : Nat → Prop) (taken : List Nat) (pre : Prop) (action : Build α)
    (post : α → Prop)
    : Prop :=
  Allots allowed taken pre action (fun _ => taken) post

/-- Nothing is claimed of a value. -/
abbrev nothing (_ : α) : Prop := True

namespace Allots

variable {made : α → List Nat} {post : α → Prop}

-----------------------------------------------------------------------------------------
-- Combining
-----------------------------------------------------------------------------------------

theorem bind {action : Build α} {next : α → Build β} {results : β → List Nat} {final : β → Prop}
    (first : action.Allots allowed taken pre made post)
    (later : ∀ value, (next value).Allots allowed (made value) (pre ∧ post value) results final)
    : (action >>= next).Allots allowed taken pre results final := by
  intro setting allot before result after gives
  obtain ⟨value, middle, start, rest⟩ := gives_bind.mp gives
  exact (first setting allot before value middle start).trans
    (later value setting allot middle result after rest)

/-- What is required may be more, and what is concluded less. -/
theorem weaken {more : Prop} {less : α → Prop} {action : Build α}
    (allots : action.Allots allowed taken pre made post) (requires : more → pre)
    (concludes : ∀ value, more → post value → less value)
    : action.Allots allowed taken more made less :=
  fun setting allot before value after gives =>
    (allots setting allot before value after gives).weaken requires (concludes value)

/-- What is required may be more. -/
theorem given {more : Prop} {action : Build α} (allots : action.Allots allowed taken pre made post)
    (requires : more → pre)
    : action.Allots allowed taken more made post :=
  allots.weaken requires fun _ _ concluded => concluded

/-- Numbers in hand may get lost, and those that are not lost may be put in another order. -/
theorem pure (value : α) (fewer : ∀ number, (made value).count number ≤ taken.count number)
    (sets : pre → post value)
    : (Pure.pure value : Build α).Allots allowed taken pre made post := by
  intro setting allot before given after gives
  obtain ⟨rfl, rfl⟩ := gives_pure.mp gives
  exact .quiet rfl rfl fewer sets

theorem done (value : α) (sets : pre → post value)
    : (Pure.pure value : Build α).Steady allowed taken pre post :=
  pure value (fun _ => Nat.le_refl _) sets

theorem ite {condition : Prop} [Decidable condition] {whenTrue whenFalse : Build α}
    (first : whenTrue.Allots allowed taken pre made post)
    (second : whenFalse.Allots allowed taken pre made post)
    : (if condition then whenTrue else whenFalse).Allots allowed taken pre made post := by
  split
  · exact first
  · exact second

/-- A check that never succeeds. -/
theorem never {action : Build α}
    (fails : ∀ {setting before value after}, ¬ Gives action setting before value after)
    : action.Allots allowed taken pre made post :=
  fun _ _ _ _ _ gives => absurd gives fails

theorem reject (problem : Problem) (span : Span)
    : (Build.reject problem span : Build α).Allots allowed taken pre made post :=
  never gives_reject

theorem map {action : Build α} {final : β → Prop} (change : α → β)
    (steady : action.Steady allowed taken pre post)
    (concludes : ∀ value, pre → post value → final (change value))
    : (change <$> action).Steady allowed taken pre final := by
  rw [← bind_pure_comp]
  exact steady.bind fun value => done _ fun holds => concludes value holds.1 holds.2

theorem optionMapM {action : α → Build β} {final : β → Prop} (value? : Option α)
    (steady : ∀ value ∈ value?, (action value).Steady allowed taken pre final)
    : (value?.mapM action).Steady allowed taken pre
        fun given? => ∀ given ∈ given?, final given := by
  cases value? with
  | none => exact done none fun _ _ given => by cases given
  | some value =>
      exact map some (steady value rfl) fun given _ holds other same => Option.some.inj same ▸ holds

/-- Checks of the elements of a list, by induction over the list. -/
theorem mapM {action : α → Build β} {final : β → Prop} (values : List α)
    (steady : ∀ value ∈ values, (action value).Steady allowed taken pre final)
    : (values.mapM action).Steady allowed taken pre
        fun results => ∀ result ∈ results, final result := by
  induction values generalizing pre with
  | nil => exact done [] fun _ result among => by cases among
  | cons value rest ih =>
      rw [List.mapM_cons]
      refine (steady value (.head _)).bind fun first => ?_
      refine (ih fun value among => (steady value (.tail _ among)).given fun holds => holds.1).bind
        fun others => done _ fun holds => List.forall_mem_cons.mpr ⟨holds.1.2, holds.2⟩

-----------------------------------------------------------------------------------------
-- Looking and changing
-----------------------------------------------------------------------------------------

/-- What is looked at stays as it is. -/
theorem looking {action : Build α}
    (looks : ∀ {setting before value after}, Gives action setting before value after →
      after.workspace = before.workspace)
    : action.Steady allowed taken pre nothing := by
  intro setting allot before value after gives
  rw [looks gives]
  exact .quiet rfl rfl (fun _ => Nat.le_refl _) fun _ => trivial

theorem get : (MonadState.get : Build BuildState).Steady allowed taken pre nothing :=
  looking fun gives => by rw [(gives_get.mp gives).2]

theorem builtins : Build.builtins.Steady allowed taken pre nothing :=
  looking fun gives => by rw [(gives_builtins.mp gives).2]

theorem symbols : Build.symbols.Steady allowed taken pre nothing :=
  looking fun gives => by rw [(gives_symbols.mp gives).2]

/-- The members of the registry as it is then have allowed numbers. -/
theorem registry
    : Build.registry.Steady allowed taken pre fun registry => registry.MembersAmong allowed := by
  intro setting allot before value after gives
  obtain ⟨rfl, rfl⟩ := gives_registry.mp gives
  exact ⟨.refl _, fun _ known => ⟨known, rfl⟩, fun _ among given => ⟨given, among⟩⟩

theorem isVoid (id : TypeId) : (Build.isVoid id).Steady allowed taken pre nothing :=
  looking fun gives => by rw [(gives_isVoid.mp gives).2]

theorem isConvertible (target : TypeId) (value : TypedExpr)
    : (Build.isConvertible target value).Steady allowed taken pre nothing :=
  looking fun gives => by rw [(gives_isConvertible.mp gives).2]

theorem modified (change : BuildState → BuildState)
    (silent : ∀ state, (change state).workspace = state.workspace)
    : (modify change : Build Unit).Steady allowed taken pre nothing :=
  looking fun gives => by rw [gives_modify.mp gives, silent]

theorem modifySymbols (change : Symbols → Symbols)
    : (Build.modifySymbols change).Steady allowed taken pre nothing :=
  modified _ fun _ => rfl

theorem noteReturn (type : TypeId) (span : Span)
    : (Build.noteReturn type span).Steady allowed taken pre nothing :=
  modified _ fun _ => rfl

theorem onRegistry {change : Registry → α × Registry}
    (allots : ∀ registry : Registry,
      registry.Allots taken (made (change registry).1) (change registry).2)
    : (Build.onRegistry change).Allots allowed taken pre made nothing := by
  intro setting allot before value after gives
  obtain ⟨registry, outcome, rfl⟩ := gives_onRegistry.mp gives
  have step := allots before.workspace.registry
  rw [outcome] at step
  exact .ofRegistry step fun _ => trivial

/-- Steps that leave no numbers in hand. -/
theorem onRegistrySteady {change : Registry → α × Registry}
    (allots : ∀ registry : Registry, registry.Allots [] [] (change registry).2)
    : (Build.onRegistry change).Steady allowed taken pre nothing :=
  onRegistry fun registry => (allots registry).around

/-- A new number is in hand. -/
theorem generateIndex : Build.generateIndex.Allots allowed taken pre (· :: taken) nothing :=
  onRegistry fun registry => registry.allots_generateIndex.frame taken

/-- A neighbour is asked. -/
theorem ask (failed : α → Prop) (step : Neighbours → StateM Workspace α) {next : α → Build β}
    {results : β → List Nat} {final : β → Prop}
    (allots : ∀ neighbours : Neighbours, neighbours.Allot allowed → ∀ before value after,
      step neighbours before = (value, after) → ¬ failed value →
        before.Allots allowed [] [] True True after)
    (rejects : ∀ value setting before result after, failed value →
      ¬ Gives (next value) setting before result after)
    (later : ∀ value, ¬ failed value → (next value).Allots allowed taken pre results final)
    : Allots allowed taken pre
        (MonadReaderOf.read >>= fun current : BuildSetting =>
          onWorkspace (step current.neighbours) >>= next)
        results final := by
  intro setting allot before result after gives
  obtain ⟨_, _, read, gave⟩ := gives_bind.mp gives
  obtain ⟨rfl, rfl⟩ := gives_read.mp read
  obtain ⟨value, middle, asked, rest⟩ := gives_bind.mp gave
  obtain ⟨workspace, outcome, rfl⟩ := gives_onWorkspace.mp asked
  have reached : ¬ failed value := fun failure => rejects value _ _ _ _ failure rest
  have start := (allots _ allot _ _ _ outcome reached).frame taken
  have next := later value reached _ allot _ _ _ rest
  exact (start.weaken (fun _ => trivial) fun _ given => given).andThen next

-----------------------------------------------------------------------------------------
-- Types and casts
-----------------------------------------------------------------------------------------

/-- One of two checks, followed by a third one. -/
theorem eitherThen {condition : Prop} [Decidable condition] {whenTrue whenFalse : Build α}
    {next : α → Build β} {results : β → List Nat} {final : β → Prop}
    (first : whenTrue.Allots allowed taken pre made post)
    (second : whenFalse.Allots allowed taken pre made post)
    (later : ∀ value, (next value).Allots allowed (made value) (pre ∧ post value) results final)
    : (if condition then whenTrue >>= next else whenFalse >>= next).Allots allowed taken pre results
        final :=
  ite (first.bind later) (second.bind later)

/-- The instance of a generic type, by induction over the type. -/
theorem genericType {pre : Prop} (type : TypeExpr)
    : (Build.genericType type).Steady allowed taken pre nothing := by
  have made (value : TypeId) {family : GenericFamily} {span : Span} {pre : Prop}
      : Steady allowed taken pre
          (do
            let b ← Build.builtins
            let registry ← Build.registry
            let allowed := [b.bool, b.int, b.double, b.string].any (registry.sameType · value)
            if family == .external && !allowed then
              Build.reject (.wrongExternType (registry.typeName value)) span
            else Build.onRegistry fun registry => registry.addGeneric b family value)
          nothing :=
    builtins.bind fun b => registry.bind fun registry =>
      ite (reject _ _) (onRegistrySteady fun registry => registry.allots_addGeneric b family value)
  induction type using Build.genericType.induct generalizing pre with
  | case1 isReference span head family argument generic type named =>
      rename_i ih
      rw [Build.genericType]
      rotate_left
      · exact family
      · exact named
      · rw [if_pos generic]
        exact ih.bind fun value => made value
  | case2 isReference span head family argument plain type =>
      rename_i named
      rw [Build.genericType]
      rotate_left
      · exact family
      · exact named
      · rw [if_neg plain]
        refine symbols.bind fun symbols => ?_
        split
        · exact (done _ fun _ => trivial : Steady _ _ _ _ nothing).bind fun value => made value
        · exact (reject _ _ : Steady _ _ _ _ nothing).bind fun value => made value
  | case3 generics isReference span head family several type =>
      rename_i named
      rw [Build.genericType]
      · exact reject _ _
      · exact family
      · exact named
      · exact several
  | case4 names generics isReference span type =>
      rename_i unnamed
      rw [Build.genericType]
      · exact symbols.bind fun symbols => ite (reject _ _) (reject _ _)
      · exact unnamed

theorem namedType (type : TypeExpr) {next : TypeId → Build TypeId}
    (later : ∀ id {pre : Prop}, (next id).Steady allowed taken pre nothing)
    : Steady allowed taken pre
        (if type.isGeneric then Build.genericType type.withoutReference >>= next
          else do
            match (← Build.symbols).types.find? type.path with
            | some id => Pure.pure id >>= next
            | none =>
              Build.reject (.typeNotFound type.withoutReference.text) type.span >>= next)
        nothing := by
  refine ite ((genericType _).bind fun id => later id) (symbols.bind fun symbols => ?_)
  split
  · exact (done _ fun _ => trivial : Steady _ _ _ _ nothing).bind fun id => later id
  · exact (reject _ _ : Steady _ _ _ _ nothing).bind fun id => later id

theorem resolveType (type : TypeExpr)
    : (Build.resolveType type).Steady allowed taken pre nothing := by
  unfold Build.resolveType
  split
  · exact namedType type fun id => onRegistrySteady fun registry => registry.allots_addReference id
  · exact namedType type fun id => done id fun _ => trivial

mutual

/-- Making an expression fit a type sets members of known types, besides those that the expression
sets, by induction over the expression.
-/
theorem fit {pre : Prop} (target : TypeId) (value : TypedExpr) (sets : pre → value.SetsOnly allowed)
    : (Build.fit target value).Steady allowed taken pre fun fitted => fitted.SetsOnly allowed := by
  cases value with
  | mk kind type span =>
      rw [Build.fit]
      refine registry.bind fun registry => ite ?_
        (ite (done _ fun holds => sets holds.1) (done _ fun holds => sets holds.1))
      split
      · next fields =>
          refine ite ((fitFields _ [] fields fun holds => sets holds.1).bind fun _ =>
            done _ fun holds => holds.2) ?_
          exact builtins.bind fun _ => reject _ _
      · exact done _ fun holds => sets holds.1

/-- Binding initialisers to the members of a class, by induction over them. -/
theorem fitFields {pre : Prop} (object : TypeId) (seen : List Nat) (fields : List PendingField)
    (sets : pre → PendingField.AllSetOnly allowed fields)
    : (Build.fitFields object seen fields).Steady allowed taken pre
        fun values => MemberValue.AllSetOnly allowed values := by
  cases fields with
  | nil =>
      rw [Build.fitFields]
      exact done _ fun _ => trivial
  | cons first rest =>
      cases first with
      | mk name value span =>
          rw [Build.fitFields]
          refine registry.bind fun registry => ?_
          split
          · exact reject _ _
          · next member found =>
              refine ite (reject _ _) ((isConvertible _ _).bind fun _ => ite ?_ (reject _ _))
              refine (fit member.type value fun holds => (sets holds.1.1).1).bind fun _ => ?_
              refine (fitFields object (member.index :: seen) rest
                fun holds => (sets holds.1.1.1).2).bind fun _ => done _ fun holds => ?_
              obtain ⟨ancestor, _, inType⟩ := List.exists_of_findSome?_eq_some found
              exact ⟨holds.1.1.1.2 ancestor member (List.mem_of_find?_eq_some inType), holds.1.2,
                holds.2⟩

end

/-- Making arguments fit parameters, by induction over the parameters. -/
theorem fitArguments (params : List Param) (arguments : List TypedExpr)
    (sets : pre → TypedExpr.AllSetOnly allowed arguments)
    : (Build.fitArguments params arguments).Steady allowed taken pre
        fun fitted => TypedExpr.AllSetOnly allowed fitted := by
  induction params generalizing arguments pre with
  | nil => exact done _ fun _ => trivial
  | cons param params ih =>
      cases arguments with
      | nil => exact done _ fun _ => trivial
      | cons argument arguments =>
          exact (fit _ _ fun holds => (sets holds).1).bind fun _ =>
            (ih arguments fun holds => (sets holds.1).2).bind fun _ =>
              done _ fun holds => ⟨holds.1.2, holds.2⟩

theorem fitCondition (condition : TypedExpr) (sets : pre → condition.SetsOnly allowed)
    : (Build.fitCondition condition).Steady allowed taken pre
        fun fitted => fitted.SetsOnly allowed :=
  builtins.bind fun _ => registry.bind fun _ =>
    ite (fit _ _ fun holds => sets holds.1.1) (reject _ _)

-----------------------------------------------------------------------------------------
-- Calls
-----------------------------------------------------------------------------------------

theorem chooseFunction (groups : List (List FunctionId)) (arguments : List TypedExpr)
    (name : String) (span : Span)
    : (Build.chooseFunction groups arguments name span).Steady allowed taken pre nothing :=
  looking fun gives => by rw [(gives_chooseFunction gives).2]

theorem returnType (function : FunctionId) (span : Span)
    : (Build.returnType function span).Steady allowed taken pre nothing :=
  looking fun gives => by rw [gives_returnType gives]

theorem fitCall (function : FunctionId) (arguments : List TypedExpr)
    (sets : pre → TypedExpr.AllSetOnly allowed arguments)
    : (Build.fitCall function arguments).Steady allowed taken pre
        fun fitted => TypedExpr.AllSetOnly allowed fitted :=
  registry.bind fun _ => fitArguments _ _ fun holds => sets holds.1

theorem memberFunction (groups : List (List FunctionId)) (arguments : List TypedExpr)
    (name : String) (span : Span) (sets : pre → TypedExpr.AllSetOnly allowed arguments)
    : (Build.memberFunction groups arguments name span).Steady allowed taken pre
        fun call => TypedExpr.AllSetOnly allowed call.2.2 :=
  (chooseFunction _ _ _ _).bind fun _ => (returnType _ _).bind fun _ =>
    (fitCall _ _ fun holds => sets holds.1.1).bind fun _ => done _ fun holds => holds.2

theorem construction (type : TypeId) (arguments : List TypedExpr) (span : Span)
    (sets : pre → TypedExpr.AllSetOnly allowed arguments)
    : (Build.construction type arguments span).Steady allowed taken pre
        fun typed => typed.SetsOnly allowed := by
  refine registry.bind fun registry => ?_
  dsimp only
  split
  · exact ite (done _ fun _ => trivial) (reject _ _)
  · exact (chooseFunction _ _ _ _).bind fun _ =>
      (fitCall _ _ fun holds => sets holds.1.1).bind fun _ => done _ fun holds => holds.2

theorem functionCall (function : FunctionId) (arguments : List TypedExpr) (span : Span)
    (sets : pre → TypedExpr.AllSetOnly allowed arguments)
    : (Build.functionCall function arguments span).Steady allowed taken pre
        fun typed => typed.SetsOnly allowed := by
  refine (returnType _ _).bind fun _ => (fitCall _ _ fun holds => sets holds.1).bind fun fitted =>
    registry.bind fun registry => done _ fun holds => ?_
  show ExprKind.SetsOnly allowed (if _ then _ else _)
  split
  · exact holds.1.2
  · exact holds.1.2

theorem addedDirectory (directory : String) (arguments : List TypedExpr) (span : Span)
    (sets : pre → TypedExpr.AllSetOnly allowed arguments)
    : (Build.addedDirectory directory arguments span).Steady allowed taken pre
        fun typed => typed.SetsOnly allowed := by
  refine ask (· = DirectoryContent.failed) (·.addDirectory directory span)
    (fun _ allot _ _ _ outcome reached => allot.addDirectory outcome reached)
    (fun content _ _ _ _ failed => ?_) fun content reached => ?_
  · rw [failed]
    exact gives_reject
  · cases content with
    | script main =>
        exact (chooseFunction _ _ _ _).bind fun _ => (returnType _ _).bind fun _ =>
          (fitCall _ _ fun holds => sets holds.1.1).bind fun _ => done _ fun holds => holds.2
    | component creation => exact (returnType _ _).bind fun _ => done _ fun _ => trivial
    | listfile => exact builtins.bind fun _ => done _ fun _ => trivial
    | failed => exact absurd rfl reached

theorem addedComponentFile (file : String) (span : Span)
    : (Build.addedComponentFile file span).Steady allowed taken pre
        fun typed => typed.SetsOnly allowed := by
  refine ask (· = none) (·.addComponentFile file span)
    (fun _ allot _ creation? _ outcome reached => ?_) (fun creation? _ _ _ _ failed => ?_)
    fun creation? reached => ?_
  · cases creation? with
    | none => exact absurd rfl reached
    | some creation => exact allot.addComponentFile outcome
  · rw [failed]
    exact gives_reject
  · cases creation? with
    | none => exact absurd rfl reached
    | some creation => exact (returnType _ _).bind fun _ => done _ fun _ => trivial

-----------------------------------------------------------------------------------------
-- Names and operators
-----------------------------------------------------------------------------------------

theorem identifier (path : List String) (span : Span)
    : (Build.identifier path span).Steady allowed taken pre
        fun typed => typed.SetsOnly allowed := by
  refine symbols.bind fun symbols => ?_
  dsimp only
  split
  · exact done _ fun _ => trivial
  · exact done _ fun _ => trivial
  · exact reject _ _

theorem binary (operator : Token) (lhs rhs : TypedExpr) (span : Span)
    (left : pre → lhs.SetsOnly allowed) (right : pre → rhs.SetsOnly allowed)
    : (Build.binary operator lhs rhs span).Steady allowed taken pre
        fun typed => typed.SetsOnly allowed := by
  refine registry.bind fun registry => ?_
  split
  · exact reject _ _
  · have one (holds : pre ∧ registry.MembersAmong allowed)
        : TypedExpr.AllSetOnly allowed [rhs] :=
      ⟨right holds.1, trivial⟩
    refine (memberFunction _ _ _ _ one).bind fun call => ?_
    split
    · exact done _ fun holds => ⟨left holds.1.1, holds.2.1⟩
    · exact never gives_failure

theorem unary (operator : Token) (operand : TypedExpr) (span : Span)
    (sets : pre → operand.SetsOnly allowed)
    : (Build.unary operator operand span).Steady allowed taken pre
        fun typed => typed.SetsOnly allowed := by
  refine registry.bind fun registry => ?_
  dsimp only
  split
  · exact reject _ _
  · exact (chooseFunction _ _ _ _).bind fun _ => (returnType _ _).bind fun _ =>
      done _ fun holds => sets holds.1.1.1

theorem ternary (condition whenTrue whenFalse : TypedExpr) (span : Span)
    (tested : pre → condition.SetsOnly allowed) (first : pre → whenTrue.SetsOnly allowed)
    (second : pre → whenFalse.SetsOnly allowed)
    : (Build.ternary condition whenTrue whenFalse span).Steady allowed taken pre
        fun typed => typed.SetsOnly allowed :=
  registry.bind fun _ => ite
    (done _ fun holds => ⟨tested holds.1, first holds.1, second holds.1⟩)
    (ite
      ((fit _ _ fun holds => first holds.1).bind fun _ =>
        (fit _ _ fun holds => second holds.1.1).bind fun _ =>
          done _ fun holds => ⟨tested holds.1.1.1, holds.1.2, holds.2⟩)
      (reject _ _))

theorem memberAccess (object : TypedExpr) (name : Token) (span : Span)
    (sets : pre → object.SetsOnly allowed)
    : (Build.memberAccess object name span).Steady allowed taken pre
        fun typed => typed.SetsOnly allowed := by
  refine registry.bind fun registry => ?_
  split
  · exact done _ fun holds => sets holds.1
  · exact reject _ _

theorem listValue (values : List TypedExpr) (span : Span)
    (sets : pre → TypedExpr.AllSetOnly allowed values)
    : (Build.listValue values span).Steady allowed taken pre
        fun typed => typed.SetsOnly allowed := by
  cases values with
  | nil => exact reject _ _
  | cons first rest =>
      refine builtins.bind fun b => registry.bind fun _ => ite ?_ (reject _ _)
      refine (onRegistrySteady fun registry => registry.allots_addGeneric b .list _).bind
        fun list => ?_
      refine (mapM (first :: rest) fun value among =>
        fit _ value fun holds => ?_).bind fun values =>
        done _ fun holds => TypedExpr.allSetOnly_iff.mpr holds.2
      exact TypedExpr.allSetOnly_iff.mp (sets holds.1.1.1) value among

-----------------------------------------------------------------------------------------
-- Expressions
-----------------------------------------------------------------------------------------

theorem literalName (function : String) (arguments : List Expr) (span : Span)
    : (Build.literalName function arguments span).Steady allowed taken pre nothing := by
  unfold Build.literalName
  split
  · exact done _ fun _ => trivial
  · exact reject _ _

theorem callTarget (callee : TypeExpr) (arguments : List Expr) (span : Span)
    : (Build.callTarget callee arguments span).Steady allowed taken pre nothing := by
  refine ite ((resolveType _).bind fun _ => registry.bind fun _ => done _ fun _ => trivial)
    (ite ((literalName _ _ _).bind fun _ => done _ fun _ => trivial)
      (ite ((literalName _ _ _).bind fun _ => done _ fun _ => trivial)
        (symbols.bind fun symbols => ?_)))
  split
  · exact registry.bind fun _ => done _ fun _ => trivial
  · dsimp only
    split
    · exact reject _ _
    · exact done _ fun _ => trivial

mutual

/-- The check of an expression leaves no numbers in hand, and what it gives sets members only, by
induction over the expression.
-/
theorem expr {pre : Prop} (value : Expr)
    : (Build.expr value).Steady allowed taken pre fun typed => typed.SetsOnly allowed := by
  cases value with
  | bool value span => rw [Build.expr]; exact builtins.bind fun _ => done _ fun _ => trivial
  | int value span => rw [Build.expr]; exact builtins.bind fun _ => done _ fun _ => trivial
  | double value span => rw [Build.expr]; exact builtins.bind fun _ => done _ fun _ => trivial
  | string value span => rw [Build.expr]; exact builtins.bind fun _ => done _ fun _ => trivial
  | id names span => rw [Build.expr]; exact identifier _ _
  | binary operator lhs rhs span =>
      rw [Build.expr]
      exact (expr lhs).bind fun _ => (expr rhs).bind fun _ =>
        binary _ _ _ _ (fun holds => holds.1.2) fun holds => holds.2
  | unary operator operand span =>
      rw [Build.expr]
      exact (expr operand).bind fun _ => unary _ _ _ fun holds => holds.2
  | ternary condition whenTrue whenFalse span =>
      rw [Build.expr]
      exact (expr condition).bind fun _ => (fitCondition _ fun holds => holds.2).bind fun _ =>
        (expr whenTrue).bind fun _ => (expr whenFalse).bind fun _ =>
          ternary _ _ _ _ (fun holds => holds.1.1.2) (fun holds => holds.1.2) fun holds => holds.2
  | member object name span =>
      rw [Build.expr]
      exact (expr object).bind fun _ => memberAccess _ _ _ fun holds => holds.2
  | call callee arguments span =>
      rw [Build.expr]
      refine (callTarget _ _ _).bind fun target => ?_
      cases target with
      | directory name =>
          cases arguments with
          | nil => exact never gives_failure
          | cons first rest =>
              exact (exprs rest).bind fun _ => addedDirectory _ _ _ fun holds => holds.2
      | componentFile name => exact addedComponentFile _ _
      | constructor type =>
          exact (exprs arguments).bind fun _ => construction _ _ _ fun holds => holds.2
      | functions groups name =>
          exact (exprs arguments).bind fun _ => (chooseFunction _ _ _ _).bind fun _ =>
            functionCall _ _ _ fun holds => holds.1.2
  | memberCall object name arguments span =>
      rw [Build.expr]
      refine (expr object).bind fun _ => registry.bind fun _ => ?_
      split
      · exact reject _ _
      · exact (exprs arguments).bind fun _ =>
          (memberFunction _ _ _ _ fun holds => holds.2).bind fun _ =>
            done _ fun holds => ⟨holds.1.1.1.2, holds.2⟩
  | list values span =>
      rw [Build.expr]
      exact (exprs values).bind fun _ => listValue _ _ fun holds => holds.2
  | designated fields span =>
      rw [Build.expr]
      exact (fieldInits fields).bind fun _ => builtins.bind fun _ => done _ fun holds => holds.1.2

/-- The check of several expressions, by induction over them. -/
theorem exprs {pre : Prop} (values : List Expr)
    : (Build.exprs values).Steady allowed taken pre
        fun typed => TypedExpr.AllSetOnly allowed typed := by
  cases values with
  | nil => rw [Build.exprs]; exact done _ fun _ => trivial
  | cons first rest =>
      rw [Build.exprs]
      exact (expr first).bind fun _ => (exprs rest).bind fun _ =>
        done _ fun holds => ⟨holds.1.2, holds.2⟩

/-- The check of initialisers, by induction over them. -/
theorem fieldInits {pre : Prop} (fields : List FieldInit)
    : (Build.fieldInits fields).Steady allowed taken pre
        fun pending => PendingField.AllSetOnly allowed pending := by
  cases fields with
  | nil => rw [Build.fieldInits]; exact done _ fun _ => trivial
  | cons first rest =>
      cases first with
      | mk name value =>
          rw [Build.fieldInits]
          exact (expr value).bind fun _ => (fieldInits rest).bind fun _ =>
            done _ fun holds => ⟨holds.1.2, holds.2⟩

end

end Allots

end Build

end BuildScript
