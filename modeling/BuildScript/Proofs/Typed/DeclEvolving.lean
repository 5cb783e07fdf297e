import BuildScript.Proofs.Typed.DeclLawfulness
import BuildScript.Proofs.Typed.StmtEvolving

/-! The checks of declarations and whole scripts, followed to where they end. A class that is
rejected on the way stays in the registry with what it has by then.
-/

namespace BuildScript

namespace Build

variable {α : Type} {basis : Prelude} {law : RegistryLaw} {world : Registry}
  {setting : BuildSetting} {before after : BuildState}

-----------------------------------------------------------------------------------------
-- Scopes
-----------------------------------------------------------------------------------------

theorem inNamedScopes_encloses (names : List String) (context : ContextId) (action : Build α)
    : (Build.inNamedScopes names context action).Encloses action
        (fun before => before.enterScopes names context)
        (fun before after => before.leaveScopes names after) fun _ value => value := by
  intro setting before
  have read : Gives get setting before before before := gives_get.mpr ⟨rfl, rfl⟩
  have entered : Gives (set (before.enterScopes names context) : Build PUnit) setting before
      PUnit.unit (before.enterScopes names context) :=
    gives_set.mpr rfl
  refine (Made.bind_some read).trans ((Made.bind_some entered).trans ?_)
  rcases ran : action setting (before.enterScopes names context) with ⟨_ | value, after⟩
  · exact Made.bind_none ran
  · exact Made.bind_some ran

theorem inFunction_encloses (function : FunctionId) (action : Build α)
    : (Build.inFunction function action).Encloses action
        (fun before =>
          { before with openFunctions := ⟨function, []⟩ :: before.openFunctions, loopDepth := 0 })
        (fun before after =>
          { after with
            openFunctions := before.openFunctions, loopDepth := before.loopDepth })
        fun after value => (value, (after.openFunctions.head?.map (·.returns)).getD []) := by
  intro setting before
  let inside : BuildState :=
    { before with openFunctions := ⟨function, []⟩ :: before.openFunctions, loopDepth := 0 }
  have read : Gives get setting before before before := gives_get.mpr ⟨rfl, rfl⟩
  have entered : Gives (set inside : Build PUnit) setting before PUnit.unit inside :=
    gives_set.mpr rfl
  refine (Made.bind_some read).trans ((Made.bind_some entered).trans ?_)
  beta_reduce
  rcases ran : action setting inside with ⟨_ | value, after⟩
  · exact Made.bind_none ran
  · exact Made.bind_some ran

namespace Runs

theorem inNamedScopes {post : Registry → α → Prop} {action : Build α} (names : List String)
    {context : ContextId} (known : world.KnowsContext context)
    (runs : action.Runs law basis world post)
    : (Build.inNamedScopes names context action).Runs law basis world post := by
  refine (inNamedScopes_encloses names context action).runs runs
    (fun before ready grows => ?entered) (fun before after _ _ _ closed _ => ?left)
    fun _ _ _ holds => holds
  case entered =>
    exact ⟨⟨ready.closed.enterScopes names context, ready.workspace,
      grows.knowsContext context known⟩, rfl⟩
  case left => exact ⟨closed.leaveScopes before names, rfl, rfl⟩

theorem inFunction {post : Registry → α → Prop} {action : Build α} {function : FunctionId}
    (known : world.KnowsFunction function) (runs : action.Runs law basis world post)
    : (Build.inFunction function action).Runs law basis world fun registry given =>
        post registry given.1 ∧ knownReturns registry given.2 := by
  refine (inFunction_encloses function action).runs runs (fun before ready grows => ?entered)
    (fun before after ready _ grows closed context => ?left)
    fun _ _ closed holds => ⟨holds, innermost_known closed⟩
  case entered =>
    exact ⟨⟨closed_inFunction ready.closed (grows.knowsFunction known), ready.workspace,
      ready.context⟩, rfl⟩
  case left =>
    refine ⟨⟨closed.workspace, closed.symbols, fun innermost among => ?_,
      fun innermost among returned inReturns => ?_⟩, rfl, context⟩
    · exact grows.knowsFunction (ready.closed.functions innermost among)
    · exact grows.knows (ready.closed.returns innermost among returned inReturns)

-----------------------------------------------------------------------------------------
-- Functions
-----------------------------------------------------------------------------------------

/-- Parameters, by induction over them. -/
theorem paramList (decls : List ParamDecl)
    : (Build.paramList decls).Runs law basis world knownParams := by
  induction decls generalizing world with
  | nil => exact pure fun _ _ _ absent => nomatch absent
  | cons first rest ih =>
      refine (resolveType first.type).bind fun later _ type known => ?_
      refine (ofLooks (Looks.isVoid type)).bind fun second grown empty _ => ?_
      split
      · exact reject _ _
      refine generateIndex.bind fun third growth index _ => ih.bind fun last further others
        othersKnown => pure fun final end_ param among => ?_
      rcases List.mem_cons.mp among with rfl | inRest
      · exact end_.knows ((grown.trans (growth.trans further)).knows known)
      · exact end_.knows (othersKnown param inRest)

/-- A function of a script is added with a body that is still missing. -/
theorem addFunction {info : FunctionInfo} (missing : info.body = .script none)
    (placed : world.KnowsContext info.context) (params : knownParams world info.params)
    (result : ∀ type, info.returnType? = some type → world.Knows type)
    : (Build.onRegistry fun registry => registry.addFunction info).Runs law basis world
        fun registry function =>
          registry.HasScript function ∧ registry.KnowsNamed info.name function := by
  refine onRegistry fun registry grows _ _ _ => ⟨.addFunction ?_ ?_ ?_ ?_, ?_⟩
  · intro body impossible
    rw [missing] at impossible
    cases impossible
  · exact grows.knowsContext _ placed
  · exact fun param among => grows.knows (params param among)
  · exact fun type declared => grows.knows (result type declared)
  · have known := Registry.knowsFunction_addFunction registry info
    have added := (Registry.function_addFunction registry info _).trans (if_pos rfl)
    exact ⟨⟨known, none, (congrArg (·.body) added).trans missing⟩, known, congrArg (·.name) added⟩

theorem declareFunction (decl : FunctionDecl) {returnType? : Option TypeId}
    (known : ∀ type, returnType? = some type → world.Knows type)
    : (Build.declareFunction decl returnType?).Runs law basis world Registry.HasScript := by
  refine (paramList decl.params).bind fun later grows params paramsKnown => ?_
  refine registryThen fun second grown _ _ => symbolsThen fun third symbols growth _ => ?_
  split
  · exact explained _ _ fun _ => Made.note_explains _ _ Made.failure_explains
  refine getThen fun state further ready => ?_
  have after := grown.trans (growth.trans further)
  refine (addFunction rfl ready.context (fun param among => after.knows (paramsKnown param among))
    fun type result => (grows.trans after).knows (known type result)).bind
      fun last _ function added => ?_
  obtain ⟨script, own⟩ := added
  have named : (Build.modifySymbols fun symbols =>
      { symbols with
        functions :=
          symbols.functions.register decl.name.value function decl.exported }).Runs law basis last
            anything :=
    modifySymbols fun registry symbols start closed =>
      ⟨closed.types, closed.functions.register decl.exported (own.mono start.toGrows), closed.ids,
        closed.enums⟩
  exact named.bind fun final grown _ _ => pure fun _ growth =>
    script.mono (grown.trans growth).toGrows

theorem functionDecl (decl : FunctionDecl)
    : (Build.functionDecl decl).Runs law basis world Registry.HasScript := by
  rw [functionDecl_eq]
  split
  · rw [pure_bind]
    exact declareFunction decl fun _ impossible => nomatch impossible
  · refine (map some (resolveType decl.returnType) fun later type known result same => ?_).bind
      fun later grows result known => declareFunction decl known
    cases same
    exact known

theorem agreedType (name : Token) {returns : List (TypeId × Span)}
    (known : knownReturns world returns)
    : (Build.agreedType name returns).Runs (.evolving basis) basis world Registry.Knows :=
  (ofLooks (Looks.agreedType name returns)).meeting (Keeps.agreedType name known)

/-- The expressions of a checked body are admitted, and what it declares and returns is known. -/
theorem checkedBody {function : FunctionId} (decl : FunctionDecl)
    (known : world.KnowsFunction function)
    : (Build.checkedBody function decl).Runs (.evolving basis) basis world fun registry given =>
        (registry.AdmitsAll basis.builtins given.1.exprs ∧ registry.KnowsLocals given.1.locals)
          ∧ knownReturns registry given.2 := by
  have named : (Build.nameParams function).Runs (.evolving basis) basis world anything :=
    ofKeeps (fun _ _ => ⟨rfl, rfl⟩) (Keeps.nameParams function)
  exact inFunction known (inLocalScope (named.bind fun _ _ _ _ => checkedBlock decl.body))

end Runs

/-- A body that is made to end in a return declares the same variables. -/
theorem endInReturn_locals (body : TypedBlock) : (endInReturn body).locals = body.locals := by
  have appended (statements : List TypedStmt) (span : Span)
      : TypedStmt.allLocals (statements ++ [.implicitReturn span]) =
          TypedStmt.allLocals statements := by
    induction statements with
    | nil => rfl
    | cons first rest ih => rw [List.cons_append, TypedStmt.allLocals, ih, TypedStmt.allLocals]
  cases body with
  | mk statements span =>
      rw [endInReturn]
      split
      · rfl
      · exact appended statements span

namespace Runs

/-- A function of a script gets a body of which everything is known. -/
theorem keepBody {function : FunctionId} {body : TypedBlock} (script : world.HasScript function)
    (admits : world.AdmitsAll basis.builtins body.exprs) (known : world.KnowsLocals body.locals)
    : (Build.modifyRegistry fun registry =>
        registry.modifyFunction function fun info => { info with body := .script (some body) }).Runs
          (.evolving basis) basis world anything := by
  refine changeRegistry fun registry grows _ _ _ => ⟨⟨.single (.body function body ?known), ?grows⟩,
    trivial⟩
  case known => exact .ofAdmits (admits.mono grows.toGrows) (known.mono grows.toGrows)
  case grows =>
    obtain ⟨body?, before⟩ := (script.mono grows.toGrows).body
    refine Registry.grows_modifyFunction registry ⟨rfl, rfl, rfl, fun _ declared => declared, ?_⟩
    rw [before]
    exact .checked _ _

/-- The result of a function is settled only where it was not declared, so the registry grows. -/
theorem settleBody {function : FunctionId} (decl : FunctionDecl)
    {given : TypedBlock × List (TypeId × Span)} (script : world.HasScript function)
    (admits : world.AdmitsAll basis.builtins given.1.exprs)
    (locals : world.KnowsLocals given.1.locals) (known : knownReturns world given.2)
    : (Build.settleBody function decl given).Runs (.evolving basis) basis world anything := by
  have kept : Runs (.evolving basis) basis world anything (do
      Build.modifyRegistry fun registry =>
        registry.modifyFunction function fun info =>
          { info with body := .script (some (endInReturn given.1)) }
      return (⟨function, endInReturn given.1, decl.span⟩ : FunctionDefinition)) :=
    (keepBody script ((endInReturn_exprs given.1).symm ▸ admits)
      ((endInReturn_locals given.1).symm ▸ locals)).bind fun _ _ _ _ => done _
  intro setting before outcome after provided suits ready grows ran
  have read : Gives Build.registry setting before before.workspace.registry before :=
    gives_registry.mpr ⟨rfl, rfl⟩
  have ran := (Made.bind_some read).symm.trans ran
  dsimp only at ran
  split at ran
  · next missing =>
      rcases start : Build.agreedType decl.name given.2 setting before with ⟨type?, middle⟩
      obtain ⟨moves, agreed⟩ := agreedType decl.name known _ _ _ _ provided suits ready grows start
      cases type? with
      | none =>
          rw [Made.bind_none start] at ran
          cases ran
          exact ⟨moves, fun _ impossible => nomatch impossible⟩
      | some type =>
          obtain rfl := (Looks.agreedType decl.name given.2 _ _ _ _ start).1 type rfl
          obtain ⟨_, _, typeKnown⟩ := agreed type rfl
          rw [Made.bind_some start] at ran
          have step := @Registry.Step.deduction basis.builtins _ function type typeKnown
            (Option.isNone_iff_eq_none.mp missing)
          have settled : middle.workspace.Moves (.evolving basis) basis _ :=
            .ofRegistry ready.workspace ⟨.single (.result function type typeKnown), step.grows⟩
          have further := ready_of_moves ready settled
            (ready.closed.ofWorkspace settled.grows settled.closed) rfl
          obtain ⟨last, result⟩ := kept _ _ _ _ provided suits further
            (grows.trans settled.expands) ran
          exact ⟨settled.trans last, result⟩
  · exact kept _ _ _ _ provided suits ready grows ran

theorem functionBody {function : FunctionId} (decl : FunctionDecl)
    (script : world.HasScript function)
    : (Build.functionBody function decl).Runs (.evolving basis) basis world anything := by
  rw [functionBody_eq]
  refine (checkedBody decl script.known).bind fun later grows given checked => ?_
  obtain ⟨⟨admits, locals⟩, known⟩ := checked
  exact settleBody decl (script.mono grows.toGrows) admits locals known

/-- The functions of a class, all declared before any is checked. -/
theorem functionMembers (functions : List FunctionDecl)
    : (Build.functionMembers functions).Runs (.evolving basis) basis world anything := by
  refine (mapM Registry.HasScript functions (fun decl _ _ _ => functionDecl decl)
    fun script grows => script.mono grows.toGrows).bind fun later _ declared scripts => ?_
  refine (mapM anything _ (fun pair among after grows => ?_) fun _ _ => trivial).forget
  exact functionBody pair.2 ((scripts pair.1 (List.of_mem_zip among).1).mono grows.toGrows)

end Runs

-----------------------------------------------------------------------------------------
-- Members of classes
-----------------------------------------------------------------------------------------

/-- (CheckedMember start registry object member) says what is known of a member that was checked for
a class, with a number that was given out from a start on.
-/
structure CheckedMember (start : Nat) (registry : Registry) (object : TypeId) (member : Member)
    : Prop where
  known : registry.Knows member.type
  value : (registry.type member.type).isReference = false
  other : registry.typeName member.type ≠ registry.typeName object
  earliest : start ≤ member.index
  numbered : member.index < registry.nextIndex

theorem CheckedMember.mono {start : Nat} {registry later : Registry} {object : TypeId}
    {member : Member} (checked : CheckedMember start registry object member)
    (objectKnown : registry.Knows object) (grows : registry.Expands later)
    : CheckedMember start later object member where
  known := grows.knows checked.known
  value := by
    rw [grows.type checked.known]
    exact checked.value
  other := by
    rw [grows.typeName checked.known, grows.typeName objectKnown]
    exact checked.other
  earliest := checked.earliest
  numbered := Nat.lt_of_lt_of_le checked.numbered grows.nextIndex

/-- A class has no member of its own name, which is what the check of a member asks for. -/
theorem Runs.memberVariable {object : TypeId} (objectKnown : world.Knows object)
    (decl : VariableDecl)
    : (Build.memberVariable object decl).Runs law basis world fun registry member =>
        CheckedMember world.nextIndex registry object member := by
  unfold Build.memberVariable
  split
  · exact reject _ _
  refine (resolveType decl.type).bind fun later grows type known => ?_
  refine registryThen fun second grown _ _ => ?_
  refine (ofLooks (Looks.isVoid type)).bind fun third growth _ _ => ?_
  split
  · exact reject _ _
  split
  · exact reject _ _
  next value =>
    split
    · exact reject _ _
    next other =>
      have typeKnown := grown.knows known
      have start := grows.trans (grown.trans growth)
      refine generateIndex.bind fun fourth further index given => ?_
      have all := growth.trans further
      refine (registerVariable decl.name.value index false (all.knows typeKnown)).bind
        fun last named _ _ => pure fun final end_ => ?_
      have fresh : CheckedMember world.nextIndex fourth object ⟨decl.name.value, type, index⟩ := by
        refine ⟨all.knows typeKnown, ?_, ?_, Nat.le_trans start.nextIndex given.1, given.2⟩
        · rw [all.type typeKnown]
          exact Bool.not_eq_true _ ▸ value
        · rw [all.typeName typeKnown, all.typeName ((grows.trans grown).knows objectKnown)]
          exact fun same => other (Registry.sameType_iff.mpr same)
      exact fresh.mono (further.knows (start.knows objectKnown)) (named.trans end_)

/-- The members of a class get numbers that differ, by induction over their declarations. -/
theorem Runs.memberList {object : TypeId} (objectKnown : world.Knows object)
    (decls : List VariableDecl)
    : (decls.mapM (Build.memberVariable object)).Runs law basis world fun registry members =>
        (∀ member ∈ members, CheckedMember world.nextIndex registry object member)
          ∧ (members.map (·.index)).Nodup := by
  induction decls generalizing world with
  | nil => exact pure fun _ _ => ⟨(fun _ absent => nomatch absent), List.nodup_nil⟩
  | cons first rest ih =>
      rw [List.mapM_cons]
      refine (memberVariable objectKnown first).bind fun later grows member own => ?_
      have laterKnown := grows.knows objectKnown
      refine (ih laterKnown).bind fun last grown members others => pure fun final end_ => ?_
      obtain ⟨others, distinct⟩ := others
      refine ⟨fun other among => ?_, ?_⟩
      · rcases List.mem_cons.mp among with rfl | inRest
        · exact own.mono laterKnown (grown.trans end_)
        · have checked := (others other inRest).mono (grown.knows laterKnown) end_
          exact { checked with earliest := Nat.le_trans grows.nextIndex checked.earliest }
      · refine List.nodup_cons.mpr ⟨fun repeated => ?_, distinct⟩
        obtain ⟨other, inRest, same⟩ := List.mem_map.mp repeated
        have later := Nat.lt_of_lt_of_le own.numbered (others other inRest).earliest
        exact absurd same.symm (Nat.ne_of_lt later)

/-- No class is newer than a type. -/
def Newest (registry : Registry) (object : TypeId) : Prop :=
  ∀ id, (registry.type id).isObject = true → id.index ≤ object.index

/-- Where classes are not added the newest one stays the newest. -/
theorem Newest.furnish {registry later : Registry} {object : TypeId}
    (newest : Newest registry object) (furnishes : registry.Furnishes later)
    : Newest later object := by
  intro id isClass
  by_cases known : registry.Knows id
  · rw [furnishes.grows.type known] at isClass
    exact newest id isClass
  · rw [(furnishes.bare id known).1] at isClass
    cases isClass

/-- A member that was checked since an earlier registry may be one of the newest class. -/
theorem CheckedMember.mayHave {registry later : Registry} {object : TypeId} {member : Member}
    (checked : CheckedMember registry.nextIndex later object member)
    (consistent : registry.Consistent) (furnishes : registry.Furnishes later)
    (newest : Newest later object)
    : later.MayHave object member where
  known := checked.known
  value := checked.value
  earlier isClass := by
    refine Nat.lt_of_le_of_ne (newest member.type isClass) fun same => checked.other ?_
    exact congrArg later.typeName (congrArg TypeId.mk same)
  numbered := checked.numbered
  fresh id other among := by
    by_cases known : registry.Knows id
    · rw [furnishes.grows.type known] at among
      have old := consistent.layered.numbered id other among
      exact Nat.ne_of_lt (Nat.lt_of_lt_of_le old checked.earliest)
    · rw [(furnishes.bare id known).2] at among
      cases among

-----------------------------------------------------------------------------------------
-- Classes
-----------------------------------------------------------------------------------------

/-- A workspace that was left behind an earlier registry evolves from another one, and what the
earlier registry had is not changed.
-/
structure Follows (basis : Prelude) (world : Registry) (before after : Workspace) : Prop where
  evolves : before.registry.Evolves after.registry
  grows : world.Grows after.registry
  closed : after.Closed basis

/-- The members and functions of a class, behind those of its bases. -/
def fillClass (object : TypeId) (members : List ClassMember) : Build (List FunctionDefinition) := do
  let filled ← (memberVariables members).mapM (memberVariable object)
  modifyRegistry fun registry => registry.setMembers object filled
  functionMembers (memberFunctions members)

/-- A class that is the newest one gets its members and functions. It changes itself, so that the
registry is compared with one in which the class was not there yet.
-/
theorem fillClass_follows {object : TypeId} {members : List ClassMember}
    {outcome : Option (List FunctionDefinition)} (provided : setting.builtins = basis.builtins)
    (abide : setting.neighbours.Abide basis) (ready : before.Ready basis)
    (grows : world.Grows before.workspace.registry) (new : ¬ world.Knows object)
    (known : before.workspace.registry.Knows object)
    (isClass : (before.workspace.registry.type object).isObject = true)
    (newest : Newest before.workspace.registry object)
    (ran : Build.fillClass object members setting before = (outcome, after))
    : Follows basis world before.workspace after.workspace
      ∧ ∀ value, outcome = some value → after.Closed basis ∧ after.context = before.context := by
  unfold fillClass at ran
  rcases fill : (memberVariables members).mapM (Build.memberVariable object) setting before
    with ⟨filled?, middle⟩
  obtain ⟨moves, given⟩ := Runs.memberList known (memberVariables members) _ _ _ _ provided
    (show RegistryLaw.furnishing.suits _ from trivial) ready (.refl _) fill
  have furnishes : before.workspace.registry.Furnishes middle.workspace.registry := moves.moves
  cases filled? with
  | none =>
      rw [Made.bind_none fill] at ran
      cases ran
      exact ⟨⟨furnishes.evolves, grows.trans moves.grows, moves.closed⟩, fun _ impossible =>
        nomatch impossible⟩
  | some filled =>
      rw [Made.bind_some fill] at ran
      obtain ⟨closed, context, checked, distinct⟩ := given filled rfl
      have readyMiddle := ready_of_moves ready moves closed context
      have objectClass : (middle.workspace.registry.type object).isObject = true := by
        rw [furnishes.grows.type known]
        exact isClass
      have change := Registry.Change.members object filled objectClass (fun member among =>
        (checked member among).mayHave ready.workspace.consistent furnishes
          (newest.furnish furnishes)) distinct
      have filledClosed := closed.setMembers object fun member among => (checked member among).known
      have filledReady : BuildState.Ready basis
          { middle with
            workspace :=
              { middle.workspace with
                registry := middle.workspace.registry.setMembers object filled } } :=
        ⟨filledClosed, ⟨filledClosed.workspace,
          change.consistent readyMiddle.workspace.consistent,
          change.preserves.knowsContext _ readyMiddle.workspace.globalContext⟩,
          change.preserves.knowsContext _ readyMiddle.context⟩
      have changed : Gives (modifyRegistry fun registry => registry.setMembers object filled)
          setting middle () _ :=
        gives_modifyRegistry.mpr rfl
      rw [Made.bind_some changed] at ran
      obtain ⟨last, result⟩ := Runs.functionMembers (memberFunctions members) _ _ _ _ provided abide
        filledReady (.refl _) ran
      refine ⟨⟨?_, ((grows.trans moves.grows).setMembers new filled).trans last.grows, last.closed⟩,
        fun value same => ?_⟩
      · exact (furnishes.evolves.trans (.single change)).trans last.moves.1
      · obtain ⟨closed, sameContext, _⟩ := result value same
        exact ⟨closed, sameContext.trans context⟩

theorem classBody_follows {object : TypeId} {base? : Option TypeId} {members : List ClassMember}
    {outcome : Option (List FunctionDefinition)} (provided : setting.builtins = basis.builtins)
    (abide : setting.neighbours.Abide basis) (ready : before.Ready basis)
    (grows : world.Grows before.workspace.registry) (new : ¬ world.Knows object)
    (known : before.workspace.registry.Knows object)
    (isClass : (before.workspace.registry.type object).isObject = true)
    (newest : Newest before.workspace.registry object)
    (ran : Build.classBody object base? members setting before = (outcome, after))
    : Follows basis world before.workspace after.workspace
      ∧ ∀ value, outcome = some value → after.Closed basis ∧ after.context = before.context := by
  cases base? with
  | none => exact fillClass_follows provided abide ready grows new known isClass newest ran
  | some base =>
      have inherits : (Build.inheritMembers base).Runs (.evolving basis) basis
          before.workspace.registry anything :=
        .ofKeeps (fun _ _ => ⟨rfl, rfl⟩) (Keeps.inheritMembers base)
      change (Build.inheritMembers base >>= fun _ => Build.fillClass object members) setting before
        = (outcome, after) at ran
      -- What is inherited gets names, and the workspace stays as it is.
      rcases named : Build.inheritMembers base setting before with ⟨value?, middle⟩
      have same : middle.workspace = before.workspace :=
        congrArg (fun result => result.2.workspace) named.symm
      obtain ⟨moves, given⟩ := inherits _ _ _ _ provided abide ready (.refl _) named
      cases value? with
      | none => cases named
      | some value =>
          rw [Made.bind_some named] at ran
          obtain ⟨closed, context, _⟩ := given value rfl
          have ready := ready_of_moves ready moves closed context
          rw [← same] at grows known isClass newest ⊢
          rw [← context]
          exact fillClass_follows provided abide ready grows new known isClass newest ran

-----------------------------------------------------------------------------------------
-- Declared types and enumerations
-----------------------------------------------------------------------------------------

theorem gives_declaredType (setting : BuildSetting) (before : BuildState) (name : Token)
    (contextKind : ContextKind) (kind : TypeKind) (base? : Option TypeId) (exported : Bool)
    : (addDeclaredType name contextKind kind base? exported).Gives setting before
        ⟨before.workspace.registry.types.size⟩
        (before.addType name contextKind kind base? exported) :=
  rfl

/-- A declared type is put into a new context, and a base is known. -/
theorem addType_evolves (ready : before.Ready basis) (name : Token) (contextKind : ContextKind)
    {kind : TypeKind} {base? : Option TypeId} (exported : Bool) (alone : kind.inner? = none)
    (derived : ∀ base, base? = some base → before.workspace.registry.Knows base
      ∧ (before.workspace.registry.type base).isReference = false)
    : before.workspace.registry.Evolves
        (before.addType name contextKind kind base? exported).workspace.registry := by
  let opened := (before.workspace.registry.addContext contextKind name.value
    (some before.context)).2
  have opens : before.workspace.registry.Change opened :=
    .context contextKind name.value (some before.context) fun _ same =>
      Option.some.inj same ▸ ready.context
  refine Registry.Evolves.trans (.single opens) (.single (.type _ ?value rfl ?placed ?made derived))
  case value =>
    rw [← Bool.not_eq_true, Registry.isReference_iff]
    rintro ⟨referenced, rfl⟩
    cases alone
  case placed => exact (Registry.knowsContext_addContext_iff _ _ _ _ _).mpr (.inr rfl)
  case made => exact fun inner made => nomatch alone.symm.trans made

theorem addType_ready (ready : before.Ready basis) (name : Token) (contextKind : ContextKind)
    {kind : TypeKind} {base? : Option TypeId} (exported : Bool) (alone : kind.inner? = none)
    (derived : ∀ base, base? = some base → before.workspace.registry.Knows base
      ∧ (before.workspace.registry.type base).isReference = false)
    : before.workspace.Moves (.evolving basis) basis
        (before.addType name contextKind kind base? exported).workspace
      ∧ (before.addType name contextKind kind base? exported).Ready basis := by
  have closed := ready.closed.addType name contextKind exported alone
    fun base given => (derived base given).1
  have moves : before.workspace.Moves (.evolving basis) basis
      (before.addType name contextKind kind base? exported).workspace :=
    ⟨⟨addType_evolves ready name contextKind exported alone derived,
      before.grows_addType name contextKind kind base? exported⟩, closed.workspace⟩
  exact ⟨moves, ready_of_moves ready moves closed rfl⟩

/-- A type that is declared is newer than every class. -/
theorem newest_addType (state : BuildState) (name : Token) (contextKind : ContextKind)
    (kind : TypeKind) (base? : Option TypeId) (exported : Bool)
    : Newest (state.addType name contextKind kind base? exported).workspace.registry
        ⟨state.workspace.registry.types.size⟩ := by
  intro id isClass
  by_contra newer
  have unknown : ¬ state.workspace.registry.Knows id := fun older => newer (Nat.le_of_lt older)
  have other : id ≠ ⟨state.workspace.registry.types.size⟩ := by
    rintro rfl
    exact newer (Nat.le_refl _)
  rw [BuildState.type_addType, if_neg other, Registry.type_unknown unknown] at isClass
  cases isClass

/-- The members of a class are checked in the scope of the class. -/
theorem scopedBody_follows {object : TypeId} {base? : Option TypeId} {members : List ClassMember}
    {names : List String} {context : ContextId} {outcome : Option (List FunctionDefinition)}
    (provided : setting.builtins = basis.builtins) (abide : setting.neighbours.Abide basis)
    (ready : before.Ready basis) (placed : before.workspace.registry.KnowsContext context)
    (grows : world.Grows before.workspace.registry) (new : ¬ world.Knows object)
    (known : before.workspace.registry.Knows object)
    (isClass : (before.workspace.registry.type object).isObject = true)
    (newest : Newest before.workspace.registry object)
    (ran : Build.inNamedScopes names context (Build.classBody object base? members) setting before =
      (outcome, after))
    : Follows basis world before.workspace after.workspace
      ∧ ∀ value, outcome = some value → after.Closed basis ∧ after.context = before.context := by
  have entered : (before.enterScopes names context).Ready basis :=
    ⟨ready.closed.enterScopes names context, ready.workspace, placed⟩
  have ran := ran.symm.trans (inNamedScopes_encloses _ _ _ setting before)
  rcases checked : Build.classBody object base? members setting (before.enterScopes names context)
    with ⟨value?, inside⟩
  obtain ⟨follows, given⟩ := classBody_follows provided abide entered grows new known isClass newest
    checked
  rw [checked] at ran
  cases value? with
  | none =>
      cases ran
      exact ⟨follows, fun _ impossible => nomatch impossible⟩
  | some value =>
      cases ran
      exact ⟨follows, fun _ _ => ⟨(given value rfl).1.leaveScopes before names, rfl⟩⟩

namespace Runs

/-- A base is a class, and so it is no reference. -/
theorem baseClass (type : TypeExpr)
    : (Build.baseClass type).Runs law basis world fun registry base =>
        registry.Knows base ∧ (registry.type base).isReference = false := by
  refine (resolveType type).bind fun later _ base known => ?_
  refine registryThen fun second grown consistent _ => ?_
  dsimp only
  split
  · next isClass =>
      have known := consistent.toClosed.decayed_known (grown.knows known)
      refine pure fun _ growth => ⟨growth.knows known, ?_⟩
      rw [growth.type known, ← Bool.not_eq_true, Registry.isReference_iff]
      rintro ⟨referenced, kind⟩
      rw [TypeInfo.isObject, kind] at isClass
      cases isClass
  · exact reject _ _

theorem equipClass {type : TypeId} {context : ContextId} (known : world.Knows type)
    (placed : world.KnowsContext context)
    : (Build.equipClass type context).Runs law basis world anything := by
  refine (addReference known).bind fun later grows reference referenceKnown => ?_
  have assigned : (Build.onRegistry fun registry =>
      registry.addBuiltin context "=" [type] reference .assignObject).Runs law basis later
        anything := by
    refine onRegistry fun registry grown _ _ _ => ⟨.addBuiltin ?_ "=" .assignObject ?_ ?_, trivial⟩
    · exact grown.knowsContext context (grows.knowsContext context placed)
    · intro other among
      rw [List.mem_singleton.mp among]
      exact grown.knows (grows.knows known)
    · exact grown.knows referenceKnown
  exact assigned.bind fun _ _ _ _ => done ()

/-- A class is the newest one while its members are checked, since it is added behind its base. -/
theorem declareClass (name : Token) {base? : Option TypeId} (members : List ClassMember)
    (exported : Bool) (span : Span)
    (derived : ∀ base, base? = some base →
      world.Knows base ∧ (world.type base).isReference = false)
    : (Build.declareClass name base? members exported span).Runs (.evolving basis) basis world
        anything := by
  intro setting before outcome after provided abide ready grows ran
  let object : TypeId := ⟨before.workspace.registry.types.size⟩
  let declared := before.addType name .classContext .object base? exported
  have derived (base : TypeId) (given : base? = some base)
      : before.workspace.registry.Knows base
        ∧ (before.workspace.registry.type base).isReference = false := by
    obtain ⟨known, value⟩ := derived base given
    rw [grows.type known]
    exact ⟨grows.knows known, value⟩
  obtain ⟨added, declaredReady⟩ : _ ∧ declared.Ready basis :=
    addType_ready ready name .classContext exported rfl derived
  have known : declared.workspace.registry.Knows object :=
    before.knows_addType name .classContext .object base? exported
  have newest : Newest declared.workspace.registry object :=
    newest_addType before name .classContext .object base? exported
  have read : Gives Build.registry setting declared declared.workspace.registry declared :=
    gives_registry.mpr ⟨rfl, rfl⟩
  have ran := (Made.bind_some read).symm.trans ((Made.bind_some (gives_declaredType setting before
    name .classContext .object base? exported)).symm.trans ran)
  have placed := declaredReady.workspace.consistent.placed.types object known
  generalize (declared.workspace.registry.type object).context = context at placed ran
  rcases equip : Build.equipClass object context setting declared with ⟨value?, equipped⟩
  obtain ⟨moves, given⟩ := equipClass known placed _ _ _ _ provided
    (show RegistryLaw.furnishing.suits _ from trivial) declaredReady (.refl _) equip
  have furnishes : declared.workspace.registry.Furnishes equipped.workspace.registry := moves.moves
  have start : before.workspace.Moves (.evolving basis) basis equipped.workspace :=
    added.trans ⟨⟨furnishes.evolves, furnishes.grows⟩, moves.closed⟩
  cases value? with
  | none =>
      cases (Made.bind_none equip).symm.trans ran
      exact ⟨start, fun _ impossible => nomatch impossible⟩
  | some value =>
      have ran := (Made.bind_some equip).symm.trans ran
      obtain ⟨closed, same, _⟩ := given value rfl
      have isClass : (equipped.workspace.registry.type object).isObject = true := by
        rw [furnishes.grows.type known, BuildState.type_addType, if_pos rfl]
        rfl
      rcases entered : Build.inNamedScopes [name.value] context
        (Build.classBody object base? members) setting equipped with ⟨functions?, last⟩
      obtain ⟨follows, result⟩ := scopedBody_follows provided abide
        (ready_of_moves declaredReady moves closed same)
        (moves.expands.knowsContext context placed) start.grows (Nat.lt_irrefl _)
        (furnishes.grows.knows known) isClass (newest.furnish furnishes) entered
      have moved : before.workspace.Moves (.evolving basis) basis last.workspace :=
        ⟨⟨start.moves.1.trans follows.evolves, follows.grows⟩, follows.closed⟩
      cases functions? with
      | none =>
          cases (Made.bind_none entered).symm.trans ran
          exact ⟨moved, fun _ impossible => nomatch impossible⟩
      | some functions =>
          cases (Made.bind_some entered).symm.trans ran
          obtain ⟨closed, sameContext⟩ := result functions rfl
          exact ⟨moved, fun _ _ => ⟨closed, sameContext.trans same, trivial⟩⟩

theorem classDecl (decl : ClassDecl)
    : (Build.classDecl decl).Runs (.evolving basis) basis world anything := by
  cases decl with
  | mk name written? members exported span =>
      rw [classDecl_eq]
      refine (ofLooks (Looks.checkTypeName name)).bind fun first _ _ _ => ?_
      exact (optionMapM fun written _ => baseClass written).bind fun second _ base? known =>
        declareClass name members exported span known

theorem addDeclaredType (name : Token) (contextKind : ContextKind) {kind : TypeKind}
    (exported : Bool) (alone : kind.inner? = none)
    : (Build.addDeclaredType name contextKind kind none exported).Runs (.evolving basis) basis world
        Registry.Knows := by
  intro setting before outcome after _ _ ready _ ran
  cases (gives_declaredType setting before name contextKind kind none exported).symm.trans ran
  obtain ⟨moves, later⟩ := addType_ready ready name contextKind exported alone
    (show ∀ base, none = some base → _ from nofun)
  refine ⟨moves, fun value given => ?_⟩
  cases given
  exact ⟨later.closed, rfl, before.knows_addType name contextKind kind none exported⟩

/-- Enumerators of a known type are numbered and get their names. -/
theorem registerEnum (name : String) {type : TypeId} (names : List String) (exported : Bool)
    (value : α) (known : world.Knows type)
    : Runs (.evolving basis) basis world anything (do
        let (registry, symbols) :=
          (← Build.symbols).registerEnum (← Build.registry) name type names exported
        Build.modifyRegistry fun _ => registry
        Build.modifySymbols fun _ => symbols
        return value) := by
  intro setting before outcome after _ _ ready grows ran
  cases ran
  have moves : before.workspace.Moves (.evolving basis) basis _ :=
    .ofRegistry ready.workspace ((RegistryLaw.evolving basis).furnishes
      (.registerEnumerators type exported 0 before.workspace.registry
        (before.symbols.enums.enterNamed name exported) names))
  refine ⟨moves, fun _ _ => ⟨?_, rfl, trivial⟩⟩
  obtain ⟨workspace, symbols, functions, returns⟩ :=
    ready.closed.ofWorkspace moves.grows moves.closed
  refine ⟨workspace, ⟨symbols.types, symbols.functions, symbols.ids, ?_⟩, functions, returns⟩
  have entered := ready.closed.symbols.enums.enterNamed name exported
  have held := Symbols.Closed.registerEnumerators exported 0 before.workspace.registry names
    (grows.knows known) entered
  exact (held.mono fun symbol => moves.grows.knows).leave

theorem enumDecl (decl : EnumDecl)
    : (Build.enumDecl decl).Runs (.evolving basis) basis world anything := by
  refine (ofLooks (Looks.checkTypeName decl.name)).bind fun first _ _ _ => ?_
  split
  · exact reject _ _
  refine builtinsThen ((addDeclaredType decl.name .enumContext decl.exported rfl).bind
    fun second _ type known => ?_)
  have equipped : (Build.modifyRegistry fun registry =>
      registry.addEnumFunctions basis.builtins type).Runs (.evolving basis) basis second
        anything := by
    refine onRegistry fun registry grown consistent provides _ => ⟨?_, trivial⟩
    have known := grown.knows known
    exact .addEnumFunctions consistent.toClosed provides known
      (consistent.placed.types type known)
  refine equipped.bind fun third grows _ _ => ?_
  have registered : Runs (.evolving basis) basis third anything _ :=
    registerEnum decl.name.value (decl.enumerators.map (·.value)) decl.exported
      (TypedDecl.enumDecl type decl.span) (grows.knows known)
  exact registered

-----------------------------------------------------------------------------------------
-- Scripts
-----------------------------------------------------------------------------------------

/-- What is imported is known where the import succeeds, so merging it keeps the names closed. -/
theorem importModule (path : Token) (span : Span)
    : (Build.importModule path span).Runs (.evolving basis) basis world anything := by
  refine readThen fun setting abide => ?_
  have asked : (Build.onWorkspace (setting.neighbours.importModule path.value span)).Runs
      (.evolving basis) basis world fun registry imported? =>
        ∀ imported, imported? = some imported → imported.Closed registry := by
    refine onWorkspace fun before ready _ => ?_
    obtain ⟨evolves, grows, closed⟩ := abide.importModule path.value span before ready
    refine ⟨⟨⟨evolves, grows⟩, closed⟩, fun imported found => ?_⟩
    exact (abide.obey.importModule ready.closed (Prod.ext found rfl)).2
  refine asked.bind fun later _ imported? known => ?_
  cases imported? with
  | none => exact reject _ _
  | some imported =>
      refine symbolsThen fun second symbols grows closed => registryThen fun third grown _ _ => ?_
      have both := grows.trans grown
      have known := (known imported rfl).mono both.toGrows
      have merged := (closed.mono grown.toGrows).merge known third
      refine (modifySymbols fun last _ growth _ => merged.mono growth.toGrows).bind
        fun _ _ _ _ => ?_
      split
      · exact reject _ _
      · exact done _

mutual

/-- The check of a declaration, by induction over the declaration. -/
theorem decl (source : Stmt) {world : Registry}
    : (Build.decl source).Runs (.evolving basis) basis world anything := by
  cases source with
  | varDecl decl =>
      rw [Build.decl]
      exact (variableDecl decl).bind fun _ _ _ _ => done _
  | function decl =>
      rw [Build.decl]
      exact (functionDecl decl).bind fun _ _ function script =>
        (functionBody decl script).bind fun _ _ _ _ => done _
  | classDecl decl => rw [Build.decl]; exact classDecl decl
  | enumDecl decl => rw [Build.decl]; exact enumDecl decl
  | namespaceDecl names body span =>
      rw [Build.decl]
      refine getThen fun state _ ready => ?_
      have opened : (Build.onRegistry fun registry => registry.addContext .namespaceContext
          (TypeExpr.joinPath (names.map (·.value))) (some state.context)).Runs (.evolving basis)
            basis state.workspace.registry Registry.KnowsContext := by
        refine onRegistry fun registry grows _ _ _ => ⟨.addContext registry _ _ ?_, ?_⟩
        · exact fun parent same => Option.some.inj same ▸ grows.knowsContext _ ready.context
        · exact (Registry.knowsContext_addContext_iff _ _ _ _ _).mpr (.inr rfl)
      refine opened.bind fun later _ context known => ?_
      have inside : (Build.inNamedScopes (names.map (·.value)) context (Build.decls body)).Runs
          (.evolving basis) basis later anything :=
        inNamedScopes _ known (decls body)
      exact inside.bind fun _ _ _ _ => done _
  | importModule path span => rw [Build.decl]; exact importModule path span
  | expression value span => rw [Build.decl]; exact reject _ _
  | block body => rw [Build.decl]; exact reject _ _
  | conditional branches otherwise? span => rw [Build.decl]; exact reject _ _
  | whileLoop condition body span => rw [Build.decl]; exact reject _ _
  | forLoop initial? condition? iteration? body span => rw [Build.decl]; exact reject _ _
  | breakLoop span => rw [Build.decl]; exact reject _ _
  | returnValue value? span => rw [Build.decl]; exact reject _ _

theorem decls (sources : List Stmt) {world : Registry}
    : (Build.decls sources).Runs (.evolving basis) basis world anything := by
  cases sources with
  | nil => rw [Build.decls]; exact done _
  | cons first rest =>
      rw [Build.decls]
      exact (decl first).bind fun _ _ _ _ => (decls rest).bind fun _ _ _ _ => done _

end

end Runs

end Build

/-- A script moves the workspace on, whether or not it is accepted. -/
theorem ScriptUnit.build_moves {basis : Prelude} {neighbours : Neighbours}
    (abide : neighbours.Abide basis) (scriptUnit : ScriptUnit) {workspace : Workspace}
    (ready : workspace.Ready basis)
    : workspace.Moves (.evolving basis) basis
        (scriptUnit.build basis.builtins basis.symbols neighbours workspace).2 := by
  have start : BuildState.Ready basis
      ⟨workspace, basis.symbols, basis.builtins.globalContext, [], [], 0⟩ :=
    ⟨⟨ready.closed, ready.closed.begins, (fun _ absent => nomatch absent), fun _ absent =>
      nomatch absent⟩, ready, ready.globalContext⟩
  exact (Build.Runs.decls scriptUnit.body ⟨basis.builtins, neighbours⟩ _ _ _ rfl abide start
    (.refl _) rfl).1

end BuildScript
