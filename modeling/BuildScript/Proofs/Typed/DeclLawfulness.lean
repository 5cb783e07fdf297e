import BuildScript.Proofs.Typed.DeclLaw

/-! The checks of declarations keep every law of declarations. Declarations are followed together
with the types that they declare, up to whole scripts.
-/

namespace BuildScript

namespace Build

variable {α : Type} {basis : Prelude} {law : DeclLaw basis} {setting : BuildSetting}
  {before after : BuildState} {world : Registry}

-----------------------------------------------------------------------------------------
-- Functions
-----------------------------------------------------------------------------------------

/-- The types of parameters are known. -/
def knownParams (registry : Registry) (params : List Param) : Prop :=
  ∀ param ∈ params, registry.Knows param.type

/-- What a function was seen to return is known. -/
def knownReturns (registry : Registry) (returns : List (TypeId × Span)) : Prop :=
  ∀ returned ∈ returns, registry.Knows returned.1

theorem Keeps.paramList {law : ExprLaw basis} (decls : List ParamDecl)
    : (Build.paramList decls).Keeps law world knownParams := by
  induction decls generalizing world with
  | nil => exact .pure fun _ _ _ absent => nomatch absent
  | cons first rest ih =>
      refine (Keeps.resolveType first.type).bind fun later grows type known => ?_
      refine (Keeps.isVoid type).bind fun second grown empty _ => ?_
      split
      · exact .reject _ _
      · refine Keeps.generateIndex.bind fun third growth index _ => ih.bind fun last further
          others othersKnown => ?_
        refine .pure fun final end_ param among => ?_
        have typeKnown := grown.trans (growth.trans further)
        rcases List.mem_cons.mp among with rfl | inRest
        · exact end_.knows (typeKnown.knows known)
        · exact end_.knows (othersKnown param inRest)

/-- The declaration of a function after the type of its result was resolved. -/
def declareFunction (decl : FunctionDecl) (returnType? : Option TypeId) : Build FunctionId := do
  let params ← paramList decl.params
  let registry ← registry
  match ((← symbols).functions.findAllHere decl.name.value).find? fun id =>
    registry.sameParams (registry.function id).params params with
  | some existing =>
    onWorkspace (Workspace.reportError .functionRedefinition decl.name.span)
    note .previousDefinitionIsHere (registry.function existing).span
    failure
  | none =>
    let context := (← get).context
    let function ← onRegistry fun registry =>
      registry.addFunction
        ⟨decl.name.value, params, decl.name.span, returnType?, context, .script none⟩
    modifySymbols fun symbols =>
      { symbols with
        functions := symbols.functions.register decl.name.value function decl.exported }
    return function

theorem functionDecl_eq (decl : FunctionDecl)
    : functionDecl decl =
        if decl.returnType.isAuto then pure none >>= declareFunction decl
        else (some <$> resolveType decl.returnType) >>= declareFunction decl := by
  unfold functionDecl
  split
  · rfl
  · rfl

/-- Adding a function of a script gives it its name and a body that is still missing. -/
theorem Keeps.addFunction {info : FunctionInfo} (missing : info.body = .script none)
    (params : knownParams world info.params)
    (result : ∀ type, info.returnType? = some type → world.Knows type)
    : (Build.onRegistry fun registry => registry.addFunction info).Keeps law.toExprLaw world
        fun registry function =>
          registry.HasScript function ∧ registry.KnowsNamed info.name function := by
  refine step (fun registry grows _ _ => .function info missing ?_ ?_) fun registry grows => ?_
  · exact fun param among => grows.knows (params param among)
  · exact fun type declared => grows.knows (result type declared)
  · have known := Registry.knowsFunction_addFunction registry info
    have added := (Registry.function_addFunction registry info _).trans (if_pos rfl)
    exact ⟨⟨known, none, (congrArg (·.body) added).trans missing⟩, known, congrArg (·.name) added⟩

theorem Keeps.declareFunction (decl : FunctionDecl) {returnType? : Option TypeId}
    (known : ∀ type, returnType? = some type → world.Knows type)
    : (Build.declareFunction decl returnType?).Keeps law.toExprLaw world Registry.HasScript := by
  refine (Keeps.paramList decl.params).bind fun later grows params paramsKnown => ?_
  refine registryThen fun second grown _ _ => symbolsThen fun third symbols growth _ _ => ?_
  split
  · exact (Keeps.report _).bind fun _ _ _ _ => (Keeps.note _ _).bind fun _ _ _ _ => .failure
  · refine getThen fun state further _ => ?_
    have after := grown.trans (growth.trans further)
    have all := grows.trans after
    refine (Keeps.addFunction rfl (fun param among => after.knows (paramsKnown param among))
      fun type result => all.knows (known type result)).bind fun last _ function added => ?_
    obtain ⟨script, own⟩ := added
    have named : (Build.modifySymbols fun symbols =>
        { symbols with
          functions :=
            symbols.functions.register decl.name.value function decl.exported }).Keeps
        law.toExprLaw last anything := by
      refine modifySymbols (fun _ => rfl) fun registry symbols start closed => ?_
      exact ⟨closed.types, closed.functions.register decl.exported (own.mono start), closed.ids,
        closed.enums⟩
    exact named.bind fun final grown _ _ => .pure fun _ growth =>
      script.mono (grown.trans growth)

theorem Keeps.functionDecl (decl : FunctionDecl)
    : (Build.functionDecl decl).Keeps law.toExprLaw world Registry.HasScript := by
  rw [functionDecl_eq]
  split
  · rw [pure_bind]
    exact Keeps.declareFunction decl fun _ impossible => nomatch impossible
  · refine Keeps.bind (Keeps.map some (Keeps.resolveType decl.returnType)
      fun later type known result same => ?_) fun later grows result known =>
        Keeps.declareFunction decl known
    cases same
    exact known

theorem Keeps.agreedType {law : ExprLaw basis} (name : Token) {returns : List (TypeId × Span)}
    (known : knownReturns world returns)
    : (Build.agreedType name returns).Keeps law world Registry.Knows := by
  unfold Build.agreedType
  split
  · exact builtinsThen fun _ _ provides => .pure fun _ grows => grows.knows provides.void
  · next type span rest =>
      refine registryThen fun later grows _ _ => ?_
      split
      · exact .pure fun _ final => final.knows (grows.knows (known (type, span) (.head _)))
      · refine (Keeps.report _).bind fun _ _ _ _ => ?_
        exact Keeps.thenFailure _

/-- The check of the returns changes nothing. -/
theorem agreedType_same {name : Token} {returns : List (TypeId × Span)} {type : TypeId}
    (gives : (agreedType name returns).Gives setting before type after)
    : after = before := by
  unfold agreedType at gives
  split at gives
  · simp only [gives_bind, gives_builtins, gives_pure] at gives
    obtain ⟨_, _, ⟨rfl, rfl⟩, rfl, rfl⟩ := gives
    rfl
  · obtain ⟨_, _, read, rest⟩ := gives_bind.mp gives
    obtain ⟨rfl, rfl⟩ := gives_registry.mp read
    split at rest
    · exact (gives_pure.mp rest).2
    · obtain ⟨_, _, _, rest⟩ := gives_bind.mp rest
      obtain ⟨_, _, _, impossible⟩ := gives_bind.mp rest
      exact absurd impossible gives_failure

/-- A body is checked in a function with no returns so far and outside of all loops. -/
theorem gives_inFunction {function : FunctionId} {body : Build α}
    {given : α × List (TypeId × Span)}
    (gives : (inFunction function body).Gives setting before given after)
    : ∃ middle,
        body.Gives setting
          { before with openFunctions := ⟨function, []⟩ :: before.openFunctions, loopDepth := 0 }
          given.1 middle
        ∧ given.2 = (middle.openFunctions.head?.map (·.returns)).getD []
        ∧ after = { middle with
            openFunctions := before.openFunctions, loopDepth := before.loopDepth } := by
  simp only [inFunction, gives_bind, gives_get, gives_set, gives_modify, gives_pure] at gives
  obtain ⟨_, _, ⟨rfl, rfl⟩, _, _, rfl, _, _, inner, _, _, ⟨rfl, rfl⟩, _, _, rfl, rfl, rfl⟩ :=
    gives
  exact ⟨_, inner, rfl, rfl⟩

/-- A state stays closed when the body of a known function is checked. -/
theorem closed_inFunction {function : FunctionId} (closed : before.Closed basis)
    (known : before.workspace.registry.KnowsFunction function)
    : BuildState.Closed basis
        { before with
          openFunctions := ⟨function, []⟩ :: before.openFunctions, loopDepth := 0 } := by
  refine ⟨closed.workspace, closed.symbols, fun innermost among => ?_,
    fun innermost among returned inReturns => ?_⟩
  · rcases List.mem_cons.mp among with rfl | outer
    · exact known
    · exact closed.functions innermost outer
  · rcases List.mem_cons.mp among with rfl | outer
    · exact nomatch inReturns
    · exact closed.returns innermost outer returned inReturns

/-- What a function was seen to return is known when the state is closed. -/
theorem innermost_known (closed : before.Closed basis)
    : knownReturns before.workspace.registry
        ((before.openFunctions.head?.map (·.returns)).getD []) := by
  intro returned among
  cases outer : before.openFunctions with
  | nil =>
      rw [outer] at among
      exact nomatch among
  | cons first rest =>
      rw [outer] at among
      exact closed.returns first (outer ▸ .head _) returned among

theorem Keeps.inFunction {action : Build α} {function : FunctionId}
    {post : Registry → α → Prop} (known : world.KnowsFunction function)
    (keeps : action.Keeps law.toExprLaw world post)
    : (Build.inFunction function action).Keeps law.toExprLaw world
        fun registry given => post registry given.1 ∧ knownReturns registry given.2 := by
  intro setting before value after suits closed grows gives
  obtain ⟨middle, inner, returns, rfl⟩ := gives_inFunction gives
  have entered := closed_inFunction closed (grows.knowsFunction known)
  obtain ⟨advances, meets⟩ := keeps _ _ _ _ suits entered grows inner
  refine ⟨⟨?_, advances.grows, advances.closed.workspace, advances.closed.symbols,
    fun innermost among => advances.grows.knowsFunction (closed.functions innermost among),
    fun innermost among returned inReturns =>
      advances.grows.knows (closed.returns innermost among returned inReturns)⟩, meets, ?_⟩
  · exact law.trans (law.signals before (⟨function, []⟩ :: before.openFunctions) 0)
      (law.trans advances.keeps (law.signals middle before.openFunctions before.loopDepth))
  · dsimp only
    rw [returns]
    exact innermost_known advances.closed

/-- A body stays well scoped when it is made to end in a return. -/
theorem endInReturn_wellScoped {body : TypedBlock} (holds : body.wellScoped false = true)
    : (endInReturn body).wellScoped false = true := by
  have appended (statements : List TypedStmt) (span : Span)
      (holds : TypedStmt.allWellScoped false statements = true)
      : TypedStmt.allWellScoped false (statements ++ [.implicitReturn span]) = true := by
    induction statements with
    | nil => rfl
    | cons first rest ih =>
        simp only [List.cons_append, TypedStmt.allWellScoped, Bool.and_eq_true] at holds ⊢
        exact ⟨holds.1, ih holds.2⟩
  cases body with
  | mk statements span =>
      rw [endInReturn]
      split
      · exact holds
      · exact appended statements span holds

/-- A body that is made to end in a return does so. -/
theorem endInReturn_endsInReturn (body : TypedBlock) : (endInReturn body).endsInReturn = true := by
  cases body with
  | mk statements span =>
      rw [endInReturn]
      split
      · next last =>
        rw [TypedBlock.endsInReturn, last]
        rfl
      · rw [TypedBlock.endsInReturn, List.getLast?_concat]
        rfl

/-- A body that is made to end in a return has the same expressions. -/
theorem endInReturn_exprs (body : TypedBlock) : (endInReturn body).exprs = body.exprs := by
  have appended (statements : List TypedStmt) (span : Span)
      : TypedStmt.allExprs (statements ++ [.implicitReturn span]) =
          TypedStmt.allExprs statements := by
    induction statements with
    | nil => rfl
    | cons first rest ih => rw [List.cons_append, TypedStmt.allExprs, ih, TypedStmt.allExprs]
  cases body with
  | mk statements span =>
      rw [endInReturn]
      split
      · rfl
      · exact appended statements span

/-- Gives the parameters of a function their names. -/
def nameParams (function : FunctionId) : Build Unit := do
  let params := ((← registry).function function).params
  modifySymbols fun symbols =>
    { symbols with
      ids := params.foldl
        (fun ids param => ids.register param.name ⟨param.type, param.index⟩ false)
        symbols.ids }

/-- The check of the body of a function, without what follows from it. -/
def checkedBody (function : FunctionId) (decl : FunctionDecl)
    : Build (TypedBlock × List (TypeId × Span)) :=
  inFunction function <| inLocalScope do
    nameParams function
    block decl.body

theorem Keeps.nameParams {law : StmtLaw basis} (function : FunctionId)
    : (Build.nameParams function).Keeps law.toExprLaw world anything := by
  refine registryThen fun later grows closed _ => ?_
  refine modifySymbols (fun _ => rfl) fun registry symbols grown known => ?_
  refine ⟨known.types, known.functions, ?_, known.enums⟩
  exact ScopeTable.foldl_keeps (fun ids : ScopeTable VariableSymbol =>
    ids.Holds fun symbol => registry.Knows symbol.type) known.ids
    fun _ param among kept => kept.register param.name false
      (grown.knows (closed.params function param among))

theorem Keeps.checkedBody {function : FunctionId} (decl : FunctionDecl)
    (known : world.KnowsFunction function)
    : (Build.checkedBody function decl).Keeps law.toExprLaw world fun registry given =>
        registry.AdmitsAll basis.builtins given.1.exprs ∧ knownReturns registry given.2 := by
  have inside : Keeps law.toExprLaw world
      (fun registry (body : TypedBlock) => registry.AdmitsAll basis.builtins body.exprs)
      (Build.nameParams function >>= fun _ => Build.block decl.body) :=
    (Keeps.nameParams function).bind fun _ _ _ _ => Keeps.block decl.body
  exact Keeps.inFunction known inside.inLocalScope

theorem checkedBody_wellScoped {function : FunctionId} {decl : FunctionDecl}
    (formed : decl.body.wellFormed = true) {given : TypedBlock × List (TypeId × Span)}
    (suits : setting.Suits (.framing basis)) (closed : before.Closed basis)
    (known : before.workspace.registry.KnowsFunction function)
    (gives : (checkedBody function decl).Gives setting before given after)
    : given.1.wellScoped false = true := by
  obtain ⟨middle, inner, _⟩ := gives_inFunction gives
  obtain ⟨_, inner, _⟩ := gives_inLocalScope.mp inner
  obtain ⟨_, started, named, checked⟩ := gives_bind.mp inner
  have entered := closed_enterLocal (closed_inFunction closed known)
  have outside : started.loopDepth = 0 := by
    obtain ⟨_, _, read, changed⟩ := gives_bind.mp named
    obtain ⟨rfl, rfl⟩ := gives_registry.mp read
    rw [gives_modifySymbols.mp changed]
  have started := closed_of_keeps (Keeps.nameParams function) suits entered named
  have inside := (block_wellScoped decl.body formed suits started checked).2
  rw [outside] at inside
  exact inside

/-- Keeps the checked body of a function, of which the type of the result is settled before. -/
def settleBody (function : FunctionId) (decl : FunctionDecl)
    (given : TypedBlock × List (TypeId × Span))
    : Build FunctionDefinition := do
  if ((← registry).function function).returnType?.isNone then
    let type ← agreedType decl.name given.2
    modifyRegistry fun registry =>
      registry.modifyFunction function fun info => { info with returnType? := some type }
  let body := endInReturn given.1
  modifyRegistry fun registry =>
    registry.modifyFunction function fun info => { info with body := .script (some body) }
  return ⟨function, body, decl.span⟩

theorem functionBody_eq (function : FunctionId) (decl : FunctionDecl)
    : functionBody function decl = checkedBody function decl >>= settleBody function decl := rfl

theorem Keeps.settleBody {function : FunctionId} (decl : FunctionDecl)
    {given : TypedBlock × List (TypeId × Span)} (script : world.HasScript function)
    (admits : world.AdmitsAll basis.builtins given.1.exprs)
    (known : knownReturns world given.2) (inside : given.1.wellScoped false = true)
    : (Build.settleBody function decl given).Keeps law.toExprLaw world fun registry definition =>
        registry.AdmitsAll basis.builtins definition.body.exprs := by
  have kept (later : Registry) (grown : world.Grows later)
      : Build.Keeps law.toExprLaw later
          (fun registry (definition : FunctionDefinition) =>
            registry.AdmitsAll basis.builtins definition.body.exprs) (do
          Build.modifyRegistry fun registry =>
            registry.modifyFunction function fun info =>
              { info with body := .script (some (endInReturn given.1)) }
          return (⟨function, endInReturn given.1, decl.span⟩ : FunctionDefinition)) := by
    have admits : later.AdmitsAll basis.builtins (endInReturn given.1).exprs := by
      rw [endInReturn_exprs]
      exact admits.mono grown
    exact (Keeps.modifyRegistry fun _ grows _ _ => .body function _
      (script.mono (grown.trans grows)) (endInReturn_wellScoped inside)
      (endInReturn_endsInReturn given.1) (admits.mono grows)).bind
        fun _ growth _ _ => .pure fun _ final => admits.mono (growth.trans final)
  intro setting before definition after suits closed grows gives
  obtain ⟨_, _, read, rest⟩ := gives_bind.mp gives
  obtain ⟨rfl, rfl⟩ := gives_registry.mp read
  dsimp only at rest
  split at rest
  · next missing =>
      obtain ⟨type, middle, agreed, settled⟩ := gives_bind.mp rest
      obtain ⟨first, typeKnown⟩ := Keeps.agreedType decl.name known _ _ _ _
        suits closed grows agreed
      obtain rfl := agreedType_same agreed
      obtain ⟨_, last, deduced, rest⟩ := gives_bind.mp settled
      obtain rfl := gives_modifyRegistry.mp deduced
      have taken : middle.workspace.Advances basis law.load _ :=
        .ofStep (.deduction function type typeKnown (Option.isNone_iff_eq_none.mp missing))
      have second := BuildState.Advances.ofWorkspace first.closed taken
      obtain ⟨third, settled⟩ := kept _ (grows.trans second.grows) _ _ _ _ suits
        second.closed (.refl _) rest
      exact ⟨second.trans third, settled⟩
  · exact kept world (.refl _) _ _ _ _ suits closed grows rest

theorem Keeps.functionBody {function : FunctionId} {decl : FunctionDecl}
    (script : world.HasScript function) (formed : decl.body.wellFormed = true)
    : (Build.functionBody function decl).Keeps law.toExprLaw world fun registry definition =>
        registry.AdmitsAll basis.builtins definition.body.exprs := by
  intro setting before definition after suits closed grows gives
  rw [functionBody_eq] at gives
  obtain ⟨given, middle, checked, settled⟩ := gives_bind.mp gives
  have scriptBefore := script.mono grows
  have inside := checkedBody_wellScoped formed (suits.weaken fun _ => trivial) closed
    scriptBefore.known checked
  obtain ⟨first, admits, returns⟩ := Keeps.checkedBody decl scriptBefore.known _ _ _ _ suits closed
    (.refl _) checked
  obtain ⟨second, kept⟩ := Keeps.settleBody decl (scriptBefore.mono first.grows) admits returns
    inside _ _ _ _ suits first.closed (.refl _) settled
  exact ⟨first.trans second, kept⟩

-----------------------------------------------------------------------------------------
-- Classes
-----------------------------------------------------------------------------------------

theorem Keeps.baseClass {law : ExprLaw basis} (type : TypeExpr)
    : (Build.baseClass type).Keeps law world Registry.Knows := by
  refine (Keeps.resolveType type).bind fun later _ base known => ?_
  refine registryThen fun second grown closed _ => ?_
  dsimp only
  split
  · exact .pure fun _ growth => growth.knows (closed.decayed_known (grown.knows known))
  · exact .reject _ _

theorem Keeps.inheritMembers {law : StmtLaw basis} (base : TypeId)
    : (Build.inheritMembers base).Keeps law.toExprLaw world anything := by
  refine registryThen fun later grows closed _ => ?_
  refine modifySymbols (fun _ => rfl) fun registry symbols grown known => ?_
  refine ⟨known.types, ?_, ?_, known.enums⟩
  · refine ScopeTable.foldl_keeps (fun table : ScopeTable FunctionId =>
      table.HoldsNamed registry.KnowsNamed) known.functions fun _ id among kept => ?_
    obtain ⟨ancestor, _, inherited⟩ := List.mem_flatMap.mp among
    have own : later.KnowsNamed (later.function id).name id :=
      ⟨closed.functions _ id (List.mem_filter.mp inherited).1, rfl⟩
    exact kept.register false (own.mono grown)
  · exact ScopeTable.foldl_keeps (fun ids : ScopeTable VariableSymbol =>
      ids.Holds fun symbol => registry.Knows symbol.type) known.ids
      fun _ member among kept => kept.register member.name false
        (grown.knows (closed.allMembers_known base member among))

theorem Keeps.memberVariable {law : StmtLaw basis} (object : TypeId) (decl : VariableDecl)
    : (Build.memberVariable object decl).Keeps law.toExprLaw world
        fun registry member => registry.Knows member.type := by
  unfold Build.memberVariable
  split
  · exact .reject _ _
  · refine (Keeps.resolveType decl.type).bind fun later grows type known => ?_
    refine registryThen fun second grown _ _ => (Keeps.isVoid type).bind fun third growth _ _ => ?_
    have typeKnown := (grown.trans growth).knows known
    split
    · exact .reject _ _
    · split
      · exact .reject _ _
      · split
        · exact .reject _ _
        · exact Keeps.generateIndex.bind fun fourth further index _ =>
            (registerVariable decl.name.value index false (further.knows typeKnown)).bind
              fun last grows _ _ => .pure fun _ final =>
                final.knows (grows.knows (further.knows typeKnown))

/-- The functions among the members of a class. -/
def memberFunctions (members : List ClassMember) : List FunctionDecl :=
  members.filterMap fun
    | .varDecl _ => none
    | .function decl => some decl

/-- The functions of a well formed class are well formed, by induction over its members. -/
theorem memberFunctions_wellFormed {members : List ClassMember}
    (formed : ClassMember.allWellFormed members = true)
    : ∀ decl ∈ memberFunctions members, decl.body.wellFormed = true := by
  induction members with
  | nil => exact fun _ absent => nomatch absent
  | cons first rest ih =>
      cases first with
      | varDecl decl => exact ih formed
      | function decl =>
          simp only [ClassMember.allWellFormed, Bool.and_eq_true] at formed
          intro member among
          rcases List.mem_cons.mp among with rfl | later
          · cases member
            exact formed.1
          · exact ih formed.2 member later

/-- The variables among the members of a class. -/
def memberVariables (members : List ClassMember) : List VariableDecl :=
  members.filterMap fun
    | .varDecl decl => some decl
    | .function _ => none

/-- The member functions of a class, all declared before any is checked. -/
def functionMembers (functions : List FunctionDecl) : Build (List FunctionDefinition) := do
  let declared ← functions.mapM functionDecl
  (declared.zip functions).mapM fun (function, decl) => functionBody function decl

theorem Keeps.functionMembers {functions : List FunctionDecl}
    (formed : ∀ decl ∈ functions, decl.body.wellFormed = true)
    : (Build.functionMembers functions).Keeps law.toExprLaw world fun registry definitions =>
        registry.AdmitsAll basis.builtins (FunctionDefinition.allExprs definitions) := by
  refine (Keeps.mapM Registry.HasScript functions (fun decl _ _ _ => Keeps.functionDecl decl)
    fun script grows => script.mono grows).bind fun later _ declared scripts => ?_
  refine (Keeps.mapM (fun registry (definition : FunctionDefinition) =>
      registry.AdmitsAll basis.builtins definition.body.exprs) _
    (fun pair among after grows => ?_) fun admits grows => admits.mono grows).weaken
      fun _ definitions admits expr among => ?_
  · obtain ⟨inDeclared, inFunctions⟩ := List.of_mem_zip among
    exact Keeps.functionBody ((scripts pair.1 inDeclared).mono grows) (formed pair.2 inFunctions)
  · obtain ⟨definition, inDefinitions, inBody⟩ := List.mem_flatMap.mp among
    exact admits definition inDefinitions expr inBody

/-- The base class of a class is made visible if there is one. -/
theorem Keeps.inheritBase {law : StmtLaw basis} (base? : Option TypeId)
    : (do if let some base := base? then Build.inheritMembers base : Build Unit).Keeps
        law.toExprLaw world anything := by
  cases base? with
  | none => exact .done ()
  | some base => exact .inheritMembers base

theorem classBody_eq (object : TypeId) (base? : Option TypeId) (members : List ClassMember)
    : classBody object base? members =
        (do if let some base := base? then Build.inheritMembers base : Build Unit) >>= fun _ =>
          (memberVariables members).mapM (memberVariable object) >>= fun filled =>
            (modifyRegistry fun registry => registry.setMembers object filled) >>= fun _ =>
              functionMembers (memberFunctions members) := by
  cases base? with
  | none => rfl
  | some base => rfl

/-- The members of a class that is new since an earlier registry are related by the law, and the
registry goes on to grow from the earlier one. It admits what the functions are made of.
-/
theorem classBody_advances {object : TypeId} {base? : Option TypeId} {members : List ClassMember}
    (formed : ClassMember.allWellFormed members = true) {functions : List FunctionDefinition}
    (suits : setting.Suits law.toExprLaw) (closed : before.Closed basis)
    (grows : world.Grows before.workspace.registry) (new : ¬ world.Knows object)
    (known : before.workspace.registry.Knows object)
    (empty : (before.workspace.registry.type object).members = [])
    (gives : (classBody object base? members).Gives setting before functions after)
    : law.keeps before after ∧ world.Grows after.workspace.registry ∧ after.Closed basis
      ∧ after.workspace.registry.AdmitsAll basis.builtins
          (FunctionDefinition.allExprs functions) := by
  rw [classBody_eq] at gives
  obtain ⟨_, second, inherited, rest⟩ := gives_bind.mp gives
  obtain ⟨filled, third, declared, rest⟩ := gives_bind.mp rest
  obtain ⟨_, fourth, changed, checked⟩ := gives_bind.mp rest
  obtain rfl := gives_modifyRegistry.mp changed
  obtain ⟨first, _⟩ := Keeps.inheritBase base? _ _ _ _ suits closed
    (.refl _) inherited
  obtain ⟨next, membersKnown⟩ := Keeps.mapM _ (memberVariables members)
    (fun decl _ _ _ => Keeps.memberVariable object decl)
    (fun typeKnown grows => grows.knows typeKnown) _ _ _ _ suits first.closed (.refl _) declared
  have both := first.trans next
  have stillEmpty : (third.workspace.registry.type object).members = [] := by
    rw [both.grows.type known]
    exact empty
  have grown := (grows.trans both.grows).setMembers new filled
  obtain ⟨last, admits⟩ := Keeps.functionMembers (memberFunctions_wellFormed formed) _ _ _ _
    suits (both.closed.setMembers object membersKnown) (.refl _) checked
  refine ⟨?_, grown.trans last.grows, last.closed, admits⟩
  exact law.trans both.keeps
    (law.trans (law.workspace (law.members stillEmpty membersKnown)) last.keeps)

-----------------------------------------------------------------------------------------
-- Declared types
-----------------------------------------------------------------------------------------

/-- A check declares types when states extend by the law with the types that its value tells, and
when the expressions in its value are admitted.
-/
def Declares (law : DeclLaw basis) (types : α → List TypeId) (exprs : α → List TypedExpr)
    (action : Build α)
    : Prop :=
  ∀ setting before value after, setting.Suits law.toExprLaw → before.Closed basis →
    action.Gives setting before value after →
    before.Extends law (types value) after
      ∧ after.workspace.registry.AdmitsAll basis.builtins (exprs value)

theorem gives_checkTypeName {name : Token} {value : Unit}
    (gives : (checkTypeName name).Gives setting before value after)
    : before.symbols.types.findHere? name.value = none ∧ after = before := by
  simp only [checkTypeName, gives_bind, gives_symbols] at gives
  obtain ⟨_, _, ⟨rfl, rfl⟩, gives⟩ := gives
  split at gives
  · next unknown => exact ⟨unknown, (gives_pure.mp gives).2⟩
  · simp [note] at gives

theorem gives_addDeclaredType {name : Token} {contextKind : ContextKind} {kind : TypeKind}
    {base? : Option TypeId} {exported : Bool} {type : TypeId}
    (gives : (addDeclaredType name contextKind kind base? exported).Gives setting before type after)
    : type = ⟨before.workspace.registry.types.size⟩
      ∧ after = before.addType name contextKind kind base? exported := by
  simp only [addDeclaredType, qualify, gives_bind, gives_get, gives_pure, gives_onRegistry,
    gives_modifySymbols] at gives
  obtain ⟨_, _, ⟨rfl, rfl⟩, _, _, ⟨_, _, ⟨rfl, rfl⟩, rfl, rfl⟩, _, _, ⟨_, added, rfl⟩, _, _,
    ⟨_, typed, rfl⟩, _, _, rfl, rfl, rfl⟩ := gives
  cases added
  cases typed
  exact ⟨rfl, rfl⟩

/-- A check in named scopes succeeds when the check does, between entering and leaving. -/
theorem gives_inNamedScopes {names : List String} {context : ContextId} {body : Build α}
    {value : α} (gives : (inNamedScopes names context body).Gives setting before value after)
    : ∃ middle,
        body.Gives setting (before.enterScopes names context) value middle
        ∧ after = before.leaveScopes names middle := by
  simp only [inNamedScopes, gives_bind, gives_get, gives_set, gives_modify, gives_pure] at gives
  obtain ⟨_, _, ⟨rfl, rfl⟩, _, _, rfl, _, _, inner, _, _, rfl, rfl, rfl⟩ := gives
  exact ⟨_, inner, rfl⟩

/-- The base of a class changes nothing but the workspace. -/
theorem baseClass_frame {written? : Option TypeExpr} {base? : Option TypeId}
    (suits : setting.Suits law.toExprLaw) (closed : before.Closed basis)
    (gives : (written?.mapM baseClass).Gives setting before base? after)
    : ∃ workspace, after = { before with workspace } := by
  have keeps : (written?.mapM baseClass).Keeps (.framing basis) before.workspace.registry
      fun registry base? => ∀ base, base? = some base → registry.Knows base :=
    Keeps.optionMapM fun written _ => Keeps.baseClass written
  exact (keeps _ _ _ _ (suits.weaken fun _ => trivial) closed (.refl _) gives).1.keeps

/-- A new type extends the state. -/
theorem extends_addType (law : DeclLaw basis) (closed : before.Closed basis) {name : Token}
    (word : isWord name.value = true)
    (free : before.symbols.types.findHere? name.value = none) (contextKind : ContextKind)
    {kind : TypeKind} (form : kind = .object ∨ ∃ names, kind = .enumeration names)
    {base? : Option TypeId}
    (derived : ∀ base, base? = some base → before.workspace.registry.Knows base)
    (exported : Bool)
    : before.Extends law [⟨before.workspace.registry.types.size⟩]
        (before.addType name contextKind kind base? exported) := by
  refine ⟨law.declared before name contextKind kind base? exported word form derived free,
    before.grows_addType name contextKind kind base? exported,
    closed.addType name contextKind exported ?_ derived⟩
  rcases form with rfl | ⟨names, rfl⟩
  · rfl
  · rfl

/-- What every class gets: the type of references to it and the assignment of objects. -/
def equipClass (type : TypeId) (context : ContextId) : Build Unit := do
  let reference ← onRegistry fun registry => registry.addReference type
  let _ ← onRegistry fun registry =>
    registry.addBuiltin context "=" [type] reference .assignObject

theorem Keeps.equipClass {type : TypeId} (context : ContextId) (known : world.Knows type)
    : (Build.equipClass type context).Keeps law.toExprLaw world anything := by
  refine (Keeps.addReference known).bind fun later grows reference referenceKnown => ?_
  have added : (Build.onRegistry fun registry =>
      registry.addBuiltin context "=" [type] reference .assignObject).Keeps law.toExprLaw later
        anything :=
    Keeps.step (fun registry grown _ _ => .assignment context type reference
      ((grows.trans grown).knows known) (grown.knows referenceKnown)) fun _ _ => trivial
  exact added.bind fun _ _ _ _ => .done ()

/-- The declaration of a class after its base was found. -/
def declareClass (name : Token) (base? : Option TypeId) (members : List ClassMember)
    (exported : Bool) (span : Span)
    : Build TypedDecl := do
  let type ← addDeclaredType name .classContext .object base? exported
  let context := ((← registry).type type).context
  equipClass type context
  let functions ← inNamedScopes [name.value] context (classBody type base? members)
  return .classDecl type functions span

theorem classDecl_eq (name : Token) (written? : Option TypeExpr) (members : List ClassMember)
    (exported : Bool) (span : Span)
    : classDecl (.mk name written? members exported span) =
        checkTypeName name >>= fun _ => written?.mapM baseClass >>= fun base? =>
          declareClass name base? members exported span := rfl

theorem declareClass_extends {name : Token} {base? : Option TypeId} {members : List ClassMember}
    {exported : Bool} {span : Span} {typed : TypedDecl} (word : isWord name.value = true)
    (formed : ClassMember.allWellFormed members = true)
    (free : before.symbols.types.findHere? name.value = none)
    (derived : ∀ base, base? = some base → before.workspace.registry.Knows base)
    (suits : setting.Suits law.toExprLaw) (closed : before.Closed basis)
    (gives : (declareClass name base? members exported span).Gives setting before typed after)
    : before.Extends law typed.types after
      ∧ after.workspace.registry.AdmitsAll basis.builtins typed.exprs := by
  obtain ⟨type, first, added, rest⟩ := gives_bind.mp gives
  obtain ⟨rfl, rfl⟩ := gives_addDeclaredType added
  have declared := extends_addType law closed word free .classContext (.inl rfl) derived exported
  obtain ⟨_, _, read, rest⟩ := gives_bind.mp rest
  obtain ⟨rfl, rfl⟩ := gives_registry.mp read
  obtain ⟨_, second, equipped, rest⟩ := gives_bind.mp rest
  obtain ⟨functions, _, inner, rest⟩ := gives_bind.mp rest
  obtain ⟨rfl, rfl⟩ := gives_pure.mp rest
  obtain ⟨last, checked, rfl⟩ := gives_inNamedScopes inner
  have known := before.knows_addType name .classContext .object base? exported
  obtain ⟨completed, _⟩ := Keeps.equipClass _ known _ _ _ _ suits declared.closed
    (.refl _) equipped
  have start := declared.thenAdvances completed
  have empty : (second.workspace.registry.type ⟨before.workspace.registry.types.size⟩).members =
      [] := by
    rw [completed.grows.type known, BuildState.type_addType, if_pos rfl]
  obtain ⟨kept, grows, closedLast, admits⟩ := classBody_advances formed suits
    (start.closed.enterScopes [name.value] _) start.grows (Nat.lt_irrefl _)
    (completed.grows.knows known) empty checked
  have scope : ∀ scope ∈ [name.value], isWord scope = true := by
    simpa using word
  exact ⟨⟨law.follow start.declares (law.namedScopes scope (law.kept kept)), grows,
    closedLast.leaveScopes second [name.value]⟩, admits⟩

theorem classDecl_declares {decl : ClassDecl} (formed : decl.wellFormed = true)
    : (classDecl decl).Declares law TypedDecl.types TypedDecl.exprs := by
  cases decl with
  | mk name written? members exported span =>
      simp only [ClassDecl.wellFormed, Bool.and_eq_true] at formed
      intro setting start typed after suits closed gives
      rw [classDecl_eq] at gives
      obtain ⟨_, _, free, rest⟩ := gives_bind.mp gives
      obtain ⟨unknown, rfl⟩ := gives_checkTypeName free
      obtain ⟨base?, middle, derived, declared⟩ := gives_bind.mp rest
      have base := Keeps.optionMapM (fun written _ => Keeps.baseClass written)
        _ _ _ _ suits closed (.refl _) derived
      have unknown : middle.symbols.types.findHere? name.value = none := by
        obtain ⟨workspace, rfl⟩ := baseClass_frame suits closed derived
        exact unknown
      obtain ⟨first, baseKnown⟩ := base
      obtain ⟨extended, admits⟩ := declareClass_extends formed.1 formed.2 unknown baseKnown suits
        first.closed declared
      exact ⟨first.thenExtends extended, admits⟩

/-- Numbering enumerators is a number of steps, by induction over the enumerators. -/
theorem registerEnumerators_advances {type : TypeId} {exported : Bool} (names : List String)
    (value : Nat) (workspace : Workspace) (enums : ScopeTable EnumeratorSymbol)
    : workspace.Advances basis law.load
        { workspace with
          registry :=
            (Symbols.registerEnumerators type exported value workspace.registry enums
              names).1 } := by
  induction names generalizing value workspace enums with
  | nil => exact .quiet rfl rfl rfl
  | cons first rest ih =>
      have numbered : workspace.Advances basis law.load
          { workspace with registry := workspace.registry.generateIndex.2 } := .ofStep .index
      exact numbered.trans
        (ih (value + 1) { workspace with registry := workspace.registry.generateIndex.2 } _)

/-- Registering the enumerators of a known type advances a state. -/
theorem registerEnum_advances {type : TypeId} (name : String) (names : List String)
    (exported : Bool) (closed : before.Closed basis)
    (known : before.workspace.registry.Knows type)
    : let registered :=
        before.symbols.registerEnum before.workspace.registry name type names exported
      before.Advances law.toExprLaw
        { before with
          workspace := { before.workspace with registry := registered.1 }
          symbols := registered.2 } := by
  intro registered
  have numbered : before.workspace.Advances basis law.load
      { before.workspace with registry := registered.1 } :=
    registerEnumerators_advances names 0 before.workspace
      (before.symbols.enums.enterNamed name exported)
  have advanced := BuildState.Advances.ofWorkspace closed numbered
  have symbols := advanced.closed.symbols
  refine ⟨law.trans advanced.keeps (law.names _ _ rfl), advanced.grows, advanced.closed.workspace,
    ⟨symbols.types, symbols.functions, symbols.ids, ?_⟩, advanced.closed.functions,
    advanced.closed.returns⟩
  have entered := closed.symbols.enums.enterNamed name exported
  have held := Symbols.Closed.registerEnumerators exported 0 before.workspace.registry names known
    entered
  exact (held.mono fun symbol => advanced.grows.knows).leave

theorem enumDecl_declares {decl : EnumDecl} (formed : isWord decl.name.value = true)
    : (enumDecl decl).Declares law TypedDecl.types TypedDecl.exprs := by
  intro setting before typed after suits closed gives
  obtain ⟨_, _, free, rest⟩ := gives_bind.mp gives
  obtain ⟨unknown, rfl⟩ := gives_checkTypeName free
  split at rest
  · exact absurd rest gives_reject
  simp only [gives_bind] at rest
  obtain ⟨b, start, provided, type, declared, added, _, equipped, changed, rest⟩ := rest
  obtain ⟨rfl, rfl⟩ := gives_builtins.mp provided
  obtain ⟨rfl, rfl⟩ := gives_addDeclaredType added
  rw [suits.provided] at changed
  obtain ⟨names, _, named, registry, read, known, _, numbered, kept, _, _, registered, last⟩ := rest
  have underived : ∀ base, none = some base → start.workspace.registry.Knows base :=
    fun _ impossible => absurd impossible.symm (Option.some_ne_none _)
  have first := extends_addType law closed formed unknown .enumContext
    (.inr ⟨decl.enumerators.map (·.value), rfl⟩) underived decl.exported
  have typeKnown := start.knows_addType decl.name .enumContext
    (.enumeration (decl.enumerators.map (·.value))) none decl.exported
  obtain ⟨second, _⟩ := Keeps.modifyRegistry (fun registry grows _ _ =>
    .enumeration _ (grows.knows typeKnown)) _ _ () _ suits first.closed (.refl _) changed
  obtain ⟨rfl, rfl⟩ := gives_symbols.mp named
  obtain ⟨rfl, rfl⟩ := gives_registry.mp known
  obtain rfl := gives_modifyRegistry.mp kept
  obtain rfl := gives_modifySymbols.mp registered
  obtain ⟨rfl, rfl⟩ := gives_pure.mp last
  exact ⟨(first.thenAdvances second).thenAdvances
    (registerEnum_advances decl.name.value _ decl.exported second.closed
      (second.grows.knows typeKnown)), .nil⟩

-----------------------------------------------------------------------------------------
-- Declarations
-----------------------------------------------------------------------------------------

theorem importModule_declares (path : Token) (span : Span)
    : (importModule path span).Declares law TypedDecl.types TypedDecl.exprs := by
  intro setting before typed after suits closed gives
  obtain ⟨_, _, asked, answered⟩ := gives_bind.mp gives
  obtain ⟨rfl, rfl⟩ := gives_read.mp asked
  obtain ⟨imported?, _, loaded, rest⟩ := gives_bind.mp answered
  obtain ⟨workspace, outcome, rfl⟩ := gives_onWorkspace.mp loaded
  split at rest
  · exact absurd rest gives_reject
  next imported =>
    obtain ⟨loads, exported⟩ := suits.obey.importModule closed.workspace outcome
    have first := BuildState.Advances.ofWorkspace closed loads
    obtain ⟨names, _, named, rest⟩ := gives_bind.mp rest
    obtain ⟨rfl, rfl⟩ := gives_symbols.mp named
    obtain ⟨registry, _, read, rest⟩ := gives_bind.mp rest
    obtain ⟨rfl, rfl⟩ := gives_registry.mp read
    obtain ⟨_, _, changed, rest⟩ := gives_bind.mp rest
    obtain rfl := gives_modifySymbols.mp changed
    split at rest
    · exact absurd rest gives_reject
    next merged =>
      obtain ⟨rfl, rfl⟩ := gives_pure.mp rest
      have known := first.closed
      refine ⟨first.thenExtends ⟨law.merged _ imported _ (Prod.ext merged rfl), .refl _,
        known.workspace, known.symbols.merge exported _, known.functions, known.returns⟩, .nil⟩

mutual

/-- Checking a declaration declares the types that its checked form tells, by induction over
declarations.
-/
theorem decl_declares (source : Stmt) (formed : source.wellFormed = true)
    : (decl source).Declares law TypedDecl.types TypedDecl.exprs := by
  cases source with
  | varDecl decl =>
      intro setting before typed after suits closed gives
      obtain ⟨_, _, checked, rest⟩ := gives_bind.mp gives
      obtain ⟨rfl, rfl⟩ := gives_pure.mp rest
      obtain ⟨advances, _, admits⟩ := Keeps.variableDecl decl _ _ _ _ suits closed (.refl _)
        checked
      exact ⟨advances.extend, admits⟩
  | function decl =>
      intro setting before typed after suits closed gives
      obtain ⟨function, _, declared, rest⟩ := gives_bind.mp gives
      obtain ⟨_, _, checked, rest⟩ := gives_bind.mp rest
      obtain ⟨rfl, rfl⟩ := gives_pure.mp rest
      have body : decl.body.wellFormed = true := by
        cases decl
        exact formed
      obtain ⟨first, script⟩ := Keeps.functionDecl decl _ _ _ _ suits closed (.refl _)
        declared
      obtain ⟨second, admits⟩ := Keeps.functionBody script body _ _ _ _ suits first.closed
        (.refl _) checked
      exact ⟨(first.trans second).extend, admits⟩
  | classDecl decl => exact classDecl_declares formed
  | enumDecl decl => exact enumDecl_declares formed
  | namespaceDecl names body span =>
      simp only [Stmt.wellFormed, Bool.and_eq_true, List.all_eq_true] at formed
      intro setting before typed after suits closed gives
      obtain ⟨_, start, read, rest⟩ := gives_bind.mp gives
      obtain ⟨rfl, rfl⟩ := gives_get.mp read
      obtain ⟨context, middle, opened, rest⟩ := gives_bind.mp rest
      obtain ⟨inner, _, entered, rest⟩ := gives_bind.mp rest
      obtain ⟨rfl, rfl⟩ := gives_pure.mp rest
      obtain ⟨last, checked, rfl⟩ := gives_inNamedScopes entered
      have opens : (onRegistry fun registry => registry.addContext .namespaceContext
          (TypeExpr.joinPath (names.map (·.value))) (some start.context)).Keeps law.toExprLaw
            start.workspace.registry anything :=
        Keeps.step (fun _ _ _ _ => .context _ _ _) fun _ _ => trivial
      obtain ⟨first, _⟩ := opens _ _ _ _ suits closed (.refl _) opened
      have words : ∀ name ∈ names.map (·.value), isWord name = true := by
        intro name among
        obtain ⟨token, inNames, rfl⟩ := List.mem_map.mp among
        exact formed.1 token inNames
      obtain ⟨inside, admits⟩ := decls_declares body formed.2 _ _ _ _ suits
        (first.closed.enterScopes (names.map (·.value)) context) checked
      exact ⟨first.thenExtends ⟨law.namedScopes words inside.declares, inside.grows,
        inside.closed.leaveScopes middle (names.map (·.value))⟩, admits⟩
  | importModule path span => exact importModule_declares path span
  | expression value span => exact fun _ _ _ _ _ _ gives => absurd gives gives_reject
  | block body => exact fun _ _ _ _ _ _ gives => absurd gives gives_reject
  | conditional branches otherwise? span =>
      exact fun _ _ _ _ _ _ gives => absurd gives gives_reject
  | whileLoop condition body span => exact fun _ _ _ _ _ _ gives => absurd gives gives_reject
  | forLoop initial? condition? iteration? body span =>
      exact fun _ _ _ _ _ _ gives => absurd gives gives_reject
  | breakLoop span => exact fun _ _ _ _ _ _ gives => absurd gives gives_reject
  | returnValue value? span => exact fun _ _ _ _ _ _ gives => absurd gives gives_reject
termination_by structural source

theorem decls_declares (sources : List Stmt) (formed : Stmt.allWellFormed sources = true)
    : (decls sources).Declares law TypedDecl.typesOf TypedDecl.allExprs := by
  cases sources with
  | nil =>
      intro setting before typed after suits closed gives
      obtain ⟨rfl, rfl⟩ := gives_pure.mp gives
      exact ⟨(BuildState.Advances.refl closed).extend, .nil⟩
  | cons first rest =>
      simp only [Stmt.allWellFormed, Bool.and_eq_true] at formed
      intro setting before typed after suits closed gives
      obtain ⟨_, _, checked, later⟩ := gives_bind.mp gives
      obtain ⟨_, _, checkedRest, last⟩ := gives_bind.mp later
      obtain ⟨rfl, rfl⟩ := gives_pure.mp last
      obtain ⟨start, admits⟩ := decl_declares first formed.1 _ _ _ _ suits closed checked
      obtain ⟨further, others⟩ := decls_declares rest formed.2 _ _ _ _ suits start.closed
        checkedRest
      exact ⟨start.trans further, .append (admits.mono further.grows) others⟩
termination_by structural sources

end

end Build

/-- A workspace with a built script comes from another one when it advances from it with the types
of the script, when what the script exports and its function called `main` are known, and when the
expressions in the script are admitted.
-/
structure Workspace.Builds {basis : Prelude} (law : DeclLaw basis) (before : Workspace)
    (built : BuiltScript) (after : Workspace)
    : Prop where
  loads : before.Advances basis (law.loads · built.scriptUnit.types ·) after
  exports : built.exports.Closed after.registry
  main : ∀ main, built.main? = some main → after.registry.KnowsNamed "main" main
  admits : after.registry.AdmitsAll basis.builtins built.scriptUnit.exprs

/-- A script that is checked loads the types that its checked form tells, if its neighbours obey
the law.
-/
theorem ScriptUnit.build_loads {basis : Prelude} (law : DeclLaw basis) {neighbours : Neighbours}
    (obey : neighbours.Obey basis law.load) {scriptUnit : ScriptUnit}
    (formed : Stmt.allWellFormed scriptUnit.body = true) {before after : Workspace}
    (closed : before.Closed basis) {built : BuiltScript}
    (gives : scriptUnit.build basis.builtins basis.symbols neighbours before = (some built, after))
    : before.Builds law built after := by
  unfold ScriptUnit.build at gives
  cases outcome : (Build.decls scriptUnit.body).run ⟨basis.builtins, neighbours⟩
      ⟨before, basis.symbols, basis.builtins.globalContext, [], [], 0⟩ with
  | mk decls? state =>
      simp only [OptionT.run, StateT.run, outcome] at gives
      cases decls? with
      | none => exact nomatch gives
      | some decls =>
          cases gives
          have start : BuildState.Closed basis
              ⟨before, basis.symbols, basis.builtins.globalContext, [], [], 0⟩ :=
            ⟨closed, closed.begins,
              (fun _ absent => nomatch absent), fun _ absent => nomatch absent⟩
          obtain ⟨built, admits⟩ := Build.decls_declares scriptUnit.body formed _ _ _ _
            ⟨rfl, obey⟩ start outcome
          refine ⟨⟨law.script built.declares, built.grows, fun _ => built.closed.workspace⟩,
            built.closed.symbols.collectExports,
            fun main called => ?_, admits⟩
          obtain ⟨_, ⟨⟩, known⟩ := built.closed.symbols.functions.find? called
          exact known

end BuildScript
