import BuildScript.Proofs.Typed.DeclLawfulness
import BuildScript.Proofs.Typed.Numbering

/-! What the checks of statements and declarations do with the numbers of identifiers. A statement
has the numbers of the variables in it, a declaration those of the variables outside of functions,
and all others are kept in the registry.
-/

namespace BuildScript

namespace Workspace.Allots

/-- A class that an earlier workspace does not know, and that has no members yet, gets the members
that are in hand.
-/
theorem setMembers {before middle : Workspace} {post : Prop}
    {allowed : Nat → Prop} {taken : List Nat} {pre : Prop}
    {object : TypeId} {members : List Member}
    (allots : before.Allots allowed taken (members.map (·.index) ++ taken) pre post middle)
    (new : ¬ before.registry.Knows object) (empty : (middle.registry.type object).members = [])
    : before.Allots allowed taken taken pre post
        { middle with registry := middle.registry.setMembers object members } := by
  have kept := (middle.registry.numbers_setMembers object members).frame taken
  refine ⟨allots.numbers.trans (numbersOf kept),
    allots.members.setMembers _ new members, fun holds among given => ?_⟩
  obtain ⟨sets, concluded⟩ := allots.sets holds (among.beforeSetMembers _ empty) given
  exact ⟨⟨sets.functions, sets.modules⟩, concluded⟩

end Workspace.Allots

namespace Build.Allots

variable {α β : Type} {allowed : Nat → Prop} {taken : List Nat} {pre : Prop} {made : α → List Nat}
  {post : α → Prop}

-----------------------------------------------------------------------------------------
-- Scopes
-----------------------------------------------------------------------------------------

/-- What was made and is known is given on. -/
theorem giving (value : α) (sets : pre → post value)
    : (Pure.pure value : Build α).Allots allowed (made value) pre made post :=
  pure value (fun _ => Nat.le_refl _) sets

theorem inLocalScope {body : Build α} (allots : body.Allots allowed taken pre made post)
    : (Build.inLocalScope body).Allots allowed taken pre made post :=
  (modifySymbols _).bind fun _ => (allots.given fun holds => holds.1).bind fun value =>
    (modifySymbols _).bind fun _ => giving value fun holds => holds.1.2

theorem inLoop {body : Build α} (allots : body.Allots allowed taken pre made post)
    : (Build.inLoop body).Allots allowed taken pre made post :=
  (modified _ (by intro _; rfl)).bind fun _ => (allots.given fun holds => holds.1).bind fun value =>
    (modified _ (by intro _; rfl)).bind fun _ => giving value fun holds => holds.1.2

theorem inNamedScopes {names : List String} {context : ContextId} {body : Build α}
    (allots : body.Allots allowed taken pre made post)
    : (Build.inNamedScopes names context body).Allots allowed taken pre made post := by
  intro setting allot before value after gives
  obtain ⟨middle, inner, rfl⟩ := gives_inNamedScopes gives
  have inside := allots setting allot _ _ _ inner
  exact inside

theorem inFunction {function : FunctionId} {body : Build α}
    (allots : body.Allots allowed taken pre made post)
    : (Build.inFunction function body).Allots allowed taken pre (fun given => made given.1)
        fun given => post given.1 := by
  intro setting allot before value after gives
  obtain ⟨middle, inner, _, rfl⟩ := gives_inFunction gives
  have inside := allots setting allot _ _ _ inner
  exact inside

-----------------------------------------------------------------------------------------
-- Variables and returns
-----------------------------------------------------------------------------------------

theorem deducedType (decl : VariableDecl) (initial? : Option TypedExpr)
    : (Build.deducedType decl initial?).Steady allowed taken pre nothing := by
  cases initial? with
  | none => exact reject _ _
  | some initial =>
      exact registry.bind fun _ => ite (reject _ _)
        (ite (onRegistrySteady fun registry => registry.allots_addReference _)
          (done _ fun _ => trivial))

theorem fitInitial (decl : VariableDecl) (type : TypeId) (initial? : Option TypedExpr)
    (sets : pre → TypedExpr.MaySetOnly allowed initial?)
    : (Build.fitInitial decl type initial?).Steady allowed taken pre
        fun fitted? => TypedExpr.MaySetOnly allowed fitted? := by
  refine registry.bind fun registry => ?_
  cases initial? with
  | none => exact ite (reject _ _) (done _ fun _ _ given => by cases given)
  | some initial =>
      refine (isConvertible _ _).bind fun _ => ite ?_ (reject _ _)
      refine (fit _ _ fun holds => sets holds.1.1 initial rfl).bind fun fitted => ?_
      exact done _ fun holds other same => Option.some.inj same ▸ holds.2

theorem variableDecl (decl : VariableDecl)
    : (Build.variableDecl decl).Allots allowed taken pre (·.index :: taken)
        fun typed => typed.SetsOnly allowed := by
  refine get.bind fun state => ite (reject _ _) ?_
  refine (optionMapM _ fun value _ => expr value).bind fun initial? => ?_
  refine eitherThen (deducedType _ _) (resolveType _) fun type => ?_
  refine (isVoid type).bind fun _ => ite (reject _ _) ?_
  exact (fitInitial _ _ _ fun holds => holds.1.1.2).bind fun _ => generateIndex.bind fun _ =>
    (modifySymbols _).bind fun _ => pure _ (fun _ => Nat.le_refl _) fun holds => holds.1.1.2

theorem fitReturn (expected : TypeId) (value? : Option TypedExpr) (span : Span)
    (sets : pre → TypedExpr.MaySetOnly allowed value?)
    : (Build.fitReturn expected value? span).Steady allowed taken pre
        fun fitted? => TypedExpr.MaySetOnly allowed fitted? := by
  refine registry.bind fun registry => ?_
  cases value? with
  | none =>
      exact (isVoid _).bind fun _ => ite (done _ fun _ _ given => by cases given) (reject _ _)
  | some value =>
      refine (isConvertible _ _).bind fun _ => ite ?_ (reject _ _)
      refine (fit _ _ fun holds => sets holds.1.1 value rfl).bind fun fitted => ?_
      exact done _ fun holds other same => Option.some.inj same ▸ holds.2

theorem returnStmt (value? : Option TypedExpr) (span : Span)
    (sets : pre → TypedExpr.MaySetOnly allowed value?)
    : (Build.returnStmt value? span).Allots allowed taken pre (fun typed => typed.declared ++ taken)
        fun typed => typed.SetsOnly allowed := by
  refine get.bind fun state => ?_
  split
  · exact reject _ _
  · refine registry.bind fun registry => ?_
    split
    · exact (fitReturn _ _ _ fun holds => sets holds.1.1).bind fun _ =>
        pure _ (fun _ => Nat.le_refl _) fun holds => holds.2
    · refine builtins.bind fun _ => (noteReturn _ _).bind fun _ => ?_
      refine (optionMapM value? fun value given => fit _ value fun holds =>
        sets holds.1.1.1.1 value given).bind fun fitted? => ?_
      exact pure _ (fun _ => Nat.le_refl _) fun holds => holds.2

-----------------------------------------------------------------------------------------
-- Statements
-----------------------------------------------------------------------------------------

mutual

/-- The check of a statement leaves the numbers of the variables in it in hand, and what it gives
sets members only, by induction over the statement.
-/
theorem stmt {taken : List Nat} {pre : Prop} (source : Stmt)
    : (Build.stmt source).Allots allowed taken pre (fun typed => typed.declared ++ taken)
        fun typed => typed.SetsOnly allowed := by
  cases source with
  | expression value span =>
      rw [Build.stmt]
      exact (expr value).bind fun _ => pure _ (fun _ => Nat.le_refl _) fun holds => holds.2
  | varDecl decl =>
      rw [Build.stmt]
      exact (variableDecl decl).bind fun _ => pure _ (fun _ => Nat.le_refl _) fun holds => holds.2
  | block body =>
      rw [Build.stmt]
      exact (block body).bind fun _ => pure _ (fun _ => Nat.le_refl _) fun holds => holds.2
  | conditional branches otherwise? span =>
      rw [Build.stmt]
      refine (branchList branches).bind fun branches => (otherwiseBlock otherwise?).bind
        fun otherwise? => pure _ (fun number => ?_) fun holds => ?_
      · cases otherwise? with
        | none => exact Nat.le_refl _
        | some body =>
            simp only [TypedStmt.declared, Option.elim_some, List.count_append]
            omega
      · cases otherwise? with
        | none => exact holds.1.2
        | some body => exact ⟨holds.1.2, holds.2 body rfl⟩
  | whileLoop condition body span =>
      rw [Build.stmt]
      exact (expr condition).bind fun _ => (fitCondition _ fun holds => holds.2).bind fun _ =>
        (inLoop (block body)).bind fun _ =>
          pure _ (fun _ => Nat.le_refl _) fun holds => ⟨holds.1.2, holds.2⟩
  | forLoop initial? condition? iteration? body span =>
      rw [Build.stmt]
      refine inLocalScope ((initialStmt initial?).bind fun initial? => ?_)
      refine (optionMapM condition? fun condition _ => (expr condition).bind fun _ =>
        fitCondition _ fun holds => holds.2).bind fun condition? => ?_
      refine (optionMapM iteration? fun iteration _ => expr iteration).bind fun iteration? => ?_
      refine (inLoop (block body)).bind fun body => pure _ (fun number => ?_) fun holds => ?_
      · cases initial? with
        | none => exact Nat.le_refl _
        | some initial =>
            simp only [TypedStmt.declared, Option.elim_some, List.count_append]
            omega
      · cases initial? with
        | none => exact ⟨holds.1.1.2, holds.1.2, holds.2⟩
        | some initial => exact ⟨holds.1.1.1.2 initial rfl, holds.1.1.2, holds.1.2, holds.2⟩
  | breakLoop span =>
      rw [Build.stmt]
      exact get.bind fun _ => ite (reject _ _) (pure _ (fun _ => Nat.le_refl _) fun _ => trivial)
  | returnValue value? span =>
      rw [Build.stmt]
      exact (optionMapM value? fun value _ => expr value).bind fun _ =>
        returnStmt _ _ fun holds => holds.2
  | function decl => rw [Build.stmt]; exact reject _ _
  | classDecl decl => cases decl; rw [Build.stmt]; exact reject _ _
  | enumDecl decl => rw [Build.stmt]; exact reject _ _
  | namespaceDecl names body span => rw [Build.stmt]; exact reject _ _
  | importModule path span => rw [Build.stmt]; exact reject _ _

/-- The check of several statements, by induction over them. -/
theorem stmts {taken : List Nat} {pre : Prop} (sources : List Stmt)
    : (Build.stmts sources).Allots allowed taken pre
        (fun typed => TypedStmt.allDeclared typed ++ taken)
        fun typed => TypedStmt.AllSetOnly allowed typed := by
  cases sources with
  | nil =>
      rw [Build.stmts]
      exact pure _ (fun _ => Nat.le_refl _) fun _ => trivial
  | cons first rest =>
      rw [Build.stmts]
      refine (stmt first).bind fun first => (stmts rest).bind fun rest =>
        pure _ (fun number => ?_) fun holds => ⟨holds.1.2, holds.2⟩
      simp only [TypedStmt.allDeclared, List.count_append]
      omega

theorem block {taken : List Nat} {pre : Prop} (source : Block)
    : (Build.block source).Allots allowed taken pre (fun typed => typed.declared ++ taken)
        fun typed => typed.SetsOnly allowed := by
  cases source with
  | mk body span =>
      rw [Build.block]
      exact inLocalScope ((stmts body).bind fun _ =>
        pure _ (fun _ => Nat.le_refl _) fun holds => holds.2)

theorem initialStmt {taken : List Nat} {pre : Prop} (source? : Option Stmt)
    : (Build.initialStmt source?).Allots allowed taken pre
        (fun typed? => typed?.elim [] TypedStmt.declared ++ taken)
        fun typed? => ∀ typed ∈ typed?, typed.SetsOnly allowed := by
  cases source? with
  | none =>
      rw [Build.initialStmt]
      exact pure _ (fun _ => Nat.le_refl _) fun _ _ given => by cases given
  | some source =>
      rw [Build.initialStmt]
      exact (stmt source).bind fun _ =>
        pure _ (fun _ => Nat.le_refl _) fun holds _ same => Option.some.inj same ▸ holds.2

theorem otherwiseBlock {taken : List Nat} {pre : Prop} (source? : Option Block)
    : (Build.otherwiseBlock source?).Allots allowed taken pre
        (fun typed? => typed?.elim [] TypedBlock.declared ++ taken)
        fun typed? => ∀ typed ∈ typed?, typed.SetsOnly allowed := by
  cases source? with
  | none =>
      rw [Build.otherwiseBlock]
      exact pure _ (fun _ => Nat.le_refl _) fun _ _ given => by cases given
  | some source =>
      rw [Build.otherwiseBlock]
      exact (block source).bind fun _ =>
        pure _ (fun _ => Nat.le_refl _) fun holds _ same => Option.some.inj same ▸ holds.2

/-- The check of the branches of a conditional, by induction over them. -/
theorem branchList {taken : List Nat} {pre : Prop} (sources : List Branch)
    : (Build.branchList sources).Allots allowed taken pre
        (fun typed => TypedBranch.allDeclared typed ++ taken)
        fun typed => TypedBranch.AllSetOnly allowed typed := by
  cases sources with
  | nil =>
      rw [Build.branchList]
      exact pure _ (fun _ => Nat.le_refl _) fun _ => trivial
  | cons first rest =>
      cases first with
      | mk condition body =>
          rw [Build.branchList]
          refine (expr condition).bind fun _ => (fitCondition _ fun holds => holds.2).bind fun _ =>
            (block body).bind fun body => (branchList rest).bind fun rest =>
              pure _ (fun number => ?_) fun holds => ⟨holds.1.1.2, holds.1.2, holds.2⟩
          simp only [TypedBranch.allDeclared, List.count_append]
          omega

end

-----------------------------------------------------------------------------------------
-- Functions
-----------------------------------------------------------------------------------------

/-- The numbers of parameters, by induction over them. -/
theorem paramList (sources : List ParamDecl)
    : (Build.paramList sources).Allots allowed taken pre
        (fun params => params.map (·.index) ++ taken) nothing := by
  induction sources generalizing taken pre with
  | nil => exact pure _ (fun _ => Nat.le_refl _) fun _ => trivial
  | cons first rest ih =>
      refine (resolveType _).bind fun type => (isVoid _).bind fun _ => ite (reject _ _) ?_
      refine generateIndex.bind fun index => ih.bind fun params =>
        pure _ (fun number => ?_) fun _ => trivial
      simp only [List.map_cons, List.count_append, List.count_cons]
      omega

theorem declareFunction (decl : FunctionDecl) (returnType? : Option TypeId)
    : (Build.declareFunction decl returnType?).Steady allowed taken pre nothing := by
  refine (paramList _).bind fun params => registry.bind fun registry =>
    symbols.bind fun symbols => ?_
  split
  · exact never (by simp)
  · refine get.bind fun state => ?_
    have added (info : FunctionInfo) (bare : info.body.declared = [])
        (quiet : ∀ allowed, info.body.SetsOnly allowed) {pre : Prop}
        : Allots allowed (info.params.map (·.index) ++ taken) pre
            (Build.onRegistry fun registry => registry.addFunction info) (fun _ => taken) nothing :=
      onRegistry fun registry => (registry.allots_addFunction info bare quiet).frame taken
    exact (added ⟨decl.name.value, params, decl.name.span, returnType?, state.context,
        .script none⟩ rfl fun _ => trivial).bind fun function =>
      (modifySymbols _).bind fun _ => done _ fun _ => trivial

theorem functionDecl (decl : FunctionDecl)
    : (Build.functionDecl decl).Steady allowed taken pre nothing := by
  have resolved : Steady allowed taken pre (some <$> Build.resolveType decl.returnType) nothing :=
    map some (resolveType _) fun _ _ _ => trivial
  rw [functionDecl_eq]
  exact eitherThen (done _ fun _ => trivial) resolved fun returnType? =>
    declareFunction decl returnType?

theorem agreedType (name : Token) (returns : List (TypeId × Span))
    : (Build.agreedType name returns).Steady allowed taken pre nothing :=
  looking fun gives => by rw [agreedType_same gives]

/-- A body has the same variables when it is made to end in a return. -/
theorem declared_endInReturn (body : TypedBlock) : (endInReturn body).declared = body.declared := by
  have appended (statements : List TypedStmt) (span : Span)
      : TypedStmt.allDeclared (statements ++ [.implicitReturn span])
          = TypedStmt.allDeclared statements := by
    induction statements with
    | nil => rfl
    | cons first rest ih => exact congrArg (first.declared ++ ·) ih
  cases body with
  | mk statements span =>
      rw [endInReturn]
      split
      · rfl
      · exact appended statements span

theorem setsOnly_endInReturn {body : TypedBlock} (sets : body.SetsOnly allowed)
    : (endInReturn body).SetsOnly allowed := by
  have appended (statements : List TypedStmt) (span : Span)
      (sets : TypedStmt.AllSetOnly allowed statements)
      : TypedStmt.AllSetOnly allowed (statements ++ [.implicitReturn span]) := by
    induction statements with
    | nil => exact ⟨trivial, trivial⟩
    | cons first rest ih => exact ⟨sets.1, ih sets.2⟩
  cases body with
  | mk statements span =>
      rw [endInReturn]
      split
      · exact sets
      · exact appended statements span sets

/-- The numbers of a body are kept with its function. -/
theorem setBody (function : FunctionId) (body : TypedBlock) (sets : pre → body.SetsOnly allowed)
    : Allots allowed (body.declared ++ taken) pre
        (Build.modifyRegistry fun registry =>
          registry.modifyFunction function fun info => { info with body := .script (some body) })
        (fun _ => taken) nothing := by
  intro setting allot before value after gives
  obtain rfl := gives_modifyRegistry.mp gives
  have kept := (before.workspace.registry.numbers_setBody function body).frame taken
  exact ⟨Workspace.Allots.numbersOf kept, fun _ known => ⟨known, rfl⟩, fun holds _ given =>
    ⟨⟨Registry.setsOnly_setBody _ given.functions function (sets holds), given.modules⟩, trivial⟩⟩

theorem checkedBody (function : FunctionId) (decl : FunctionDecl)
    : (Build.checkedBody function decl).Allots allowed taken pre
        (fun given => given.1.declared ++ taken) fun given => given.1.SetsOnly allowed := by
  have named : (Build.nameParams function).Steady allowed taken pre nothing :=
    registry.bind fun _ => modifySymbols _
  have inner : (Build.nameParams function >>= fun _ => Build.block decl.body).Allots allowed taken
      pre (fun typed => typed.declared ++ taken) fun typed => typed.SetsOnly allowed :=
    named.bind fun _ => block decl.body
  exact inFunction (inLocalScope inner)

theorem settleBody (function : FunctionId) (decl : FunctionDecl)
    (given : TypedBlock × List (TypeId × Span)) (sets : pre → given.1.SetsOnly allowed)
    : (Build.settleBody function decl given).Allots allowed (given.1.declared ++ taken) pre
        (fun _ => taken) nothing := by
  have settled {pre : Prop} (sets : pre → given.1.SetsOnly allowed)
      : Allots allowed (given.1.declared ++ taken) pre
          (do
            Build.modifyRegistry fun registry =>
              registry.modifyFunction function fun info =>
                { info with body := .script (some (endInReturn given.1)) }
            return (⟨function, endInReturn given.1, decl.span⟩ : FunctionDefinition))
          (fun _ => taken) nothing := by
    rw [← declared_endInReturn]
    exact (setBody function _ fun holds => setsOnly_endInReturn (sets holds)).bind fun _ =>
      done _ fun _ => trivial
  refine registry.bind fun registry => ite ?_ (settled fun holds => sets holds.1)
  refine (agreedType _ _).bind fun type => ?_
  have deduced {pre : Prop}
      : (Build.modifyRegistry fun registry =>
          registry.modifyFunction function fun info =>
            { info with returnType? := some type }).Steady allowed (given.1.declared ++ taken) pre
            nothing :=
    onRegistrySteady fun registry =>
      registry.allots_modifyFunction function (fun _ => rfl) fun _ => rfl
  exact deduced.bind fun _ => settled fun holds => sets holds.1.1.1

theorem functionBody (function : FunctionId) (decl : FunctionDecl)
    : (Build.functionBody function decl).Steady allowed taken pre nothing :=
  (checkedBody function decl).bind fun given => settleBody function decl given fun holds => holds.2

-----------------------------------------------------------------------------------------
-- Types and scripts
-----------------------------------------------------------------------------------------

theorem checkTypeName (name : Token)
    : (Build.checkTypeName name).Steady allowed taken pre nothing :=
  looking fun gives => by rw [(gives_checkTypeName gives).2]

theorem addDeclaredType (name : Token) (contextKind : ContextKind) (kind : TypeKind)
    (base? : Option TypeId) (exported : Bool)
    : (Build.addDeclaredType name contextKind kind base? exported).Steady allowed taken pre
        nothing :=
  get.bind fun _ => (get.bind fun _ => done _ fun _ => trivial :
      Steady _ _ _ (qualify name.value) nothing).bind fun _ =>
    (onRegistrySteady fun registry => registry.allots_addContext _ _ _).bind fun _ =>
      (onRegistrySteady fun registry => registry.allots_addType _ rfl).bind fun _ =>
        (modifySymbols _).bind fun _ => done _ fun _ => trivial

theorem baseClass (type : TypeExpr) : (Build.baseClass type).Steady allowed taken pre nothing :=
  (resolveType _).bind fun _ => registry.bind fun _ => ite (done _ fun _ => trivial) (reject _ _)

theorem memberVariable (object : TypeId) (decl : VariableDecl)
    : (Build.memberVariable object decl).Allots allowed taken pre (·.index :: taken) nothing :=
  ite (reject _ _) <| (resolveType _).bind fun _ => registry.bind fun _ =>
    (isVoid _).bind fun _ => ite (reject _ _) <| ite (reject _ _) <|
      ite (reject _ _) <| generateIndex.bind fun _ => (modifySymbols _).bind fun _ =>
        pure _ (fun _ => Nat.le_refl _) fun _ => trivial

/-- The numbers of the members of a class, by induction over their declarations. -/
theorem memberVariables (object : TypeId) (sources : List VariableDecl)
    : (sources.mapM (Build.memberVariable object)).Allots allowed taken pre
        (fun members => members.map (·.index) ++ taken) nothing := by
  induction sources generalizing taken pre with
  | nil => exact pure _ (fun _ => Nat.le_refl _) fun _ => trivial
  | cons first rest ih =>
      rw [List.mapM_cons]
      refine (memberVariable object first).bind fun member => ih.bind fun members =>
        pure _ (fun number => ?_) fun _ => trivial
      simp only [List.map_cons, List.count_append, List.count_cons]
      omega

theorem functionMembers (functions : List FunctionDecl)
    : (Build.functionMembers functions).Steady allowed taken pre nothing :=
  (mapM functions fun decl _ => functionDecl decl).bind fun declared =>
    (mapM (declared.zip functions) fun pair _ => functionBody pair.1 pair.2).weaken
      (fun holds => holds) fun _ _ _ => trivial

theorem equipClass (type : TypeId) (context : ContextId)
    : (Build.equipClass type context).Steady allowed taken pre nothing :=
  (onRegistrySteady fun registry => registry.allots_addReference type).bind fun reference =>
    (onRegistrySteady fun registry =>
      registry.allots_addBuiltin context "=" [type] reference .assignObject).bind fun _ =>
        done _ fun _ => trivial

/-- The base class of a class is made visible if there is one. -/
theorem inheritBase (base? : Option TypeId)
    : (do if let some base := base? then Build.inheritMembers base : Build Unit).Steady allowed
        taken pre nothing := by
  cases base? with
  | none => exact done () fun _ => trivial
  | some base => exact registry.bind fun _ => modifySymbols _

/-- The numbers of the global variables that a declaration has, with others. -/
abbrev globalNumbers (taken : List Nat) (typed : TypedDecl) : List Nat :=
  typed.globals.map (·.index) ++ taken

/-- (GlobalsSetOnly allowed typed) says that the values that the global variables of a declaration
begin with set members of allowed numbers only.
-/
abbrev GlobalsSetOnly (allowed : Nat → Prop) (typed : TypedDecl) : Prop :=
  ∀ decl ∈ typed.globals, decl.SetsOnly allowed

/-- A declaration without global variables has no numbers. -/
theorem doneWithout (typed : TypedDecl) (none : typed.globals = [])
    : (Pure.pure typed : Build TypedDecl).Allots allowed taken pre (globalNumbers taken)
        (GlobalsSetOnly allowed) := by
  refine pure typed (fun _ => ?_) fun _ decl among => ?_
  · rw [globalNumbers, none]
    exact Nat.le_refl _
  · rw [none] at among
    cases among

/-- The members of a class may be new numbers, since the class is new. -/
theorem declareClass (name : Token) (base? : Option TypeId) (members : List ClassMember)
    (exported : Bool) (span : Span)
    : (Build.declareClass name base? members exported span).Allots allowed taken pre
        (globalNumbers taken) (GlobalsSetOnly allowed) := by
  intro setting allot before typed after gives
  obtain ⟨type, first, added, rest⟩ := gives_bind.mp gives
  have adding : before.workspace.Allots allowed taken taken pre True first.workspace :=
    addDeclaredType _ _ _ _ _ setting allot _ _ _ added
  obtain ⟨rfl, rfl⟩ := gives_addDeclaredType added
  obtain ⟨_, _, read, rest⟩ := gives_bind.mp rest
  obtain ⟨rfl, rfl⟩ := gives_registry.mp read
  obtain ⟨_, second, equipped, rest⟩ := gives_bind.mp rest
  obtain ⟨functions, _, inner, rest⟩ := gives_bind.mp rest
  obtain ⟨rfl, rfl⟩ := gives_pure.mp rest
  obtain ⟨last, checked, rfl⟩ := gives_inNamedScopes inner
  rw [classBody_eq] at checked
  obtain ⟨_, third, inherited, checked⟩ := gives_bind.mp checked
  obtain ⟨filled, fourth, declared, checked⟩ := gives_bind.mp checked
  obtain ⟨_, fifth, changed, checked⟩ := gives_bind.mp checked
  obtain rfl := gives_modifyRegistry.mp changed
  have equipping : Workspace.Allots allowed taken taken pre True _ second.workspace :=
    equipClass _ _ setting allot _ _ _ equipped
  have inheriting : Workspace.Allots allowed taken taken pre True
      (second.enterScopes [name.value] _).workspace third.workspace :=
    inheritBase base? setting allot _ _ _ inherited
  have filling : third.workspace.Allots allowed taken (filled.map (·.index) ++ taken) pre True
      fourth.workspace :=
    memberVariables _ _ setting allot _ _ _ declared
  have following : Workspace.Allots allowed taken taken pre True _ last.workspace :=
    functionMembers _ setting allot _ _ _ checked
  have since := equipping.andThen (Workspace.Allots.andThen inheriting filling)
  have known := before.knows_addType name .classContext .object base? exported
  have empty : (fourth.workspace.registry.type ⟨before.workspace.registry.types.size⟩).members
      = [] := by
    rw [(since.members _ known).2, BuildState.type_addType, if_pos rfl]
  have whole := ((adding.andThen since).setMembers (Nat.lt_irrefl _) empty).andThen following
  exact whole.weaken id fun _ _ _ none => by cases none

theorem classDecl (decl : ClassDecl)
    : (Build.classDecl decl).Allots allowed taken pre (globalNumbers taken)
        (GlobalsSetOnly allowed) := by
  cases decl with
  | mk name written? members exported span =>
      rw [classDecl_eq]
      exact (checkTypeName name).bind fun _ =>
        (optionMapM written? fun written _ => baseClass written).bind fun base? =>
          declareClass name base? members exported span

/-- The numbers of enumerators are not needed. -/
theorem registerEnum (type : TypeId) (name : Token) (names : List String) (exported : Bool)
    {next : Build TypedDecl} {made : TypedDecl → List Nat} {final : TypedDecl → Prop}
    (later : ∀ {pre : Prop}, next.Allots allowed taken pre made final)
    : Allots allowed taken pre
        (do
          let (registry, symbols) :=
            (← Build.symbols).registerEnum (← Build.registry) name.value type names exported
          Build.modifyRegistry fun _ => registry
          Build.modifySymbols fun _ => symbols
          next)
        made final := by
  intro setting allot before typed after gives
  obtain ⟨_, _, named, rest⟩ := gives_bind.mp gives
  obtain ⟨rfl, rfl⟩ := gives_symbols.mp named
  obtain ⟨_, start, read, rest⟩ := gives_bind.mp rest
  obtain ⟨rfl, rfl⟩ := gives_registry.mp read
  obtain ⟨_, _, kept, rest⟩ := gives_bind.mp rest
  obtain rfl := gives_modifyRegistry.mp kept
  obtain ⟨_, _, registered, rest⟩ := gives_bind.mp rest
  obtain rfl := gives_modifySymbols.mp registered
  have numbered := (start.workspace.registry.allots_registerEnumerators type exported 0
    (start.symbols.enums.enterNamed name.value exported) names).frame taken
  exact (Workspace.Allots.ofRegistry numbered fun holds : pre => holds).andThen
    (later setting allot _ _ _ rest)

theorem enumDecl (decl : EnumDecl)
    : (Build.enumDecl decl).Allots allowed taken pre (globalNumbers taken)
        (GlobalsSetOnly allowed) := by
  refine (checkTypeName _).bind fun _ => ?_
  split
  · exact reject _ _
  · refine builtins.bind fun b => (addDeclaredType _ _ _ _ _).bind fun type => ?_
    have equipped {pre : Prop}
        : (Build.modifyRegistry fun registry => registry.addEnumFunctions b type).Steady allowed
            taken pre nothing :=
      onRegistrySteady fun registry => registry.allots_addEnumFunctions b type
    exact equipped.bind fun _ => registerEnum type decl.name _ _ (doneWithout _ rfl)

theorem importModule (path : Token) (span : Span)
    : (Build.importModule path span).Allots allowed taken pre (globalNumbers taken)
        (GlobalsSetOnly allowed) := by
  refine ask (· = none) (fun neighbours => neighbours.importModule path.value span) ?_ ?_ ?_
  · intro neighbours allot before imported? after outcome reached
    cases imported? with
    | none => exact absurd rfl reached
    | some imported => exact allot.importModule outcome
  · rintro _ setting before result after rfl
    exact gives_reject
  · intro imported? reached
    cases imported? with
    | none => exact absurd rfl reached
    | some imported =>
        refine symbols.bind fun symbols => registry.bind fun registry =>
          (modifySymbols _).bind fun _ => ?_
        split
        · exact reject _ _
        · exact doneWithout _ rfl

mutual

/-- The check of a declaration leaves the numbers of the global variables in it in hand, by
induction over the declaration.
-/
theorem decl {taken : List Nat} {pre : Prop} (source : Stmt)
    : (Build.decl source).Allots allowed taken pre (globalNumbers taken)
        (GlobalsSetOnly allowed) := by
  cases source with
  | varDecl decl =>
      rw [Build.decl]
      exact (variableDecl decl).bind fun typed => pure _ (fun _ => Nat.le_refl _)
        fun holds _ only => List.mem_singleton.mp only ▸ holds.2
  | function decl =>
      rw [Build.decl]
      exact (functionDecl decl).bind fun function => (functionBody function decl).bind fun _ =>
        doneWithout _ rfl
  | classDecl decl => exact classDecl decl
  | enumDecl decl => exact enumDecl decl
  | namespaceDecl names body span =>
      rw [Build.decl]
      refine get.bind fun state =>
        (onRegistrySteady fun registry => registry.allots_addContext _ _ _).bind fun context =>
          (inNamedScopes (decls body)).bind fun typed => pure _ (fun _ => Nat.le_refl _)
            fun holds => holds.2
  | importModule path span => exact importModule path span
  | expression value span => exact reject _ _
  | block body => exact reject _ _
  | conditional branches otherwise? span => exact reject _ _
  | whileLoop condition body span => exact reject _ _
  | forLoop initial? condition? iteration? body span => exact reject _ _
  | breakLoop span => exact reject _ _
  | returnValue value? span => exact reject _ _
termination_by structural source

/-- The check of several declarations, by induction over them. -/
theorem decls {taken : List Nat} {pre : Prop} (sources : List Stmt)
    : (Build.decls sources).Allots allowed taken pre
        (fun typed => (TypedDecl.globalsOf typed).map (·.index) ++ taken)
        fun typed => ∀ decl ∈ TypedDecl.globalsOf typed, decl.SetsOnly allowed := by
  cases sources with
  | nil => exact pure _ (fun _ => Nat.le_refl _) fun _ _ none => by cases none
  | cons first rest =>
      rw [Build.decls]
      refine (decl first).bind fun first => (decls rest).bind fun rest =>
        pure _ (fun number => ?_) fun holds decl among => ?_
      · simp only [TypedDecl.globalsOf, List.map_append, List.count_append]
        omega
      · exact (List.mem_append.mp among).elim (holds.1.2 decl) (holds.2 decl)
termination_by structural sources

end

end Build.Allots

end BuildScript
