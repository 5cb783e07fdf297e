import BuildScript.Proofs.Typed.Success

/-! How checks are made. Every check is made of those that cannot fail and tell nothing, of errors
with the notes that explain them, and of questions to neighbours. So what these keep is kept by all
checks, whether or not they succeed.
-/

namespace BuildScript

/-- (Neighbours.Asks neighbours step failed) says that a step asks one of the neighbours, and when
the neighbour is not reached.
-/
inductive Neighbours.Asks (neighbours : Neighbours)
    : {α : Type} → StateM Workspace α → (α → Prop) → Prop where
  | importModule (name : String) (span : Span)
      : Asks neighbours (neighbours.importModule name span) (· = .none)
  | addDirectory (name : String) (span : Span)
      : Asks neighbours (neighbours.addDirectory name span) (· = .failed)
  | addComponentFile (name : String) (span : Span)
      : Asks neighbours (neighbours.addComponentFile name span) (· = .none)

namespace Build

variable {α β : Type} {setting : BuildSetting}

/-- Checks that cannot fail, and that change at most the registry of a workspace. -/
def Succeeds (action : Build α) (setting : BuildSetting) : Prop :=
  ∀ before, ∃ value after, Gives action setting before value after
    ∧ after.workspace = { before.workspace with registry := after.workspace.registry }

/-- Checks that fail and tell notes only. -/
def Explains (action : Build α) (setting : BuildSetting) : Prop :=
  ∀ before, ∃ after told, action setting before = (none, after)
    ∧ after.workspace =
        { before.workspace with diagnostics := before.workspace.diagnostics ++ told }
    ∧ ∀ note ∈ told, note.severity = Severity.note

/-- (Made setting action) says how a check is made of others. Of two checks in a row, the second one
may be made in any way for what the first one cannot give.
-/
inductive Made (setting : BuildSetting) : {α : Type} → Build α → Prop where
  | quiet {α : Type} {action : Build α} (succeeds : action.Succeeds setting) : Made setting action
  | bindGiven {α β : Type} {action : Build α} {next : α → Build β} (first : Made setting action)
      (later : ∀ value, (∃ before middle, Gives action setting before value middle) →
        Made setting (next value))
      : Made setting (action >>= next)
  | explained {α : Type} (problem : Problem) (span : Span) {next : Build α}
      (explains : next.Explains setting)
      : Made setting (onWorkspace (Workspace.reportError problem span) >>= fun _ => next)
  | ask {α β : Type} {step : StateM Workspace α} {failed : α → Prop} {next : α → Build β}
      (asks : setting.neighbours.Asks step failed)
      (rejects : ∀ value, failed value → ∃ problem span, next value = Build.reject problem span)
      (later : ∀ value, ¬ failed value → Made setting (next value))
      : Made setting (onWorkspace step >>= next)
  | entering {α : Type} (change : BuildState → BuildState) (action : BuildState → Build α)
      (silent : ∀ state, (change state).workspace = state.workspace)
      (made : ∀ state, Made setting (action state))
      : Made setting (do
          let before ← MonadState.get
          MonadStateOf.set (change before)
          action before)

namespace Made

-----------------------------------------------------------------------------------------
-- Combining
-----------------------------------------------------------------------------------------

theorem bind_some {action : Build α} {next : α → Build β} {before middle : BuildState} {value : α}
    (gives : Gives action setting before value middle)
    : (action >>= next) setting before = next value setting middle := by
  have outcome : action setting before = (some value, middle) := gives
  simp only [Bind.bind, ReaderT.bind, OptionT.bind, OptionT.mk, StateT.bind, outcome]

theorem bind_none {action : Build α} {next : α → Build β} {before after : BuildState}
    (fails : action setting before = (none, after))
    : (action >>= next) setting before = (none, after) := by
  simp only [Bind.bind, ReaderT.bind, OptionT.bind, OptionT.mk, StateT.bind, fails]
  rfl

/-- A step on the workspace gives what it gives there. -/
theorem gives_step (step : StateM Workspace α) (before : BuildState)
    : Gives (onWorkspace step) setting before (step before.workspace).1
        { before with workspace := (step before.workspace).2 } :=
  gives_onWorkspace.mpr ⟨_, rfl, rfl⟩

theorem bind {action : Build α} {next : α → Build β} (first : action.Made setting)
    (later : ∀ value, (next value).Made setting)
    : (action >>= next).Made setting :=
  first.bindGiven fun value _ => later value

theorem pure (value : α) : (Pure.pure value : Build α).Made setting :=
  quiet fun before => ⟨value, before, gives_pure.mpr ⟨rfl, rfl⟩, rfl⟩

theorem map {action : Build α} (change : α → β) (made : action.Made setting)
    : (change <$> action).Made setting := by
  rw [← bind_pure_comp]
  exact made.bind fun value => pure (change value)

theorem ite {condition : Prop} [Decidable condition] {whenTrue whenFalse : Build α}
    (first : whenTrue.Made setting) (second : whenFalse.Made setting)
    : (if condition then whenTrue else whenFalse).Made setting := by
  split
  · exact first
  · exact second

/-- One of two checks, followed by a third one. -/
theorem eitherThen {condition : Prop} [Decidable condition] {whenTrue whenFalse : Build α}
    {next : α → Build β} (first : whenTrue.Made setting) (second : whenFalse.Made setting)
    (later : ∀ value, (next value).Made setting)
    : (if condition then whenTrue >>= next else whenFalse >>= next).Made setting :=
  ite (first.bind later) (second.bind later)

theorem optionMapM {action : α → Build β} (made : ∀ value, (action value).Made setting)
    (value? : Option α)
    : (value?.mapM action).Made setting := by
  cases value? with
  | none => exact pure none
  | some value => exact (made value).map some

/-- Checks of the elements of a list, by induction over the list. -/
theorem mapM {action : α → Build β} (values : List α)
    (made : ∀ value ∈ values, (action value).Made setting)
    : (values.mapM action).Made setting := by
  induction values with
  | nil => exact pure []
  | cons value rest ih =>
      rw [List.mapM_cons]
      refine (made value (.head _)).bind fun first => ?_
      exact (ih fun value among => made value (.tail _ among)).bind fun others => pure _

-----------------------------------------------------------------------------------------
-- Changing, looking and failing
-----------------------------------------------------------------------------------------

theorem read : (MonadReaderOf.read : Build BuildSetting).Made setting :=
  quiet fun before => ⟨setting, before, gives_read.mpr ⟨rfl, rfl⟩, rfl⟩

theorem get : (MonadState.get : Build BuildState).Made setting :=
  quiet fun state => ⟨state, state, gives_get.mpr ⟨rfl, rfl⟩, rfl⟩

theorem builtins : Build.builtins.Made setting :=
  quiet fun before => ⟨_, before, gives_builtins.mpr ⟨rfl, rfl⟩, rfl⟩

theorem registry : Build.registry.Made setting :=
  quiet fun before => ⟨_, before, gives_registry.mpr ⟨rfl, rfl⟩, rfl⟩

theorem symbols : Build.symbols.Made setting :=
  quiet fun before => ⟨_, before, gives_symbols.mpr ⟨rfl, rfl⟩, rfl⟩

theorem onRegistry (change : Registry → α × Registry) : (Build.onRegistry change).Made setting :=
  quiet fun _ => ⟨_, _, gives_onRegistry.mpr ⟨_, rfl, rfl⟩, rfl⟩

theorem modifyRegistry (change : Registry → Registry)
    : (Build.modifyRegistry change).Made setting :=
  onRegistry _

theorem generateIndex : Build.generateIndex.Made setting := onRegistry _

theorem modified (change : BuildState → BuildState)
    (silent : ∀ state, (change state).workspace = state.workspace)
    : (modify change : Build Unit).Made setting :=
  quiet fun before => ⟨(), _, gives_modify.mpr rfl, by rw [silent]⟩

theorem modifySymbols (change : Symbols → Symbols) : (Build.modifySymbols change).Made setting :=
  modified _ fun _ => rfl

theorem noteReturn (type : TypeId) (span : Span) : (Build.noteReturn type span).Made setting :=
  modified _ fun _ => rfl

theorem isVoid (id : TypeId) : (Build.isVoid id).Made setting := registry.bind fun _ => pure _

theorem isConvertible (target : TypeId) (value : TypedExpr)
    : (Build.isConvertible target value).Made setting :=
  registry.bind fun _ => pure _

theorem failure_explains : (failure : Build α).Explains setting :=
  fun before => ⟨before, [], rfl, by rw [List.append_nil], fun _ absent => by cases absent⟩

theorem registry_explains {next : Registry → Build α}
    (explains : ∀ registry, (next registry).Explains setting)
    : (Build.registry >>= next).Explains setting := by
  intro before
  rw [bind_some (gives_registry.mpr ⟨rfl, rfl⟩)]
  exact explains _ before

theorem note_explains (problem : Problem) (span : Span) {next : Build α}
    (explains : next.Explains setting)
    : (note problem span >>= fun _ => next).Explains setting := by
  intro before
  have told : Gives (note problem span) setting before ()
      { before with workspace := { before.workspace with
          diagnostics := before.workspace.diagnostics ++ [Diagnostic.note problem span] } } := rfl
  obtain ⟨after, rest, failed, same, notes⟩ := explains _
  refine ⟨after, Diagnostic.note problem span :: rest, ?_, ?_, ?_⟩
  · rw [bind_some told]
    exact failed
  · rw [same, List.append_assoc]
    rfl
  · exact List.forall_mem_cons.mpr ⟨rfl, notes⟩

/-- A note for each element of a list, by induction over the list. -/
theorem notes_explain (problem : β → Problem) (span : β → Span) {next : Build α}
    (explains : next.Explains setting) (elements : List β)
    : Explains
        ((forIn elements PUnit.unit fun element _ => do
            note (problem element) (span element)
            return .yield PUnit.unit) >>= fun _ => next)
        setting := by
  induction elements with
  | nil => exact explains
  | cons element rest ih =>
      rw [List.forIn_cons, bind_assoc, bind_assoc]
      exact note_explains _ _ ih

theorem reject (problem : Problem) (span : Span)
    : (Build.reject problem span : Build α).Made setting :=
  explained problem span failure_explains

-----------------------------------------------------------------------------------------
-- Types and casts
-----------------------------------------------------------------------------------------

/-- The instance of a generic type, by induction over the type. -/
theorem genericType (type : TypeExpr) : (Build.genericType type).Made setting := by
  induction type using Build.genericType.induct with
  | case1 isReference span head family argument generic type named =>
      rename_i ih
      rw [Build.genericType]
      · rw [if_pos generic]
        refine ih.bind fun value => builtins.bind fun b => registry.bind fun registry => ?_
        exact ite (reject _ _) (onRegistry _)
      · exact family
      · exact named
  | case2 isReference span head family argument plain type =>
      rename_i named
      rw [Build.genericType]
      · rw [if_neg plain]
        refine symbols.bind fun symbols => ?_
        split
        · refine (pure _).bind fun value => builtins.bind fun b => registry.bind fun registry => ?_
          exact ite (reject _ _) (onRegistry _)
        · exact (reject _ _).bind fun value => builtins.bind fun b =>
            registry.bind fun registry => ite (reject _ _) (onRegistry _)
      · exact family
      · exact named
  | case3 generics isReference span head family several type =>
      rename_i named
      rw [Build.genericType]
      · exact reject _ _
      · exact family
      · exact named
      · exact several
  | case4 names generics isReference span type =>
      rename_i unnamed
      rw [Build.genericType]
      · exact symbols.bind fun symbols => ite (reject _ _) (reject _ _)
      · exact unnamed

theorem namedType (type : TypeExpr) {next : TypeId → Build TypeId}
    (later : ∀ id, (next id).Made setting)
    : Made setting
        (if type.isGeneric then Build.genericType type.withoutReference >>= next
          else do
            match (← Build.symbols).types.find? type.path with
            | some id => Pure.pure id >>= next
            | none =>
              Build.reject (.typeNotFound type.withoutReference.text) type.span >>= next) := by
  refine ite ((genericType _).bind later) (symbols.bind fun symbols => ?_)
  split
  · exact (pure _).bind later
  · exact (reject _ _).bind later

theorem resolveType (type : TypeExpr) : (Build.resolveType type).Made setting := by
  unfold Build.resolveType
  split
  · exact namedType type fun id => onRegistry _
  · exact namedType type fun id => pure id

mutual

/-- Making an expression fit a type, by induction over the expression. -/
theorem fit (target : TypeId) (value : TypedExpr)
    : (Build.fit target value).Made setting := by
  cases value with
  | mk kind type span =>
      rw [Build.fit]
      refine registry.bind fun registry => ite ?_ (ite (pure _) (pure _))
      split
      · next fields =>
          refine ite ((fitFields _ [] fields).bind fun _ => pure _) ?_
          exact builtins.bind fun _ => reject _ _
      · exact pure _

/-- Binding initialisers to the members of a class, by induction over them. -/
theorem fitFields (object : TypeId) (seen : List Nat) (fields : List PendingField)
    : (Build.fitFields object seen fields).Made setting := by
  cases fields with
  | nil =>
      rw [Build.fitFields]
      exact pure _
  | cons first rest =>
      cases first with
      | mk name value span =>
          rw [Build.fitFields]
          refine registry.bind fun registry => ?_
          split
          · exact reject _ _
          · next member found =>
              refine ite (reject _ _) ((isConvertible _ _).bind fun _ =>
                ite ?_ (reject _ _))
              exact (fit member.type value).bind fun _ =>
                (fitFields object (member.index :: seen) rest).bind fun _ => pure _

end

/-- Making arguments fit parameters, by induction over the parameters. -/
theorem fitArguments (params : List Param) (arguments : List TypedExpr)
    : (Build.fitArguments params arguments).Made setting := by
  induction params generalizing arguments with
  | nil => exact pure _
  | cons param params ih =>
      cases arguments with
      | nil => exact pure _
      | cons argument arguments =>
          exact (fit _ _).bind fun _ => (ih arguments).bind fun _ => pure _

theorem fitCondition (condition : TypedExpr)
    : (Build.fitCondition condition).Made setting :=
  builtins.bind fun _ => registry.bind fun _ => ite (fit _ _) (reject _ _)

-----------------------------------------------------------------------------------------
-- Calls
-----------------------------------------------------------------------------------------

theorem chooseFunction (groups : List (List FunctionId)) (arguments : List TypedExpr)
    (name : String) (span : Span)
    : (Build.chooseFunction groups arguments name span).Made setting := by
  refine registry.bind fun registry => ?_
  split
  · exact pure _
  · exact reject _ _
  · exact explained _ _ (notes_explain _ _ failure_explains _)

theorem returnType (function : FunctionId) (span : Span)
    : (Build.returnType function span).Made setting := by
  refine registry.bind fun registry => ?_
  split
  · exact pure _
  · exact get.bind fun _ => ite (reject _ _) (reject _ _)

theorem fitCall (function : FunctionId) (arguments : List TypedExpr)
    : (Build.fitCall function arguments).Made setting :=
  registry.bind fun _ => fitArguments _ _

theorem memberFunction (groups : List (List FunctionId)) (arguments : List TypedExpr)
    (name : String) (span : Span)
    : (Build.memberFunction groups arguments name span).Made setting :=
  (chooseFunction _ _ _ _).bind fun _ => (returnType _ _).bind fun _ =>
    (fitCall _ _).bind fun _ => pure _

theorem construction (type : TypeId) (arguments : List TypedExpr) (span : Span)
    : (Build.construction type arguments span).Made setting := by
  refine registry.bind fun registry => ?_
  dsimp only
  split
  · exact ite (pure _) (reject _ _)
  · exact (chooseFunction _ _ _ _).bind fun _ => (fitCall _ _).bind fun _ => pure _

theorem functionCall (function : FunctionId) (arguments : List TypedExpr) (span : Span)
    : (Build.functionCall function arguments span).Made setting :=
  (returnType _ _).bind fun _ => (fitCall _ _).bind fun _ =>
    registry.bind fun _ => pure _

theorem addedDirectory (directory : String) (arguments : List TypedExpr) (span : Span)
    : (Build.addedDirectory directory arguments span).Made setting := by
  refine read.bindGiven fun current reads => ?_
  obtain ⟨before, middle, gives⟩ := reads
  obtain ⟨rfl, _⟩ := gives_read.mp gives
  refine ask (.addDirectory directory span)
    (fun content failed => ?_) fun content reached => ?_
  · rw [failed]
    exact ⟨_, _, rfl⟩
  · cases content with
    | script main =>
        exact (chooseFunction _ _ _ _).bind fun _ => (returnType _ _).bind fun _ =>
          (fitCall _ _).bind fun _ => pure _
    | component creation => exact (returnType _ _).bind fun _ => pure _
    | listfile => exact builtins.bind fun _ => pure _
    | failed => exact absurd rfl reached

theorem addedComponentFile (file : String) (span : Span)
    : (Build.addedComponentFile file span).Made setting := by
  refine read.bindGiven fun current reads => ?_
  obtain ⟨before, middle, gives⟩ := reads
  obtain ⟨rfl, _⟩ := gives_read.mp gives
  refine ask (.addComponentFile file span)
    (fun creation? failed => ?_) fun creation? reached => ?_
  · rw [failed]
    exact ⟨_, _, rfl⟩
  · cases creation? with
    | none => exact absurd rfl reached
    | some creation => exact (returnType _ _).bind fun _ => pure _

-----------------------------------------------------------------------------------------
-- Names and operators
-----------------------------------------------------------------------------------------

theorem identifier (path : List String) (span : Span)
    : (Build.identifier path span).Made setting := by
  refine symbols.bind fun symbols => ?_
  dsimp only
  split
  · exact pure _
  · exact pure _
  · exact reject _ _

theorem binary (operator : Token) (lhs rhs : TypedExpr) (span : Span)
    : (Build.binary operator lhs rhs span).Made setting := by
  refine registry.bind fun registry => ?_
  split
  · exact reject _ _
  · refine (memberFunction _ _ _ _).bindGiven fun call gives => ?_
    obtain ⟨before, middle, given⟩ := gives
    obtain ⟨function, type, fitted⟩ := call
    obtain ⟨operand, rfl⟩ := List.length_eq_one_iff.mp (length_memberFunction given)
    exact pure _

theorem unary (operator : Token) (operand : TypedExpr) (span : Span)
    : (Build.unary operator operand span).Made setting := by
  refine registry.bind fun registry => ?_
  dsimp only
  split
  · exact reject _ _
  · exact (chooseFunction _ _ _ _).bind fun _ =>
      (returnType _ _).bind fun _ => pure _

theorem ternary (condition whenTrue whenFalse : TypedExpr) (span : Span)
    : (Build.ternary condition whenTrue whenFalse span).Made setting :=
  registry.bind fun _ => ite (pure _) (ite
    ((fit _ _).bind fun _ => (fit _ _).bind fun _ => pure _)
    (reject _ _))

theorem memberAccess (object : TypedExpr) (name : Token) (span : Span)
    : (Build.memberAccess object name span).Made setting := by
  refine registry.bind fun registry => ?_
  split
  · exact pure _
  · exact reject _ _

theorem listValue (values : List TypedExpr) (span : Span)
    : (Build.listValue values span).Made setting := by
  cases values with
  | nil => exact reject _ _
  | cons first rest =>
      refine builtins.bind fun _ => registry.bind fun _ => ite ?_ (reject _ _)
      exact (onRegistry _).bind fun _ =>
        (mapM (first :: rest) fun value _ => fit _ _).bind fun _ => pure _

-----------------------------------------------------------------------------------------
-- Expressions
-----------------------------------------------------------------------------------------

theorem literalName (function : String) (arguments : List Expr) (span : Span)
    : (Build.literalName function arguments span).Made setting := by
  unfold Build.literalName
  split
  · exact pure _
  · exact reject _ _

theorem callTarget (callee : TypeExpr) (arguments : List Expr) (span : Span)
    : (Build.callTarget callee arguments span).Made setting := by
  refine ite ((resolveType _).bind fun _ => registry.bind fun _ => pure _)
    (ite ((literalName _ _ _).bind fun _ => pure _)
      (ite ((literalName _ _ _).bind fun _ => pure _) (symbols.bind fun symbols => ?_)))
  split
  · exact registry.bind fun _ => pure _
  · dsimp only
    split
    · exact reject _ _
    · exact pure _

/-- A callee that is a directory is given a name. -/
theorem callTarget_directory {callee : TypeExpr} {arguments : List Expr} {span : Span}
    {name : String} {before after : BuildState}
    (gives : Gives (Build.callTarget callee arguments span) setting before (.directory name) after)
    : arguments ≠ [] := by
  rintro rfl
  unfold Build.callTarget at gives
  split at gives
  · simp only [gives_bind, gives_pure] at gives
    obtain ⟨_, _, _, _, _, _, other, _⟩ := gives
    cases other
  · split at gives
    · simp [Build.literalName] at gives
    · split at gives
      · simp [Build.literalName] at gives
      · simp only [gives_bind] at gives
        obtain ⟨names, middle, _, gives⟩ := gives
        split at gives
        · simp only [gives_bind, gives_pure] at gives
          obtain ⟨_, _, _, other, _⟩ := gives
          cases other
        · split at gives
          · exact gives_reject gives
          · cases (gives_pure.mp gives).1

mutual

/-- The check of an expression, by induction over the expression. -/
theorem expr (value : Expr)
    : (Build.expr value).Made setting := by
  cases value with
  | bool value span => rw [Build.expr]; exact builtins.bind fun _ => pure _
  | int value span => rw [Build.expr]; exact builtins.bind fun _ => pure _
  | double value span => rw [Build.expr]; exact builtins.bind fun _ => pure _
  | string value span => rw [Build.expr]; exact builtins.bind fun _ => pure _
  | id names span => rw [Build.expr]; exact identifier _ _
  | binary operator lhs rhs span =>
      rw [Build.expr]
      exact (expr lhs).bind fun _ => (expr rhs).bind fun _ => binary _ _ _ _
  | unary operator operand span =>
      rw [Build.expr]
      exact (expr operand).bind fun _ => unary _ _ _
  | ternary condition whenTrue whenFalse span =>
      rw [Build.expr]
      exact (expr condition).bind fun _ => (fitCondition _).bind fun _ =>
        (expr whenTrue).bind fun _ => (expr whenFalse).bind fun _ =>
          ternary _ _ _ _
  | member object name span =>
      rw [Build.expr]
      exact (expr object).bind fun _ => memberAccess _ _ _
  | call callee arguments span =>
      rw [Build.expr]
      refine (callTarget _ _ _).bindGiven fun target meant => ?_
      cases target with
      | directory name =>
          obtain ⟨before, middle, meant⟩ := meant
          cases arguments with
          | nil => exact absurd rfl (callTarget_directory meant)
          | cons first rest => exact (exprs rest).bind fun _ => addedDirectory _ _ _
      | componentFile name => exact addedComponentFile _ _
      | constructor type => exact (exprs arguments).bind fun _ => construction _ _ _
      | functions groups name =>
          exact (exprs arguments).bind fun _ =>
            (chooseFunction _ _ _ _).bind fun _ => functionCall _ _ _
  | memberCall object name arguments span =>
      rw [Build.expr]
      refine (expr object).bind fun _ => registry.bind fun _ => ?_
      split
      · exact reject _ _
      · exact (exprs arguments).bind fun _ =>
          (memberFunction _ _ _ _).bind fun _ => pure _
  | list values span =>
      rw [Build.expr]
      exact (exprs values).bind fun _ => listValue _ _
  | designated fields span =>
      rw [Build.expr]
      exact (fieldInits fields).bind fun _ => builtins.bind fun _ => pure _

/-- The check of several expressions, by induction over them. -/
theorem exprs (values : List Expr)
    : (Build.exprs values).Made setting := by
  cases values with
  | nil => rw [Build.exprs]; exact pure _
  | cons first rest =>
      rw [Build.exprs]
      exact (expr first).bind fun _ => (exprs rest).bind fun _ => pure _

/-- The check of initialisers, by induction over them. -/
theorem fieldInits (fields : List FieldInit)
    : (Build.fieldInits fields).Made setting := by
  cases fields with
  | nil => rw [Build.fieldInits]; exact pure _
  | cons first rest =>
      cases first with
      | mk name value =>
          rw [Build.fieldInits]
          exact (expr value).bind fun _ => (fieldInits rest).bind fun _ => pure _

end

-----------------------------------------------------------------------------------------
-- Scopes
-----------------------------------------------------------------------------------------

theorem inLocalScope {body : Build α} (made : body.Made setting)
    : (Build.inLocalScope body).Made setting :=
  (modifySymbols _).bind fun _ => made.bind fun _ => (modifySymbols _).bind fun _ => pure _

theorem inLoop {body : Build α} (made : body.Made setting)
    : (Build.inLoop body).Made setting :=
  (modified _ (by intro _; rfl)).bind fun _ => made.bind fun _ =>
    (modified _ (by intro _; rfl)).bind fun _ => pure _

theorem inNamedScopes {names : List String} {context : ContextId} {body : Build α}
    (made : body.Made setting)
    : (Build.inNamedScopes names context body).Made setting :=
  entering
    (fun before => { before with
      symbols := names.foldl (fun symbols name => symbols.enterNamed name false) before.symbols
      namespaces := before.namespaces ++ names
      context })
    _ (fun _ => rfl) fun _ => made.bind fun _ =>
      (modified _ (by intro _; rfl)).bind fun _ => pure _

theorem inFunction {function : FunctionId} {body : Build α} (made : body.Made setting)
    : (Build.inFunction function body).Made setting :=
  entering
    (fun before =>
      { before with openFunctions := ⟨function, []⟩ :: before.openFunctions, loopDepth := 0 })
    _ (fun _ => rfl) fun _ => made.bind fun _ => get.bind fun _ =>
      (modified _ (by intro _; rfl)).bind fun _ => pure _

-----------------------------------------------------------------------------------------
-- Variables and returns
-----------------------------------------------------------------------------------------

theorem deducedType (decl : VariableDecl) (initial? : Option TypedExpr)
    : (Build.deducedType decl initial?).Made setting := by
  cases initial? with
  | none => exact reject _ _
  | some initial =>
      exact registry.bind fun _ => ite (reject _ _) (ite (onRegistry _) (pure _))

theorem fitInitial (decl : VariableDecl) (type : TypeId) (initial? : Option TypedExpr)
    : (Build.fitInitial decl type initial?).Made setting := by
  refine registry.bind fun registry => ?_
  cases initial? with
  | none => exact ite (reject _ _) (pure _)
  | some initial =>
      exact (isConvertible _ _).bind fun _ =>
        ite ((fit _ _).bind fun _ => pure _) (reject _ _)

theorem variableDecl (decl : VariableDecl) : (Build.variableDecl decl).Made setting := by
  refine get.bind fun state => ite (reject _ _) ?_
  refine (optionMapM expr _).bind fun initial? => ?_
  refine eitherThen (deducedType _ _) (resolveType _) fun type => ?_
  refine (isVoid type).bind fun _ => ite (reject _ _) ?_
  exact (fitInitial _ _ _).bind fun _ => generateIndex.bind fun _ =>
    (modifySymbols _).bind fun _ => pure _

theorem fitReturn (expected : TypeId) (value? : Option TypedExpr) (span : Span)
    : (Build.fitReturn expected value? span).Made setting := by
  refine registry.bind fun registry => ?_
  cases value? with
  | none => exact (isVoid _).bind fun _ => ite (pure _) (reject _ _)
  | some value =>
      exact (isConvertible _ _).bind fun _ =>
        ite ((fit _ _).bind fun _ => pure _) (reject _ _)

theorem returnStmt (value? : Option TypedExpr) (span : Span)
    : (Build.returnStmt value? span).Made setting := by
  refine get.bind fun state => ?_
  split
  · exact reject _ _
  · refine registry.bind fun registry => ?_
    split
    · exact (fitReturn _ _ _).bind fun _ => pure _
    · exact builtins.bind fun _ => (noteReturn _ _).bind fun _ =>
        (optionMapM (fit _) _).bind fun _ => pure _

-----------------------------------------------------------------------------------------
-- Statements
-----------------------------------------------------------------------------------------

mutual

/-- The check of a statement, by induction over the statement. -/
theorem stmt (source : Stmt)
    : (Build.stmt source).Made setting := by
  cases source with
  | expression value span => rw [Build.stmt]; exact (expr value).bind fun _ => pure _
  | varDecl decl => rw [Build.stmt]; exact (variableDecl decl).bind fun _ => pure _
  | block body => rw [Build.stmt]; exact (block body).bind fun _ => pure _
  | conditional branches otherwise? span =>
      rw [Build.stmt]
      exact (branchList branches).bind fun _ =>
        (otherwiseBlock otherwise?).bind fun _ => pure _
  | whileLoop condition body span =>
      rw [Build.stmt]
      exact (expr condition).bind fun _ => (fitCondition _).bind fun _ =>
        (inLoop (block body)).bind fun _ => pure _
  | forLoop initial? condition? iteration? body span =>
      rw [Build.stmt]
      refine inLocalScope ((initialStmt initial?).bind fun _ => ?_)
      refine (optionMapM (fun condition => ?_) condition?).bind fun _ => ?_
      · exact (expr condition).bind fun _ => fitCondition _
      · exact (optionMapM expr iteration?).bind fun _ =>
          (inLoop (block body)).bind fun _ => pure _
  | breakLoop span =>
      rw [Build.stmt]
      exact get.bind fun _ => ite (reject _ _) (pure _)
  | returnValue value? span =>
      rw [Build.stmt]
      exact (optionMapM expr value?).bind fun _ => returnStmt _ _
  | function decl => rw [Build.stmt]; exact reject _ _
  | classDecl decl => cases decl; rw [Build.stmt]; exact reject _ _
  | enumDecl decl => rw [Build.stmt]; exact reject _ _
  | namespaceDecl names body span => rw [Build.stmt]; exact reject _ _
  | importModule path span => rw [Build.stmt]; exact reject _ _

/-- The check of several statements, by induction over them. -/
theorem stmts (sources : List Stmt)
    : (Build.stmts sources).Made setting := by
  cases sources with
  | nil => rw [Build.stmts]; exact pure _
  | cons first rest =>
      rw [Build.stmts]
      exact (stmt first).bind fun _ => (stmts rest).bind fun _ => pure _

theorem block (source : Block)
    : (Build.block source).Made setting := by
  cases source with
  | mk body span =>
      rw [Build.block]
      exact inLocalScope ((stmts body).bind fun _ => pure _)

theorem initialStmt (source? : Option Stmt)
    : (Build.initialStmt source?).Made setting := by
  cases source? with
  | none => rw [Build.initialStmt]; exact pure _
  | some source => rw [Build.initialStmt]; exact (stmt source).bind fun _ => pure _

theorem otherwiseBlock (source? : Option Block)
    : (Build.otherwiseBlock source?).Made setting := by
  cases source? with
  | none => rw [Build.otherwiseBlock]; exact pure _
  | some source => rw [Build.otherwiseBlock]; exact (block source).bind fun _ => pure _

/-- The check of the branches of a conditional, by induction over them. -/
theorem branchList (sources : List Branch)
    : (Build.branchList sources).Made setting := by
  cases sources with
  | nil => rw [Build.branchList]; exact pure _
  | cons first rest =>
      cases first with
      | mk condition body =>
          rw [Build.branchList]
          exact (expr condition).bind fun _ => (fitCondition _).bind fun _ =>
            (block body).bind fun _ => (branchList rest).bind fun _ => pure _

end

-----------------------------------------------------------------------------------------
-- Functions
-----------------------------------------------------------------------------------------

/-- Parameters, by induction over them. -/
theorem paramList (sources : List ParamDecl) : (Build.paramList sources).Made setting := by
  induction sources with
  | nil => exact pure _
  | cons first rest ih =>
      exact (resolveType _).bind fun _ => (isVoid _).bind fun _ =>
        ite (reject _ _) (generateIndex.bind fun _ => ih.bind fun _ => pure _)

theorem functionDecl (decl : FunctionDecl) : (Build.functionDecl decl).Made setting := by
  refine eitherThen (pure _) ((resolveType _).map some) fun returnType? => ?_
  refine (paramList _).bind fun params => registry.bind fun registry =>
    symbols.bind fun symbols => ?_
  dsimp only
  split
  · exact explained _ _ (note_explains _ _ failure_explains)
  · exact get.bind fun _ => (onRegistry _).bind fun _ => (modifySymbols _).bind fun _ => pure _

theorem agreedType (name : Token) (returns : List (TypeId × Span))
    : (Build.agreedType name returns).Made setting := by
  cases returns with
  | nil => exact builtins.bind fun _ => pure _
  | cons first rest =>
      exact registry.bind fun registry => ite (pure _)
        (explained _ _ (notes_explain _ _ failure_explains _))

theorem functionBody (function : FunctionId) (decl : FunctionDecl)
    : (Build.functionBody function decl).Made setting := by
  refine (inFunction (inLocalScope (registry.bind fun _ => (modifySymbols _).bind fun _ =>
    block decl.body))).bind fun result => ?_
  refine registry.bind fun registry => ?_
  dsimp only
  refine ite ?_ ?_
  · exact (agreedType _ _).bind fun _ => (modifyRegistry _).bind fun _ =>
      (modifyRegistry _).bind fun _ => pure _
  · exact (modifyRegistry _).bind fun _ => pure _

-----------------------------------------------------------------------------------------
-- Types and scripts
-----------------------------------------------------------------------------------------

theorem checkTypeName (name : Token) : (Build.checkTypeName name).Made setting := by
  refine symbols.bind fun symbols => ?_
  split
  · exact pure _
  · exact explained _ _ <| registry_explains fun _ =>
      note_explains _ _ failure_explains

theorem addDeclaredType (name : Token) (contextKind : ContextKind) (kind : TypeKind)
    (base? : Option TypeId) (exported : Bool)
    : (Build.addDeclaredType name contextKind kind base? exported).Made setting :=
  get.bind fun _ => (get.bind fun _ => pure _).bind fun _ => (onRegistry _).bind fun _ =>
    (onRegistry _).bind fun _ => (modifySymbols _).bind fun _ => pure _

theorem baseClass (type : TypeExpr) : (Build.baseClass type).Made setting :=
  (resolveType _).bind fun _ => registry.bind fun _ => ite (pure _) (reject _ _)

theorem inheritMembers (base : TypeId) : (Build.inheritMembers base).Made setting :=
  registry.bind fun _ => modifySymbols _

theorem memberVariable (object : TypeId) (decl : VariableDecl)
    : (Build.memberVariable object decl).Made setting :=
  ite (reject _ _) <| (resolveType _).bind fun _ => registry.bind fun _ =>
    (isVoid _).bind fun _ => ite (reject _ _) <| ite (reject _ _) <|
      ite (reject _ _) <| generateIndex.bind fun _ => (modifySymbols _).bind fun _ => pure _

theorem classBody (object : TypeId) (base? : Option TypeId) (members : List ClassMember)
    : (Build.classBody object base? members).Made setting := by
  have declared (fields : List VariableDecl) (functions : List FunctionDecl)
      : Made setting (do
          let filled ← fields.mapM (Build.memberVariable object)
          Build.modifyRegistry fun registry => registry.setMembers object filled
          let ids ← functions.mapM Build.functionDecl
          (ids.zip functions).mapM fun pair => Build.functionBody pair.1 pair.2) :=
    (mapM fields fun decl _ => memberVariable object decl).bind fun filled =>
      (modifyRegistry _).bind fun _ =>
        (mapM functions fun decl _ => functionDecl decl).bind fun ids =>
          mapM (ids.zip functions) fun pair _ => functionBody pair.1 pair.2
  cases base? with
  | none => exact declared _ _
  | some base => exact (inheritMembers base).bind fun _ => declared _ _

theorem classDecl (decl : ClassDecl) : (Build.classDecl decl).Made setting := by
  cases decl with
  | mk name written? members exported span =>
      exact (checkTypeName _).bind fun _ => (optionMapM baseClass _).bind fun _ =>
        (addDeclaredType _ _ _ _ _).bind fun _ => registry.bind fun _ =>
          (onRegistry _).bind fun _ => (onRegistry _).bind fun _ =>
            (inNamedScopes (classBody _ _ _)).bind fun _ => pure _

theorem enumDecl (decl : EnumDecl) : (Build.enumDecl decl).Made setting := by
  refine (checkTypeName _).bind fun _ => ?_
  split
  · exact reject _ _
  · exact builtins.bind fun _ => (addDeclaredType _ _ _ _ _).bind fun _ =>
      (modifyRegistry _).bind fun _ => symbols.bind fun _ => registry.bind fun _ =>
        (modifyRegistry _).bind fun _ => (modifySymbols _).bind fun _ => pure _

theorem importModule (path : Token) (span : Span)
    : (Build.importModule path span).Made setting := by
  refine read.bindGiven fun current reads => ?_
  obtain ⟨before, middle, gives⟩ := reads
  obtain ⟨rfl, _⟩ := gives_read.mp gives
  refine ask (.importModule path.value span)
    (fun imported? failed => ?_) fun imported? reached => ?_
  · rw [failed]
    exact ⟨_, _, rfl⟩
  · cases imported? with
    | none => exact absurd rfl reached
    | some imported =>
        refine symbols.bind fun symbols => registry.bind fun registry =>
          (modifySymbols _).bind fun _ => ?_
        split
        · exact reject _ _
        · exact pure _

mutual

/-- The check of a declaration, by induction over the declaration. -/
theorem decl (source : Stmt)
    : (Build.decl source).Made setting := by
  cases source with
  | varDecl decl => rw [Build.decl]; exact (variableDecl decl).bind fun _ => pure _
  | function decl =>
      rw [Build.decl]
      exact (functionDecl decl).bind fun _ =>
        (functionBody _ decl).bind fun _ => pure _
  | classDecl decl => rw [Build.decl]; exact classDecl decl
  | enumDecl decl => rw [Build.decl]; exact enumDecl decl
  | namespaceDecl names body span =>
      rw [Build.decl]
      exact get.bind fun _ => (onRegistry _).bind fun _ =>
        (inNamedScopes (decls body)).bind fun _ => pure _
  | importModule path span => rw [Build.decl]; exact importModule path span
  | expression value span => rw [Build.decl]; exact reject _ _
  | block body => rw [Build.decl]; exact reject _ _
  | conditional branches otherwise? span => rw [Build.decl]; exact reject _ _
  | whileLoop condition body span => rw [Build.decl]; exact reject _ _
  | forLoop initial? condition? iteration? body span => rw [Build.decl]; exact reject _ _
  | breakLoop span => rw [Build.decl]; exact reject _ _
  | returnValue value? span => rw [Build.decl]; exact reject _ _

/-- The check of several declarations, by induction over them. -/
theorem decls (sources : List Stmt)
    : (Build.decls sources).Made setting := by
  cases sources with
  | nil => rw [Build.decls]; exact pure _
  | cons first rest =>
      rw [Build.decls]
      exact (decl first).bind fun _ => (decls rest).bind fun _ => pure _

end

end Made

end Build

end BuildScript
