import BuildScript.Proofs.Typed.ExprLawfulness

/-! Laws of the checks of statements. Statements give names to variables, open and close scopes of
names, count loops and remember what is returned. They never change the meanings of types.
-/

namespace BuildScript

/-- A law of the checks of statements, which goes on from one of expressions. -/
structure StmtLaw (basis : Prelude) extends ExprLaw basis where
  names : ∀ state (symbols : Symbols), symbols.types = state.symbols.types →
    keeps state { state with symbols }
  signals : ∀ state openFunctions loopDepth,
    keeps state { state with openFunctions, loopDepth }
  localScope : ∀ {before after},
    keeps { before with symbols := before.symbols.enterLocal } after →
    keeps before { after with symbols := after.symbols.leave }

/-- The law that asks for nothing, so that checks that keep it only grow the registry. -/
def StmtLaw.growing (basis : Prelude) : StmtLaw basis where
  load _ _ := True
  keeps _ _ := True
  refl _ := trivial
  trans _ _ := trivial
  workspace _ := trivial
  report _ _ := trivial
  index _ := trivial
  reference _ _ _ := trivial
  generic _ _ _ _ := trivial
  names _ _ _ := trivial
  signals _ _ _ := trivial
  localScope _ := trivial

namespace Build

variable {α : Type} {basis : Prelude} {law : StmtLaw basis} {world : Registry}
  {post : Registry → α → Prop}

namespace Keeps

-----------------------------------------------------------------------------------------
-- Names and signals
-----------------------------------------------------------------------------------------

/-- A change of the names of other things than types keeps a law. -/
theorem modifySymbols {change : Symbols → Symbols}
    (same : ∀ symbols, (change symbols).types = symbols.types)
    (closed : ∀ later symbols, world.Grows later → symbols.Closed later →
      (change symbols).Closed later)
    : (Build.modifySymbols change).Keeps law.toExprLaw world anything := by
  intro setting before value after _ known grows gives
  rw [gives_modifySymbols.mp gives]
  exact ⟨⟨law.names before _ (same _), .refl _, known.workspace,
    closed _ _ grows known.symbols, known.functions, known.returns⟩, trivial⟩

/-- A variable of a known type gets its name. -/
theorem registerVariable (name : String) {type : TypeId} (index : Nat) (exported : Bool)
    (known : world.Knows type)
    : (Build.modifySymbols fun symbols =>
        { symbols with ids := symbols.ids.register name ⟨type, index⟩ exported }).Keeps
          law.toExprLaw world anything := by
  refine modifySymbols (fun _ => rfl) fun later symbols grows closed => ?_
  exact ⟨closed.types, closed.functions,
    closed.ids.register name exported (grows.knows known), closed.enums⟩

theorem inLocalScope {action : Build α} (keeps : action.Keeps law.toExprLaw world post)
    : (Build.inLocalScope action).Keeps law.toExprLaw world post := by
  intro setting before value after suits closed grows gives
  obtain ⟨middle, inner, rfl⟩ := gives_inLocalScope.mp gives
  have entered : BuildState.Closed basis
      { before with symbols := before.symbols.enterLocal } :=
    ⟨closed.workspace, closed.symbols.enterLocal, closed.functions, closed.returns⟩
  obtain ⟨advances, meets⟩ := keeps _ _ _ _ suits entered grows inner
  have known := advances.closed
  exact ⟨⟨law.localScope advances.keeps, advances.grows, known.workspace, known.symbols.leave,
    known.functions, known.returns⟩, meets⟩

theorem inLoop {action : Build α} (keeps : action.Keeps law.toExprLaw world post)
    : (Build.inLoop action).Keeps law.toExprLaw world post := by
  intro setting before value after suits closed grows gives
  obtain ⟨middle, inner, rfl⟩ := gives_inLoop.mp gives
  have entered : BuildState.Closed basis { before with loopDepth := before.loopDepth + 1 } :=
    ⟨closed.workspace, closed.symbols, closed.functions, closed.returns⟩
  obtain ⟨advances, meets⟩ := keeps _ _ _ _ suits entered grows inner
  have known := advances.closed
  refine ⟨⟨?_, advances.grows, known.workspace, known.symbols, known.functions, known.returns⟩,
    meets⟩
  exact law.trans (law.signals before before.openFunctions (before.loopDepth + 1))
    (law.trans advances.keeps (law.signals middle middle.openFunctions (middle.loopDepth - 1)))

theorem noteReturn {type : TypeId} (known : world.Knows type) (span : Span)
    : (Build.noteReturn type span).Keeps law.toExprLaw world anything := by
  intro setting before value after _ closed grows gives
  rw [gives_modify.mp gives]
  refine ⟨⟨law.signals before _ before.loopDepth, .refl _, closed.workspace,
    closed.symbols, ?_, ?_⟩, trivial⟩
  · intro innermost among
    cases outer : before.openFunctions with
    | nil =>
        rw [outer] at among
        exact nomatch among
    | cons first rest =>
        rw [outer] at among
        rcases List.mem_cons.mp among with rfl | inRest
        · exact closed.functions first (outer ▸ .head _)
        · exact closed.functions innermost (outer ▸ .tail _ inRest)
  · intro innermost among returned inReturns
    cases outer : before.openFunctions with
    | nil =>
        rw [outer] at among
        exact nomatch among
    | cons first rest =>
        rw [outer] at among
        rcases List.mem_cons.mp among with rfl | inRest
        · rcases List.mem_append.mp inReturns with old | new
          · exact closed.returns first (outer ▸ .head _) returned old
          · rw [List.mem_singleton.mp new]
            exact grows.knows known
        · exact closed.returns innermost (outer ▸ .tail _ inRest) returned inReturns

-----------------------------------------------------------------------------------------
-- Variables and returns
-----------------------------------------------------------------------------------------

theorem variableType {law : ExprLaw basis} (decl : VariableDecl)
    {initial? : Option TypedExpr} (admits : world.AdmitsAll basis.builtins initial?.toList)
    : (Build.variableType decl initial?).Keeps law world Registry.Knows := by
  unfold Build.variableType
  split
  · exact .deducedType decl admits
  · exact .resolveType decl.type

/-- An expression that need not be there is admitted if it is. -/
theorem optionExpr {law : ExprLaw basis} (source? : Option Expr)
    : (source?.mapM Build.expr).Keeps law world fun registry typed? =>
        registry.AdmitsAll basis.builtins typed?.toList :=
  (optionMapM fun source _ => expr source).weaken fun _ _ => .option

theorem variableDecl (decl : VariableDecl)
    : (Build.variableDecl decl).Keeps law.toExprLaw world fun registry typed =>
        registry.Knows typed.type ∧ registry.AdmitsAll basis.builtins typed.initial?.toList := by
  intro setting before typed after suits closed grows gives
  obtain ⟨initial?, evaluated, type, resolved, fitted?, fitted, initial, determined, _, fits, rfl,
    rfl⟩ := gives_variableDecl gives
  obtain ⟨first, initialAdmits⟩ := optionExpr decl.initial? _ _ _ _ suits closed (.refl _) initial
  obtain ⟨second, typeKnown⟩ := variableType decl initialAdmits _ _ _ _ suits
    first.closed (.refl _) determined
  obtain ⟨third, fittedAdmits⟩ :=
    fitInitial decl typeKnown (initialAdmits.mono second.grows) _ _ _ _
    suits second.closed (.refl _) fits
  have advances := (first.trans second).trans third
  have typeKnown := third.grows.knows typeKnown
  have named : Build.Keeps law.toExprLaw fitted.workspace.registry anything (do
      let index ← Build.generateIndex
      Build.modifySymbols fun symbols =>
        { symbols with
          ids := symbols.ids.register decl.name.value ⟨type, index⟩ decl.exported }) :=
    generateIndex.bind fun _ grown index _ =>
      registerVariable decl.name.value index decl.exported (grown.knows typeKnown)
  obtain ⟨last, _⟩ := named _ _ () _ suits advances.closed (.refl _) rfl
  exact ⟨advances.trans last, last.grows.knows typeKnown, fittedAdmits.mono last.grows⟩

/-- What is asked of a checked statement. -/
def admitsStmt (basis : Prelude) (registry : Registry) (typed : TypedStmt) : Prop :=
  registry.AdmitsAll basis.builtins typed.exprs

theorem returnStmt {value? : Option TypedExpr}
    (admits : world.AdmitsAll basis.builtins value?.toList) (span : Span)
    : (Build.returnStmt value? span).Keeps law.toExprLaw world (admitsStmt basis) := by
  refine getThen fun state grows closed => ?_
  split
  · exact reject _ _
  · next innermost rest open_ =>
      refine registryThen fun later grown closed provides => ?_
      have both := grows.trans grown
      split
      · next expected declared =>
          exact (fitReturn (closed.results _ expected declared) (admits.mono both) span).bind
            fun _ _ fitted fittedAdmits => .pure fun _ final => fittedAdmits.mono final
      · refine builtinsThen fun second growth provides => ?_
        have noted {returned : TypeId} (known : second.Knows returned)
            (fits : ∀ value, value? = some value →
              second.Fits basis.builtins returned value.type)
            : Build.Keeps law.toExprLaw second (admitsStmt basis) (do
                Build.noteReturn returned span
                return TypedStmt.returnValue (← value?.mapM (Build.fit returned)) span) := by
          refine (noteReturn known span).bind fun third further _ _ => ?_
          have fitted : (value?.mapM (Build.fit returned)).Keeps law.toExprLaw third _ :=
            optionMapM fun value given => fit (further.knows known)
              ((admits value (Option.mem_toList.mpr given)).mono
                (both.trans (growth.trans further)))
              ((fits value given).mono further.retains)
          exact fitted.bind fun _ _ _ fittedAdmits =>
            .pure fun _ final => (Registry.AdmitsAll.option fittedAdmits).mono final
        cases value? with
        | none => exact noted provides.void nofun
        | some value =>
            have known := (admits value (.head _)).known
            have decayed := closed.decayed_known (both.knows known)
            refine noted (growth.knows decayed) fun other same => ?_
            cases same
            exact (Registry.fits_decayed closed (both.knows known) (both.knows known)
              (Registry.sameType_iff.mpr rfl)).mono growth.retains

-----------------------------------------------------------------------------------------
-- Statements
-----------------------------------------------------------------------------------------

/-- A condition that is checked and made to fit is admitted. -/
theorem condition {law : ExprLaw basis} (source : Expr)
    : Keeps law world (Registry.Admits basis.builtins)
        (do Build.fitCondition (← Build.expr source)) :=
  (expr source).bind fun _ _ _ admits => fitCondition admits

mutual

/-- Checking a statement keeps every law of statements, by induction over statements. -/
theorem stmt (source : Stmt) {world : Registry}
    : (Build.stmt source).Keeps law.toExprLaw world (admitsStmt basis) := by
  cases source with
  | expression value span =>
      exact (expr value).bind fun _ _ _ admits => .pure fun _ final => .single (admits.mono final)
  | varDecl decl =>
      exact (variableDecl decl).bind fun _ _ _ given =>
        .pure fun _ final => given.2.mono final
  | block body =>
      exact (block body).bind fun _ _ _ admits =>
        .pure fun _ final => Registry.AdmitsAll.mono admits final
  | conditional branches otherwise? span =>
      refine (branchList branches).bind fun first _ typed admits => ?_
      cases otherwise? with
      | none => exact .pure fun _ final => Registry.AdmitsAll.mono admits final
      | some body =>
          simp only [otherwiseBlock, bind_assoc, pure_bind]
          exact (block body).bind fun _ grows _ bodyAdmits => .pure fun _ final =>
            Registry.AdmitsAll.append (Registry.AdmitsAll.mono admits (grows.trans final))
              (Registry.AdmitsAll.mono bodyAdmits final)
  | whileLoop condition body span =>
      exact (expr condition).bind fun _ _ _ admits => (fitCondition admits).bind fun _ _ _ fitted =>
        (block body).inLoop.bind fun _ grows _ bodyAdmits => .pure fun _ final =>
          .cons (fitted.mono (grows.trans final)) (Registry.AdmitsAll.mono bodyAdmits final)
  | forLoop initial? condition? iteration? body span =>
      have rest (later : Registry) (typed? : Option TypedStmt)
          (admits : ∀ typed, typed? = some typed → admitsStmt basis later typed)
          : Build.Keeps law.toExprLaw later (admitsStmt basis) (do
              let condition? ← condition?.mapM fun condition => do
                Build.fitCondition (← Build.expr condition)
              let iteration? ← iteration?.mapM Build.expr
              let body ← Build.inLoop (Build.block body)
              return TypedStmt.forLoop typed? condition? iteration? body span) := by
        refine (optionMapM fun source _ => condition source).bind fun _ grows _ tested => ?_
        refine (optionExpr iteration?).bind fun _ grown _ iterated => ?_
        refine (block body).inLoop.bind fun _ growth _ bodyAdmits => .pure fun _ final => ?_
        have parts := ((Registry.AdmitsAll.option tested).mono (grown.trans (growth.trans final))
          |>.append (iterated.mono (growth.trans final))).append
          (Registry.AdmitsAll.mono bodyAdmits final)
        cases typed? with
        | none => exact parts
        | some typed =>
            exact .append (Registry.AdmitsAll.mono (admits typed rfl)
              (grows.trans (grown.trans (growth.trans final)))) parts
      refine inLocalScope ?_
      cases initial? with
      | none => exact rest world none nofun
      | some initial =>
          simp only [initialStmt, bind_assoc, pure_bind]
          refine (stmt initial).bind fun later _ typed admits => rest later (some typed) ?_
          rintro _ ⟨⟩
          exact admits
  | breakLoop span =>
      refine getThen fun state _ _ => ?_
      split
      · exact reject _ _
      · exact .pure fun _ _ => .nil
  | returnValue value? span =>
      exact (optionExpr value?).bind fun _ _ _ admits => returnStmt admits span
  | function decl => exact reject _ _
  | classDecl decl =>
      cases decl with
      | mk => exact reject _ _
  | enumDecl decl => exact reject _ _
  | namespaceDecl names body span => exact reject _ _
  | importModule path span => exact reject _ _
termination_by structural source

theorem block (source : Block) {world : Registry}
    : (Build.block source).Keeps law.toExprLaw world fun registry typed =>
        registry.AdmitsAll basis.builtins typed.exprs := by
  cases source with
  | mk body span =>
      exact inLocalScope ((stmts body).bind fun _ _ _ admits =>
        .pure fun _ final => Registry.AdmitsAll.mono admits final)
termination_by structural source

theorem stmts (sources : List Stmt) {world : Registry}
    : (Build.stmts sources).Keeps law.toExprLaw world fun registry typed =>
        registry.AdmitsAll basis.builtins (TypedStmt.allExprs typed) := by
  cases sources with
  | nil => exact .pure fun _ _ => .nil
  | cons first rest =>
      exact (stmt first).bind fun _ _ _ admits => (stmts rest).bind fun _ grows _ others =>
        .pure fun _ final => .append (Registry.AdmitsAll.mono admits (grows.trans final))
          (Registry.AdmitsAll.mono others final)
termination_by structural sources

theorem branchList (sources : List Branch) {world : Registry}
    : (Build.branchList sources).Keeps law.toExprLaw world fun registry typed =>
        registry.AdmitsAll basis.builtins (TypedBranch.allExprs typed) := by
  cases sources with
  | nil => exact .pure fun _ _ => .nil
  | cons first rest =>
      cases first with
      | mk condition body =>
          refine (expr condition).bind fun _ _ _ admits => ?_
          refine (fitCondition admits).bind fun _ _ _ fitted => ?_
          refine (block body).bind fun _ grows _ bodyAdmits => ?_
          refine (branchList rest).bind fun _ grown _ others => .pure fun _ final => ?_
          have both := grown.trans final
          exact .append (.cons (fitted.mono (grows.trans both))
            (Registry.AdmitsAll.mono bodyAdmits both)) (Registry.AdmitsAll.mono others final)
termination_by structural sources

end

end Keeps

end Build

end BuildScript
