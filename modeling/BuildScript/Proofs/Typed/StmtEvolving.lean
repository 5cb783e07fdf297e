import BuildScript.Proofs.Typed.Evolving

/-! The checks of expressions and statements, followed to where they end. Registries evolve by all
of them, and the types of the variables that checked statements declare are known.
-/

namespace BuildScript.Build.Runs

variable {basis : Prelude} {world : Registry}

-----------------------------------------------------------------------------------------
-- Expressions
-----------------------------------------------------------------------------------------

theorem callTarget (callee : TypeExpr) (arguments : List Expr) (span : Span)
    : (Build.callTarget callee arguments span).Runs (.evolving basis) basis world anything := by
  have literal (function : String) (target : String → CallTarget)
      : Runs (.evolving basis) basis world anything (do
          return target (← Build.literalName function arguments span)) :=
    ofLooks ((Looks.literalName function arguments span).bind fun _ => Looks.pure _)
  unfold Build.callTarget
  split
  · exact (resolveType _).bind fun _ _ _ _ => ofLooks (Looks.registry.bind fun _ => Looks.pure _)
  split
  · exact literal _ _
  split
  · exact literal _ _
  · refine ofLooks (Looks.symbols.bind fun symbols => ?_)
    split
    · exact Looks.registry.bind fun _ => Looks.pure _
    · dsimp only
      split
      · exact Looks.reject _ _
      · exact Looks.pure _

/-- The instance that a list is of is made before its elements are made to fit. -/
theorem listValue {values : List TypedExpr} (admits : world.AdmitsAll basis.builtins values)
    (span : Span)
    : (Build.listValue values span).Runs (.evolving basis) basis world anything := by
  cases values with
  | nil => exact reject _ _
  | cons first rest =>
      refine builtinsThen (registryThen fun later grows consistent _ => ?_)
      have known := grows.knows (admits first (.head _)).known
      dsimp only
      split
      · exact (addGeneric .list (consistent.toClosed.decayed_known known)).bind fun _ _ _ _ =>
          ofLooks ((Looks.mapM _ fun _ => Looks.fit _ _).bind fun _ => Looks.pure _)
      · exact reject _ _

theorem addedDirectory (directory : String) (arguments : List TypedExpr) (span : Span)
    : (Build.addedDirectory directory arguments span).Runs (.evolving basis) basis world
        anything := by
  refine readThen fun setting abide => ?_
  have asked : (Build.onWorkspace (setting.neighbours.addDirectory directory span)).Runs
      (.evolving basis) basis world anything := by
    refine onWorkspace fun before ready _ => ?_
    obtain ⟨evolves, grows, closed⟩ := abide.addDirectory directory span before ready
    exact ⟨⟨⟨evolves, grows⟩, closed⟩, trivial⟩
  refine asked.bind fun _ _ content _ => ofLooks ?_
  cases content with
  | script main =>
      exact (Looks.chooseFunction _ _ _ _).bind fun _ => (Looks.returnType _ _).bind fun _ =>
        (Looks.fitCall _ _).bind fun _ => Looks.pure _
  | component creation => exact (Looks.returnType _ _).bind fun _ => Looks.pure _
  | listfile => exact Looks.builtins.bind fun _ => Looks.pure _
  | failed => exact Looks.reject _ _

theorem addedComponentFile (file : String) (span : Span)
    : (Build.addedComponentFile file span).Runs (.evolving basis) basis world anything := by
  refine readThen fun setting abide => ?_
  have asked : (Build.onWorkspace (setting.neighbours.addComponentFile file span)).Runs
      (.evolving basis) basis world anything := by
    refine onWorkspace fun before ready _ => ?_
    obtain ⟨evolves, grows, closed⟩ := abide.addComponentFile file span before ready
    exact ⟨⟨⟨evolves, grows⟩, closed⟩, trivial⟩
  refine asked.bind fun _ _ creation? _ => ofLooks ?_
  cases creation? with
  | none => exact Looks.reject _ _
  | some creation => exact (Looks.returnType _ _).bind fun _ => Looks.pure _

mutual

/-- The check of an expression, by induction over the expression. -/
theorem expr (source : Expr) {world : Registry}
    : (Build.expr source).Runs (.evolving basis) basis world anything := by
  cases source with
  | bool value span => exact ofLooks (Looks.builtins.bind fun _ => Looks.pure _)
  | int value span => exact ofLooks (Looks.builtins.bind fun _ => Looks.pure _)
  | double value span => exact ofLooks (Looks.builtins.bind fun _ => Looks.pure _)
  | string value span => exact ofLooks (Looks.builtins.bind fun _ => Looks.pure _)
  | id names span => exact ofLooks (Looks.identifier _ _)
  | binary operator lhs rhs span =>
      exact (expr lhs).bind fun _ _ _ _ => (expr rhs).bind fun _ _ _ _ =>
        ofLooks (Looks.binary _ _ _ _)
  | unary operator operand span =>
      exact (expr operand).bind fun _ _ _ _ => ofLooks (Looks.unary _ _ _)
  | ternary condition whenTrue whenFalse span =>
      refine (expr condition).bind fun _ _ _ _ => ?_
      refine (ofLooks (Looks.fitCondition _)).bind fun _ _ _ _ => ?_
      exact (expr whenTrue).bind fun _ _ _ _ => (expr whenFalse).bind fun _ _ _ _ =>
        ofLooks (Looks.ternary _ _ _ _)
  | member object name span =>
      exact (expr object).bind fun _ _ _ _ => ofLooks (Looks.memberAccess _ _ _)
  | call callee arguments span =>
      rw [Build.expr]
      refine (callTarget callee arguments span).bind fun _ _ target _ => ?_
      cases target with
      | directory name =>
          cases arguments with
          | nil => exact ofLooks Looks.failure
          | cons first rest => exact (exprs rest).bind fun _ _ _ _ => addedDirectory _ _ _
      | componentFile name => exact addedComponentFile _ _
      | constructor type =>
          exact (exprs arguments).bind fun _ _ _ _ => ofLooks (Looks.construction _ _ _)
      | functions groups name =>
          exact (exprs arguments).bind fun _ _ _ _ =>
            ofLooks ((Looks.chooseFunction _ _ _ _).bind fun _ => Looks.functionCall _ _ _)
  | memberCall object name arguments span =>
      refine (expr object).bind fun _ _ _ _ => registryThen fun _ _ _ _ => ?_
      split
      · exact reject _ _
      · exact (exprs arguments).bind fun _ _ _ _ =>
          ofLooks ((Looks.memberFunction _ _ _ _).bind fun _ => Looks.pure _)
  | list values span =>
      exact ((exprs values).meeting (Keeps.exprs values)).bind fun _ _ _ admits =>
        listValue admits span
  | designated fields span =>
      exact (fieldInits fields).bind fun _ _ _ _ =>
        ofLooks (Looks.builtins.bind fun _ => Looks.pure _)
termination_by structural source

theorem exprs (sources : List Expr) {world : Registry}
    : (Build.exprs sources).Runs (.evolving basis) basis world anything := by
  cases sources with
  | nil => exact done _
  | cons first rest =>
      exact (expr first).bind fun _ _ _ _ => (exprs rest).bind fun _ _ _ _ => done _
termination_by structural sources

theorem fieldInits (fields : List FieldInit) {world : Registry}
    : (Build.fieldInits fields).Runs (.evolving basis) basis world anything := by
  cases fields with
  | nil => exact done _
  | cons first rest =>
      cases first with
      | mk name value =>
          exact (expr value).bind fun _ _ _ _ => (fieldInits rest).bind fun _ _ _ _ => done _
termination_by structural fields

end

/-- A checked expression is admitted. -/
theorem checkedExpr (source : Expr)
    : (Build.expr source).Runs (.evolving basis) basis world (Registry.Admits basis.builtins) :=
  (expr source).meeting (Keeps.expr source)

/-- An expression that need not be there is admitted if it is. -/
theorem optionExpr (source? : Option Expr)
    : (source?.mapM Build.expr).Runs (.evolving basis) basis world fun registry typed? =>
        registry.AdmitsAll basis.builtins typed?.toList :=
  (optionMapM fun source _ => checkedExpr source).weaken fun _ _ => .option

-----------------------------------------------------------------------------------------
-- Variables and returns
-----------------------------------------------------------------------------------------

theorem deducedType (decl : VariableDecl) {initial? : Option TypedExpr}
    (admits : world.AdmitsAll basis.builtins initial?.toList)
    : (Build.deducedType decl initial?).Runs (.evolving basis) basis world anything := by
  cases initial? with
  | none => exact reject _ _
  | some initial =>
      refine registryThen fun later grows consistent _ => ?_
      split
      · exact reject _ _
      · have known := grows.knows (admits initial (.head _)).known
        dsimp only
        split
        · exact (addReference (consistent.toClosed.decayed_known known)).forget
        · exact done _

/-- The type of a variable is known wherever the check of its declaration succeeds. -/
theorem variableDecl (decl : VariableDecl)
    : (Build.variableDecl decl).Runs (.evolving basis) basis world fun registry typed =>
        registry.Knows typed.type := by
  suffices runs : (Build.variableDecl decl).Runs (.evolving basis) basis world anything from
    runs.meeting ((Keeps.variableDecl decl).weaken fun _ _ given => given.1)
  refine getThen fun state _ _ => ?_
  split
  · exact reject _ _
  refine (optionExpr decl.initial?).bind fun first _ initial? admits => ?_
  refine eitherThen ((deducedType decl admits).meeting (Keeps.deducedType decl admits))
    (resolveType decl.type) fun second _ type known => ?_
  refine (ofLooks (Looks.isVoid type)).bind fun third grows empty _ => ?_
  split
  · exact reject _ _
  refine (ofLooks (Looks.fitInitial decl type initial?)).bind fun fourth grown fitted? _ => ?_
  refine generateIndex.bind fun last growth index _ => ?_
  have known := growth.knows (grown.knows (grows.knows known))
  exact (registerVariable decl.name.value index decl.exported known).bind fun _ _ _ _ => done _

theorem noteReturn {type : TypeId} (known : world.Knows type) (span : Span)
    : (Build.noteReturn type span).Runs (.evolving basis) basis world anything :=
  ofKeeps (fun _ _ => ⟨rfl, rfl⟩) (Keeps.noteReturn known span)

/-- Returns declare no variables. -/
theorem returnStmt {value? : Option TypedExpr}
    (admits : world.AdmitsAll basis.builtins value?.toList) (span : Span)
    : (Build.returnStmt value? span).Runs (.evolving basis) basis world fun registry typed =>
        registry.KnowsLocals typed.locals := by
  refine getThen fun state grows _ => ?_
  split
  · exact reject _ _
  refine registryThen fun later grown consistent provides => ?_
  split
  · exact (ofLooks (Looks.fitReturn _ _ _)).bind fun _ _ _ _ =>
      pure fun _ _ _ absent => nomatch absent
  refine builtinsThen ?_
  have noted {returned : TypeId} (known : later.Knows returned)
      : Runs (.evolving basis) basis later (fun registry typed => registry.KnowsLocals typed.locals)
          (do
            Build.noteReturn returned span
            return TypedStmt.returnValue (← value?.mapM (Build.fit returned)) span) :=
    (noteReturn known span).bind fun _ _ _ _ =>
      (ofLooks (Looks.optionMapM (fun _ => Looks.fit _ _) value?)).bind fun _ _ _ _ =>
        pure fun _ _ _ absent => nomatch absent
  cases value? with
  | none => exact noted provides.void
  | some value =>
      have known := (grows.trans grown).knows (admits value (.head _)).known
      exact noted (consistent.toClosed.decayed_known known)

-----------------------------------------------------------------------------------------
-- Statements
-----------------------------------------------------------------------------------------

/-- A condition declares nothing. -/
theorem condition (source : Expr)
    : Runs (.evolving basis) basis world anything (do Build.fitCondition (← Build.expr source)) :=
  (expr source).bind fun _ _ _ _ => ofLooks (Looks.fitCondition _)

mutual

/-- The check of a statement, by induction over the statement. -/
theorem stmt (source : Stmt) {world : Registry}
    : (Build.stmt source).Runs (.evolving basis) basis world fun registry typed =>
        registry.KnowsLocals typed.locals := by
  cases source with
  | expression value span =>
      exact (expr value).bind fun _ _ _ _ => pure fun _ _ _ absent => nomatch absent
  | varDecl decl =>
      refine (variableDecl decl).bind fun _ _ typed known => pure fun _ final other among => ?_
      rw [List.mem_singleton.mp among]
      exact final.knows known
  | block body =>
      exact (block body).bind fun _ _ _ known =>
        pure fun _ final => Registry.KnowsLocals.mono known final.toGrows
  | conditional branches otherwise? span =>
      refine (branchList branches).bind fun first _ typed known => ?_
      cases otherwise? with
      | none => exact pure fun _ final => Registry.KnowsLocals.mono known final.toGrows
      | some body =>
          simp only [otherwiseBlock, bind_assoc, pure_bind]
          exact (block body).bind fun _ grows _ bodyKnown => pure fun _ final =>
            (Registry.KnowsLocals.mono known (grows.trans final).toGrows).append
              (Registry.KnowsLocals.mono bodyKnown final.toGrows)
  | whileLoop source body span =>
      exact (expr source).bind fun _ _ _ _ =>
        (ofLooks (Looks.fitCondition _)).bind fun _ _ _ _ =>
          (block body).inLoop.bind fun _ _ _ known => pure fun _ final =>
            Registry.KnowsLocals.mono known final.toGrows
  | forLoop initial? condition? iteration? body span =>
      have rest (later : Registry) (typed? : Option TypedStmt)
          (known : ∀ typed, typed? = some typed → later.KnowsLocals typed.locals)
          : Runs (.evolving basis) basis later (fun registry typed =>
              registry.KnowsLocals typed.locals) (do
                let condition? ← condition?.mapM fun condition => do
                  Build.fitCondition (← Build.expr condition)
                let iteration? ← iteration?.mapM Build.expr
                let body ← Build.inLoop (Build.block body)
                return TypedStmt.forLoop typed? condition? iteration? body span) := by
        refine (optionMapM fun source _ => condition source).bind fun _ grows _ _ => ?_
        refine (optionExpr iteration?).bind fun _ grown _ _ => ?_
        refine (block body).inLoop.bind fun _ growth _ bodyKnown => pure fun _ final => ?_
        cases typed? with
        | none => exact Registry.KnowsLocals.mono bodyKnown final.toGrows
        | some typed =>
            have known := Registry.KnowsLocals.mono (known typed rfl)
              (grows.trans (grown.trans (growth.trans final))).toGrows
            exact known.append (Registry.KnowsLocals.mono bodyKnown final.toGrows)
      refine inLocalScope ?_
      cases initial? with
      | none => exact rest world none nofun
      | some initial =>
          simp only [initialStmt, bind_assoc, pure_bind]
          refine (stmt initial).bind fun later _ typed known => rest later (some typed) ?_
          rintro _ ⟨⟩
          exact known
  | breakLoop span =>
      refine getThen fun state _ _ => ?_
      split
      · exact reject _ _
      · exact pure fun _ _ _ absent => nomatch absent
  | returnValue value? span =>
      exact (optionExpr value?).bind fun _ _ _ admits => returnStmt admits span
  | function decl => exact reject _ _
  | classDecl decl =>
      cases decl with
      | mk => exact reject _ _
  | enumDecl decl => exact reject _ _
  | namespaceDecl names body span => exact reject _ _
  | importModule path span => exact reject _ _
termination_by structural source

theorem block (source : Block) {world : Registry}
    : (Build.block source).Runs (.evolving basis) basis world fun registry typed =>
        registry.KnowsLocals typed.locals := by
  cases source with
  | mk body span =>
      exact inLocalScope ((stmts body).bind fun _ _ _ known =>
        pure fun _ final => Registry.KnowsLocals.mono known final.toGrows)
termination_by structural source

theorem stmts (sources : List Stmt) {world : Registry}
    : (Build.stmts sources).Runs (.evolving basis) basis world fun registry typed =>
        registry.KnowsLocals (TypedStmt.allLocals typed) := by
  cases sources with
  | nil => exact pure fun _ _ _ absent => nomatch absent
  | cons first rest =>
      exact (stmt first).bind fun _ _ _ known => (stmts rest).bind fun _ grows _ others =>
        pure fun _ final =>
          (Registry.KnowsLocals.mono known (grows.trans final).toGrows).append
            (Registry.KnowsLocals.mono others final.toGrows)
termination_by structural sources

theorem branchList (sources : List Branch) {world : Registry}
    : (Build.branchList sources).Runs (.evolving basis) basis world fun registry typed =>
        registry.KnowsLocals (TypedBranch.allLocals typed) := by
  cases sources with
  | nil => exact pure fun _ _ _ absent => nomatch absent
  | cons first rest =>
      cases first with
      | mk source body =>
          refine (expr source).bind fun _ _ _ _ => ?_
          refine (ofLooks (Looks.fitCondition _)).bind fun _ _ _ _ => ?_
          refine (block body).bind fun _ _ _ known => ?_
          exact (branchList rest).bind fun _ grows _ others => pure fun _ final =>
            (Registry.KnowsLocals.mono known (grows.trans final).toGrows).append
              (Registry.KnowsLocals.mono others final.toGrows)
termination_by structural sources

end

/-- The expressions of a checked block are admitted, and its variables have known types. -/
theorem checkedBlock (source : Block)
    : (Build.block source).Runs (.evolving basis) basis world fun registry typed =>
        registry.AdmitsAll basis.builtins typed.exprs ∧ registry.KnowsLocals typed.locals := by
  intro setting before outcome after provided suits ready grows ran
  obtain ⟨moves, given⟩ := block source _ _ _ _ provided suits ready grows ran
  obtain ⟨_, admitted⟩ := (block source).meeting (Keeps.block source) _ _ _ _ provided suits ready
    grows ran
  refine ⟨moves, fun value same => ?_⟩
  obtain ⟨closed, context, known⟩ := given value same
  exact ⟨closed, context, (admitted value same).2.2, known⟩

end BuildScript.Build.Runs
