import BuildScript.Proofs.Syntax.Parsing
import BuildScript.Proofs.Typed.Parts
import BuildScript.Proofs.Typed.StmtLaw

/-! Statements that are checked are well scoped. The checks count the loops around a statement,
and refuse a `break` where there are none.
-/

namespace BuildScript

/-- The check of an expression changes nothing but the workspace. -/
def ExprLaw.framing (basis : Prelude) : ExprLaw basis where
  load _ _ := True
  keeps before after := ∃ workspace, after = { before with workspace }
  refl state := ⟨state.workspace, rfl⟩
  trans := by
    rintro before _ _ ⟨_, rfl⟩ ⟨workspace, rfl⟩
    exact ⟨workspace, rfl⟩
  workspace _ := ⟨_, rfl⟩
  report _ _ := trivial
  index _ := trivial
  reference _ _ _ := trivial
  generic _ _ _ _ := trivial

/-- A setting that suits a law suits every law that asks nothing of what is loaded. -/
theorem BuildSetting.Suits.weaken {basis : Prelude} {setting : BuildSetting}
    {law weaker : ExprLaw basis} (suits : setting.Suits law)
    (implies : ∀ {before after}, law.load before after → weaker.load before after)
    : setting.Suits weaker := by
  have relax {before after : Workspace} (advances : before.Advances basis law.load after)
      : before.Advances basis weaker.load after :=
    ⟨implies advances.related, advances.grows, advances.closed⟩
  refine ⟨suits.provided, ⟨fun closed outcome => ?_, fun closed outcome succeeded => ?_,
    fun closed outcome => ?_⟩⟩
  · obtain ⟨advances, exported⟩ := suits.obey.importModule closed outcome
    exact ⟨relax advances, exported⟩
  · obtain ⟨advances, called⟩ := suits.obey.addDirectory closed outcome succeeded
    exact ⟨relax advances, called⟩
  · obtain ⟨advances, created⟩ := suits.obey.addComponentFile closed outcome
    exact ⟨relax advances, created⟩

namespace Build

variable {α β : Type} {basis : Prelude} {setting : BuildSetting}
  {before after : BuildState}

-----------------------------------------------------------------------------------------
-- Checks that are no statements
-----------------------------------------------------------------------------------------

/-- A check that changes nothing but the workspace keeps the frame and leaves the state closed. -/
theorem Keeps.frame {action : Build α} {value : α} {post : Registry → α → Prop}
    (keeps : action.Keeps (.framing basis) before.workspace.registry post)
    (suits : setting.Suits (.framing basis)) (closed : before.Closed basis)
    (gives : action.Gives setting before value after)
    : after.loopDepth = before.loopDepth ∧ after.Closed basis
      ∧ post after.workspace.registry value := by
  obtain ⟨⟨⟨workspace, rfl⟩, _, closed⟩, meets⟩ := keeps _ _ _ _ suits closed (.refl _) gives
  exact ⟨rfl, closed, meets⟩

theorem fitCondition_same {source typed : TypedExpr}
    (gives : (fitCondition source).Gives setting before typed after)
    : after = before := by
  simp only [fitCondition, gives_bind, gives_builtins, gives_registry, gives_ite] at gives
  obtain ⟨_, _, ⟨rfl, rfl⟩, _, _, ⟨rfl, rfl⟩, gives⟩ := gives
  split at gives
  · exact fit_same _ source gives
  · exact absurd gives gives_reject

theorem fitInitial_same {decl : VariableDecl} {type : TypeId} {initial? fitted? : Option TypedExpr}
    (gives : (fitInitial decl type initial?).Gives setting before fitted? after)
    : after = before := by
  simp only [fitInitial, gives_bind, gives_registry] at gives
  obtain ⟨_, _, ⟨rfl, rfl⟩, gives⟩ := gives
  cases initial? with
  | none =>
      simp only [gives_ite, gives_pure] at gives
      split at gives
      · exact absurd gives gives_reject
      · exact gives.2
  | some initial =>
      simp only [gives_bind, gives_isConvertible, gives_ite, gives_pure] at gives
      obtain ⟨_, _, ⟨rfl, rfl⟩, gives⟩ := gives
      split at gives
      · obtain ⟨_, _, fits, rfl, rfl⟩ := gives
        exact fit_same type initial fits
      · exact absurd gives gives_reject

theorem fitReturn_same {expected : TypeId} {value? fitted? : Option TypedExpr} {span : Span}
    (gives : (fitReturn expected value? span).Gives setting before fitted? after)
    : after = before := by
  simp only [fitReturn, gives_bind, gives_registry] at gives
  obtain ⟨_, _, ⟨rfl, rfl⟩, gives⟩ := gives
  cases value? with
  | none =>
      simp only [gives_bind, gives_isVoid, gives_ite, gives_pure] at gives
      obtain ⟨_, _, ⟨rfl, rfl⟩, gives⟩ := gives
      split at gives
      · exact gives.2
      · exact absurd gives gives_reject
  | some value =>
      simp only [gives_bind, gives_isConvertible, gives_ite, gives_pure] at gives
      obtain ⟨_, _, ⟨rfl, rfl⟩, gives⟩ := gives
      split at gives
      · obtain ⟨_, _, fits, rfl, rfl⟩ := gives
        exact fit_same expected value fits
      · exact absurd gives gives_reject

theorem optionFit_same {target : TypeId} {value? fitted? : Option TypedExpr}
    (gives : (value?.mapM (fit target)).Gives setting before fitted? after)
    : after = before := by
  rcases gives_optionMapM gives with ⟨_, _, rfl⟩ | ⟨value, _, _, _, fits⟩
  · rfl
  · exact fit_same target value fits

-----------------------------------------------------------------------------------------
-- Simple statements
-----------------------------------------------------------------------------------------

theorem variableDecl_loopDepth {decl : VariableDecl} {typed : TypedVariable}
    (suits : setting.Suits (.framing basis)) (closed : before.Closed basis)
    (gives : (variableDecl decl).Gives setting before typed after)
    : after.loopDepth = before.loopDepth := by
  obtain ⟨initial?, evaluated, type, resolved, fitted?, fitted, initial, determined, _, fits, _,
    rfl⟩ := gives_variableDecl gives
  obtain ⟨first, evaluatedClosed, known⟩ :=
    (Keeps.optionExpr decl.initial?).frame suits closed initial
  obtain ⟨second, _, _⟩ := (Keeps.variableType decl known).frame suits evaluatedClosed determined
  obtain rfl := fitInitial_same fits
  exact second.trans first

theorem returnStmt_scoping {value? : Option TypedExpr} {span : Span} {typed : TypedStmt}
    (gives : (returnStmt value? span).Gives setting before typed after)
    : after.loopDepth = before.loopDepth ∧ ∃ value? span, typed = .returnValue value? span := by
  simp only [returnStmt, gives_bind, gives_get] at gives
  obtain ⟨_, _, ⟨rfl, rfl⟩, gives⟩ := gives
  split at gives
  · exact absurd gives gives_reject
  simp only [gives_bind, gives_registry] at gives
  obtain ⟨_, _, ⟨rfl, rfl⟩, gives⟩ := gives
  split at gives
  · next expected =>
      simp only [gives_bind, gives_pure] at gives
      obtain ⟨fitted?, _, fits, rfl, rfl⟩ := gives
      obtain rfl := fitReturn_same fits
      exact ⟨rfl, _, _, rfl⟩
  · simp only [gives_bind, gives_builtins, noteReturn, gives_modify, gives_pure] at gives
    obtain ⟨_, _, ⟨rfl, rfl⟩, _, _, rfl, fitted?, _, fits, rfl, rfl⟩ := gives
    rw [optionFit_same fits]
    exact ⟨rfl, _, _, rfl⟩

theorem expr_frame {source : Expr} {typed : TypedExpr}
    (suits : setting.Suits (.framing basis)) (closed : before.Closed basis)
    (gives : (expr source).Gives setting before typed after)
    : after.loopDepth = before.loopDepth ∧ after.Closed basis := by
  obtain ⟨same, closed, _⟩ := (Keeps.expr source).frame suits closed gives
  exact ⟨same, closed⟩

theorem optionExpr_frame {source? : Option Expr} {typed? : Option TypedExpr}
    (suits : setting.Suits (.framing basis)) (closed : before.Closed basis)
    (gives : (source?.mapM expr).Gives setting before typed? after)
    : after.loopDepth = before.loopDepth ∧ after.Closed basis := by
  obtain ⟨same, closed, _⟩ :=
    (Keeps.optionExpr source?).frame suits closed gives
  exact ⟨same, closed⟩

/-- A condition that is checked and made to fit leaves the frame. -/
theorem condition_frame {source : Expr} {typed fitted : TypedExpr} {middle : BuildState}
    (suits : setting.Suits (.framing basis)) (closed : before.Closed basis)
    (gives : (expr source).Gives setting before typed middle)
    (fits : (fitCondition typed).Gives setting middle fitted after)
    : after.loopDepth = before.loopDepth ∧ after.Closed basis := by
  obtain rfl := fitCondition_same fits
  exact expr_frame suits closed gives

/-- A simple statement that is checked is one that a loop may start with. -/
theorem stmt_isInitial {source : Stmt} {typed : TypedStmt} (simple : source.isSimple = true)
    (suits : setting.Suits (.framing basis)) (closed : before.Closed basis)
    (gives : (stmt source).Gives setting before typed after)
    : after.loopDepth = before.loopDepth ∧ typed.isInitial = true := by
  cases source with
  | expression value span =>
      simp only [stmt, gives_bind, gives_pure] at gives
      obtain ⟨_, _, checked, rfl, rfl⟩ := gives
      exact ⟨(expr_frame suits closed checked).1, rfl⟩
  | varDecl decl =>
      simp only [stmt, gives_bind, gives_pure] at gives
      obtain ⟨_, _, checked, rfl, rfl⟩ := gives
      exact ⟨variableDecl_loopDepth suits closed checked, rfl⟩
  | function decl => exact absurd gives (by simp [stmt])
  | _ => cases simple

-----------------------------------------------------------------------------------------
-- Closed states
-----------------------------------------------------------------------------------------

/-- Checks of statements leave the state closed. -/
theorem closed_of_keeps {action : Build α} {value : α} {post : Registry → α → Prop}
    (keeps : action.Keeps (StmtLaw.growing basis).toExprLaw before.workspace.registry post)
    (suits : setting.Suits (.framing basis)) (closed : before.Closed basis)
    (gives : action.Gives setting before value after)
    : after.Closed basis :=
  (keeps _ _ _ _ (suits.weaken fun _ => trivial) closed (.refl _) gives).1.closed

theorem initialStmt_isInitial {source? : Option Stmt} {typed? : Option TypedStmt}
    (simple : source?.all Stmt.isSimple = true) (suits : setting.Suits (.framing basis))
    (closed : before.Closed basis)
    (gives : (initialStmt source?).Gives setting before typed? after)
    : after.loopDepth = before.loopDepth ∧ typed?.all TypedStmt.isInitial = true
      ∧ after.Closed basis := by
  cases source? with
  | none =>
      obtain ⟨rfl, rfl⟩ := gives_pure.mp gives
      exact ⟨rfl, rfl, closed⟩
  | some source =>
      simp only [initialStmt, gives_bind, gives_pure] at gives
      obtain ⟨_, _, checked, rfl, rfl⟩ := gives
      obtain ⟨same, initial⟩ := stmt_isInitial simple suits closed checked
      exact ⟨same, initial, closed_of_keeps (Keeps.stmt source) suits closed checked⟩

/-- A state stays closed when it is in a new scope or in one more loop. -/
theorem closed_enterLocal (closed : before.Closed basis)
    : BuildState.Closed basis { before with symbols := before.symbols.enterLocal } :=
  ⟨closed.workspace, closed.symbols.enterLocal, closed.functions, closed.returns⟩

theorem closed_loopDepth (closed : before.Closed basis) (loopDepth : Nat)
    : BuildState.Closed basis { before with loopDepth } :=
  ⟨closed.workspace, closed.symbols, closed.functions, closed.returns⟩

-----------------------------------------------------------------------------------------
-- Statements
-----------------------------------------------------------------------------------------

mutual

/-- Checked statements are well scoped, in a loop where loops are counted and outside of all
where they are not, and they leave the count as it was. Witness: induction over statements.
-/
theorem stmt_wellScoped (source : Stmt) (formed : source.wellFormed = true)
    {basis : Prelude} {setting : BuildSetting} {before after : BuildState}
    {typed : TypedStmt} (suits : setting.Suits (.framing basis))
    (closed : before.Closed basis) (gives : (stmt source).Gives setting before typed after)
    : after.loopDepth = before.loopDepth ∧ typed.wellScoped (before.loopDepth != 0) = true := by
  cases source with
  | expression value span =>
      simp only [stmt, gives_bind, gives_pure] at gives
      obtain ⟨_, _, checked, rfl, rfl⟩ := gives
      exact ⟨(expr_frame suits closed checked).1, rfl⟩
  | varDecl decl =>
      simp only [stmt, gives_bind, gives_pure] at gives
      obtain ⟨_, _, checked, rfl, rfl⟩ := gives
      exact ⟨variableDecl_loopDepth suits closed checked, rfl⟩
  | block body =>
      simp only [stmt, gives_bind, gives_pure] at gives
      obtain ⟨_, _, checked, rfl, rfl⟩ := gives
      exact block_wellScoped body formed suits closed checked
  | conditional branches otherwise? span =>
      simp only [stmt, gives_bind, gives_pure] at gives
      obtain ⟨branches', middle, checkedBranches, otherwise', _, checked, rfl, rfl⟩ := gives
      cases otherwise? with
      | none =>
          obtain ⟨same, holds⟩ := branchList_wellScoped branches formed suits closed checkedBranches
          obtain ⟨rfl, rfl⟩ := gives_pure.mp checked
          exact ⟨same, holds⟩
      | some body =>
          simp only [Stmt.wellFormed, Bool.and_eq_true] at formed
          obtain ⟨same, holds⟩ := branchList_wellScoped branches formed.1 suits closed
            checkedBranches
          have middleClosed := closed_of_keeps (Keeps.branchList branches) suits closed
            checkedBranches
          simp only [otherwiseBlock, gives_bind, gives_pure] at checked
          obtain ⟨_, _, checkedBody, rfl, rfl⟩ := checked
          obtain ⟨sameBody, holdsBody⟩ := block_wellScoped body formed.2 suits middleClosed
            checkedBody
          rw [same] at sameBody holdsBody
          refine ⟨sameBody, ?_⟩
          simp only [TypedStmt.wellScoped, Bool.and_eq_true]
          exact ⟨holds, holdsBody⟩
  | whileLoop condition body span =>
      simp only [stmt, gives_bind, gives_inLoop, gives_pure] at gives
      obtain ⟨_, _, checked, _, middle, fits, _, _, ⟨inner, checkedBody, rfl⟩, rfl, rfl⟩ := gives
      obtain ⟨sameCondition, middleClosed⟩ := condition_frame suits closed checked fits
      obtain ⟨same, holds⟩ := block_wellScoped body formed suits
        (closed_loopDepth middleClosed _) checkedBody
      refine ⟨?_, by simpa [TypedStmt.wellScoped] using holds⟩
      show inner.loopDepth - 1 = before.loopDepth
      rw [same, Nat.add_sub_cancel, sameCondition]
  | forLoop initial? condition? iteration? body span =>
      simp only [stmt, gives_inLocalScope, gives_bind, gives_inLoop, gives_pure] at gives
      obtain ⟨_, ⟨initial', first, start, condition', second, conditionGiven, iteration', third,
        iterationGiven, _, _, ⟨inner, checkedBody, rfl⟩, rfl, rfl⟩, rfl⟩ := gives
      simp only [Stmt.wellFormed, Bool.and_eq_true] at formed
      obtain ⟨sameStart, initial, firstClosed⟩ := initialStmt_isInitial formed.1 suits
        (closed_enterLocal closed) start
      have secondFrame : second.loopDepth = first.loopDepth ∧ second.Closed basis := by
        rcases gives_optionMapM conditionGiven with ⟨_, _, rfl⟩ | ⟨source, _, _, _, given⟩
        · exact ⟨rfl, firstClosed⟩
        · obtain ⟨_, _, checked, fits⟩ := gives_bind.mp given
          exact condition_frame suits firstClosed checked fits
      obtain ⟨sameIteration, thirdClosed⟩ := optionExpr_frame suits secondFrame.2 iterationGiven
      obtain ⟨same, holds⟩ := block_wellScoped body formed.2 suits
        (closed_loopDepth thirdClosed _) checkedBody
      refine ⟨?_, ?_⟩
      · show inner.loopDepth - 1 = before.loopDepth
        rw [same, Nat.add_sub_cancel, sameIteration, secondFrame.1, sameStart]
      · simp only [TypedStmt.wellScoped, Bool.and_eq_true]
        exact ⟨initial, by simpa using holds⟩
  | breakLoop span =>
      simp only [stmt, gives_bind, gives_get, gives_ite, gives_pure] at gives
      obtain ⟨_, _, ⟨rfl, rfl⟩, gives⟩ := gives
      split at gives
      · exact absurd gives gives_reject
      next counted =>
        obtain ⟨rfl, rfl⟩ := gives
        exact ⟨rfl, by simpa [TypedStmt.wellScoped] using counted⟩
  | returnValue value? span =>
      simp only [stmt, gives_bind] at gives
      obtain ⟨_, _, checked, returned⟩ := gives
      obtain ⟨same, _, _, rfl⟩ := returnStmt_scoping returned
      exact ⟨same.trans (optionExpr_frame suits closed checked).1, rfl⟩
  | function decl => exact absurd gives gives_reject
  | classDecl decl =>
      cases decl with
      | mk => exact absurd gives gives_reject
  | enumDecl decl => exact absurd gives gives_reject
  | namespaceDecl names body span => exact absurd gives gives_reject
  | importModule path span => exact absurd gives gives_reject
termination_by structural source

theorem block_wellScoped (source : Block) (formed : source.wellFormed = true)
    {basis : Prelude} {setting : BuildSetting} {before after : BuildState}
    {typed : TypedBlock} (suits : setting.Suits (.framing basis))
    (closed : before.Closed basis) (gives : (block source).Gives setting before typed after)
    : after.loopDepth = before.loopDepth ∧ typed.wellScoped (before.loopDepth != 0) = true := by
  cases source with
  | mk body span =>
      simp only [block, gives_inLocalScope, gives_bind, gives_pure] at gives
      obtain ⟨_, ⟨_, _, checked, rfl, rfl⟩, rfl⟩ := gives
      have inner := stmts_wellScoped body formed suits (closed_enterLocal closed) checked
      exact inner
termination_by structural source

theorem stmts_wellScoped (sources : List Stmt) (formed : Stmt.allWellFormed sources = true)
    {basis : Prelude} {setting : BuildSetting} {before after : BuildState}
    {typed : List TypedStmt} (suits : setting.Suits (.framing basis))
    (closed : before.Closed basis) (gives : (stmts sources).Gives setting before typed after)
    : after.loopDepth = before.loopDepth
      ∧ TypedStmt.allWellScoped (before.loopDepth != 0) typed = true := by
  cases sources with
  | nil =>
      obtain ⟨rfl, rfl⟩ := gives_pure.mp gives
      exact ⟨rfl, rfl⟩
  | cons first rest =>
      simp only [Stmt.allWellFormed, Bool.and_eq_true] at formed
      simp only [stmts, gives_bind, gives_pure] at gives
      obtain ⟨_, _, checked, _, _, checkedRest, rfl, rfl⟩ := gives
      obtain ⟨same, holds⟩ := stmt_wellScoped first formed.1 suits closed checked
      have middleClosed := closed_of_keeps (Keeps.stmt first) suits closed checked
      obtain ⟨sameRest, holdsRest⟩ := stmts_wellScoped rest formed.2 suits middleClosed checkedRest
      rw [same] at sameRest holdsRest
      refine ⟨sameRest, ?_⟩
      simp only [TypedStmt.allWellScoped, Bool.and_eq_true]
      exact ⟨holds, holdsRest⟩
termination_by structural sources

theorem branchList_wellScoped (sources : List Branch)
    (formed : Branch.allWellFormed sources = true)
    {basis : Prelude} {setting : BuildSetting} {before after : BuildState}
    {typed : List TypedBranch} (suits : setting.Suits (.framing basis))
    (closed : before.Closed basis)
    (gives : (branchList sources).Gives setting before typed after)
    : after.loopDepth = before.loopDepth
      ∧ TypedBranch.allWellScoped (before.loopDepth != 0) typed = true := by
  cases sources with
  | nil =>
      obtain ⟨rfl, rfl⟩ := gives_pure.mp gives
      exact ⟨rfl, rfl⟩
  | cons first rest =>
      cases first with
      | mk condition body =>
          simp only [Branch.allWellFormed, Bool.and_eq_true] at formed
          simp only [branchList, gives_bind, gives_pure] at gives
          obtain ⟨_, _, checked, _, middle, fits, _, _, checkedBody, _, _, checkedRest, rfl,
            rfl⟩ := gives
          obtain ⟨sameCondition, middleClosed⟩ := condition_frame suits closed checked fits
          obtain ⟨same, holds⟩ := block_wellScoped body formed.1 suits middleClosed checkedBody
          have bodyClosed := closed_of_keeps (Keeps.block body) suits middleClosed checkedBody
          obtain ⟨sameRest, holdsRest⟩ := branchList_wellScoped rest formed.2 suits bodyClosed
            checkedRest
          rw [sameCondition] at same holds
          rw [same] at sameRest holdsRest
          refine ⟨sameRest, ?_⟩
          simp only [TypedBranch.allWellScoped, Bool.and_eq_true]
          exact ⟨holds, holdsRest⟩
termination_by structural sources

end

end Build

end BuildScript
