import BuildScript.Component.Parser
import BuildScript.Proofs.Syntax.Descent
import BuildScript.Proofs.Syntax.ScriptAgreement

/-! Readers of statements, declarations and whole files call the readers of their parts only further
on. Every item that is read up to a closing brace takes a token, so that no such loop goes round
more often than there are tokens.
-/

namespace BuildScript

namespace Parse

-----------------------------------------------------------------------------------------
-- Rounds
-----------------------------------------------------------------------------------------

/-- (untilBraceRound item more) is what `untilBrace` does before it calls itself as `more`. -/
def untilBraceRound {α : Type} (item : Parse α) (more : Parse (List α)) : Parse (List α) := do
  match ← kind with
  | .closeCurly =>
    let _ ← next
    return []
  | .endOfFile => unmet .closingBrace
  | _ =>
    let first ← item
    let rest ← more
    return first :: rest

/-- (moreEnumeratorsRound more) is what `moreEnumerators` does before it calls itself as `more`. -/
def moreEnumeratorsRound (more : Parse (List Token)) : Parse (List Token) := do
  if ← accept .comma then
    if (← kind) == .closeCurly then return []
    else
      let first ← expect .identifier
      let rest ← more
      return first :: rest
  else return []

/-- (moreNamesRound more) is what `moreNames` does before it calls itself as `more`. -/
def moreNamesRound (more : Parse (List Token)) : Parse (List Token) := do
  if ← accept .colonColon then
    let first ← expect .identifier
    let rest ← more
    return first :: rest
  else return []

/-- (otherwiseRound nested more) is what `otherwiseWith` does before it calls itself as `more`. -/
def otherwiseRound (nested : Parse Stmt) (more : Parse (List Branch × Option Block))
    : Parse (List Branch × Option Block) := do
  if ← accept .elseKeyword then
    if ← accept .ifKeyword then
      let first ← branchWith nested
      let (rest, last?) ← more
      return (first :: rest, last?)
    else return ([], some (← blockWith nested))
  else return ([], none)

/-- (untilEndRound more) is what `untilEnd` does before it calls itself as `more`. -/
def untilEndRound (more : Parse (List Stmt)) : Parse (List Stmt) := do
  if (← kind) == .endOfFile then return []
  else
    let first ← stmt
    let rest ← more
    return first :: rest

/-- (moreValuesRound nested more) is what `moreValues` does before it calls itself as `more`. -/
def moreValuesRound (nested : Parse ValueExpr) (more : Parse (List ValueExpr))
    : Parse (List ValueExpr) := do
  if ← accept .comma then
    if (← kind) == .closeBracket then return []
    else
      let first ← nested
      let rest ← more
      return first :: rest
  else return []

/-- (propertiesRound more) is what `properties` does before it calls itself as `more`. -/
def propertiesRound (more : Parse (List PropertyDecl)) : Parse (List PropertyDecl) := do
  if (← kind) == .closeCurly then return []
  else
    let first ← property
    let rest ← more
    return first :: rest

namespace Concurs

variable {α : Type} {n : Nat}

-----------------------------------------------------------------------------------------
-- Declarations
-----------------------------------------------------------------------------------------

theorem untilBraceRound {item item' : Parse α} {more more' : Parse (List α)}
    (items : ∀ left ≤ n, Concurs left 1 item item') (mores : ∀ left < n, Concurs left 1 more more')
    : Concurs n 1 (Parse.untilBraceRound item more) (Parse.untilBraceRound item' more') := by
  refine kind fun shown pos => ?_
  split
  · exact .nextThen (by decide) fun _ _ => pure _
  · exact (unmet _).here _
  · next inner =>
      have pos := pos inner
      refine here ((items n (Nat.le_refl n)).bind fun first _ => ?_) _
      exact ((mores _ (by omega)).weaken (Nat.le_refl _) (Nat.zero_le 1)).bind fun rest _ => pure _

theorem untilBrace {item item' : Parse α} (items : ∀ left ≤ n, Concurs left 1 item item')
    (count : Nat)
    : Concurs n 1 (Parse.untilBrace item count) (Parse.untilBrace item' count) := by
  induction count generalizing n with
  | zero => exact unmet _
  | succ count ih =>
      exact untilBraceRound items fun left less => ih fun left' less' => items left' (by omega)

theorem braced {item item' : Parse α} (items : ∀ left < n, Concurs left 1 item item')
    : Concurs n 2 (Parse.braced item) (Parse.braced item') := by
  refine expectThen (by decide) fun _ pos => get fun stream short => ?_
  exact untilBrace (fun left less => items left (by omega)) _

theorem param : Concurs n 1 Parse.param Parse.param :=
  typeExpr.bind fun _ _ => expectThen (by decide) fun _ _ => pure _

theorem declarator : Concurs n 1 Parse.declarator Parse.declarator :=
  typeExpr.bind fun _ _ => expectThen (by decide) fun _ _ => pure _

/-- What comes after a piece that is read where nothing tells that it is left out. -/
theorem readUnless {β : Type} {least : Nat} {item item' : Parse α} (missing : Bool)
    {after after' : Option α → Parse β} (reads : Concurs n 0 item item')
    (rest : ∀ value?, Concurs n least (after value?) (after' value?))
    : Concurs n least (if missing then Pure.pure none >>= after else some <$> item >>= after)
        (if missing then Pure.pure none >>= after' else some <$> item' >>= after') := by
  split
  · rw [pure_bind, pure_bind]
    exact rest none
  · exact reads.map.bind fun value? _ => rest value?

theorem variableAfter (type : TypeExpr) (name : Token)
    : Concurs n 1 (Parse.variableAfter type name) (Parse.variableAfter type name) := by
  have rest {left : Nat} (initial? : Option Expr)
      : Concurs left 1
          (do
            let _ ← Parse.expect .semicolon
            return (⟨type, name, initial?, false, ← Parse.spanFrom type.span⟩ : VariableDecl))
          (do
            let _ ← Parse.expect .semicolon
            return ⟨type, name, initial?, false, ← Parse.spanFrom type.span⟩) :=
    expectThen (by decide) fun _ _ => spanFromThen fun _ => pure _
  refine acceptThen (by decide) (fun _ => ?_) (rest none)
  exact (expr.map).bind fun initial? _ => (rest initial?).weaken (Nat.le_refl _) (by decide)

theorem importStmt {shown : TokenKind} (inner : shown ≠ .endOfFile)
    : ConcursAt shown n 1 Parse.importStmt Parse.importStmt :=
  .nextThen inner fun _ _ => expectThen (by decide) fun _ _ => expectThen (by decide) fun _ _ =>
    spanFromThen fun _ => pure _

theorem moreEnumeratorsRound {more more' : Parse (List Token)}
    (mores : ∀ left < n, Concurs left 0 more more')
    : Concurs n 0 (Parse.moreEnumeratorsRound more) (Parse.moreEnumeratorsRound more') := by
  refine acceptThen (by decide) (fun pos => kind fun shown _ => here ?_ _) (pure [])
  split
  · exact pure []
  · exact expectThen (by decide) fun first _ => (mores _ (by omega)).bind fun rest _ => pure _

theorem moreEnumerators (count : Nat)
    : Concurs n 0 (Parse.moreEnumerators count) (Parse.moreEnumerators count) := by
  induction count generalizing n with
  | zero => exact pure []
  | succ count ih => exact moreEnumeratorsRound fun left _ => ih

theorem enumDecl {shown : TokenKind} (inner : shown ≠ .endOfFile)
    : ConcursAt shown n 1 Parse.enumDecl Parse.enumDecl := by
  refine .nextThen inner fun _ _ => expectThen (by decide) fun name _ => ?_
  refine expectThen (by decide) fun _ _ => expectThen (by decide) fun first _ => ?_
  refine get fun stream short => (moreEnumerators _).bind fun rest _ => ?_
  refine expectThen (by decide) fun _ _ => acceptThen (by decide) (fun _ => ?_) ?_
  · exact spanFromThen fun _ => pure _
  · exact spanFromThen fun _ => pure _

theorem moreNamesRound {more more' : Parse (List Token)}
    (mores : ∀ left < n, Concurs left 0 more more')
    : Concurs n 0 (Parse.moreNamesRound more) (Parse.moreNamesRound more') := by
  refine acceptThen (by decide) (fun pos => ?_) (pure [])
  exact expectThen (by decide) fun first _ => (mores _ (by omega)).bind fun rest _ => pure _

theorem moreNames (count : Nat) : Concurs n 0 (Parse.moreNames count) (Parse.moreNames count) := by
  induction count generalizing n with
  | zero => exact pure []
  | succ count ih => exact moreNamesRound fun left _ => ih

section Nested

variable {nested nested' : Parse Stmt} (parts : ∀ left < n, Concurs left 1 nested nested')

include parts

theorem blockWith : Concurs n 1 (Parse.blockWith nested) (Parse.blockWith nested') := by
  refine get fun stream short =>
    (braced fun left less => parts left (by omega)).bind fun body _ => ?_
  exact spanFromThen fun _ => pure _

theorem functionWith (type : TypeExpr) (name : Token)
    : Concurs n 1 (Parse.functionWith nested type name) (Parse.functionWith nested' type name) := by
  refine expectThen (by decide) fun _ _ => kind fun shown _ => here ?_ _
  have rest (params : List ParamDecl)
      : Concurs (n - 1) 0
          (do
            let _ ← Parse.expect .closeParen
            let body ← Parse.blockWith nested
            return FunctionDecl.mk type name params body false (← Parse.spanFrom type.span))
          (do
            let _ ← Parse.expect .closeParen
            let body ← Parse.blockWith nested'
            return FunctionDecl.mk type name params body false (← Parse.spanFrom type.span)) := by
    refine expectThen (by decide) fun _ _ => ?_
    refine (blockWith fun left less => parts left (by omega)).bind fun body _ => ?_
    exact spanFromThen fun _ => pure _
  dsimp only
  split
  · exact (pure _).bind fun params _ => rest params
  · exact (separated fun left _ => param.weaken (Nat.le_refl _) (Nat.zero_le 1)).bind
      fun params _ => rest params

/-- What comes after a declaration, or at an unmoved stream where there is none. -/
theorem declarationThen {least : Nat} {after after' : Option Stmt → Parse α}
    (declared : ∀ decl, 1 ≤ n →
      Concurs (n - 1) (least - 1) (after (some decl)) (after' (some decl)))
    (none_ : Concurs n least (after none) (after' none))
    : Concurs n least (Parse.declarationWith? nested >>= after)
        (Parse.declarationWith? nested' >>= after') := by
  have declares
      : Concurs n least ((Parse.attempt Parse.declarator >>= Parse.declaredAs nested) >>= after)
          ((Parse.attempt Parse.declarator >>= Parse.declaredAs nested') >>= after') := by
    rw [bind_assoc, bind_assoc]
    refine attemptThen declarator (fun declared' pos => ?_) ?_
    · obtain ⟨type, name⟩ := declared'
      simp only [Parse.declaredAs, bind_assoc]
      refine kind fun shown _ => here ?_ _
      split
      · simp only [bind_assoc, pure_bind]
        refine ((functionWith (fun left less => parts left (by omega)) type name).weaken
          (Nat.le_refl _) (Nat.zero_le 1)).bind fun decl _ => declared _ pos
      · simp only [bind_assoc, pure_bind]
        exact ((variableAfter type name).weaken (Nat.le_refl _) (Nat.zero_le 1)).bind
          fun decl _ => declared _ pos
    · simp only [Parse.declaredAs, pure_bind]
      exact none_
  unfold Parse.declarationWith?
  rw [bind_assoc, bind_assoc]
  refine kind fun shown _ => ?_
  split
  · exact declares.here _
  · exact declares.here _
  · simp only [pure_bind]
    exact none_.here _

theorem simpleStmtWith
    : Concurs n 1 (Parse.simpleStmtWith nested) (Parse.simpleStmtWith nested') := by
  refine declarationThen parts (fun decl _ => pure decl) ?_
  exact expr.bind fun value _ => expectThen (by decide) fun _ _ => pure _

theorem classMemberWith (name : Token)
    : Concurs n 1 (Parse.classMemberWith nested name) (Parse.classMemberWith nested' name) := by
  refine look fun stream => ?_
  split
  · next starts =>
      have inner : stream.kind ≠ .endOfFile := by
        simp only [Bool.and_eq_true, beq_iff_eq] at starts
        rw [starts.1.1]
        decide
      refine .nextThen inner fun name _ => ?_
      refine ((functionWith (fun left less => parts left (by omega)) _ name).weaken (Nat.le_refl _)
        (Nat.zero_le 1)).bind fun decl _ => ?_
      exact pure _
  · refine here (declarator.bind fun declared _ => kind fun shown _ => here ?_ _) _
    obtain ⟨type, name⟩ := declared
    dsimp only
    split
    · exact ((functionWith (fun left less => parts left (by omega)) type name).weaken
        (Nat.le_refl _)
        (Nat.zero_le 1)).bind fun decl _ => pure _
    · exact expectThen (by decide) fun _ _ => spanFromThen fun _ => pure _

theorem classWith {shown : TokenKind} (inner : shown ≠ .endOfFile)
    : ConcursAt shown n 1 (Parse.classWith nested) (Parse.classWith nested') := by
  refine .nextThen inner fun keyword _ => expectThen (by decide) fun name _ => ?_
  have rest {left : Nat} (short : left ≤ n - 1) (base? : Option TypeExpr)
      : Concurs left 0
          (do
            let members ← Parse.braced (Parse.classMemberWith nested name)
            let _ ← Parse.accept .semicolon
            return ClassDecl.mk name base? members false (← Parse.spanFrom keyword.span))
          (do
            let members ← Parse.braced (Parse.classMemberWith nested' name)
            let _ ← Parse.accept .semicolon
            return ClassDecl.mk name base? members false (← Parse.spanFrom keyword.span)) := by
    refine (braced fun left' less =>
      classMemberWith (fun left'' less' => parts left'' (by omega)) name).bind fun members _ => ?_
    refine acceptThen (by decide) (fun _ => ?_) ?_
    · exact spanFromThen fun _ => pure _
    · exact spanFromThen fun _ => pure _
  refine acceptThen (by decide) (fun _ => ?_) (rest (by omega) none)
  exact (typeExpr.weaken (Nat.le_refl _) (Nat.zero_le 1)).map.bind fun base? _ =>
    rest (by omega) base?

theorem exportWith {shown : TokenKind} (inner : shown ≠ .endOfFile)
    : ConcursAt shown n 1 (Parse.exportWith nested) (Parse.exportWith nested') := by
  have exported {left : Nat} (span : Span) (decl : Stmt)
      : Concurs left 0 (do return Parse.exportDeclaration (← Parse.spanFrom span) decl)
          (do return Parse.exportDeclaration (← Parse.spanFrom span) decl) :=
    spanFromThen fun _ => pure _
  refine .nextThen inner fun keyword pos => kind fun shown _ => ?_
  dsimp only
  split
  · have reads := classWith (n := n - 1) (fun left less => parts left (by omega))
      (show TokenKind.classKeyword ≠ .endOfFile by decide)
    exact reads.map.bind fun decl _ => exported _ decl
  · have reads := enumDecl (n := n - 1) (show TokenKind.enumKeyword ≠ .endOfFile by decide)
    exact reads.map.bind fun decl _ => exported _ decl
  · refine here ?_ _
    refine declarationThen (fun left less => parts left (by omega)) (fun decl _ => ?_) ?_
    · simp only [pure_bind]
      exact exported _ decl
    · have fails : Concurs (n - 1) 0 (Parse.unmet .declarationAfterExport : Parse Stmt) _ := unmet _
      exact fails.bind fun decl _ => exported _ decl

theorem namespaceWith {shown : TokenKind} (inner : shown ≠ .endOfFile)
    : ConcursAt shown n 1 (Parse.namespaceWith nested) (Parse.namespaceWith nested') := by
  refine .nextThen inner fun _ _ => expectThen (by decide) fun first _ => ?_
  refine get fun stream short => (moreNames _).bind fun rest _ => ?_
  refine (braced fun left less => parts left (by omega)).bind fun body _ => ?_
  exact spanFromThen fun _ => pure _

-----------------------------------------------------------------------------------------
-- Control
-----------------------------------------------------------------------------------------

theorem branchWith : Concurs n 1 (Parse.branchWith nested) (Parse.branchWith nested') := by
  refine expectThen (by decide) fun _ _ => (expr.weaken (Nat.le_refl _) (Nat.zero_le 1)).bind
    fun condition _ => expectThen (by decide) fun _ _ => ?_
  refine (blockWith fun left less => parts left (by omega)).bind fun body _ => pure _

theorem otherwiseRound {more more' : Parse (List Branch × Option Block)}
    (mores : ∀ left < n, Concurs left 0 more more')
    : Concurs n 0 (Parse.otherwiseRound nested more) (Parse.otherwiseRound nested' more') := by
  refine acceptThen (by decide) (fun pos => ?_) (pure _)
  refine acceptThen (by decide) (fun _ => ?_) ?_
  · refine (branchWith fun left less => parts left (by omega)).bind fun first _ => ?_
    exact (mores _ (by omega)).bind fun rest _ => pure _
  · exact (blockWith fun left less => parts left (by omega)).bind fun last _ => pure _

omit parts in
theorem otherwiseWith (parts : ∀ left < n, Concurs left 1 nested nested') (count : Nat)
    : Concurs n 0 (Parse.otherwiseWith nested count) (Parse.otherwiseWith nested' count) := by
  induction count generalizing n with
  | zero => exact pure _
  | succ count ih =>
      exact otherwiseRound parts fun left less => ih fun left' less' => parts left' (by omega)

theorem conditionalWith {shown : TokenKind} (inner : shown ≠ .endOfFile)
    : ConcursAt shown n 1 (Parse.conditionalWith nested) (Parse.conditionalWith nested') := by
  refine .nextThen inner fun _ _ => ?_
  refine (branchWith fun left less => parts left (by omega)).bind fun first _ => ?_
  refine get fun stream short => ?_
  refine (otherwiseWith (fun left less => parts left (by omega)) _).bind fun rest _ => ?_
  exact spanFromThen fun _ => pure _

theorem whileWith {shown : TokenKind} (inner : shown ≠ .endOfFile)
    : ConcursAt shown n 1 (Parse.whileWith nested) (Parse.whileWith nested') := by
  refine .nextThen inner fun _ _ => ?_
  refine (branchWith fun left less => parts left (by omega)).bind fun branch _ => ?_
  obtain ⟨condition, body⟩ := branch
  exact spanFromThen fun _ => pure _

theorem forWith {shown : TokenKind} (inner : shown ≠ .endOfFile)
    : ConcursAt shown n 1 (Parse.forWith nested) (Parse.forWith nested') := by
  refine .nextThen inner fun keyword _ => expectThen (by decide) fun _ _ => ?_
  have value {left : Nat} : Concurs left 0 Parse.expr Parse.expr :=
    expr.weaken (Nat.le_refl left) (Nat.zero_le 1)
  have rest {left : Nat} (short : left ≤ n - 1) (initial? : Option Stmt)
      : Concurs left 0
          (do
            let condition? ←
              if (← Parse.kind) == .semicolon then Pure.pure none else some <$> Parse.expr
            let _ ← Parse.expect .semicolon
            let iteration? ←
              if (← Parse.kind) == .closeParen then Pure.pure none else some <$> Parse.expr
            let _ ← Parse.expect .closeParen
            let body ← Parse.blockWith nested
            return Stmt.forLoop initial? condition? iteration? body (← Parse.spanFrom keyword.span))
          (do
            let condition? ←
              if (← Parse.kind) == .semicolon then Pure.pure none else some <$> Parse.expr
            let _ ← Parse.expect .semicolon
            let iteration? ←
              if (← Parse.kind) == .closeParen then Pure.pure none else some <$> Parse.expr
            let _ ← Parse.expect .closeParen
            let body ← Parse.blockWith nested'
            return Stmt.forLoop initial? condition? iteration? body
              (← Parse.spanFrom keyword.span)) := by
    refine kind fun shown _ => here (readUnless _ value fun condition? => ?_) _
    refine expectThen (by decide) fun _ _ => kind fun shown _ => here ?_ _
    refine readUnless _ value fun iteration? => expectThen (by decide) fun _ _ => ?_
    refine (blockWith fun left' less => parts left' (by omega)).bind fun body _ => ?_
    exact spanFromThen fun _ => pure _
  refine acceptThen (by decide) (fun _ => rest (by omega) none) ?_
  have initial := simpleStmtWith (n := n - 1 - 1) fun left less => parts left (by omega)
  exact (initial.weaken (Nat.le_refl _) (Nat.zero_le 1)).map.bind fun initial? _ =>
    rest (by omega) initial?

omit parts in
theorem breakStmt {shown : TokenKind} (inner : shown ≠ .endOfFile)
    : ConcursAt shown n 1 Parse.breakStmt Parse.breakStmt :=
  .nextThen inner fun _ _ => expectThen (by decide) fun _ _ => spanFromThen fun _ => pure _

omit parts in
theorem returnStmt {shown : TokenKind} (inner : shown ≠ .endOfFile)
    : ConcursAt shown n 1 Parse.returnStmt Parse.returnStmt := by
  refine .nextThen inner fun keyword _ => kind fun shown _ => here ?_ _
  refine readUnless _ (expr.weaken (Nat.le_refl _) (Nat.zero_le 1)) fun value? => ?_
  exact expectThen (by decide) fun _ _ => spanFromThen fun _ => pure _

theorem stmtWith : Concurs n 1 (Parse.stmtWith nested) (Parse.stmtWith nested') := by
  refine kind fun shown _ => ?_
  split
  · exact importStmt (by decide)
  · exact exportWith parts (by decide)
  · exact namespaceWith parts (by decide)
  · exact (classWith parts (by decide)).map
  · exact (enumDecl (by decide)).map
  · exact conditionalWith parts (by decide)
  · exact whileWith parts (by decide)
  · exact forWith parts (by decide)
  · exact breakStmt (by decide)
  · exact returnStmt (by decide)
  · exact (blockWith parts).map.here _
  · exact (simpleStmtWith parts).here _

end Nested

theorem stmtWithin (depth : Nat)
    : Concurs n 1 (Parse.stmtWithin depth) (Parse.stmtWithin depth) := by
  induction depth generalizing n with
  | zero => exact unexpected
  | succ depth ih => exact stmtWith fun left _ => ih

theorem stmt : Concurs n 1 Parse.stmt Parse.stmt := get fun _ _ => stmtWithin _

theorem untilEndRound {more more' : Parse (List Stmt)}
    (mores : ∀ left < n, Concurs left 0 more more')
    : Concurs n 0 (Parse.untilEndRound more) (Parse.untilEndRound more') := by
  refine kind fun shown pos => ?_
  split
  · exact (pure _).here _
  · next inner =>
      have pos := pos fun ended => inner (beq_iff_eq.mpr ended)
      refine here (stmt.bind fun first _ => ?_) _
      exact (mores _ (by omega)).bind fun rest _ => pure _

-----------------------------------------------------------------------------------------
-- Components
-----------------------------------------------------------------------------------------

/-- A reader that takes any token passes it, unless it goes on to fail at the end of the file. -/
theorem takeThen {β : Type} {least : Nat} {next next' : Token → Parse β}
    (rest : ∀ token, 1 ≤ n → Concurs (n - 1) (least - 1) (next token) (next' token))
    (ended : ∀ token, token.kind = .endOfFile → ∃ error,
      next token = MonadExcept.throw error ∧ next' token = MonadExcept.throw error)
    : Concurs n least (Parse.next >>= next) (Parse.next >>= next') := by
  intro stream closed short
  by_cases inside : stream.kind = .endOfFile
  · obtain ⟨error, failed, failed'⟩ := ended stream.current inside
    rw [run_bind, run_bind, run_next]
    dsimp only
    rw [failed, failed']
    exact ⟨rfl, fun _ _ given => nomatch given⟩
  · exact ConcursAt.nextThen inside rest stream closed short rfl

section Values

variable {nested nested' : Parse ValueExpr}

theorem moreValuesRound (parts : ∀ left < n, Concurs left 1 nested nested')
    {more more' : Parse (List ValueExpr)} (mores : ∀ left < n, Concurs left 0 more more')
    : Concurs n 0 (Parse.moreValuesRound nested more) (Parse.moreValuesRound nested' more') := by
  refine acceptThen (by decide) (fun pos => kind fun shown _ => here ?_ _) (pure _)
  split
  · exact pure _
  · exact (parts _ (by omega)).weaken (Nat.le_refl _) (Nat.zero_le 1) |>.bind fun first _ =>
      (mores _ (by omega)).bind fun rest _ => pure _

theorem moreValues (parts : ∀ left < n, Concurs left 1 nested nested') (count : Nat)
    : Concurs n 0 (Parse.moreValues nested count) (Parse.moreValues nested' count) := by
  induction count generalizing n with
  | zero => exact pure _
  | succ count ih =>
      exact moreValuesRound parts fun left less => ih fun left' less' => parts left' (by omega)

theorem valueWith (parts : ∀ left < n, Concurs left 1 nested nested')
    : Concurs n 1 (Parse.valueWith nested) (Parse.valueWith nested') := by
  have listed {left : Nat} (short : left < n)
      : Concurs left 0 (listValuesWith nested) (listValuesWith nested') := by
    refine kind fun shown _ => here ?_ _
    split
    · exact pure _
    · refine ((parts left short).weaken (Nat.le_refl _) (Nat.zero_le 1)).bind fun first _ => ?_
      refine get fun stream short => ?_
      exact (moreValues (fun left less => parts left (by omega)) _).bind fun rest _ => pure _
  refine takeThen (fun token pos => ?_) fun token ended => ⟨_, by rw [ended], by rw [ended]⟩
  split
  · exact pure _
  · exact pure _
  · exact numberLiteralThen fun value => pure _
  · exact numberLiteralThen fun value => pure _
  · exact pure _
  · refine (listed (by omega)).bind fun values _ => expectThen (by decide) fun _ _ => ?_
    exact spanFromThen fun _ => pure _
  · exact throw _

end Values

theorem valueWithin (depth : Nat)
    : Concurs n 1 (Parse.valueWithin depth) (Parse.valueWithin depth) := by
  induction depth generalizing n with
  | zero => exact unexpected
  | succ depth ih => exact valueWith fun left _ => ih

theorem value : Concurs n 1 Parse.value Parse.value := get fun _ _ => valueWithin _

theorem property : Concurs n 1 Parse.property Parse.property := by
  refine expectThen (by decide) fun name _ => kind fun sign _ => ?_
  split
  case h_3 => exact (unmet _).here _
  all_goals
    refine .nextThen (by decide) fun _ _ => value.bind fun value _ => ?_
    exact expectThen (by decide) fun _ _ => spanFromThen fun _ => pure _

theorem propertiesRound {more more' : Parse (List PropertyDecl)}
    (mores : ∀ left < n, Concurs left 0 more more')
    : Concurs n 0 (Parse.propertiesRound more) (Parse.propertiesRound more') := by
  refine kind fun shown pos => ?_
  split
  · exact (pure _).here _
  · refine here (property.bind fun first pos => ?_) _
    exact (mores _ (by omega)).bind fun rest _ => pure _

end Concurs

end Parse

end BuildScript
