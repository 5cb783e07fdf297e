import BuildScript.Proofs.Syntax.Parsing

/-! The grammar yields well-formed scripts only. Readers of types and expressions hand on sound
streams, and readers of statements yield well-formed statements besides, by induction over the
depth of what is read.
-/

namespace BuildScript.Parse.Yields

variable {α β : Type} {met : α → Prop}

-----------------------------------------------------------------------------------------
-- Repetition
-----------------------------------------------------------------------------------------

theorem ite {condition : Bool} {whenTrue whenFalse : Parse α} (first : whenTrue.Yields met)
    (second : whenFalse.Yields met)
    : Yields (if condition then whenTrue else whenFalse) met := by
  split
  · exact first
  · exact second

theorem afterCommas {item : Parse α} (yields : item.Yields met) (count : Nat)
    : (Parse.afterCommas item count).Yields fun items => ∀ item ∈ items, met item := by
  induction count with
  | zero => exact .pure (by simp)
  | succ count ih =>
      refine (accept .comma).bind fun more _ => ite ?_ (.pure (by simp))
      refine yields.bind fun first holds => ih.bind fun rest later => .pure ?_
      intro item member
      rcases List.mem_cons.mp member with rfl | member
      · exact holds
      · exact later item member

theorem separated {item : Parse α} (yields : item.Yields met)
    : (Parse.separated item).Yields fun items => ∀ item ∈ items, met item := by
  refine yields.bind fun first holds => get.bind fun stream _ =>
    (afterCommas yields _).bind fun rest later => .pure ?_
  intro item member
  rcases List.mem_cons.mp member with rfl | member
  · exact holds
  · exact later item member

theorem untilBrace {item : Parse α} (yields : item.Yields met) (count : Nat)
    : (Parse.untilBrace item count).Yields fun items => ∀ item ∈ items, met item := by
  induction count with
  | zero => exact unmet _
  | succ count ih =>
      refine kind.bind fun class_ _ => ?_
      split
      · exact next.bind fun _ _ => .pure (by simp)
      · exact unmet _
      · refine yields.bind fun first holds => ih.bind fun rest later => .pure ?_
        intro item member
        rcases List.mem_cons.mp member with rfl | member
        · exact holds
        · exact later item member

theorem braced {item : Parse α} (yields : item.Yields met)
    : (Parse.braced item).Yields fun items => ∀ item ∈ items, met item :=
  (expect .openCurly).bind fun _ _ => get.bind fun _ _ => untilBrace yields _

-----------------------------------------------------------------------------------------
-- Types
-----------------------------------------------------------------------------------------

theorem moreSegments (count : Nat) : (Parse.moreSegments count).Sound := by
  induction count with
  | zero => exact .pure _
  | succ count ih =>
      refine get.bind fun stream _ => ite ?_ (.pure trivial)
      exact next.bind fun _ _ => next.bind fun _ _ => ih.bind fun _ _ => .pure trivial

theorem qualifiedName : Parse.qualifiedName.Sound :=
  (expect .identifier).bind fun _ _ => get.bind fun _ _ => (moreSegments _).bind fun _ _ =>
    .pure trivial

theorem typeArgumentsWith {nested : Parse TypeExpr} (sound : nested.Sound)
    : (Parse.typeArgumentsWith nested).Sound :=
  (expect .less).bind fun _ _ => (separated sound).bind fun _ _ =>
    (expect .greater).bind fun _ _ => .pure trivial

theorem plainTypeWith {nested : Parse TypeExpr} (sound : nested.Sound)
    : (Parse.plainTypeWith nested).Sound := by
  refine kind.bind fun class_ _ => ?_
  split
  · refine get.bind fun _ _ => qualifiedName.bind fun names _ => kind.bind fun _ _ => ?_
    dsimp only
    split
    · exact (typeArgumentsWith sound).bind fun _ _ => (spanFrom _).bind fun _ _ => .pure trivial
    · exact (Sound.pure []).bind fun _ _ => (spanFrom _).bind fun _ _ => .pure trivial
  · exact next.bind fun _ _ => .pure trivial
  · exact unmet _

theorem typeExprWith {nested : Parse TypeExpr} (sound : nested.Sound)
    : (Parse.typeExprWith nested).Sound := by
  refine (plainTypeWith sound).bind fun _ _ => kind.bind fun _ _ => ite ?_ (.pure trivial)
  exact next.bind fun _ _ => kind.bind fun _ _ => ite (unmet _) (.pure trivial)

theorem typeExprWithin (depth : Nat) : (Parse.typeExprWithin depth).Sound := by
  induction depth with
  | zero => exact unexpected
  | succ depth ih => exact typeExprWith ih

theorem typeExpr : Parse.typeExpr.Sound := get.bind fun _ _ => typeExprWithin _

theorem typeArguments : Parse.typeArguments.Sound :=
  get.bind fun _ _ => typeArgumentsWith (typeExprWithin _)

-----------------------------------------------------------------------------------------
-- Expressions
-----------------------------------------------------------------------------------------

section Expressions

variable {nested : Operand} (sound : ∀ power, (nested power).Sound)

include sound

theorem argumentsWith : (Parse.argumentsWith nested).Sound := by
  refine (expect .openParen).bind fun _ _ => kind.bind fun _ _ => ?_
  dsimp only
  split
  · exact (Sound.pure []).bind fun _ _ => (expect .closeParen).bind fun _ _ => .pure trivial
  · exact (separated (sound _)).bind fun _ _ => (expect .closeParen).bind fun _ _ => .pure trivial

theorem identifierWith : (Parse.identifierWith nested).Sound := by
  have comparison (names : List Token) (first : Token) : Sound (do
      return Expr.id names (← Parse.spanFrom first.span)) :=
    (spanFrom _).bind fun _ _ => .pure trivial
  refine get.bind fun stream _ => qualifiedName.bind fun names _ => kind.bind fun _ _ => ?_
  refine ite ?_ (comparison names _)
  have generics : Sound (do
      let generics ← Parse.typeArguments
      if (← Parse.kind) == .openParen then return generics else Parse.unexpected) :=
    typeArguments.bind fun _ _ => kind.bind fun _ _ => ite (.pure trivial) unexpected
  refine (attempt generics).bind fun generics? _ => ?_
  split
  · exact (spanFrom _).bind fun _ _ => (argumentsWith sound).bind fun _ _ =>
      (spanFrom _).bind fun _ _ => .pure trivial
  · exact comparison names _

theorem fieldInitWith : (Parse.fieldInitWith nested).Sound := by
  refine (accept .dot).bind fun _ _ => ite ?_ ?_
  · exact (expect .identifier).bind fun _ _ => (expect .assignment).bind fun _ _ =>
      (sound _).bind fun _ _ => .pure trivial
  · exact (expect .identifier).bind fun _ _ => (expect .colon).bind fun _ _ =>
      (sound _).bind fun _ _ => .pure trivial

theorem bracesWith : (Parse.bracesWith nested).Sound := by
  refine (expect .openCurly).bind fun opening _ => get.bind fun stream _ => ite ?_ ?_
  · exact (separated (fieldInitWith sound)).bind fun _ _ => (expect .closeCurly).bind fun _ _ =>
      (spanFrom _).bind fun _ _ => .pure trivial
  · dsimp only
    split
    · exact (Sound.pure []).bind fun _ _ => (expect .closeCurly).bind fun _ _ =>
        (spanFrom _).bind fun _ _ => .pure trivial
    · exact (separated (sound _)).bind fun _ _ => (expect .closeCurly).bind fun _ _ =>
        (spanFrom _).bind fun _ _ => .pure trivial

omit sound in
theorem numberLiteral (read? : List Char → Option α) (token : Token)
    : (Parse.numberLiteral read? token).Sound := by
  unfold Parse.numberLiteral
  split
  · exact .pure _
  · exact throw _

theorem primaryWith : (Parse.primaryWith nested).Sound := by
  refine kind.bind fun class_ _ => ?_
  split
  · exact next.bind fun _ _ => (numberLiteral _ _).bind fun _ _ => .pure trivial
  · exact next.bind fun _ _ => (numberLiteral _ _).bind fun _ _ => .pure trivial
  · exact next.bind fun _ _ => .pure trivial
  · exact next.bind fun _ _ => .pure trivial
  · exact next.bind fun _ _ => .pure trivial
  · exact identifierWith sound
  · exact next.bind fun _ _ => (sound _).bind fun _ _ => .pure trivial
  · exact next.bind fun _ _ => (sound _).bind fun _ _ => .pure trivial
  · exact next.bind fun _ _ => (sound _).bind fun _ _ => .pure trivial
  · exact next.bind fun _ _ => (sound _).bind fun _ _ => .pure trivial
  · exact next.bind fun _ _ => (sound _).bind fun _ _ =>
      (expect .closeParen).bind fun _ _ => .pure trivial
  · exact bracesWith sound
  · exact unexpected

theorem continuationWith (left : Expr) (power : BindingPower)
    : (Parse.continuationWith nested left power).Sound := by
  refine kind.bind fun class_ _ => ?_
  split
  · exact next.bind fun _ _ => (sound _).bind fun _ _ => (expect .colon).bind fun _ _ =>
      (sound _).bind fun _ _ => .pure trivial
  · split
    · exact (argumentsWith sound).bind fun _ _ => (spanFrom _).bind fun _ _ => .pure trivial
    · exact unmet _
  · refine next.bind fun _ _ => (expect .identifier).bind fun _ _ => kind.bind fun _ _ => ite ?_ ?_
    · exact (argumentsWith sound).bind fun _ _ => (spanFrom _).bind fun _ _ => .pure trivial
    · exact (spanFrom _).bind fun _ _ => .pure trivial
  · exact next.bind fun _ _ => (sound _).bind fun _ _ => .pure trivial

theorem continueWith (power : BindingPower) (left : Expr) (count : Nat)
    : (Parse.continueWith nested power left count).Sound := by
  induction count generalizing left with
  | zero => exact .pure _
  | succ count ih =>
      refine kind.bind fun _ _ => ?_
      split
      · exact .pure trivial
      · split
        · exact (continuationWith sound left _).bind fun _ _ => ih _
        · exact .pure trivial

theorem exprWith (power : BindingPower) : (Parse.exprWith nested power).Sound :=
  (primaryWith sound).bind fun _ _ => get.bind fun _ _ => continueWith sound power _ _

end Expressions

theorem exprWithin (depth : Nat) (power : BindingPower)
    : (Parse.exprWithin depth power).Sound := by
  induction depth generalizing power with
  | zero => exact unexpected
  | succ depth ih => exact exprWith ih power

theorem expr : Parse.expr.Sound := get.bind fun _ _ => exprWithin _ _

-----------------------------------------------------------------------------------------
-- Statements
-----------------------------------------------------------------------------------------

/-- Conditions on the elements of a list, as the checks of well-formedness state them. -/
theorem allWellFormed_of_forall {stmts : List Stmt}
    (each : ∀ stmt ∈ stmts, stmt.wellFormed = true)
    : Stmt.allWellFormed stmts = true := by
  induction stmts with
  | nil => rfl
  | cons first rest ih =>
      simp only [Stmt.allWellFormed, Bool.and_eq_true]
      exact ⟨each first List.mem_cons_self, ih fun stmt member =>
        each stmt (List.mem_cons_of_mem first member)⟩

theorem allWellFormed_of_members {members : List ClassMember}
    (each : ∀ member ∈ members, ClassMember.allWellFormed [member] = true)
    : ClassMember.allWellFormed members = true := by
  induction members with
  | nil => rfl
  | cons first rest ih =>
      have later := ih fun member present => each member (List.mem_cons_of_mem first present)
      have start := each first List.mem_cons_self
      cases first with
      | varDecl decl => exact later
      | function decl =>
          simp only [ClassMember.allWellFormed, Bool.and_true, Bool.and_eq_true] at start ⊢
          exact ⟨start, later⟩

theorem classStmt {reader : Parse ClassDecl}
    (yields : reader.Yields fun decl => decl.wellFormed = true)
    : (Stmt.classDecl <$> reader).Yields fun stmt => stmt.wellFormed = true :=
  yields.map fun _ holds => holds

theorem enumStmt {reader : Parse EnumDecl}
    (yields : reader.Yields fun decl => isWord decl.name.value = true)
    : (Stmt.enumDecl <$> reader).Yields fun stmt => stmt.wellFormed = true :=
  yields.map fun _ holds => holds

section Statements

variable {nested : Parse Stmt} (yields : nested.Yields fun stmt => stmt.wellFormed = true)

include yields

theorem blockWith : (Parse.blockWith nested).Yields fun block => block.wellFormed = true :=
  get.bind fun _ _ => (braced yields).bind fun _ each => (spanFrom _).bind fun _ _ =>
    .pure (allWellFormed_of_forall each)

theorem functionWith (returnType : TypeExpr) (name : Token)
    : (Parse.functionWith nested returnType name).Yields fun decl => decl.wellFormed = true := by
  have parameter : Parse.param.Sound :=
    typeExpr.bind fun _ _ => (expect .identifier).bind fun _ _ => .pure trivial
  have rest (params : List ParamDecl) : Yields (do
      let _ ← Parse.expect .closeParen
      let body ← Parse.blockWith nested
      return FunctionDecl.mk returnType name params body false
        (← Parse.spanFrom returnType.span)) fun decl => decl.wellFormed = true :=
    (expect .closeParen).bind fun _ _ => (blockWith yields).bind fun _ body =>
      (spanFrom _).bind fun _ _ => .pure body
  refine (expect .openParen).bind fun _ _ => kind.bind fun _ _ => ?_
  dsimp only
  split
  · exact (Sound.pure []).bind fun params _ => rest params
  · exact (separated parameter).bind fun params _ => rest params

omit yields in
theorem variableAfter (type : TypeExpr) (name : Token)
    : (Parse.variableAfter type name).Sound := by
  have rest (initial? : Option Expr) : Sound (do
      let _ ← Parse.expect .semicolon
      return (⟨type, name, initial?, false, ← Parse.spanFrom type.span⟩ : VariableDecl)) :=
    (expect .semicolon).bind fun _ _ => (spanFrom _).bind fun _ _ => .pure trivial
  refine (accept .assignment).bind fun _ _ => ?_
  dsimp only
  split
  · exact (soundMap expr some).bind fun initial? _ => rest initial?
  · exact (Sound.pure none).bind fun initial? _ => rest initial?

omit yields in
theorem declarator : Parse.declarator.Sound :=
  typeExpr.bind fun _ _ => (expect .identifier).bind fun _ _ => .pure trivial

/-- A declaration that begins with a type is simple. -/
theorem declarationAfter (found? : Option (TypeExpr × Token))
    : Yields
        (match found? with
          | none => return none
          | some (type, name) => do
            if (← Parse.kind) == .openParen then
              return some (Stmt.function (← Parse.functionWith nested type name))
            else return some (Stmt.varDecl (← Parse.variableAfter type name))
          : Parse (Option Stmt))
        fun stmt? => ∀ stmt, stmt? = some stmt → stmt.wellFormed = true ∧ stmt.isSimple = true := by
  cases found? with
  | none =>
      refine .pure fun stmt impossible => ?_
      cases impossible
  | some found =>
      refine kind.bind fun _ _ => ite ?_ ?_
      · refine (functionWith yields _ _).bind fun decl holds => .pure fun stmt same => ?_
        cases same
        exact ⟨holds, rfl⟩
      · refine (variableAfter _ _).bind fun decl _ => .pure fun stmt same => ?_
        cases same
        exact ⟨rfl, rfl⟩

theorem declarationWith?
    : (Parse.declarationWith? nested).Yields fun stmt? =>
        ∀ stmt, stmt? = some stmt → stmt.wellFormed = true ∧ stmt.isSimple = true := by
  refine kind.bind fun class_ _ => ?_
  split
  · exact (attempt declarator).bind fun found? _ => declarationAfter yields found?
  · exact (attempt declarator).bind fun found? _ => declarationAfter yields found?
  · refine .pure fun stmt impossible => ?_
    cases impossible

theorem simpleStmtWith
    : (Parse.simpleStmtWith nested).Yields fun stmt =>
        stmt.wellFormed = true ∧ stmt.isSimple = true := by
  refine (declarationWith? yields).bind fun stmt? holds => ?_
  cases stmt? with
  | some stmt => exact .pure (holds stmt rfl)
  | none => exact expr.bind fun _ _ => (expect .semicolon).bind fun _ _ => .pure ⟨rfl, rfl⟩

omit yields in
theorem importStmt : Parse.importStmt.Yields fun stmt => stmt.wellFormed = true :=
  next.bind fun _ _ => (expect .string).bind fun _ _ => (expect .semicolon).bind fun _ _ =>
    (spanFrom _).bind fun _ _ => .pure rfl

theorem classMemberWith (className : Token)
    : (Parse.classMemberWith nested className).Yields fun member =>
        ClassMember.allWellFormed [member] = true := by
  have function (type : TypeExpr) (name : Token) : Yields (do
      return ClassMember.function (← Parse.functionWith nested type name)) fun member =>
        ClassMember.allWellFormed [member] = true :=
    (functionWith yields type name).bind fun decl holds =>
      .pure (by simpa only [ClassMember.allWellFormed, Bool.and_true] using holds)
  refine get.bind fun stream _ => ite ?_ ?_
  · exact next.bind fun name _ => function _ name
  · refine declarator.bind fun found _ => kind.bind fun _ _ => ite (function _ _) ?_
    exact (expect .semicolon).bind fun _ _ => (spanFrom _).bind fun _ _ => .pure rfl

theorem classWith : (Parse.classWith nested).Yields fun decl => decl.wellFormed = true := by
  have rest (keyword name : Token) (word : isWord name.value = true) (base? : Option TypeExpr)
      : Yields (do
        let members ← Parse.braced (Parse.classMemberWith nested name)
        let _ ← Parse.accept .semicolon
        return ClassDecl.mk name base? members false (← Parse.spanFrom keyword.span)) fun decl =>
          decl.wellFormed = true := by
    refine (braced (classMemberWith yields name)).bind fun members each =>
      (accept .semicolon).bind fun _ _ => (spanFrom _).bind fun _ _ => .pure ?_
    simp only [ClassDecl.wellFormed, Bool.and_eq_true]
    exact ⟨word, allWellFormed_of_members each⟩
  refine next.bind fun keyword _ => expectWord.bind fun name word =>
    (accept .colon).bind fun _ _ => ?_
  dsimp only
  split
  · exact (soundMap typeExpr some).bind fun base? _ => rest keyword name word base?
  · exact (Sound.pure none).bind fun base? _ => rest keyword name word base?

omit yields in
theorem moreEnumerators (count : Nat) : (Parse.moreEnumerators count).Sound := by
  induction count with
  | zero => exact .pure _
  | succ count ih =>
      refine (accept .comma).bind fun _ _ => ite ?_ (Sound.pure [])
      refine kind.bind fun _ _ => ite (Sound.pure []) ?_
      exact (expect .identifier).bind fun _ _ => ih.bind fun _ _ => .pure trivial

omit yields in
theorem enumDecl : Parse.enumDecl.Yields fun decl => isWord decl.name.value = true :=
  next.bind fun _ _ => expectWord.bind fun _ word => (expect .openCurly).bind fun _ _ =>
    (expect .identifier).bind fun _ _ => get.bind fun _ _ => (moreEnumerators _).bind fun _ _ =>
      (expect .closeCurly).bind fun _ _ => (accept .semicolon).bind fun _ _ =>
        (spanFrom _).bind fun _ _ => .pure word

omit yields in
/-- The mark of an export leaves a statement well formed, by cases on the statement. -/
theorem exportDeclaration_wellFormed {stmt : Stmt} (holds : stmt.wellFormed = true) (span : Span)
    : (Parse.exportDeclaration span stmt).wellFormed = true := by
  cases stmt with
  | function decl =>
      cases decl with
      | mk type name params body exported before => exact holds
  | classDecl decl =>
      cases decl with
      | mk name base? members exported before => exact holds
  | _ => exact holds

theorem exportWith : (Parse.exportWith nested).Yields fun stmt => stmt.wellFormed = true := by
  have rest (keyword : Token) {stmt : Stmt} (holds : stmt.wellFormed = true) : Yields (do
      return Parse.exportDeclaration (← Parse.spanFrom keyword.span) stmt) fun stmt =>
        stmt.wellFormed = true :=
    (spanFrom _).bind fun span _ => .pure (exportDeclaration_wellFormed holds span)
  have classRead := (classWith yields).classStmt
  have enumRead := enumDecl.enumStmt
  refine next.bind fun keyword _ => kind.bind fun class_ _ => ?_
  dsimp only
  split
  · exact classRead.bind fun _ holds => rest keyword holds
  · exact enumRead.bind fun _ holds => rest keyword holds
  · refine (declarationWith? yields).bind fun stmt? holds => ?_
    cases stmt? with
    | none =>
        have nothing : Yields (Parse.unmet .declarationAfterExport : Parse Stmt) fun stmt =>
          stmt.wellFormed = true := unmet _
        exact nothing.bind fun _ holds => rest keyword holds
    | some stmt =>
        have read : Yields (Pure.pure stmt) fun stmt => stmt.wellFormed = true :=
          .pure (holds stmt rfl).1
        exact read.bind fun _ holds => rest keyword holds

omit yields in
theorem moreNames (count : Nat)
    : (Parse.moreNames count).Yields fun names => ∀ name ∈ names, isWord name.value = true := by
  induction count with
  | zero => exact .pure (by simp)
  | succ count ih =>
      refine (accept .colonColon).bind fun _ _ => ite ?_ (.pure (by simp))
      refine expectWord.bind fun first word => ih.bind fun rest later => .pure ?_
      intro name member
      rcases List.mem_cons.mp member with rfl | member
      · exact word
      · exact later name member

theorem namespaceWith
    : (Parse.namespaceWith nested).Yields fun stmt => stmt.wellFormed = true := by
  refine next.bind fun keyword _ => expectWord.bind fun first word => get.bind fun stream _ =>
    (moreNames _).bind fun rest later => (braced yields).bind fun body each =>
      (spanFrom _).bind fun span _ => .pure ?_
  simp only [Stmt.wellFormed, Bool.and_eq_true, List.all_cons, List.all_eq_true]
  exact ⟨⟨word, later⟩, allWellFormed_of_forall each⟩

theorem branchWith
    : (Parse.branchWith nested).Yields fun branch => Branch.allWellFormed [branch] = true :=
  (expect .openParen).bind fun _ _ => expr.bind fun _ _ => (expect .closeParen).bind fun _ _ =>
    (blockWith yields).bind fun _ body =>
      .pure (by simpa only [Branch.allWellFormed, Bool.and_true] using body)

theorem otherwiseWith (count : Nat)
    : (Parse.otherwiseWith nested count).Yields fun found =>
        Branch.allWellFormed found.1 = true ∧ ∀ body, found.2 = some body →
          body.wellFormed = true := by
  induction count with
  | zero => exact .pure ⟨rfl, fun body impossible => nomatch impossible⟩
  | succ count ih =>
      refine (accept .elseKeyword).bind fun _ _ => ite ?_
        (.pure ⟨rfl, fun body impossible => nomatch impossible⟩)
      refine (accept .ifKeyword).bind fun _ _ => ite ?_ ?_
      · refine (branchWith yields).bind fun first holds => ih.bind fun found later => .pure ?_
        refine ⟨?_, later.2⟩
        cases first with
        | mk condition body =>
            simp only [Branch.allWellFormed, Bool.and_true, Bool.and_eq_true] at holds ⊢
            exact ⟨holds, later.1⟩
      · refine (blockWith yields).bind fun body holds => .pure ⟨rfl, fun other same => ?_⟩
        cases same
        exact holds

theorem conditionalWith
    : (Parse.conditionalWith nested).Yields fun stmt => stmt.wellFormed = true := by
  refine next.bind fun keyword _ => (branchWith yields).bind fun first holds =>
    get.bind fun stream _ => (otherwiseWith yields _).bind fun found later =>
      (spanFrom _).bind fun span _ => .pure ?_
  obtain ⟨rest, last?⟩ := found
  cases first with
  | mk condition body =>
      have branches : Branch.allWellFormed (.mk condition body :: rest) = true := by
        simp only [Branch.allWellFormed, Bool.and_true, Bool.and_eq_true] at holds ⊢
        exact ⟨holds, later.1⟩
      cases last? with
      | none => exact branches
      | some last =>
          simp only [Stmt.wellFormed, Bool.and_eq_true]
          exact ⟨branches, later.2 last rfl⟩

theorem whileWith : (Parse.whileWith nested).Yields fun stmt => stmt.wellFormed = true := by
  refine next.bind fun keyword _ => (branchWith yields).bind fun branch holds => ?_
  cases branch with
  | mk condition body =>
      simp only [Branch.allWellFormed, Bool.and_true] at holds
      exact (spanFrom _).bind fun _ _ => .pure holds

theorem forWith : (Parse.forWith nested).Yields fun stmt => stmt.wellFormed = true := by
  have finish (keyword : Token) {initial? : Option Stmt}
      (simple : initial?.all Stmt.isSimple = true) (condition? iteration? : Option Expr)
      : Yields (do
        let _ ← Parse.expect .closeParen
        let body ← Parse.blockWith nested
        return Stmt.forLoop initial? condition? iteration? body
          (← Parse.spanFrom keyword.span)) fun stmt => stmt.wellFormed = true := by
    refine (expect .closeParen).bind fun _ _ => (blockWith yields).bind fun body holds =>
      (spanFrom _).bind fun _ _ => .pure ?_
    simp only [Stmt.wellFormed, Bool.and_eq_true]
    exact ⟨simple, holds⟩
  have head (keyword : Token) {initial? : Option Stmt}
      (simple : initial?.all Stmt.isSimple = true) (condition? : Option Expr)
      : Yields (do
        let _ ← Parse.expect .semicolon
        let iteration? ← if (← Parse.kind) == .closeParen then Pure.pure none
          else some <$> Parse.expr
        let _ ← Parse.expect .closeParen
        let body ← Parse.blockWith nested
        return Stmt.forLoop initial? condition? iteration? body
          (← Parse.spanFrom keyword.span)) fun stmt => stmt.wellFormed = true := by
    refine (expect .semicolon).bind fun _ _ => kind.bind fun _ _ => ?_
    dsimp only
    split
    · exact (Sound.pure none).bind fun iteration? _ => finish keyword simple _ iteration?
    · exact (soundMap expr some).bind fun iteration? _ => finish keyword simple _ iteration?
  have start (keyword : Token) {initial? : Option Stmt}
      (simple : initial?.all Stmt.isSimple = true)
      : Yields (do
        let condition? ← if (← Parse.kind) == .semicolon then Pure.pure none
          else some <$> Parse.expr
        let _ ← Parse.expect .semicolon
        let iteration? ← if (← Parse.kind) == .closeParen then Pure.pure none
          else some <$> Parse.expr
        let _ ← Parse.expect .closeParen
        let body ← Parse.blockWith nested
        return Stmt.forLoop initial? condition? iteration? body
          (← Parse.spanFrom keyword.span)) fun stmt => stmt.wellFormed = true := by
    refine kind.bind fun _ _ => ?_
    dsimp only
    split
    · exact (Sound.pure none).bind fun condition? _ => head keyword simple condition?
    · exact (soundMap expr some).bind fun condition? _ => head keyword simple condition?
  have initial : (some <$> Parse.simpleStmtWith nested).Yields fun initial? =>
      initial?.all Stmt.isSimple = true :=
    (simpleStmtWith yields).map fun _ holds => holds.2
  have nothing : Yields (Pure.pure none : Parse (Option Stmt)) fun initial? =>
      initial?.all Stmt.isSimple = true :=
    .pure rfl
  refine next.bind fun keyword _ => (expect .openParen).bind fun _ _ =>
    (accept .semicolon).bind fun _ _ => ?_
  dsimp only
  split
  · exact nothing.bind fun initial? simple => start keyword simple
  · exact initial.bind fun initial? simple => start keyword simple

omit yields in
theorem breakStmt : Parse.breakStmt.Yields fun stmt => stmt.wellFormed = true :=
  next.bind fun _ _ => (expect .semicolon).bind fun _ _ => (spanFrom _).bind fun _ _ => .pure rfl

omit yields in
theorem returnStmt : Parse.returnStmt.Yields fun stmt => stmt.wellFormed = true := by
  refine next.bind fun keyword _ => kind.bind fun _ _ => ?_
  dsimp only
  split
  · exact (Sound.pure none).bind fun _ _ => (expect .semicolon).bind fun _ _ =>
      (spanFrom _).bind fun _ _ => .pure rfl
  · exact (soundMap expr some).bind fun _ _ => (expect .semicolon).bind fun _ _ =>
      (spanFrom _).bind fun _ _ => .pure rfl

theorem stmtWith : (Parse.stmtWith nested).Yields fun stmt => stmt.wellFormed = true := by
  refine kind.bind fun class_ _ => ?_
  split
  · exact importStmt
  · exact exportWith yields
  · exact namespaceWith yields
  · exact (classWith yields).classStmt
  · exact enumDecl.enumStmt
  · exact conditionalWith yields
  · exact whileWith yields
  · exact forWith yields
  · exact breakStmt
  · exact returnStmt
  · exact (blockWith yields).map fun _ holds => holds
  · exact (simpleStmtWith yields).weaken fun _ holds => holds.1

end Statements

/-- Statements that are read are well formed, by induction over their depth. -/
theorem stmtWithin (depth : Nat)
    : (Parse.stmtWithin depth).Yields fun stmt => stmt.wellFormed = true := by
  induction depth with
  | zero => exact unexpected
  | succ depth ih => exact stmtWith ih

theorem untilEnd (count : Nat)
    : (Parse.untilEnd count).Yields fun stmts => Stmt.allWellFormed stmts = true := by
  induction count with
  | zero => exact .pure rfl
  | succ count ih =>
      refine kind.bind fun _ _ => ite (.pure rfl) ?_
      refine (get.bind fun _ _ => stmtWithin _).bind fun first holds => ih.bind fun rest later =>
        .pure ?_
      simp only [Stmt.allWellFormed, Bool.and_eq_true]
      exact ⟨holds, later⟩

theorem scriptUnit
    : Parse.scriptUnit.Yields fun scriptUnit => Stmt.allWellFormed scriptUnit.body = true :=
  get.bind fun _ _ => (untilEnd _).bind fun _ each => (spanFrom _).bind fun _ _ => .pure each

end BuildScript.Parse.Yields

namespace BuildScript

/-- The statements of a script that is read from a text are well formed: its tokens are sound,
and the grammar yields nothing else from sound tokens.
-/
theorem ScriptUnit.ofSource_wellFormed {source file : String} {scriptUnit : ScriptUnit}
    (read : ScriptUnit.ofSource source file = .ok scriptUnit)
    : Stmt.allWellFormed scriptUnit.body = true := by
  unfold ScriptUnit.ofSource at read
  cases scanned : Token.scan source file with
  | error error =>
      rw [scanned] at read
      exact nomatch read
  | ok tokens =>
      rw [scanned] at read
      have run : Parse.runOn Parse.scriptUnit tokens file = .ok scriptUnit := read
      unfold Parse.runOn at run
      split at run
      · next value after outcome =>
          cases run
          have sound := TokenStream.ofTokens_sound (Token.scanFrom_sound file 0 _ scanned) file
          exact (Parse.Yields.scriptUnit _ sound _ _ outcome).2
      · exact nomatch run

end BuildScript
