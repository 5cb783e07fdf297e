import BuildScript.Proofs.Syntax.Placement

/-! Spans nest. Statements and declarations are placed where they are read from, by induction over
their depth. So every node of a script has its names and its parts inside its span, and the parts in
increasing order.
-/

namespace BuildScript

namespace Parse

variable {α β : Type} {file : String} {size : Nat}

namespace Reaches

-----------------------------------------------------------------------------------------
-- Declarations
-----------------------------------------------------------------------------------------

/-- Items up to a closing brace, by induction on how many may be read. -/
theorem untilBrace {item : Parse α} {outline : α → Outline}
    (items : ∀ place, Reaches file size place item fun stop value =>
      (outline value).Within file place stop)
    (place count : Nat)
    : Reaches file size place (Parse.untilBrace item count) fun stop values =>
        Outline.Fills file place stop [] (values.map outline) := by
  induction count generalizing place with
  | zero => exact unmet _
  | succ count ih =>
      refine kind fun shown => ?_
      split
      · exact .nextThen (by decide) fun closing ends => pure (.nil ends.le)
      · exact (unmet _).here _
      · refine here ((items place).bind fun middle first within => ?_) _
        exact (ih middle).bind fun stop rest more => pure ((Outline.Fills.part within).append more)

theorem braced {item : Parse α} {outline : α → Outline}
    (items : ∀ place, Reaches file size place item fun stop value =>
      (outline value).Within file place stop)
    (place : Nat)
    : Reaches file size place (Parse.braced item) fun stop values =>
        Outline.Fills file place stop [] (values.map outline) := by
  refine expectThen (by decide) fun opening begins => get fun stream => ?_
  intro stream laid behind values after outcome
  obtain ⟨laid', filled⟩ := untilBrace items _ _ stream laid behind values after outcome
  exact ⟨laid', filled.mono begins.le (Nat.le_refl _)⟩

/-- What comes after a piece that is read where nothing tells that it is left out. -/
theorem readUnless {item : Parse α} {outline : α → Outline} (missing : Bool) {place : Nat}
    {after : Option α → Parse β} {post : Nat → β → Prop}
    (reads : Reaches file size place item fun stop value => (outline value).Within file place stop)
    (rest : ∀ middle value?,
      Outline.Fills file place middle [] (value?.map outline).toList →
      Reaches file size middle (after value?) post)
    : Reaches file size place
        (if missing then Pure.pure none >>= after else some <$> item >>= after) post := by
  split
  · rw [pure_bind]
    exact rest place none (.nil (Nat.le_refl place))
  · have given : Reaches file size place (some <$> item) fun stop value? =>
        Outline.Fills file place stop [] (value?.map outline).toList :=
      reads.map fun stop value within => .part within
    exact given.bind rest

/-- (Declares file place stop type name) says that a type and a name are declared between two
places.
-/
structure Declares (file : String) (place stop : Nat) (type : TypeExpr) (name : Token) : Prop where
  text : type.span.file = file
  after : place ≤ type.span.start
  fills : Outline.Fills file type.span.start stop [name] [type.outline]
  apart : type.span ≠ name.span

theorem declares {place middle : Nat} {type : TypeExpr} {name : Token}
    (within : type.outline.Within file place middle) (follows : name.Follows file middle)
    : Declares file place name.span.stop type name := by
  obtain ⟨text, after, before⟩ := within.known (Outline.span_type type)
  refine ⟨text, after, (Outline.Fills.opening within (Outline.span_type type)).append follows.named,
    fun same => ?_⟩
  -- The name has characters, and they are behind the type.
  rw [same] at before
  exact Nat.lt_irrefl _ (Nat.lt_of_lt_of_le follows.solid (Nat.le_trans before follows.after))

theorem declarator (place : Nat)
    : Reaches file size place Parse.declarator fun stop declared =>
        Declares file place stop declared.1 declared.2 :=
  (typeExpr place).bind fun _ _ within => expectThen (by decide) fun _ follows =>
    pure (declares within follows)

theorem param (place : Nat)
    : Reaches file size place Parse.param fun stop param =>
        Outline.Fills file place stop [param.name] [param.type.outline] :=
  (typeExpr place).bind fun _ _ within => expectThen (by decide) fun _ follows =>
    pure ((Outline.Fills.part within).append follows.named)

theorem variableAfter {type : TypeExpr} {name : Token} {lower place : Nat}
    (declared : Declares file lower place type name)
    : Reaches file size place (Parse.variableAfter type name) fun stop decl =>
        decl.outline.Within file lower stop := by
  have rest {middle : Nat} (initial? : Option Expr)
      (given : Outline.Fills file place middle [] (initial?.map Expr.outline).toList)
      : Reaches file size middle
          (do
            let _ ← Parse.expect .semicolon
            return (⟨type, name, initial?, false, ← Parse.spanFrom type.span⟩ : VariableDecl))
          fun stop decl => decl.outline.Within file lower stop := by
    refine expectThen (by decide) fun semicolon ends => spanFromThen (pure ?_)
    have filled := (declared.fills.append given).mono (Nat.le_refl _) ends.le
    exact filled.within declared.text declared.after (Nat.le_refl _)
  refine acceptThen (by decide) (fun sign follows => ?_) (rest none (.nil (Nat.le_refl place)))
  refine ((expr _).map fun stop value within => ?_).bind fun middle initial? given =>
    rest initial? given
  exact (Outline.Fills.part within).mono follows.le (Nat.le_refl stop)

theorem importStmt (place : Nat) {shown : TokenKind} (inner : shown ≠ .endOfFile)
    : ReachesAt file size shown place Parse.importStmt fun stop statement =>
        statement.outline.Within file place stop := by
  refine .nextThen inner fun keyword begins => expectThen (by decide) fun path follows => ?_
  refine expectThen (by decide) fun semicolon ends => spanFromThen (pure ?_)
  exact (follows.named.mono begins.own.le ends.le).within begins.text begins.after (Nat.le_refl _)

theorem moreEnumerators (place count : Nat)
    : Reaches file size place (Parse.moreEnumerators count) fun stop names =>
        Outline.Fills file place stop names [] := by
  induction count generalizing place with
  | zero => exact pure (.nil (Nat.le_refl place))
  | succ count ih =>
      refine acceptThen (by decide) (fun comma first => kind fun shown => here ?_ _)
        (pure (.nil (Nat.le_refl place)))
      split
      · exact pure (.nil first.le)
      · refine expectThen (by decide) fun name follows => (ih _).bind fun stop rest more => pure ?_
        exact (follows.named.append more).mono first.le (Nat.le_refl stop)

theorem enumDecl (place : Nat) {shown : TokenKind} (inner : shown ≠ .endOfFile)
    : ReachesAt file size shown place Parse.enumDecl fun stop decl =>
        (Stmt.enumDecl decl).outline.Within file place stop := by
  refine .nextThen inner fun keyword begins => expectThen (by decide) fun name follows => ?_
  refine expectThen (by decide) fun opening later => expectThen (by decide) fun first next => ?_
  refine get fun stream => (moreEnumerators _ _).bind fun middle rest more => ?_
  refine expectThen (by decide) fun closing ends => ?_
  have declared := (follows.named.mono begins.own.le later.le).append (next.named.append more)
  refine acceptThen (by decide) (fun semicolon last => spanFromThen (pure ?_))
    (spanFromThen (pure ?_))
  · exact (declared.mono (Nat.le_refl _) (Nat.le_trans ends.le last.le)).within begins.text
      begins.after (Nat.le_refl _)
  · exact (declared.mono (Nat.le_refl _) ends.le).within begins.text begins.after (Nat.le_refl _)

theorem enumStmt (place : Nat) {shown : TokenKind} (inner : shown ≠ .endOfFile)
    : ReachesAt file size shown place (Stmt.enumDecl <$> Parse.enumDecl) fun stop statement =>
        statement.outline.Within file place stop :=
  (enumDecl place inner).map fun _ _ within => within

theorem moreNames (place count : Nat)
    : Reaches file size place (Parse.moreNames count) fun stop names =>
        Outline.Fills file place stop names [] := by
  induction count generalizing place with
  | zero => exact pure (.nil (Nat.le_refl place))
  | succ count ih =>
      refine acceptThen (by decide) (fun colons first => ?_) (pure (.nil (Nat.le_refl place)))
      refine expectThen (by decide) fun name follows => (ih _).bind fun stop rest more => pure ?_
      exact (follows.named.append more).mono first.le (Nat.le_refl stop)

/-- An exported declaration covers its span, and keeps its names and its parts. -/
theorem exportDeclaration_within (span : Span) {decl : Stmt} (text : span.file = file)
    (within : decl.outline.Within file span.start span.stop)
    : (exportDeclaration span decl).outline.Within file span.start span.stop := by
  have fills := within.placed.fills.mono within.after within.before
  cases decl with
  | varDecl decl => exact fills.within text (Nat.le_refl _) (Nat.le_refl _)
  | function decl => cases decl; exact fills.within text (Nat.le_refl _) (Nat.le_refl _)
  | classDecl decl => cases decl; exact fills.within text (Nat.le_refl _) (Nat.le_refl _)
  | enumDecl decl => exact fills.within text (Nat.le_refl _) (Nat.le_refl _)
  | _ => exact within

section Nested

variable {nested : Parse Stmt}
  (parts : ∀ place, Reaches file size place nested fun stop statement =>
    statement.outline.Within file place stop)

include parts

theorem blockWith (place : Nat)
    : Reaches file size place (Parse.blockWith nested) fun stop block =>
        block.outline.Within file place stop := by
  refine lookThen .openCurly (by decide) fun stream begins => ?_
  have body : Reaches file size stream.current.span.stop
      (MonadState.get >>= fun stream : TokenStream => Parse.untilBrace nested stream.depth)
      fun stop statements =>
        Outline.Fills file stream.current.span.stop stop [] (statements.map Stmt.outline) :=
    get fun _ => untilBrace parts _ _
  refine body.bind fun stop statements filled => spanFromThen (pure ?_)
  rw [← Stmt.outlines_eq_map] at filled
  exact (filled.mono begins.own.le (Nat.le_refl stop)).within begins.text begins.after
    (Nat.le_refl stop)

/-- The rest of a function goes on from its name, whatever stands for the type of the result. -/
theorem functionWith {type : TypeExpr} {name : Token} {lower place : Nat}
    (text : type.span.file = file) (after : lower ≤ type.span.start)
    (begun : Outline.Fills file type.span.start place [name]
      [FunctionDecl.resultOutline type name])
    : Reaches file size place (Parse.functionWith nested type name) fun stop decl =>
        decl.outline.Within file lower stop := by
  refine expectThen (by decide) fun opening first => kind fun shown => here ?_ _
  have rest {middle : Nat} (params : List ParamDecl)
      (given : Outline.Fills file place middle (params.map ParamDecl.name)
        (params.map fun param => param.type.outline))
      : Reaches file size middle
          (do
            let _ ← Parse.expect .closeParen
            let body ← Parse.blockWith nested
            return FunctionDecl.mk type name params body false (← Parse.spanFrom type.span))
          fun stop decl => decl.outline.Within file lower stop := by
    refine expectThen (by decide) fun closing last => ?_
    refine (blockWith parts _).bind fun stop body within => spanFromThen (pure ?_)
    have guarded := (Outline.Fills.part within).mono last.le (Nat.le_refl stop)
    exact ((begun.append given).andParts guarded).within text after (Nat.le_refl stop)
  dsimp only
  split
  · rw [pure_bind]
    exact rest [] (.nil first.le)
  · refine (separated param _).bind fun middle params given => rest params ?_
    rw [← List.map_eq_flatMap, ← List.map_eq_flatMap] at given
    exact given.mono first.le (Nat.le_refl middle)

/-- A declared function has its type before its name, and not in its place. -/
theorem declaredFunction {type : TypeExpr} {name : Token} {lower place : Nat}
    (declared : Declares file lower place type name)
    : Reaches file size place (Parse.functionWith nested type name) fun stop decl =>
        decl.outline.Within file lower stop := by
  refine functionWith parts declared.text declared.after ?_
  rw [FunctionDecl.resultOutline, if_neg declared.apart]
  exact declared.fills

/-- What comes after a declaration, or at an unmoved stream where there is none. -/
theorem declarationThen {after : Option Stmt → Parse α} {post : Nat → α → Prop} {place : Nat}
    (declared : ∀ middle decl, decl.outline.Within file place middle →
      Reaches file size middle (after (some decl)) post)
    (none_ : Reaches file size place (after none) post)
    : Reaches file size place (Parse.declarationWith? nested >>= after) post := by
  have declares
      : Reaches file size place
          ((Parse.attempt Parse.declarator >>= Parse.declaredAs nested) >>= after) post := by
    rw [bind_assoc]
    refine attemptThen (declarator place) (fun begun declared' known => ?_) ?_
    · obtain ⟨type, name⟩ := declared'
      simp only [Parse.declaredAs, bind_assoc]
      refine kind fun shown => here ?_ _
      split
      · simp only [bind_assoc, pure_bind]
        exact (declaredFunction parts known).bind fun middle decl within => declared middle _ within
      · simp only [bind_assoc, pure_bind]
        exact (variableAfter known).bind fun middle decl within => declared middle _ within
    · simp only [Parse.declaredAs, pure_bind]
      exact none_
  unfold Parse.declarationWith?
  rw [bind_assoc]
  refine kind fun shown => ?_
  split
  · exact declares.here _
  · exact declares.here _
  · simp only [pure_bind]
    exact none_.here _

theorem simpleStmtWith (place : Nat)
    : Reaches file size place (Parse.simpleStmtWith nested) fun stop statement =>
        statement.outline.Within file place stop := by
  refine declarationThen parts (fun middle decl within => pure within) ?_
  refine (expr place).bind fun middle value within => ?_
  refine expectThen (by decide) fun semicolon ends => ?_
  obtain ⟨text, after, before⟩ := within.known (Outline.span_expr value)
  have own : value.outline.Within file value.span.start value.span.stop := by
    rw [← Outline.span_expr]
    exact ⟨within.placed, Nat.le_refl _, Nat.le_refl _⟩
  exact pure ((Outline.Fills.part own).within text after (Nat.le_trans before ends.le))

theorem classMemberWith (className : Token) (place : Nat)
    : Reaches file size place (Parse.classMemberWith nested className) fun stop member =>
        member.outline.Within file place stop := by
  refine look fun stream => ?_
  split
  · next starts =>
      have inner : stream.kind ≠ .endOfFile := by
        simp only [Bool.and_eq_true, beq_iff_eq] at starts
        rw [starts.1.1]
        decide
      refine .nextThen inner fun name begins => ?_
      -- The type of a constructor stands in place of its name.
      have placed := Outline.Fills.part (begins.own.within (.nil begins.own.le))
      have begun : Outline.Fills file name.span.start name.span.stop [name]
          [FunctionDecl.resultOutline ⟨[className], [], false, name.span⟩ name] := by
        rw [FunctionDecl.resultOutline, if_pos rfl]
        exact ⟨begins.own.le, begins.own.named.names, placed.parts⟩
      exact (functionWith parts begins.text begins.after begun).bind fun stop decl within =>
        pure within
  · refine here ((declarator place).bind fun middle declared known => kind fun shown => here ?_ _) _
    obtain ⟨type, name⟩ := declared
    dsimp only
    split
    · exact (declaredFunction parts known).bind fun stop decl within => pure within
    · refine expectThen (by decide) fun semicolon ends => spanFromThen (pure ?_)
      exact (known.fills.mono (Nat.le_refl _) ends.le).within known.text known.after (Nat.le_refl _)

theorem classWith (place : Nat) {shown : TokenKind} (inner : shown ≠ .endOfFile)
    : ReachesAt file size shown place (Parse.classWith nested) fun stop decl =>
        decl.outline.Within file place stop := by
  refine .nextThen inner fun keyword begins => expectThen (by decide) fun name follows => ?_
  have named := follows.named.mono begins.own.le (Nat.le_refl _)
  have rest {middle : Nat} (base? : Option TypeExpr)
      (given : Outline.Fills file name.span.stop middle [] (base?.map TypeExpr.outline).toList)
      : Reaches file size middle
          (do
            let members ← Parse.braced (Parse.classMemberWith nested name)
            let _ ← Parse.accept .semicolon
            return ClassDecl.mk name base? members false (← Parse.spanFrom keyword.span))
          fun stop decl => decl.outline.Within file place stop := by
    refine (braced (classMemberWith parts name) middle).bind fun stop members filled => ?_
    rw [← ClassMember.outlines_eq_map] at filled
    have declared := named.append (given.append filled)
    refine acceptThen (by decide) (fun semicolon last => spanFromThen (pure ?_))
      (spanFromThen (pure ?_))
    · exact (declared.mono (Nat.le_refl _) last.le).within begins.text begins.after (Nat.le_refl _)
    · exact declared.within begins.text begins.after (Nat.le_refl _)
  refine acceptThen (by decide) (fun colon first => ?_) (rest none (.nil (Nat.le_refl _)))
  refine ((typeExpr _).map fun stop base within => ?_).bind fun middle base? given =>
    rest base? given
  exact (Outline.Fills.part within).mono first.le (Nat.le_refl stop)

theorem classStmt (place : Nat) {shown : TokenKind} (inner : shown ≠ .endOfFile)
    : ReachesAt file size shown place (Stmt.classDecl <$> Parse.classWith nested)
        fun stop statement => statement.outline.Within file place stop :=
  (classWith parts place inner).map fun _ _ within => within

theorem exportWith (place : Nat) {shown : TokenKind} (inner : shown ≠ .endOfFile)
    : ReachesAt file size shown place (Parse.exportWith nested) fun stop statement =>
        statement.outline.Within file place stop := by
  refine .nextThen inner fun keyword begins => kind fun shown => ?_
  have exported {middle : Nat} (decl : Stmt)
      (within : decl.outline.Within file keyword.span.stop middle)
      : Reaches file size middle
          (do return Parse.exportDeclaration (← Parse.spanFrom keyword.span) decl)
          fun stop statement => statement.outline.Within file place stop := by
    have covered : decl.outline.Within file keyword.span.start middle :=
      within.mono begins.own.le (Nat.le_refl middle)
    have exported :=
      exportDeclaration_within { keyword.span with stop := middle } begins.text covered
    exact spanFromThen (pure (exported.mono begins.after (Nat.le_refl middle)))
  dsimp only
  split
  · exact (classStmt parts _ (by decide)).bind fun middle decl within => exported decl within
  · exact (enumStmt _ (by decide)).bind fun middle decl within => exported decl within
  · refine here (declarationThen parts (fun middle decl within => ?_) ?_) _
    · simp only [pure_bind]
      exact exported decl within
    · exact (unmet _).bind fun middle decl within => exported decl within

theorem namespaceWith (place : Nat) {shown : TokenKind} (inner : shown ≠ .endOfFile)
    : ReachesAt file size shown place (Parse.namespaceWith nested) fun stop statement =>
        statement.outline.Within file place stop := by
  refine .nextThen inner fun keyword begins => expectThen (by decide) fun first follows => ?_
  refine get fun stream => (moreNames _ _).bind fun middle rest more => ?_
  refine (braced parts middle).bind fun stop body filled => spanFromThen (pure ?_)
  rw [← Stmt.outlines_eq_map] at filled
  have named := (follows.named.mono begins.own.le (Nat.le_refl _)).append more
  exact (named.andParts filled).within begins.text begins.after (Nat.le_refl stop)

-----------------------------------------------------------------------------------------
-- Control
-----------------------------------------------------------------------------------------

theorem branchWith (place : Nat)
    : Reaches file size place (Parse.branchWith nested) fun stop branch =>
        Outline.Fills file place stop [] (Branch.outlines [branch]) := by
  refine expectThen (by decide) fun opening first => (expr _).bind fun middle condition within => ?_
  refine expectThen (by decide) fun closing last => ?_
  refine (blockWith parts _).bind fun stop body guarded => ?_
  have tested := (Outline.Fills.part within).mono first.le last.le
  exact pure (tested.append (.part guarded))

/-- The alternatives of a conditional, by induction on how many may be read. -/
theorem otherwiseWith (place count : Nat)
    : Reaches file size place (Parse.otherwiseWith nested count) fun stop others =>
        Outline.Fills file place stop [] (Branch.outlines others.1 ++ Block.outline? others.2) := by
  induction count generalizing place with
  | zero => exact pure (.nil (Nat.le_refl place))
  | succ count ih =>
      refine acceptThen (by decide) (fun keyword first => ?_) (pure (.nil (Nat.le_refl place)))
      refine acceptThen (by decide) (fun keyword' second => ?_) ?_
      · refine (branchWith parts _).bind fun middle branch tested => ?_
        refine (ih middle).bind fun stop others more => pure ?_
        obtain ⟨condition, body⟩ := branch
        exact (tested.append more).mono (Nat.le_trans first.le second.le) (Nat.le_refl stop)
      · refine (blockWith parts _).bind fun stop body within => pure ?_
        exact (Outline.Fills.part within).mono first.le (Nat.le_refl stop)

theorem conditionalWith (place : Nat) {shown : TokenKind} (inner : shown ≠ .endOfFile)
    : ReachesAt file size shown place (Parse.conditionalWith nested) fun stop statement =>
        statement.outline.Within file place stop := by
  refine .nextThen inner fun keyword begins => ?_
  refine (branchWith parts _).bind fun middle first tested => get fun stream => ?_
  refine (otherwiseWith parts middle _).bind fun stop others more => spanFromThen (pure ?_)
  obtain ⟨condition, body⟩ := first
  exact ((tested.append more).mono begins.own.le (Nat.le_refl stop)).within begins.text begins.after
    (Nat.le_refl stop)

theorem whileWith (place : Nat) {shown : TokenKind} (inner : shown ≠ .endOfFile)
    : ReachesAt file size shown place (Parse.whileWith nested) fun stop statement =>
        statement.outline.Within file place stop := by
  refine .nextThen inner fun keyword begins => ?_
  refine (branchWith parts _).bind fun stop branch tested => ?_
  obtain ⟨condition, body⟩ := branch
  refine spanFromThen (pure ?_)
  exact (tested.mono begins.own.le (Nat.le_refl stop)).within begins.text begins.after
    (Nat.le_refl stop)

theorem forWith (place : Nat) {shown : TokenKind} (inner : shown ≠ .endOfFile)
    : ReachesAt file size shown place (Parse.forWith nested) fun stop statement =>
        statement.outline.Within file place stop := by
  refine .nextThen inner fun keyword begins => expectThen (by decide) fun opening first => ?_
  have start := Nat.le_trans begins.own.le first.le
  have rest {middle : Nat} (initial? : Option Stmt)
      (given : Outline.Fills file keyword.span.start middle [] (initial?.map Stmt.outline).toList)
      : Reaches file size middle
          (do
            let condition? ←
              if (← Parse.kind) == .semicolon then Pure.pure none else some <$> Parse.expr
            let _ ← Parse.expect .semicolon
            let iteration? ←
              if (← Parse.kind) == .closeParen then Pure.pure none else some <$> Parse.expr
            let _ ← Parse.expect .closeParen
            let body ← Parse.blockWith nested
            return Stmt.forLoop initial? condition? iteration? body (← Parse.spanFrom keyword.span))
          fun stop statement => statement.outline.Within file place stop := by
    rw [← Stmt.outline?_eq_map] at given
    refine kind fun shown => here (readUnless _ (expr _) fun tested condition? more => ?_) _
    refine expectThen (by decide) fun semicolon ends => kind fun shown => here ?_ _
    refine readUnless _ (expr _) fun moved iteration? more' => ?_
    refine expectThen (by decide) fun closing last => ?_
    refine (blockWith parts _).bind fun stop body within => spanFromThen (pure ?_)
    have head := (given.append more).append (more'.mono ends.le (Nat.le_refl moved))
    have whole := head.append ((Outline.Fills.part within).mono last.le (Nat.le_refl stop))
    exact whole.within begins.text begins.after (Nat.le_refl stop)
  refine acceptThen (by decide)
    (fun semicolon ends => rest none (.nil (Nat.le_trans start ends.le))) ?_
  refine ((simpleStmtWith parts _).map fun stop value within => ?_).bind
    fun middle initial? given => rest initial? given
  exact (Outline.Fills.part within).mono start (Nat.le_refl stop)

omit parts in
theorem breakStmt (place : Nat) {shown : TokenKind} (inner : shown ≠ .endOfFile)
    : ReachesAt file size shown place Parse.breakStmt fun stop statement =>
        statement.outline.Within file place stop := by
  refine .nextThen inner fun keyword begins => expectThen (by decide) fun semicolon ends => ?_
  refine spanFromThen (pure ?_)
  exact (Outline.Fills.nil (Nat.le_trans begins.own.le ends.le)).within begins.text begins.after
    (Nat.le_refl _)

omit parts in
theorem returnStmt (place : Nat) {shown : TokenKind} (inner : shown ≠ .endOfFile)
    : ReachesAt file size shown place Parse.returnStmt fun stop statement =>
        statement.outline.Within file place stop := by
  refine .nextThen inner fun keyword begins => kind fun shown => here ?_ _
  refine readUnless _ (expr _) fun middle value? given => ?_
  refine expectThen (by decide) fun semicolon ends => spanFromThen (pure ?_)
  exact (given.mono begins.own.le ends.le).within begins.text begins.after (Nat.le_refl _)

/-- A statement, by cases on the token that it begins with. -/
theorem stmtWith (place : Nat)
    : Reaches file size place (Parse.stmtWith nested) fun stop statement =>
        statement.outline.Within file place stop := by
  refine kind fun shown => ?_
  split
  · exact importStmt place (by decide)
  · exact exportWith parts place (by decide)
  · exact namespaceWith parts place (by decide)
  · exact classStmt parts place (by decide)
  · exact enumStmt place (by decide)
  · exact conditionalWith parts place (by decide)
  · exact whileWith parts place (by decide)
  · exact forWith parts place (by decide)
  · exact breakStmt place (by decide)
  · exact returnStmt place (by decide)
  · have block : Reaches file size place (Stmt.block <$> Parse.blockWith nested)
        fun stop statement => statement.outline.Within file place stop :=
      (blockWith parts place).map fun _ _ within => within
    exact block.here _
  · exact (simpleStmtWith parts place).here _

end Nested

theorem stmtWithin (place depth : Nat)
    : Reaches file size place (Parse.stmtWithin depth) fun stop statement =>
        statement.outline.Within file place stop := by
  induction depth generalizing place with
  | zero => exact unexpected
  | succ depth ih => exact stmtWith ih place

theorem stmt (place : Nat)
    : Reaches file size place Parse.stmt fun stop statement =>
        statement.outline.Within file place stop :=
  get fun _ => stmtWithin place _

theorem untilEnd (place count : Nat)
    : Reaches file size place (Parse.untilEnd count) fun stop statements =>
        Outline.Fills file place stop [] (statements.map Stmt.outline) := by
  induction count generalizing place with
  | zero => exact pure (.nil (Nat.le_refl place))
  | succ count ih =>
      refine kind fun shown => here ?_ _
      split
      · exact pure (.nil (Nat.le_refl place))
      · refine (stmt place).bind fun middle first within => ?_
        exact (ih middle).bind fun stop rest more =>
          pure ((Outline.Fills.part within).append more)

end Reaches

end Parse

-----------------------------------------------------------------------------------------
-- Scripts
-----------------------------------------------------------------------------------------

/-- A script is placed in the text from its beginning on. -/
theorem Parse.scriptUnit_placed {file : String} {size : Nat} {stream after : TokenStream}
    {script : ScriptUnit} (laid : stream.Laid file size) (begins : stream.previousEnd = 0)
    (named : stream.file = file) (read : Parse.scriptUnit stream = .ok (script, after))
    : after.Laid file size ∧ script.outline.Within file 0 after.previousEnd := by
  subst named
  have reads
      : Parse.Reaches stream.file size 0
          (do
            let body ← Parse.untilEnd stream.depth
            return (⟨body, ← Parse.spanFrom ⟨stream.file, 0, 0⟩⟩ : ScriptUnit))
          fun stop script => script.outline.Within stream.file 0 stop :=
    (Reaches.untilEnd 0 stream.depth).bind fun stop _ filled =>
      .spanFromThen (.pure (filled.within rfl (Nat.le_refl 0) (Nat.le_refl stop)))
  exact reads stream laid begins script after read

/-- A script that is read of a text is placed in it, unless offsets wrap. -/
theorem ScriptUnit.ofSource_placed {source file : String} {script : ScriptUnit}
    (fits : source.utf8ByteSize < offsetCount) (read : ofSource source file = .ok script)
    : script.outline.Within file 0 source.utf8ByteSize := by
  unfold ofSource at read
  obtain ⟨tokens, scanned, run⟩ := Text.ok_of_bind read
  obtain ⟨laid, begins, named⟩ := TokenStream.ofTokens_laid fits scanned
  unfold ofTokens Parse.runOn at run
  split at run
  · next value after outcome =>
      cases run
      obtain ⟨laid', within⟩ := Parse.scriptUnit_placed laid begins named outcome
      exact within.mono (Nat.le_refl 0) laid'.lined.bound
  · cases run

/-- Spans nest. All nodes of a script that is read of a text have their spans in it, and every node
has its names and its parts inside its own span, the parts apart and in increasing order. The text
must be so small that no offset wraps.
-/
theorem ScriptUnit.spans_nest (source file : String) (script : ScriptUnit)
    (fits : source.utf8ByteSize < offsetCount) (read : ofSource source file = .ok script)
    : ∀ node ∈ script.outline.nodes, node.WellPlaced file source.utf8ByteSize := by
  have within := ofSource_placed fits read
  exact within.placed.nodes within.before

/-- Witness: a class with a constructor, the type of whose result stands where its name does, and an
exported variable.
-/
theorem ScriptUnit.spans_nest_constructor
    : ∃ script,
        ofSource "class A \x7b A() \x7b \x7d \x7d export int b = -f(1) * 2;" "a" = .ok script
        ∧ script.outline.nodes.map (fun node => (node.span.start, node.span.stop)) =
          [(0, 45), (0, 19), (10, 17), (10, 11), (14, 17), (20, 45), (27, 30), (35, 44), (35, 40),
            (36, 40), (36, 37), (38, 39), (43, 44)]
        ∧ ∀ node ∈ script.outline.nodes, node.WellPlaced "a" 45 := by
  have places :
    (ofSource "class A \x7b A() \x7b \x7d \x7d export int b = -f(1) * 2;" "a").toOption.map
      (fun script => script.outline.nodes.map fun node => (node.span.start, node.span.stop)) = some
        [(0, 45), (0, 19), (10, 17), (10, 11), (14, 17), (20, 45), (27, 30), (35, 44), (35, 40),
          (36, 40), (36, 37), (38, 39), (43, 44)] := by
    decide +kernel
  have size : "class A \x7b A() \x7b \x7d \x7d export int b = -f(1) * 2;".utf8ByteSize = 45 := by
    decide +kernel
  cases read : ofSource "class A \x7b A() \x7b \x7d \x7d export int b = -f(1) * 2;" "a" with
  | error error =>
      rw [read] at places
      cases places
  | ok script =>
      rw [read] at places
      refine ⟨script, rfl, Option.some.inj places, ?_⟩
      rw [← size]
      exact spans_nest _ "a" script (by rw [size]; decide) read

/-- It is not so that spans nest in every text. A variable that is declared behind so many spaces
that offsets wrap in its type begins behind its end.
-/
theorem ScriptUnit.not_spans_nest
    : ¬ ∀ (source file : String) (script : ScriptUnit), ofSource source file = .ok script →
        ∀ node ∈ script.outline.nodes, node.WellPlaced file source.utf8ByteSize := by
  intro nests
  have disorder : ((Token.scanFrom "a" 0xffffffff "int x;".toList).bind fun tokens =>
      ofTokens tokens "a").toOption.map (fun script =>
        script.outline.nodes.any fun node => node.span.stop < node.span.start) = some true := by
    decide +kernel
  let source := String.ofList (List.replicate 0xffffffff ' ' ++ "int x;".toList)
  have read : ofSource source "a" =
      (Token.scanFrom "a" 0xffffffff "int x;".toList).bind fun tokens => ofTokens tokens "a" := by
    show (Token.scan source "a").bind _ = _
    rw [Token.scan_behindSpaces]
  cases given : ofSource source "a" with
  | error error =>
      rw [← read, given] at disorder
      cases disorder
  | ok script =>
      rw [← read, given] at disorder
      obtain ⟨node, among, behind⟩ := List.any_eq_true.mp (Option.some.inj disorder)
      exact absurd (nests source "a" script given node among).ordered
        (Nat.not_le_of_lt (of_decide_eq_true behind))

end BuildScript
