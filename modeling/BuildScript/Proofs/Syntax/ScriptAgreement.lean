import BuildScript.Proofs.Syntax.ExprAgreement
import BuildScript.Syntax.Parser.Stmt

/-! Readers of statements, declarations and whole scripts take no account of places. A statement
takes at least one token, so that again each level of depth is beyond the tokens that are left.
-/

namespace BuildScript

/-- The declaration that goes on from a type and a name, if they were read. -/
def Parse.declaredAs (nested : Parse Stmt) : Option (TypeExpr × Token) → Parse (Option Stmt)
  | none => return none
  | some (type, name) => do
    if (← kind) == .openParen then return some (.function (← functionWith nested type name))
    else return some (.varDecl (← variableAfter type name))

namespace Parse.Agrees

variable {α γ : Type} {bare : α → γ} {n : Nat}

-----------------------------------------------------------------------------------------
-- Items between braces
-----------------------------------------------------------------------------------------

section Items

variable {item item' : Parse α}

/-- Items up to a brace, by induction over the bound for the tokens that are left. -/
theorem untilBrace (n : Nat) (items : ∀ left ≤ n, Agrees bare left (left - 1) item item')
    {count count' : Nat} (enough : n < count) (enough' : n < count')
    : Agrees (List.map bare) n n (Parse.untilBrace item count) (Parse.untilBrace item' count') := by
  induction n using Nat.strongRecOn generalizing count count' with
  | ind n ih =>
      obtain ⟨count, rfl⟩ := Nat.exists_eq_add_of_le' (show 1 ≤ count by omega)
      obtain ⟨count', rfl⟩ := Nat.exists_eq_add_of_le' (show 1 ≤ count' by omega)
      refine kind fun class_ pos => ?_
      split
      · exact .nextThen (by decide) fun _ _ _ _ =>
          weaken (nothing bare) (Nat.le_refl _) (Nat.pred_le n)
      · exact (unmet _).here _
      · next inner =>
          have pos : 0 < n := pos inner
          refine here ?_ _
          refine (items n (Nat.le_refl n)).bind fun a b same => ?_
          refine (ih (n - 1) (by omega) (fun left small => items left (by omega)) (by omega)
            (by omega)).bind fun as bs sames => ?_
          refine weaken (.pure ?_) (Nat.le_refl _) (Nat.pred_le n)
          rw [List.map_cons, List.map_cons, same, sames]

theorem braced (items : ∀ left < n, Agrees bare left (left - 1) item item')
    : Agrees (List.map bare) n (n - 1) (Parse.braced item) (Parse.braced item') := by
  refine expectThen (by decide) fun _ _ _ pos => get fun s t _ k le less less' => ?_
  refine (untilBrace k (fun left small => items left (by omega)) ?_ ?_).weaken (Nat.le_refl k) le
  · exact Nat.lt_succ_of_le less
  · exact Nat.lt_succ_of_le less'

end Items

/-- A semicolon may follow without being needed. -/
theorem acceptSemicolonThen {δ : Type} {bare : α → δ} {m : Nat} {after after' : Parse α}
    (rest : ∀ left ≤ n, Agrees bare left m after after')
    : Agrees bare n m (do let _ ← Parse.accept .semicolon; after)
        (do let _ ← Parse.accept .semicolon; after') :=
  acceptThen (by decide) (fun _ => rest _ (Nat.pred_le n)) (rest n (Nat.le_refl n))

/-- What comes after a piece that is read where nothing tells that it is left out. -/
theorem readUnless {β δ : Type} {bare' : β → δ} {m : Nat} {item item' : Parse α} (missing : Bool)
    {after after' : Option α → Parse β} (reads : Agrees bare n n item item')
    (rest : ∀ a b, a.map bare = b.map bare → Agrees bare' n m (after a) (after' b))
    : Agrees bare' n m
        (if missing then Pure.pure none >>= after else some <$> item >>= after)
        (if missing then Pure.pure none >>= after' else some <$> item' >>= after') := by
  split
  · rw [pure_bind, pure_bind]
    exact rest none none rfl
  · refine (reads.map fun a b same => ?_).bind rest
    exact congrArg some same

-----------------------------------------------------------------------------------------
-- Declarations
-----------------------------------------------------------------------------------------

theorem param : Agrees ParamDecl.bare n (n - 1) Parse.param Parse.param := by
  refine typeExpr.bind fun a b type => expectThen (by decide) fun x y name _ => ?_
  refine weaken (.pure ?_) (Nat.le_refl _) (Nat.pred_le _)
  simp only [ParamDecl.bare, type, name]

theorem declarator
    : Agrees (fun declared : TypeExpr × Token => (declared.1.bare, declared.2.bare)) n (n - 1)
        Parse.declarator Parse.declarator := by
  refine typeExpr.bind fun a b type => expectThen (by decide) fun x y name _ => ?_
  refine weaken (.pure ?_) (Nat.le_refl _) (Nat.pred_le _)
  simp only [type, name]

theorem variableAfter {type type' : TypeExpr} {name name' : Token} (types : type.bare = type'.bare)
    (names : name.bare = name'.bare)
    : Agrees VariableDecl.bare n n (Parse.variableAfter type name)
        (Parse.variableAfter type' name') := by
  have rest {left : Nat} (le : left ≤ n) {initial? initial?' : Option Expr}
      (initials : initial?.map Expr.bare = initial?'.map Expr.bare)
      : Agrees VariableDecl.bare left n
          (do
            let _ ← Parse.expect .semicolon
            return ⟨type, name, initial?, false, ← Parse.spanFrom type.span⟩)
          (do
            let _ ← Parse.expect .semicolon
            return ⟨type', name', initial?', false, ← Parse.spanFrom type'.span⟩) := by
    refine expectThen (by decide) fun _ _ _ _ => (spanFrom _ _).bind fun _ _ _ => ?_
    refine weaken (.pure ?_) (Nat.le_refl _) (show left - 1 ≤ n by omega)
    simp only [VariableDecl.bare, types, names, initials]
  refine acceptThen (by decide) (fun _ => ?_) (rest (Nat.le_refl n) rfl)
  refine (expr.map fun a b same => ?_).bind fun _ _ initials => rest (by omega) initials
  exact congrArg some same

section Nested

variable {nested nested' : Parse Stmt}
  (parts : ∀ left < n, Agrees Stmt.bare left (left - 1) nested nested')

include parts

theorem blockWith
    : Agrees Block.bare n (n - 1) (Parse.blockWith nested) (Parse.blockWith nested') := by
  refine get fun s t _ k le _ _ => ?_
  refine (braced fun left small => parts left (by omega)).bind fun as bs sames => ?_
  refine (spanFrom _ _).bind fun _ _ _ => weaken (.pure ?_) (Nat.le_refl _)
    (Nat.sub_le_sub_right le 1)
  simp only [Block.bare, Stmt.bareAll_eq_map, sames]

theorem functionWith {type type' : TypeExpr} {name name' : Token} (types : type.bare = type'.bare)
    (names : name.bare = name'.bare)
    : Agrees FunctionDecl.bare n (n - 1) (Parse.functionWith nested type name)
        (Parse.functionWith nested' type' name') := by
  refine expectThen (by decide) fun _ _ _ _ => kind fun class_ _ => here ?_ _
  have rest {params params' : List ParamDecl}
      (sames : params.map ParamDecl.bare = params'.map ParamDecl.bare)
      : Agrees FunctionDecl.bare (n - 1) (n - 1)
          (do
            let _ ← Parse.expect .closeParen
            let body ← Parse.blockWith nested
            return .mk type name params body false (← Parse.spanFrom type.span))
          (do
            let _ ← Parse.expect .closeParen
            let body ← Parse.blockWith nested'
            return .mk type' name' params' body false (← Parse.spanFrom type'.span)) := by
    refine expectThen (by decide) fun _ _ _ _ => ?_
    refine (blockWith fun left small => parts left (by omega)).bind fun a b body => ?_
    refine (spanFrom _ _).bind fun _ _ _ => weaken (.pure ?_) (Nat.le_refl _)
      (show n - 1 - 1 - 1 ≤ n - 1 by omega)
    simp only [FunctionDecl.bare, types, names, sames, body]
  dsimp only
  split
  · exact (nothing ParamDecl.bare).bind fun _ _ sames => rest sames
  · refine (separated fun left _ => ?_).bind fun _ _ sames => rest sames
    exact param.weaken (Nat.le_refl left) (Nat.pred_le left)

/-- What comes after a declaration, or at an unmoved stream where there is none. -/
theorem declarationThen {δ : Type} {bare' : α → δ} {m : Nat} {after after' : Option Stmt → Parse α}
    (declared : ∀ a b, a.bare = b.bare →
      Agrees bare' (n - 1) m (after (some a)) (after' (some b)))
    (none_ : Agrees bare' n m (after none) (after' none))
    : Agrees bare' n m (Parse.declarationWith? nested >>= after)
        (Parse.declarationWith? nested' >>= after') := by
  have declares
      : Agrees bare' n m
          ((Parse.attempt Parse.declarator >>= Parse.declaredAs nested) >>= after)
          ((Parse.attempt Parse.declarator >>= Parse.declaredAs nested') >>= after') := by
    rw [bind_assoc, bind_assoc]
    refine attemptThen declarator (fun a b same => ?_) ?_
    · obtain ⟨types, names⟩ := Prod.mk.inj same
      simp only [Parse.declaredAs, bind_assoc]
      refine kind fun class_ _ => here ?_ _
      split
      · simp only [bind_assoc, pure_bind]
        refine (functionWith (fun left small => parts left (by omega)) types names).bind
          fun f g same => ?_
        refine (declared _ _ ?_).weaken (Nat.pred_le _) (Nat.le_refl m)
        simp only [Stmt.bare, same]
      · simp only [bind_assoc, pure_bind]
        refine (variableAfter types names).bind fun v w same => declared _ _ ?_
        simp only [Stmt.bare, same]
    · simp only [Parse.declaredAs, pure_bind]
      exact none_
  unfold Parse.declarationWith?
  rw [bind_assoc, bind_assoc]
  refine kind fun class_ _ => ?_
  split
  · exact declares.here _
  · exact declares.here _
  · simp only [pure_bind]
    exact none_.here _

theorem simpleStmtWith
    : Agrees Stmt.bare n (n - 1) (Parse.simpleStmtWith nested) (Parse.simpleStmtWith nested') := by
  refine declarationThen parts (fun a b same => .pure same) ?_
  refine expr.bind fun a b same => expectThen (by decide) fun _ _ _ _ => ?_
  refine weaken (.pure ?_) (Nat.le_refl _) (Nat.pred_le _)
  simp only [Stmt.bare, same]

omit parts in
theorem importStmt {shown : TokenKind} (inner : shown ≠ .endOfFile)
    : AgreesAt shown Stmt.bare n (n - 1) Parse.importStmt Parse.importStmt := by
  refine .nextThen inner fun _ _ _ _ => expectThen (by decide) fun a b same _ => ?_
  refine expectThen (by decide) fun _ _ _ _ => (spanFrom _ _).bind fun _ _ _ => ?_
  refine weaken (.pure ?_) (Nat.le_refl _) (show n - 1 - 1 - 1 ≤ n - 1 by omega)
  simp only [Stmt.bare, same]

theorem classMemberWith {name name' : Token} (names : name.bare = name'.bare)
    : Agrees ClassMember.bare n (n - 1) (Parse.classMemberWith nested name)
        (Parse.classMemberWith nested' name') := by
  refine look fun s t alike => ?_
  rw [Token.value_of_bare alike.current, Token.value_of_bare names, Bool.and_right_comm,
    alike.begins (by decide), Bool.and_right_comm]
  split
  · next starts =>
      have inner : s.kind ≠ .endOfFile := by
        rw [alike.kind]
        simp only [Bool.and_eq_true, beq_iff_eq] at starts
        rw [starts.1.1]
        decide
      refine .nextThen inner fun a b same _ => ?_
      refine (functionWith (fun left small => parts left (by omega)) ?_ same).bind
        fun f g same => ?_
      · simp only [TypeExpr.bare, TypeExpr.bareAll, List.map_cons, List.map_nil, names]
      · refine weaken (.pure ?_) (Nat.le_refl _) (show n - 1 - 1 ≤ n - 1 by omega)
        simp only [ClassMember.bare, same]
  · refine here (declarator.bind fun a b same => kind fun class_ _ => here ?_ _) _
    obtain ⟨types, names⟩ := Prod.mk.inj same
    split
    · refine (functionWith (fun left small => parts left (by omega)) types names).bind
        fun f g same => ?_
      refine weaken (.pure ?_) (Nat.le_refl _) (show n - 1 - 1 ≤ n - 1 by omega)
      simp only [ClassMember.bare, same]
    · refine expectThen (by decide) fun _ _ _ _ => (spanFrom _ _).bind fun _ _ _ => ?_
      refine weaken (.pure ?_) (Nat.le_refl _) (show n - 1 - 1 ≤ n - 1 by omega)
      simp only [ClassMember.bare, VariableDecl.bare, types, names, Option.map_none]

theorem classWith {shown : TokenKind} (inner : shown ≠ .endOfFile)
    : AgreesAt shown ClassDecl.bare n (n - 1) (Parse.classWith nested)
        (Parse.classWith nested') := by
  refine .nextThen inner fun a b _ _ => expectThen (by decide) fun x y names _ => ?_
  have rest {left : Nat} (le : left ≤ n - 1) {base? base?' : Option TypeExpr}
      (bases : base?.map TypeExpr.bare = base?'.map TypeExpr.bare)
      : Agrees ClassDecl.bare left (n - 1)
          (do
            let members ← Parse.braced (Parse.classMemberWith nested x)
            let _ ← Parse.accept .semicolon
            return .mk x base? members false (← Parse.spanFrom a.span))
          (do
            let members ← Parse.braced (Parse.classMemberWith nested' y)
            let _ ← Parse.accept .semicolon
            return .mk y base?' members false (← Parse.spanFrom b.span)) := by
    refine (braced fun left' small =>
      classMemberWith (fun left'' less => parts left'' (by omega)) names).bind fun as bs sames => ?_
    refine acceptSemicolonThen fun left' le' => (spanFrom _ _).bind fun _ _ _ => ?_
    refine weaken (.pure ?_) (Nat.le_refl _) (show left' ≤ n - 1 by omega)
    simp only [ClassDecl.bare, ClassMember.bareAll_eq_map, names, bases, sames]
  refine acceptThen (by decide) (fun _ => ?_) (rest (by omega) rfl)
  refine (typeExpr.map fun v w same => ?_).bind fun _ _ bases => rest (by omega) bases
  exact congrArg some same

omit parts in
/-- No enumerator follows at the end of the file. -/
theorem moreEnumerators_end (count : Nat) {stream : TokenStream} (ended : stream.kind = .endOfFile)
    : Parse.moreEnumerators count stream = .ok ([], stream) := by
  cases count with
  | zero => rfl
  | succ count =>
      unfold Parse.moreEnumerators
      rw [run_bind, run_accept, ended]
      rfl

omit parts in
/-- Enumerators after commas, by induction over the bound for the tokens that are left. -/
theorem moreEnumerators (n : Nat) {count count' : Nat} (enough : n ≤ count) (enough' : n ≤ count')
    : Agrees (List.map Token.bare) n n (Parse.moreEnumerators count)
        (Parse.moreEnumerators count') := by
  induction n generalizing count count' with
  | zero =>
      exact atEnd (fun _ => moreEnumerators_end count) (fun _ => moreEnumerators_end count') rfl
  | succ n ih =>
      obtain ⟨count, rfl⟩ := Nat.exists_eq_add_of_le' (show 1 ≤ count by omega)
      obtain ⟨count', rfl⟩ := Nat.exists_eq_add_of_le' (show 1 ≤ count' by omega)
      refine acceptThen (by decide) (fun _ => ?_) (nothing Token.bare)
      refine kind fun class_ _ => here ?_ _
      split
      · exact weaken (nothing Token.bare) (Nat.le_refl _) (Nat.pred_le (n + 1))
      · refine expectThen (by decide) fun a b same _ => ?_
        refine ((ih (by omega) (by omega)).weaken (by omega) (Nat.le_succ n)).bind
          fun as bs sames => .pure ?_
        rw [List.map_cons, List.map_cons, same, sames]

omit parts in
theorem enumDecl {shown : TokenKind} (inner : shown ≠ .endOfFile)
    : AgreesAt shown EnumDecl.bare n (n - 1) Parse.enumDecl Parse.enumDecl := by
  refine .nextThen inner fun _ _ _ _ => expectThen (by decide) fun x y names _ => ?_
  refine expectThen (by decide) fun _ _ _ _ => expectThen (by decide) fun a b first _ => ?_
  refine get fun s t _ k le less less' => ?_
  refine (moreEnumerators k less less').bind fun as bs sames => ?_
  refine expectThen (by decide) fun _ _ _ _ => acceptSemicolonThen fun left le' => ?_
  refine (spanFrom _ _).bind fun _ _ _ => weaken (.pure ?_) (Nat.le_refl _)
    (show left ≤ n - 1 by omega)
  simp only [EnumDecl.bare, List.map_cons, names, first, sames]

omit parts in
/-- Exporting a declaration takes no account of places. -/
theorem bare_exportDeclaration (span : Span) (declaration : Stmt)
    : (Parse.exportDeclaration span declaration).bare =
        Parse.exportDeclaration Span.unknown declaration.bare := by
  cases declaration with
  | function decl => cases decl; rfl
  | classDecl decl => cases decl; rfl
  | _ => rfl

theorem exportWith {shown : TokenKind} (inner : shown ≠ .endOfFile)
    : AgreesAt shown Stmt.bare n (n - 1) (Parse.exportWith nested) (Parse.exportWith nested') := by
  have exported {left : Nat} (le : left ≤ n - 1) (span span' : Span) {a b : Stmt}
      (same : a.bare = b.bare)
      : Agrees Stmt.bare left (n - 1)
          (do return Parse.exportDeclaration (← Parse.spanFrom span) a)
          (do return Parse.exportDeclaration (← Parse.spanFrom span') b) := by
    refine (spanFrom _ _).bind fun _ _ _ => weaken (.pure ?_) (Nat.le_refl _) le
    rw [bare_exportDeclaration, bare_exportDeclaration, same]
  refine .nextThen inner fun a b _ _ => kind fun class_ _ => ?_
  dsimp only
  split
  · have reads := classWith (n := n - 1) (fun left small => parts left (by omega))
      (show TokenKind.classKeyword ≠ .endOfFile by decide)
    refine (reads.map fun v w same => ?_).bind fun v w same => exported (Nat.pred_le _) _ _ same
    simp only [Stmt.bare, same]
  · have reads := enumDecl (n := n - 1) (show TokenKind.enumKeyword ≠ .endOfFile by decide)
    refine (reads.map fun v w same => ?_).bind fun v w same => exported (Nat.pred_le _) _ _ same
    simp only [Stmt.bare, same]
  · refine here ?_ _
    refine declarationThen (fun left small => parts left (by omega)) (fun v w same => ?_) ?_
    · simp only [pure_bind]
      exact exported (Nat.pred_le _) _ _ same
    · have fails : Agrees Stmt.bare (n - 1) (n - 1) _ _ := unmet .declarationAfterExport
      exact fails.bind fun v w same => exported (Nat.le_refl _) _ _ same

omit parts in
/-- No segment follows at the end of the file. -/
theorem moreNames_end (count : Nat) {stream : TokenStream} (ended : stream.kind = .endOfFile)
    : Parse.moreNames count stream = .ok ([], stream) := by
  cases count with
  | zero => rfl
  | succ count =>
      unfold Parse.moreNames
      rw [run_bind, run_accept, ended]
      rfl

omit parts in
/-- Segments of the name of a namespace, by induction over the tokens that are left. -/
theorem moreNames (n : Nat) {count count' : Nat} (enough : n ≤ count) (enough' : n ≤ count')
    : Agrees (List.map Token.bare) n n (Parse.moreNames count) (Parse.moreNames count') := by
  induction n generalizing count count' with
  | zero => exact atEnd (fun _ => moreNames_end count) (fun _ => moreNames_end count') rfl
  | succ n ih =>
      obtain ⟨count, rfl⟩ := Nat.exists_eq_add_of_le' (show 1 ≤ count by omega)
      obtain ⟨count', rfl⟩ := Nat.exists_eq_add_of_le' (show 1 ≤ count' by omega)
      refine acceptThen (by decide) (fun _ => ?_) (nothing Token.bare)
      refine expectThen (by decide) fun a b same _ => ?_
      refine ((ih (by omega) (by omega)).weaken (by omega) (Nat.le_succ n)).bind
        fun as bs sames => .pure ?_
      rw [List.map_cons, List.map_cons, same, sames]

theorem namespaceWith {shown : TokenKind} (inner : shown ≠ .endOfFile)
    : AgreesAt shown Stmt.bare n (n - 1) (Parse.namespaceWith nested)
        (Parse.namespaceWith nested') := by
  refine .nextThen inner fun _ _ _ _ => expectThen (by decide) fun a b first _ => ?_
  refine get fun s t _ k le less less' => ?_
  refine (moreNames k less less').bind fun as bs names => ?_
  refine (braced fun left small => parts left (by omega)).bind fun v w body => ?_
  refine (spanFrom _ _).bind fun _ _ _ => weaken (.pure ?_) (Nat.le_refl _)
    (show k - 1 ≤ n - 1 by omega)
  simp only [Stmt.bare, Stmt.bareAll_eq_map, List.map_cons, first, names, body]

-----------------------------------------------------------------------------------------
-- Control
-----------------------------------------------------------------------------------------

theorem branchWith
    : Agrees Branch.bare n (n - 1) (Parse.branchWith nested) (Parse.branchWith nested') := by
  refine expectThen (by decide) fun _ _ _ _ => expr.bind fun v w condition => ?_
  refine expectThen (by decide) fun _ _ _ _ => ?_
  refine (blockWith fun left small => parts left (by omega)).bind fun a b body => ?_
  refine weaken (.pure ?_) (Nat.le_refl _) (show n - 1 - 1 - 1 - 1 ≤ n - 1 by omega)
  simp only [Branch.bare, condition, body]

omit parts in
/-- No alternative follows at the end of the file. -/
theorem otherwiseWith_end (nested : Parse Stmt) (count : Nat) {stream : TokenStream}
    (ended : stream.kind = .endOfFile)
    : Parse.otherwiseWith nested count stream = .ok (([], none), stream) := by
  cases count with
  | zero => rfl
  | succ count =>
      unfold Parse.otherwiseWith
      rw [run_bind, run_accept, ended]
      rfl

omit parts in
/-- Alternatives, by induction over the bound for the tokens that are left. -/
theorem otherwiseWith (n : Nat)
    (parts : ∀ left < n, Agrees Stmt.bare left (left - 1) nested nested')
    {count count' : Nat} (enough : n ≤ count) (enough' : n ≤ count')
    : Agrees
        (fun read : List Branch × Option Block => (read.1.map Branch.bare, read.2.map Block.bare))
        n n (Parse.otherwiseWith nested count) (Parse.otherwiseWith nested' count') := by
  induction n using Nat.strongRecOn generalizing count count' with
  | ind n ih =>
      rcases Nat.eq_zero_or_pos n with rfl | pos
      · exact atEnd (fun _ => otherwiseWith_end nested count)
          (fun _ => otherwiseWith_end nested' count') rfl
      · obtain ⟨count, rfl⟩ := Nat.exists_eq_add_of_le' (show 1 ≤ count by omega)
        obtain ⟨count', rfl⟩ := Nat.exists_eq_add_of_le' (show 1 ≤ count' by omega)
        refine acceptThen (by decide) (fun _ => ?_) (.pure rfl)
        refine acceptThen (by decide) (fun _ => ?_) ?_
        · refine (branchWith fun left small => parts left (by omega)).bind fun a b first => ?_
          refine (ih (n - 1 - 1 - 1) (by omega) (fun left small => parts left (by omega))
            (by omega) (by omega)).bind fun as bs rest => ?_
          obtain ⟨branches, last⟩ := Prod.mk.inj rest
          refine weaken (.pure ?_) (Nat.le_refl _) (show n - 1 - 1 - 1 ≤ n by omega)
          simp only [List.map_cons, first, branches, last]
        · refine (blockWith fun left small => parts left (by omega)).bind fun a b last => ?_
          refine weaken (.pure ?_) (Nat.le_refl _) (show n - 1 - 1 ≤ n by omega)
          simp only [List.map_nil, Option.map_some, last]

theorem conditionalWith {shown : TokenKind} (inner : shown ≠ .endOfFile)
    : AgreesAt shown Stmt.bare n (n - 1) (Parse.conditionalWith nested)
        (Parse.conditionalWith nested') := by
  refine .nextThen inner fun _ _ _ _ => ?_
  refine (branchWith fun left small => parts left (by omega)).bind fun a b first => ?_
  refine get fun s t _ k le less less' => ?_
  refine (otherwiseWith k (fun left small => parts left (by omega)) less less').bind
    fun as bs rest => ?_
  obtain ⟨branches, last⟩ := Prod.mk.inj rest
  refine (spanFrom _ _).bind fun _ _ _ => weaken (.pure ?_) (Nat.le_refl _)
    (show k ≤ n - 1 by omega)
  simp only [Stmt.bare, Branch.bareAll_eq_map, Block.bare?_eq_map, List.map_cons, first, branches,
    last]

theorem whileWith {shown : TokenKind} (inner : shown ≠ .endOfFile)
    : AgreesAt shown Stmt.bare n (n - 1) (Parse.whileWith nested) (Parse.whileWith nested') := by
  refine .nextThen inner fun _ _ _ _ => ?_
  refine (branchWith fun left small => parts left (by omega)).bind fun a b same => ?_
  obtain ⟨condition, body⟩ := a
  obtain ⟨condition', body'⟩ := b
  obtain ⟨conditions, bodies⟩ := Branch.mk.inj same
  refine (spanFrom _ _).bind fun _ _ _ => weaken (.pure ?_) (Nat.le_refl _) (Nat.pred_le _)
  simp only [Stmt.bare, conditions, bodies]

theorem forWith {shown : TokenKind} (inner : shown ≠ .endOfFile)
    : AgreesAt shown Stmt.bare n (n - 1) (Parse.forWith nested) (Parse.forWith nested') := by
  refine .nextThen inner fun a b _ _ => expectThen (by decide) fun _ _ _ _ => ?_
  have rest {left : Nat} (le : left ≤ n - 1) {initial? initial?' : Option Stmt}
      (initials : initial?.map Stmt.bare = initial?'.map Stmt.bare)
      : Agrees Stmt.bare left (n - 1)
          (do
            let condition? ←
              if (← Parse.kind) == .semicolon then Pure.pure none else some <$> Parse.expr
            let _ ← Parse.expect .semicolon
            let iteration? ←
              if (← Parse.kind) == .closeParen then Pure.pure none else some <$> Parse.expr
            let _ ← Parse.expect .closeParen
            let body ← Parse.blockWith nested
            return .forLoop initial? condition? iteration? body (← Parse.spanFrom a.span))
          (do
            let condition? ←
              if (← Parse.kind) == .semicolon then Pure.pure none else some <$> Parse.expr
            let _ ← Parse.expect .semicolon
            let iteration? ←
              if (← Parse.kind) == .closeParen then Pure.pure none else some <$> Parse.expr
            let _ ← Parse.expect .closeParen
            let body ← Parse.blockWith nested'
            return .forLoop initial?' condition? iteration? body (← Parse.spanFrom b.span)) := by
    refine kind fun class_ _ => here ?_ _
    refine readUnless _ (expr.weaken (Nat.le_refl left) (Nat.pred_le left))
      fun _ _ conditions => expectThen (by decide) fun _ _ _ _ => kind fun class_ _ => here ?_ _
    refine readUnless _ (expr.weaken (Nat.le_refl _) (Nat.pred_le (left - 1)))
      fun _ _ iterations => expectThen (by decide) fun _ _ _ _ => ?_
    refine (blockWith fun left' small => parts left' (by omega)).bind fun _ _ body => ?_
    refine (spanFrom _ _).bind fun _ _ _ => weaken (.pure ?_) (Nat.le_refl _)
      (show left - 1 - 1 - 1 ≤ n - 1 by omega)
    simp only [Stmt.bare, Stmt.bare?_eq_map, initials, conditions, iterations, body]
  refine acceptThen (by decide) (fun _ => rest (by omega) rfl) ?_
  refine ((simpleStmtWith fun left small => parts left (by omega)).map fun v w same => ?_).bind
    fun _ _ initials => rest (by omega) initials
  exact congrArg some same

omit parts in
theorem breakStmt {shown : TokenKind} (inner : shown ≠ .endOfFile)
    : AgreesAt shown Stmt.bare n (n - 1) Parse.breakStmt Parse.breakStmt := by
  refine .nextThen inner fun _ _ _ _ => expectThen (by decide) fun _ _ _ _ => ?_
  exact (spanFrom _ _).bind fun _ _ _ => weaken (.pure rfl) (Nat.le_refl _) (Nat.pred_le _)

omit parts in
theorem returnStmt {shown : TokenKind} (inner : shown ≠ .endOfFile)
    : AgreesAt shown Stmt.bare n (n - 1) Parse.returnStmt Parse.returnStmt := by
  refine .nextThen inner fun _ _ _ _ => kind fun class_ _ => here ?_ _
  refine readUnless _ (expr.weaken (Nat.le_refl _) (Nat.pred_le (n - 1))) fun _ _ values => ?_
  refine expectThen (by decide) fun _ _ _ _ => (spanFrom _ _).bind fun _ _ _ => ?_
  refine weaken (.pure ?_) (Nat.le_refl _) (Nat.pred_le _)
  simp only [Stmt.bare, values]

theorem stmtWith
    : Agrees Stmt.bare n (n - 1) (Parse.stmtWith nested) (Parse.stmtWith nested') := by
  refine kind fun class_ _ => ?_
  split
  · exact importStmt (by decide)
  · exact exportWith parts (by decide)
  · exact namespaceWith parts (by decide)
  · refine (classWith parts (by decide)).map fun a b same => ?_
    simp only [Stmt.bare, same]
  · refine (enumDecl (by decide)).map fun a b same => ?_
    simp only [Stmt.bare, same]
  · exact conditionalWith parts (by decide)
  · exact whileWith parts (by decide)
  · exact forWith parts (by decide)
  · exact breakStmt (by decide)
  · exact returnStmt (by decide)
  · refine ((blockWith parts).map fun a b same => ?_).here _
    simp only [Stmt.bare, same]
  · exact (simpleStmtWith parts).here _

end Nested

-----------------------------------------------------------------------------------------
-- Scripts
-----------------------------------------------------------------------------------------

/-- Statements of any depths, by induction over the tokens that are left. -/
theorem stmtWithin {depth depth' : Nat} (deep : n < depth) (deep' : n < depth')
    : Agrees Stmt.bare n (n - 1) (Parse.stmtWithin depth) (Parse.stmtWithin depth') := by
  induction n using Nat.strongRecOn generalizing depth depth' with
  | ind n ih =>
      obtain ⟨depth, rfl⟩ := Nat.exists_eq_add_of_le' (show 1 ≤ depth by omega)
      obtain ⟨depth', rfl⟩ := Nat.exists_eq_add_of_le' (show 1 ≤ depth' by omega)
      exact stmtWith fun left small => ih left small (by omega) (by omega)

theorem stmt : Agrees Stmt.bare n (n - 1) Parse.stmt Parse.stmt := by
  refine get fun s t _ k le less less' => ?_
  exact (stmtWithin (Nat.lt_succ_of_le less) (Nat.lt_succ_of_le less')).weaken (Nat.le_refl k)
    (Nat.sub_le_sub_right le 1)

/-- Statements up to the end of the file, by induction over the tokens that are left. -/
theorem untilEnd (n : Nat) {count count' : Nat} (enough : n < count) (enough' : n < count')
    : Agrees (List.map Stmt.bare) n n (Parse.untilEnd count) (Parse.untilEnd count') := by
  induction n using Nat.strongRecOn generalizing count count' with
  | ind n ih =>
      obtain ⟨count, rfl⟩ := Nat.exists_eq_add_of_le' (show 1 ≤ count by omega)
      obtain ⟨count', rfl⟩ := Nat.exists_eq_add_of_le' (show 1 ≤ count' by omega)
      refine kind fun class_ pos => ?_
      split
      · exact (nothing Stmt.bare).here _
      · next inner =>
          have pos : 0 < n := pos fun ended => inner (beq_iff_eq.mpr ended)
          refine here (stmt.bind fun a b same => ?_) _
          refine (ih (n - 1) (by omega) (by omega) (by omega)).bind fun as bs sames => ?_
          refine weaken (.pure ?_) (Nat.le_refl _) (Nat.pred_le n)
          rw [List.map_cons, List.map_cons, same, sames]

theorem scriptUnit : Agrees ScriptUnit.bare n n Parse.scriptUnit Parse.scriptUnit := by
  refine get fun s t _ k le less less' => ?_
  refine (untilEnd k (Nat.lt_succ_of_le less) (Nat.lt_succ_of_le less')).bind
    fun as bs sames => (spanFrom _ _).bind fun _ _ _ => weaken (.pure ?_) (Nat.le_refl k) le
  simp only [ScriptUnit.bare, sames]

end Parse.Agrees

end BuildScript
