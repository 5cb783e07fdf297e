import BuildScript.Syntax.Stmt

/-! Syntax without its places. The bare form of a piece of syntax is the same wherever it was
read, so that two pieces are equal up to spans when their bare forms are equal.
-/

namespace BuildScript

/-- (bare token) forgets where a token was read. -/
def Token.bare (token : Token) : Token := { token with span := Span.unknown }

theorem Token.kind_of_bare {first second : Token} (same : first.bare = second.bare)
    : first.kind = second.kind :=
  show first.bare.kind = second.bare.kind from congrArg _ same

theorem Token.value_of_bare {first second : Token} (same : first.bare = second.bare)
    : first.value = second.value :=
  show first.bare.value = second.bare.value from congrArg _ same

/-- Tokens of one class and value are the same wherever they were read. -/
theorem Token.bare_eq_iff {first second : Token}
    : first.bare = second.bare ↔ first.kind = second.kind ∧ first.value = second.value := by
  constructor
  · exact fun same => ⟨kind_of_bare same, value_of_bare same⟩
  · rintro ⟨kinds, values⟩
    simp only [bare, kinds, values]

/-- (content token) is what a token contributes to the syntax, its class and its value. -/
def Token.content (token : Token) : TokenKind × String := (token.kind, token.value)

theorem Token.bare_eq_of_content {first second : Token} (same : first.content = second.content)
    : first.bare = second.bare :=
  bare_eq_iff.mpr (Prod.mk.inj same)

-----------------------------------------------------------------------------------------
-- Types and expressions
-----------------------------------------------------------------------------------------

mutual

/-- (bare type) forgets where a type and its parts were read. -/
def TypeExpr.bare : TypeExpr → TypeExpr
  | ⟨names, generics, isReference, _⟩ =>
    ⟨names.map Token.bare, TypeExpr.bareAll generics, isReference, Span.unknown⟩

/-- (bareAll types) forgets where several types were read. -/
def TypeExpr.bareAll : List TypeExpr → List TypeExpr
  | [] => []
  | first :: rest => first.bare :: TypeExpr.bareAll rest

end

mutual

/-- (bare expr) forgets where an expression and its parts were read. -/
def Expr.bare : Expr → Expr
  | .bool value _ => .bool value Span.unknown
  | .int value _ => .int value Span.unknown
  | .double value _ => .double value Span.unknown
  | .string value _ => .string value Span.unknown
  | .id names _ => .id (names.map Token.bare) Span.unknown
  | .binary operator lhs rhs _ => .binary operator.bare lhs.bare rhs.bare Span.unknown
  | .unary operator operand _ => .unary operator.bare operand.bare Span.unknown
  | .ternary condition whenTrue whenFalse _ =>
    .ternary condition.bare whenTrue.bare whenFalse.bare Span.unknown
  | .member object name _ => .member object.bare name.bare Span.unknown
  | .call callee arguments _ => .call callee.bare (Expr.bareAll arguments) Span.unknown
  | .memberCall object name arguments _ =>
    .memberCall object.bare name.bare (Expr.bareAll arguments) Span.unknown
  | .list values _ => .list (Expr.bareAll values) Span.unknown
  | .designated fields _ => .designated (FieldInit.bareAll fields) Span.unknown

/-- (bare field) forgets where an initialiser of a member was read. -/
def FieldInit.bare : FieldInit → FieldInit
  | .mk name value => .mk name.bare value.bare

/-- (bareAll exprs) forgets where several expressions were read. -/
def Expr.bareAll : List Expr → List Expr
  | [] => []
  | first :: rest => first.bare :: Expr.bareAll rest

/-- (bareAll fields) forgets where several initialisers were read. -/
def FieldInit.bareAll : List FieldInit → List FieldInit
  | [] => []
  | first :: rest => first.bare :: FieldInit.bareAll rest

end

theorem TypeExpr.bareAll_eq_map (types : List TypeExpr) : bareAll types = types.map bare := by
  induction types with
  | nil => rfl
  | cons first rest ih => rw [bareAll, ih, List.map_cons]

theorem Expr.bareAll_eq_map (exprs : List Expr) : bareAll exprs = exprs.map bare := by
  induction exprs with
  | nil => rfl
  | cons first rest ih => rw [bareAll, ih, List.map_cons]

theorem FieldInit.bareAll_eq_map (fields : List FieldInit) : bareAll fields = fields.map bare := by
  induction fields with
  | nil => rfl
  | cons first rest ih => rw [bareAll, ih, List.map_cons]

-----------------------------------------------------------------------------------------
-- Statements and declarations
-----------------------------------------------------------------------------------------

/-- (bare decl) forgets where the declaration of a variable was read. -/
def VariableDecl.bare (decl : VariableDecl) : VariableDecl :=
  ⟨decl.type.bare, decl.name.bare, decl.initial?.map Expr.bare, decl.exported, Span.unknown⟩

/-- (bare decl) forgets where the declaration of a parameter was read. -/
def ParamDecl.bare (decl : ParamDecl) : ParamDecl := ⟨decl.type.bare, decl.name.bare⟩

/-- (bare decl) forgets where the declaration of an enumeration was read. -/
def EnumDecl.bare (decl : EnumDecl) : EnumDecl :=
  ⟨decl.name.bare, decl.enumerators.map Token.bare, decl.exported, Span.unknown⟩

mutual

/-- (bare statement) forgets where a statement and its parts were read. -/
def Stmt.bare : Stmt → Stmt
  | .expression value _ => .expression value.bare Span.unknown
  | .varDecl decl => .varDecl decl.bare
  | .block body => .block body.bare
  | .conditional branches otherwise? _ =>
    .conditional (Branch.bareAll branches) (Block.bare? otherwise?) Span.unknown
  | .whileLoop condition body _ => .whileLoop condition.bare body.bare Span.unknown
  | .forLoop initial? condition? iteration? body _ =>
    .forLoop (Stmt.bare? initial?) (condition?.map Expr.bare) (iteration?.map Expr.bare) body.bare
      Span.unknown
  | .breakLoop _ => .breakLoop Span.unknown
  | .returnValue value? _ => .returnValue (value?.map Expr.bare) Span.unknown
  | .function decl => .function decl.bare
  | .classDecl decl => .classDecl decl.bare
  | .enumDecl decl => .enumDecl decl.bare
  | .namespaceDecl names body _ =>
    .namespaceDecl (names.map Token.bare) (Stmt.bareAll body) Span.unknown
  | .importModule path _ => .importModule path.bare Span.unknown

/-- (bare block) forgets where a block was read. -/
def Block.bare : Block → Block
  | .mk body _ => .mk (Stmt.bareAll body) Span.unknown

/-- (bare branch) forgets where a branch was read. -/
def Branch.bare : Branch → Branch
  | .mk condition body => .mk condition.bare body.bare

/-- (bare function) forgets where the declaration of a function was read. -/
def FunctionDecl.bare : FunctionDecl → FunctionDecl
  | .mk returnType name params body exported _ =>
    .mk returnType.bare name.bare (params.map ParamDecl.bare) body.bare exported Span.unknown

/-- (bare member) forgets where the declaration of a member was read. -/
def ClassMember.bare : ClassMember → ClassMember
  | .varDecl decl => .varDecl decl.bare
  | .function decl => .function decl.bare

/-- (bare class) forgets where the declaration of a class was read. -/
def ClassDecl.bare : ClassDecl → ClassDecl
  | .mk name base? members exported _ =>
    .mk name.bare (base?.map TypeExpr.bare) (ClassMember.bareAll members) exported Span.unknown

/-- (bareAll statements) forgets where several statements were read. -/
def Stmt.bareAll : List Stmt → List Stmt
  | [] => []
  | first :: rest => first.bare :: Stmt.bareAll rest

/-- (bare? statement) forgets where a statement was read, if there is one. -/
def Stmt.bare? : Option Stmt → Option Stmt
  | none => none
  | some stmt => some stmt.bare

/-- (bare? block) forgets where a block was read, if there is one. -/
def Block.bare? : Option Block → Option Block
  | none => none
  | some body => some body.bare

/-- (bareAll branches) forgets where several branches were read. -/
def Branch.bareAll : List Branch → List Branch
  | [] => []
  | first :: rest => first.bare :: Branch.bareAll rest

/-- (bareAll members) forgets where several members were read. -/
def ClassMember.bareAll : List ClassMember → List ClassMember
  | [] => []
  | first :: rest => first.bare :: ClassMember.bareAll rest

end

theorem Stmt.bareAll_eq_map (stmts : List Stmt) : bareAll stmts = stmts.map bare := by
  induction stmts with
  | nil => rfl
  | cons first rest ih => rw [bareAll, ih, List.map_cons]

theorem Branch.bareAll_eq_map (branches : List Branch) : bareAll branches = branches.map bare := by
  induction branches with
  | nil => rfl
  | cons first rest ih => rw [bareAll, ih, List.map_cons]

theorem ClassMember.bareAll_eq_map (members : List ClassMember)
    : bareAll members = members.map bare := by
  induction members with
  | nil => rfl
  | cons first rest ih => rw [bareAll, ih, List.map_cons]

theorem Stmt.bare?_eq_map (stmt? : Option Stmt) : bare? stmt? = stmt?.map bare := by
  cases stmt? <;> rfl

theorem Block.bare?_eq_map (body? : Option Block) : bare? body? = body?.map bare := by
  cases body? <;> rfl

/-- (bare script) forgets where a script and its parts were read. -/
def ScriptUnit.bare (scriptUnit : ScriptUnit) : ScriptUnit :=
  ⟨scriptUnit.body.map Stmt.bare, Span.unknown⟩

end BuildScript
