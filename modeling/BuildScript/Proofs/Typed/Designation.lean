import BuildScript.Registry.Basic

/-! Which members the initialisers in checked scripts set. -/

namespace BuildScript

mutual

/-- (SetsOnly allowed expr) says that all initialisers in an expression set members of allowed
numbers, those whose class is not known yet left aside.
-/
def TypedExpr.SetsOnly (allowed : Nat → Prop) : TypedExpr → Prop
  | .mk kind _ _ => kind.SetsOnly allowed

/-- (SetsOnly allowed kind) says so of an expression without its type. -/
def ExprKind.SetsOnly (allowed : Nat → Prop) : ExprKind → Prop
  | .binary lhs _ _ rhs => lhs.SetsOnly allowed ∧ rhs.SetsOnly allowed
  | .unary _ _ operand => operand.SetsOnly allowed
  | .ternary condition whenTrue whenFalse =>
    condition.SetsOnly allowed ∧ whenTrue.SetsOnly allowed ∧ whenFalse.SetsOnly allowed
  | .member object _ _ => object.SetsOnly allowed
  | .call _ arguments | .implicitCall _ arguments | .construct _ arguments
  | .scriptDirectory _ _ arguments =>
    TypedExpr.AllSetOnly allowed arguments
  | .memberCall object _ arguments =>
    object.SetsOnly allowed ∧ TypedExpr.AllSetOnly allowed arguments
  | .cast _ inner => inner.SetsOnly allowed
  | .list values => TypedExpr.AllSetOnly allowed values
  | .designated members => MemberValue.AllSetOnly allowed members
  | .pending fields => PendingField.AllSetOnly allowed fields
  | _ => True

/-- (AllSetOnly allowed exprs) says so of several expressions. -/
def TypedExpr.AllSetOnly (allowed : Nat → Prop) : List TypedExpr → Prop
  | [] => True
  | first :: rest => first.SetsOnly allowed ∧ TypedExpr.AllSetOnly allowed rest

/-- (AllSetOnly allowed members) says so of initialisers and of the values in them. -/
def MemberValue.AllSetOnly (allowed : Nat → Prop) : List MemberValue → Prop
  | [] => True
  | .mk index value :: rest =>
    allowed index ∧ value.SetsOnly allowed ∧ MemberValue.AllSetOnly allowed rest

/-- (AllSetOnly allowed fields) says so of the values in initialisers whose class is not known
yet.
-/
def PendingField.AllSetOnly (allowed : Nat → Prop) : List PendingField → Prop
  | [] => True
  | .mk _ value _ :: rest => value.SetsOnly allowed ∧ PendingField.AllSetOnly allowed rest

end

/-- (SetsOnly allowed expr?) says so of an expression that may be missing. -/
def TypedExpr.MaySetOnly (allowed : Nat → Prop) (expr? : Option TypedExpr) : Prop :=
  ∀ expr ∈ expr?, expr.SetsOnly allowed

/-- (SetsOnly allowed decl) says so of the value that a variable begins with. -/
def TypedVariable.SetsOnly (allowed : Nat → Prop) (decl : TypedVariable) : Prop :=
  TypedExpr.MaySetOnly allowed decl.initial?

mutual

/-- (SetsOnly allowed stmt) says so of all expressions in a statement. -/
def TypedStmt.SetsOnly (allowed : Nat → Prop) : TypedStmt → Prop
  | .expression value => value.SetsOnly allowed
  | .varDecl decl => decl.SetsOnly allowed
  | .returnValue value? _ => TypedExpr.MaySetOnly allowed value?
  | .conditional branches none _ => TypedBranch.AllSetOnly allowed branches
  | .conditional branches (some body) _ =>
    TypedBranch.AllSetOnly allowed branches ∧ body.SetsOnly allowed
  | .whileLoop condition body _ => condition.SetsOnly allowed ∧ body.SetsOnly allowed
  | .forLoop none condition? iteration? body _ =>
    TypedExpr.MaySetOnly allowed condition? ∧ TypedExpr.MaySetOnly allowed iteration?
      ∧ body.SetsOnly allowed
  | .forLoop (some initial) condition? iteration? body _ =>
    initial.SetsOnly allowed ∧ TypedExpr.MaySetOnly allowed condition?
      ∧ TypedExpr.MaySetOnly allowed iteration? ∧ body.SetsOnly allowed
  | .block body => body.SetsOnly allowed
  | .implicitReturn _ | .breakLoop _ => True

/-- (SetsOnly allowed block) says so of all statements of a block. -/
def TypedBlock.SetsOnly (allowed : Nat → Prop) : TypedBlock → Prop
  | .mk body _ => TypedStmt.AllSetOnly allowed body

/-- (AllSetOnly allowed stmts) says so of several statements. -/
def TypedStmt.AllSetOnly (allowed : Nat → Prop) : List TypedStmt → Prop
  | [] => True
  | first :: rest => first.SetsOnly allowed ∧ TypedStmt.AllSetOnly allowed rest

/-- (AllSetOnly allowed branches) says so of several branches. -/
def TypedBranch.AllSetOnly (allowed : Nat → Prop) : List TypedBranch → Prop
  | [] => True
  | .mk condition body :: rest =>
    condition.SetsOnly allowed ∧ body.SetsOnly allowed ∧ TypedBranch.AllSetOnly allowed rest

end

/-- (SetsOnly allowed body) says so of the body of a function. -/
def FunctionBody.SetsOnly (allowed : Nat → Prop) : FunctionBody → Prop
  | .script (some body) => body.SetsOnly allowed
  | _ => True

/-- Several expressions set allowed members only when each does, by induction over them. -/
theorem TypedExpr.allSetOnly_iff {allowed : Nat → Prop} {exprs : List TypedExpr}
    : TypedExpr.AllSetOnly allowed exprs ↔ ∀ expr ∈ exprs, expr.SetsOnly allowed := by
  induction exprs with
  | nil => exact ⟨fun _ expr among => (by cases among), fun _ => trivial⟩
  | cons first rest ih => exact (and_congr_right fun _ => ih).trans List.forall_mem_cons.symm

-----------------------------------------------------------------------------------------
-- All members allowed
-----------------------------------------------------------------------------------------

mutual

/-- Expressions set allowed members only where all are allowed, by induction over them. -/
theorem TypedExpr.setsOnly_any (expr : TypedExpr) : expr.SetsOnly fun _ => True := by
  cases expr with
  | mk kind type span => exact kind.setsOnly_any
termination_by structural expr

theorem ExprKind.setsOnly_any (kind : ExprKind) : kind.SetsOnly fun _ => True := by
  cases kind with
  | binary lhs operator function rhs => exact ⟨lhs.setsOnly_any, rhs.setsOnly_any⟩
  | unary operator function operand => exact operand.setsOnly_any
  | ternary condition whenTrue whenFalse =>
      exact ⟨condition.setsOnly_any, whenTrue.setsOnly_any, whenFalse.setsOnly_any⟩
  | member object name index => exact object.setsOnly_any
  | call function arguments | implicitCall function arguments | construct function arguments
  | scriptDirectory directory function arguments =>
      exact TypedExpr.allSetOnly_any arguments
  | memberCall object function arguments =>
      exact ⟨object.setsOnly_any, TypedExpr.allSetOnly_any arguments⟩
  | cast kind inner => exact inner.setsOnly_any
  | list values => exact TypedExpr.allSetOnly_any values
  | designated members => exact MemberValue.allSetOnly_any members
  | pending fields => exact PendingField.allSetOnly_any fields
  | _ => exact trivial
termination_by structural kind

theorem TypedExpr.allSetOnly_any (exprs : List TypedExpr)
    : TypedExpr.AllSetOnly (fun _ => True) exprs := by
  cases exprs with
  | nil => exact trivial
  | cons first rest => exact ⟨first.setsOnly_any, TypedExpr.allSetOnly_any rest⟩
termination_by structural exprs

theorem MemberValue.allSetOnly_any (members : List MemberValue)
    : MemberValue.AllSetOnly (fun _ => True) members := by
  cases members with
  | nil => exact trivial
  | cons first rest =>
      cases first with
      | mk index value => exact ⟨trivial, value.setsOnly_any, MemberValue.allSetOnly_any rest⟩
termination_by structural members

theorem PendingField.allSetOnly_any (fields : List PendingField)
    : PendingField.AllSetOnly (fun _ => True) fields := by
  cases fields with
  | nil => exact trivial
  | cons first rest =>
      cases first with
      | mk name value span => exact ⟨value.setsOnly_any, PendingField.allSetOnly_any rest⟩
termination_by structural fields

end

theorem TypedExpr.maySetOnly_any (expr? : Option TypedExpr)
    : TypedExpr.MaySetOnly (fun _ => True) expr? :=
  fun expr _ => expr.setsOnly_any

mutual

/-- Statements set allowed members only where all are allowed, by induction over them. -/
theorem TypedStmt.setsOnly_any (stmt : TypedStmt) : stmt.SetsOnly fun _ => True := by
  cases stmt with
  | expression value => exact value.setsOnly_any
  | varDecl decl => exact TypedExpr.maySetOnly_any decl.initial?
  | returnValue value? span => exact TypedExpr.maySetOnly_any value?
  | conditional branches otherwise? span =>
      cases otherwise? with
      | none => exact TypedBranch.allSetOnly_any branches
      | some body => exact ⟨TypedBranch.allSetOnly_any branches, body.setsOnly_any⟩
  | whileLoop condition body span => exact ⟨condition.setsOnly_any, body.setsOnly_any⟩
  | forLoop initial? condition? iteration? body span =>
      have parts : TypedExpr.MaySetOnly (fun _ => True) condition? ∧
          TypedExpr.MaySetOnly (fun _ => True) iteration? ∧ body.SetsOnly fun _ => True :=
        ⟨TypedExpr.maySetOnly_any condition?, TypedExpr.maySetOnly_any iteration?,
          body.setsOnly_any⟩
      cases initial? with
      | none => exact parts
      | some initial => exact ⟨initial.setsOnly_any, parts⟩
  | block body => exact body.setsOnly_any
  | implicitReturn span | breakLoop span => exact trivial
termination_by structural stmt

theorem TypedBlock.setsOnly_any (block : TypedBlock) : block.SetsOnly fun _ => True := by
  cases block with
  | mk body span => exact TypedStmt.allSetOnly_any body
termination_by structural block

theorem TypedStmt.allSetOnly_any (stmts : List TypedStmt)
    : TypedStmt.AllSetOnly (fun _ => True) stmts := by
  cases stmts with
  | nil => exact trivial
  | cons first rest => exact ⟨first.setsOnly_any, TypedStmt.allSetOnly_any rest⟩
termination_by structural stmts

theorem TypedBranch.allSetOnly_any (branches : List TypedBranch)
    : TypedBranch.AllSetOnly (fun _ => True) branches := by
  cases branches with
  | nil => exact trivial
  | cons first rest =>
      cases first with
      | mk condition body =>
          exact ⟨condition.setsOnly_any, body.setsOnly_any, TypedBranch.allSetOnly_any rest⟩
termination_by structural branches

end

theorem FunctionBody.setsOnly_any (body : FunctionBody) : body.SetsOnly fun _ => True := by
  unfold SetsOnly
  split
  · exact TypedBlock.setsOnly_any _
  · exact trivial

end BuildScript
