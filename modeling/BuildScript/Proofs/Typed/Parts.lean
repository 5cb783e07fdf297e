import BuildScript.Registry.Basic
import BuildScript.Typed.Tree

/-! The expressions right inside of an expression, and induction along them.

What checked statements declare, and where they may stand. A `break` belongs to a loop of the same
body, and a loop starts with a declaration or an expression, so that no signal is left over from
either.
-/

namespace BuildScript

/-- The value given to the member. -/
def MemberValue.value : MemberValue → TypedExpr
  | mk _ value => value

/-- The value given to the member that is not known yet. -/
def PendingField.value : PendingField → TypedExpr
  | mk _ value _ => value

/-- The expressions right inside of an expression. -/
def ExprKind.parts : ExprKind → List TypedExpr
  | .binary lhs _ _ rhs => [lhs, rhs]
  | .unary _ _ operand => [operand]
  | .ternary condition whenTrue whenFalse => [condition, whenTrue, whenFalse]
  | .member object _ _ => [object]
  | .call _ arguments | .implicitCall _ arguments | .construct _ arguments
  | .scriptDirectory _ _ arguments =>
    arguments
  | .memberCall object _ arguments => object :: arguments
  | .cast _ inner => [inner]
  | .list values => values
  | .designated members => members.map MemberValue.value
  | .pending fields => fields.map PendingField.value
  | .bool _ | .int _ | .double _ | .string _ | .enumerator _ | .id .. | .declarativeDirectory ..
  | .listfileDirectory _ | .declarativeFile .. =>
    []

namespace TypedExpr

/-- (Inherited motive) says that a property holds of an expression when it holds of those right
inside of it.
-/
def Inherited (motive : TypedExpr → Prop) : Prop :=
  ∀ kind type span, (∀ part ∈ kind.parts, motive part) → motive (.mk kind type span)

variable {motive : TypedExpr → Prop}

mutual

/-- What an expression inherits from those right inside of it holds of every expression. -/
theorem Inherited.all (step : Inherited motive) (expr : TypedExpr) : motive expr := by
  cases expr with
  | mk kind type span => exact step kind type span (step.parts kind)
termination_by structural expr

theorem Inherited.parts (step : Inherited motive) (kind : ExprKind)
    : ∀ part ∈ kind.parts, motive part := by
  cases kind with
  | binary lhs operator function rhs =>
      exact List.forall_mem_cons.mpr
        ⟨step.all lhs, List.forall_mem_singleton.mpr (step.all rhs)⟩
  | unary operator function operand =>
      exact List.forall_mem_singleton.mpr (step.all operand)
  | ternary condition whenTrue whenFalse =>
      simp only [ExprKind.parts, List.forall_mem_cons]
      exact ⟨step.all condition, step.all whenTrue, step.all whenFalse, List.forall_mem_nil _⟩
  | member object name index => exact List.forall_mem_singleton.mpr (step.all object)
  | call _ arguments | implicitCall _ arguments | construct _ arguments
  | scriptDirectory _ _ arguments => exact step.each arguments
  | list values => exact step.each values
  | memberCall object function arguments =>
      exact List.forall_mem_cons.mpr ⟨step.all object, step.each arguments⟩
  | cast kind inner => exact List.forall_mem_singleton.mpr (step.all inner)
  | designated fields => exact step.members fields
  | pending fields => exact step.fields fields
  | _ => exact List.forall_mem_nil _
termination_by structural kind

theorem Inherited.each (step : Inherited motive) (exprs : List TypedExpr)
    : ∀ expr ∈ exprs, motive expr := by
  cases exprs with
  | nil => exact List.forall_mem_nil _
  | cons first rest =>
      exact List.forall_mem_cons.mpr ⟨step.all first, step.each rest⟩
termination_by structural exprs

theorem Inherited.members (step : Inherited motive) (values : List MemberValue)
    : ∀ expr ∈ values.map MemberValue.value, motive expr := by
  cases values with
  | nil => exact List.forall_mem_nil _
  | cons first rest =>
      cases first with
      | mk index value =>
          exact List.forall_mem_cons.mpr ⟨step.all value, step.members rest⟩
termination_by structural values

theorem Inherited.fields (step : Inherited motive) (fields : List PendingField)
    : ∀ expr ∈ fields.map PendingField.value, motive expr := by
  cases fields with
  | nil => exact List.forall_mem_nil _
  | cons first rest =>
      cases first with
      | mk name value span =>
          exact List.forall_mem_cons.mpr ⟨step.all value, step.fields rest⟩
termination_by structural fields

end

end TypedExpr

-----------------------------------------------------------------------------------------
-- What statements declare
-----------------------------------------------------------------------------------------

/-- The numbers of the variables that a statement adds to the scope that it stands in. -/
def TypedStmt.declares : TypedStmt → List Nat
  | .varDecl decl => [decl.index]
  | _ => []

mutual

/-- The numbers of all variables that a statement and the statements in it declare, in order. -/
def TypedStmt.declared : TypedStmt → List Nat
  | .varDecl decl => [decl.index]
  | .conditional branches none _ => TypedBranch.allDeclared branches
  | .conditional branches (some body) _ => TypedBranch.allDeclared branches ++ body.declared
  | .whileLoop _ body _ => body.declared
  | .forLoop none _ _ body _ => body.declared
  | .forLoop (some initial) _ _ body _ => initial.declared ++ body.declared
  | .block body => body.declared
  | .expression _ | .returnValue .. | .implicitReturn _ | .breakLoop _ => []

/-- The numbers of all variables that are declared in a block. -/
def TypedBlock.declared : TypedBlock → List Nat
  | .mk body _ => TypedStmt.allDeclared body

/-- The numbers of all variables that are declared in several statements. -/
def TypedStmt.allDeclared : List TypedStmt → List Nat
  | [] => []
  | first :: rest => first.declared ++ TypedStmt.allDeclared rest

/-- The numbers of all variables that are declared in several branches. -/
def TypedBranch.allDeclared : List TypedBranch → List Nat
  | [] => []
  | .mk _ body :: rest => body.declared ++ TypedBranch.allDeclared rest

end

/-- What a statement adds to its scope is among all that it declares. -/
theorem TypedStmt.declares_subset {stmt : TypedStmt} {index : Nat}
    (member : index ∈ stmt.declares)
    : index ∈ stmt.declared := by
  cases stmt with
  | varDecl decl => exact member
  | _ => exact nomatch member

/-- The numbers of all variables that are declared in the body of a function. -/
def FunctionBody.declared : FunctionBody → List Nat
  | .script (some body) => body.declared
  | _ => []

-----------------------------------------------------------------------------------------
-- Where statements may stand
-----------------------------------------------------------------------------------------

/-- A statement that a loop may start with leaves no signal. -/
def TypedStmt.isInitial : TypedStmt → Bool
  | .expression _ | .varDecl _ => true
  | _ => false

mutual

/-- (wellScoped inLoop statement) requires every `break` to stand in a loop, where the statement
itself may stand in one.
-/
def TypedStmt.wellScoped (inLoop : Bool) : TypedStmt → Bool
  | .expression _ | .varDecl _ | .returnValue .. | .implicitReturn _ => true
  | .conditional branches none _ => TypedBranch.allWellScoped inLoop branches
  | .conditional branches (some body) _ =>
    TypedBranch.allWellScoped inLoop branches && body.wellScoped inLoop
  | .whileLoop _ body _ => body.wellScoped true
  | .forLoop initial? _ _ body _ =>
    initial?.all TypedStmt.isInitial && body.wellScoped true
  | .breakLoop _ => inLoop
  | .block body => body.wellScoped inLoop

/-- (wellScoped inLoop block) requires it of every statement of a block. -/
def TypedBlock.wellScoped (inLoop : Bool) : TypedBlock → Bool
  | .mk body _ => TypedStmt.allWellScoped inLoop body

/-- (allWellScoped inLoop statements) requires it of several statements. -/
def TypedStmt.allWellScoped (inLoop : Bool) : List TypedStmt → Bool
  | [] => true
  | first :: rest => first.wellScoped inLoop && TypedStmt.allWellScoped inLoop rest

/-- (allWellScoped inLoop branches) requires it of the bodies of several branches. -/
def TypedBranch.allWellScoped (inLoop : Bool) : List TypedBranch → Bool
  | [] => true
  | .mk _ body :: rest => body.wellScoped inLoop && TypedBranch.allWellScoped inLoop rest

end

/-- The body of a script's function stands in no loop. -/
def FunctionBody.wellScoped : FunctionBody → Bool
  | .script (some body) => body.wellScoped false
  | _ => true

/-- A registry is well scoped when the bodies of all its functions are. -/
def Registry.WellScoped (registry : Registry) : Prop :=
  ∀ id, (registry.function id).body.wellScoped = true

-----------------------------------------------------------------------------------------
-- What statements return
-----------------------------------------------------------------------------------------

mutual

/-- What the `return`s in a statement give, in order: a value, or nothing. -/
def TypedStmt.returns : TypedStmt → List (Option TypedExpr)
  | .returnValue value? _ => [value?]
  | .implicitReturn _ => [none]
  | .conditional branches none _ => TypedBranch.allReturns branches
  | .conditional branches (some body) _ => TypedBranch.allReturns branches ++ body.returns
  | .forLoop (some initial) _ _ body _ => initial.returns ++ body.returns
  | .whileLoop _ body _ | .forLoop none _ _ body _ | .block body => body.returns
  | .expression _ | .varDecl _ | .breakLoop _ => []

/-- What the `return`s in a block give. -/
def TypedBlock.returns : TypedBlock → List (Option TypedExpr)
  | .mk body _ => TypedStmt.allReturns body

/-- What the `return`s in several statements give. -/
def TypedStmt.allReturns : List TypedStmt → List (Option TypedExpr)
  | [] => []
  | first :: rest => first.returns ++ TypedStmt.allReturns rest

/-- What the `return`s in the bodies of several branches give. -/
def TypedBranch.allReturns : List TypedBranch → List (Option TypedExpr)
  | [] => []
  | .mk _ body :: rest => body.returns ++ TypedBranch.allReturns rest

end

/-- Whether a statement is a `return`. -/
def TypedStmt.isReturn : TypedStmt → Bool
  | .returnValue .. | .implicitReturn _ => true
  | _ => false

/-- Whether the last statement of a block is a `return`. -/
def TypedBlock.endsInReturn : TypedBlock → Bool
  | .mk body _ => body.getLast?.any TypedStmt.isReturn

/-- The body of a script's function ends in a `return`. -/
def FunctionBody.endsInReturn : FunctionBody → Bool
  | .script (some body) => body.endsInReturn
  | _ => true

end BuildScript
