import BuildScript.Proofs.Registry.Conversion
import BuildScript.Proofs.Typed.Parts

/-! Expressions in which all casts make sense and all calls give functions as many arguments as they
have parameters. A registry that admits an expression goes on to admit it, so that this can be seen
when the cast is put in or the call is made.
-/

namespace BuildScript

-----------------------------------------------------------------------------------------
-- Expressions in expressions
-----------------------------------------------------------------------------------------

namespace TypedExpr

/-- An expression contains itself and what those right inside of it contain. -/
inductive Contains : TypedExpr → TypedExpr → Prop where
  | self (expr : TypedExpr) : Contains expr expr
  | part {outer part inner : TypedExpr} (among : part ∈ outer.kind.parts)
      (inside : Contains part inner)
      : Contains outer inner

/-- The casts in an expression convert in a registry when each of them makes sense between its own
type and the type of what it is put around, and when these two are not the same.
-/
def CastsConvert (registry : Registry) (expr : TypedExpr) : Prop :=
  ∀ (cast inner : TypedExpr) (kind : CastKind), expr.Contains cast →
    cast.kind = .cast kind inner →
    registry.Converts kind cast.type inner.type
      ∧ registry.sameType cast.type inner.type = false

theorem CastsConvert.node {registry : Registry} {kind : ExprKind} {type : TypeId} {span : Span}
    (outermost : ∀ cast inner, kind = .cast cast inner →
      registry.Converts cast type inner.type ∧ registry.sameType type inner.type = false)
    (parts : ∀ part ∈ kind.parts, part.CastsConvert registry)
    : CastsConvert registry (.mk kind type span) := by
  intro cast inner castKind contains found
  cases contains with
  | self => exact outermost _ _ found
  | part among inside => exact parts _ among _ _ _ inside found

end TypedExpr

/-- The function that an expression calls, if it does, with the number of arguments that it gives
it.
-/
def ExprKind.applied? : ExprKind → Option (FunctionId × Nat)
  | .binary _ _ function _ => some (function, 1)
  | .unary _ function _ | .declarativeDirectory _ function | .declarativeFile _ function =>
    some (function, 0)
  | .call function arguments | .memberCall _ function arguments
  | .implicitCall function arguments | .construct (some function) arguments
  | .scriptDirectory _ function arguments =>
    some (function, arguments.length)
  | _ => none

-----------------------------------------------------------------------------------------
-- Admission
-----------------------------------------------------------------------------------------

namespace Registry

variable {registry before after : Registry} {b : BuiltinTypes}

/-- A registry admits an expression when the types in it are known, when the functions that it calls
have as many parameters as they get arguments, and when its casts convert wherever the registry has
gone on to one with regular references.
-/
structure Admits (b : BuiltinTypes) (registry : Registry) (expr : TypedExpr) : Prop where
  types : ∀ inner, expr.Contains inner → registry.Knows inner.type
  calls : ∀ inner, expr.Contains inner → ∀ function count,
    inner.kind.applied? = some (function, count) → registry.HasArity function count
  casts : ∀ later : Registry, registry.Retains later → later.Regular b → expr.CastsConvert later

theorem Admits.known {expr : TypedExpr} (admits : registry.Admits b expr)
    : registry.Knows expr.type :=
  admits.types expr (.self expr)

theorem Admits.part {expr part : TypedExpr} (admits : registry.Admits b expr)
    (among : part ∈ expr.kind.parts)
    : registry.Admits b part :=
  ⟨fun inner inside => admits.types inner (.part among inside),
    fun inner inside => admits.calls inner (.part among inside), fun later retains regular
    cast inner kind inside =>
      admits.casts later retains regular cast inner kind (.part among inside)⟩

theorem Admits.retain {expr : TypedExpr} (admits : before.Admits b expr)
    (retains : before.Retains after)
    : after.Admits b expr :=
  ⟨fun inner inside => retains.knows _ (admits.types inner inside),
    fun inner inside function count applied =>
      retains.arity (admits.calls inner inside function count applied),
    fun later growth => admits.casts later (retains.trans growth)⟩

theorem Admits.mono {expr : TypedExpr} (admits : before.Admits b expr)
    (grows : before.Grows after)
    : after.Admits b expr :=
  admits.retain grows.retains

/-- A registry admits several expressions when it admits each of them. -/
def AdmitsAll (b : BuiltinTypes) (registry : Registry) (exprs : List TypedExpr) : Prop :=
  ∀ expr ∈ exprs, registry.Admits b expr

namespace AdmitsAll

variable {first : TypedExpr} {exprs rest : List TypedExpr}

theorem nil : registry.AdmitsAll b [] := List.forall_mem_nil _

theorem single (admits : registry.Admits b first) : registry.AdmitsAll b [first] :=
  List.forall_mem_singleton.mpr admits

theorem cons (admits : registry.Admits b first) (others : registry.AdmitsAll b rest)
    : registry.AdmitsAll b (first :: rest) :=
  List.forall_mem_cons.mpr ⟨admits, others⟩

theorem append (admits : registry.AdmitsAll b exprs) (others : registry.AdmitsAll b rest)
    : registry.AdmitsAll b (exprs ++ rest) :=
  List.forall_mem_append.mpr ⟨admits, others⟩

theorem option {expr? : Option TypedExpr}
    (admits : ∀ expr, expr? = some expr → registry.Admits b expr)
    : registry.AdmitsAll b expr?.toList :=
  fun expr among => admits expr (Option.mem_toList.mp among)

theorem known (admits : registry.AdmitsAll b exprs)
    : ∀ type ∈ exprs.map (·.type), registry.Knows type := by
  intro type among
  obtain ⟨expr, inExprs, rfl⟩ := List.mem_map.mp among
  exact (admits expr inExprs).known

theorem retain (admits : before.AdmitsAll b exprs) (retains : before.Retains after)
    : after.AdmitsAll b exprs :=
  fun expr among => (admits expr among).retain retains

theorem mono (admits : before.AdmitsAll b exprs) (grows : before.Grows after)
    : after.AdmitsAll b exprs :=
  admits.retain grows.retains

end AdmitsAll

/-- An expression that is no cast is admitted with those right inside of it, if it calls a function
with the right number of arguments or none at all.
-/
theorem Admits.node {kind : ExprKind} {type : TypeId} {span : Span} (known : registry.Knows type)
    (parts : registry.AdmitsAll b kind.parts) (plain : ∀ cast inner, kind ≠ .cast cast inner)
    (applies : ∀ function count, kind.applied? = some (function, count) →
      registry.HasArity function count := by nofun)
    : registry.Admits b (.mk kind type span) := by
  refine ⟨fun inner inside => ?_, fun inner inside => ?_,
    fun later retains regular => TypedExpr.CastsConvert.node ?_ ?_⟩
  · cases inside with
    | self => exact known
    | part among inside => exact (parts _ among).types inner inside
  · cases inside with
    | self => exact applies
    | part among inside => exact (parts _ among).calls inner inside
  · exact fun cast inner same => absurd same (plain cast inner)
  · exact fun part among => (parts part among).casts later retains regular

/-- An expression that calls a function with the right number of arguments is admitted with those
right inside of it.
-/
theorem Admits.call {kind : ExprKind} {type : TypeId} {span : Span} {function : FunctionId}
    {count : Nat} (known : registry.Knows type) (parts : registry.AdmitsAll b kind.parts)
    (plain : ∀ cast inner, kind ≠ .cast cast inner)
    (applied : kind.applied? = some (function, count)) (arity : registry.HasArity function count)
    : registry.Admits b (.mk kind type span) := by
  refine .node known parts plain fun other otherCount same => ?_
  cases applied.symm.trans same
  exact arity

/-- A cast is admitted around a value of another type that fits. -/
theorem Admits.cast (closed : registry.Closed) {target : TypeId} {inner : TypedExpr}
    (known : registry.Knows target) (admits : registry.Admits b inner)
    (fits : registry.Fits b target inner.type)
    (undesignated : (registry.type inner.type).isDesignated = false)
    (differs : registry.sameType target inner.type = false) (span : Span)
    : registry.Admits b (.mk (.cast (registry.castKind target inner.type) inner) target span) := by
  refine ⟨fun other inside => ?types, fun other inside => ?calls, fun later retains regular =>
    TypedExpr.CastsConvert.node ?outermost ?inside⟩
  case types =>
    cases inside with
    | self => exact known
    | part among inside =>
        rw [List.mem_singleton.mp among] at inside
        exact admits.types other inside
  case calls =>
    cases inside with
    | self => nofun
    | part among inside =>
        rw [List.mem_singleton.mp among] at inside
        exact admits.calls other inside
  case outermost =>
    rintro _ _ ⟨⟩
    rw [← retains.sameType known admits.known] at differs
    rw [← retains.isDesignated admits.known] at undesignated
    rw [← retains.castKind closed known admits.known]
    rcases fits later retains regular with designated | fits
    · rw [undesignated] at designated
      cases designated
    · exact ⟨regular.converts undesignated differs fits, differs⟩
  case inside =>
    exact List.forall_mem_singleton.mpr (admits.casts later retains regular)

/-- A function takes arguments when it is known and they fit its parameters. -/
structure Takes (b : BuiltinTypes) (registry : Registry) (function : FunctionId)
    (arguments : List TypedExpr)
    : Prop where
  known : registry.KnowsFunction function
  fits : registry.FitsAll b (registry.function function).params (arguments.map (·.type))

theorem Takes.mono {function : FunctionId} {arguments : List TypedExpr}
    (takes : before.Takes b function arguments) (grows : before.Grows after)
    : after.Takes b function arguments := by
  refine ⟨grows.knowsFunction takes.known, ?_⟩
  rw [grows.params takes.known]
  exact takes.fits.mono grows.retains

/-- A function has as many parameters as it takes arguments. -/
theorem Takes.arity {function : FunctionId} {arguments : List TypedExpr}
    (takes : registry.Takes b function arguments)
    : registry.HasArity function arguments.length :=
  ⟨takes.known, by rw [takes.fits.length_eq, List.length_map]⟩

end Registry

-----------------------------------------------------------------------------------------
-- Expressions in scripts
-----------------------------------------------------------------------------------------

mutual

/-- The outermost expressions in a statement, in order. -/
def TypedStmt.exprs : TypedStmt → List TypedExpr
  | .expression value => [value]
  | .varDecl decl => decl.initial?.toList
  | .returnValue value? _ => value?.toList
  | .conditional branches none _ => TypedBranch.allExprs branches
  | .conditional branches (some body) _ => TypedBranch.allExprs branches ++ body.exprs
  | .whileLoop condition body _ => condition :: body.exprs
  | .forLoop none condition? iteration? body _ =>
    condition?.toList ++ iteration?.toList ++ body.exprs
  | .forLoop (some initial) condition? iteration? body _ =>
    initial.exprs ++ (condition?.toList ++ iteration?.toList ++ body.exprs)
  | .block body => body.exprs
  | .implicitReturn _ | .breakLoop _ => []

/-- The outermost expressions in a block, in order. -/
def TypedBlock.exprs : TypedBlock → List TypedExpr
  | .mk body _ => TypedStmt.allExprs body

/-- The outermost expressions in several statements, in order. -/
def TypedStmt.allExprs : List TypedStmt → List TypedExpr
  | [] => []
  | first :: rest => first.exprs ++ TypedStmt.allExprs rest

/-- The outermost expressions in several branches, in order. -/
def TypedBranch.allExprs : List TypedBranch → List TypedExpr
  | [] => []
  | .mk condition body :: rest => condition :: body.exprs ++ TypedBranch.allExprs rest

end

/-- The outermost expressions in functions, in order. -/
def FunctionDefinition.allExprs (definitions : List FunctionDefinition) : List TypedExpr :=
  definitions.flatMap (·.body.exprs)

namespace TypedDecl

mutual

/-- The outermost expressions in a declaration, in order. -/
def exprs : TypedDecl → List TypedExpr
  | varDecl decl => decl.initial?.toList
  | function definition => definition.body.exprs
  | classDecl _ functions _ => FunctionDefinition.allExprs functions
  | namespaceDecl _ decls _ => allExprs decls
  | enumDecl _ _ | importModule _ _ => []

/-- The outermost expressions in several declarations, in order. -/
def allExprs : List TypedDecl → List TypedExpr
  | [] => []
  | decl :: rest => exprs decl ++ allExprs rest

end

end TypedDecl

/-- The outermost expressions in a script, in order. -/
def TypedUnit.exprs (scriptUnit : TypedUnit) : List TypedExpr :=
  TypedDecl.allExprs scriptUnit.decls

namespace TypedDecl

mutual

/-- The variables that a declaration declares get their first values from expressions in it. -/
theorem initial_exprs (decl : TypedDecl) {declared : TypedVariable} {initial : TypedExpr}
    (among : declared ∈ decl.globals) (found : declared.initial? = some initial)
    : initial ∈ decl.exprs := by
  cases decl with
  | varDecl other =>
      rw [List.mem_singleton.mp among] at found
      exact Option.mem_toList.mpr found
  | namespaceDecl names decls span => exact initial_allExprs decls among found
  | _ => cases among
termination_by structural decl

theorem initial_allExprs (decls : List TypedDecl) {declared : TypedVariable}
    {initial : TypedExpr} (among : declared ∈ globalsOf decls)
    (found : declared.initial? = some initial)
    : initial ∈ allExprs decls := by
  cases decls with
  | nil => cases among
  | cons first rest =>
      rcases List.mem_append.mp among with inFirst | inRest
      · exact List.mem_append_left _ (initial_exprs first inFirst found)
      · exact List.mem_append_right _ (initial_allExprs rest inRest found)
termination_by structural decls

end

end TypedDecl

/-- Global variables get their first values from expressions in the script. -/
theorem TypedUnit.initial_exprs {scriptUnit : TypedUnit} {declared : TypedVariable}
    {initial : TypedExpr} (among : declared ∈ scriptUnit.globals)
    (found : declared.initial? = some initial)
    : initial ∈ scriptUnit.exprs :=
  TypedDecl.initial_allExprs scriptUnit.decls among found

end BuildScript
