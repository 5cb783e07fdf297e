import BuildScript.Proofs.Run.Law
import BuildScript.Proofs.Run.Soundness
import BuildScript.Run.Program
import Mathlib.Logic.Relation

/-! The moments of a run. At every moment, a run begins to evaluate, to execute, to call or to
initialise something, or has just done so, while values that have been evaluated before are in
use. A moment leads to those at which the parts of what it begins begin.
-/

namespace BuildScript

/-- The operands of an expression, which are evaluated in order before anything else is done. Of
a conditional expression, that is only the condition.
-/
def ExprKind.operands : ExprKind → List TypedExpr
  | .binary lhs _ _ rhs => [lhs, rhs]
  | .unary _ _ operand => [operand]
  | .ternary condition _ _ => [condition]
  | .member object _ _ => [object]
  | .call _ arguments | .implicitCall _ arguments | .construct _ arguments
  | .scriptDirectory _ _ arguments =>
    arguments
  | .memberCall object _ arguments => object :: arguments
  | .cast _ inner => [inner]
  | .list values => values
  | _ => []

/-- The call that an expression comes down to when its operands have the given values, and the
innermost call works on an object: the function, the object that it is called on and the
arguments. Constructions are left aside.
-/
def ExprKind.call? (current? : Option Handle) (values : List Handle)
    : ExprKind → Option (FunctionId × Option Handle × List Handle)
  | .binary _ _ function _ | .unary _ function _ | .memberCall _ function _ =>
    values.head?.map fun object => (function, some object, values.tail)
  | .implicitCall function _ =>
    current?.map fun object => (function, some object.toReference, values)
  | .call function _ | .scriptDirectory _ function _ | .declarativeDirectory _ function
  | .declarativeFile _ function =>
    some (function, none, values)
  | _ => none

/-- The machine in which the call that an expression comes down to is made: that of a directory is
made inside of it.
-/
def ExprKind.entered (machine : Machine) : ExprKind → Machine
  | .scriptDirectory directory _ _ | .declarativeDirectory directory _ =>
    machine.request (.enterDirectory directory)
  | _ => machine

/-- How calls are made outside of all functions, or in a call that may open some more. -/
def Run.caller : Option Nat → Caller
  | none => Run.call
  | some depth => Run.callWithin depth

/-- Whether a loop goes on, if it has a condition. -/
def Run.condition (call : Caller) : Option TypedExpr → Run Bool
  | some condition => Run.test call condition
  | none => return true

/-- The step of a loop, if it has one. -/
def Run.step (call : Caller) : Option TypedExpr → Run Unit
  | some iteration => do
    let _ ← Run.evaluate call iteration
    return ()
  | none => return ()

/-- What a run begins to do. Once it has done something, it is at rest before it goes on. -/
inductive Activity where
  | evaluate (expr : TypedExpr)
  | evaluateAll (exprs : List TypedExpr)
  | ownAll (values : List Handle)
  | setMembers (object : Handle) (members : List MemberValue)
  | call (function : FunctionId) (self? : Option Handle) (arguments : List Handle)
  | bindParams (params : List Param) (arguments : List Handle)
  | bind (type : TypeId) (value : Handle)
  | initial (decl : TypedVariable)
  | execute (stmt : TypedStmt)
  | executeAll (stmts : List TypedStmt)
  | executeBlock (block : TypedBlock)
  | executeBranches (branches : List TypedBranch) (otherwise? : Option TypedBlock)
  | loop (condition? iteration? : Option TypedExpr) (body : TypedBlock) (rounds : Nat)
  | statics (decls : List TypedVariable)
  | globals (decls : List TypedVariable)
  | run (program : Program)
  | rest

namespace Activity

/-- What is done, and the values that it gives. -/
def action (call : Caller) : Activity → Run (List Handle)
  | evaluate expr => List.singleton <$> Run.evaluate call expr
  | evaluateAll exprs => Run.evaluateAll call exprs
  | ownAll values => List.map (fun owner => .owned owner.cell) <$> values.mapM Run.own
  | setMembers object members =>
    (fun _ => [.owned object.cell]) <$> Run.evaluateMembers call object members
  | .call function self? arguments => List.singleton <$> call function self? arguments
  | bindParams params arguments => Bindings.handles <$> Run.bindParams params arguments
  | bind type value => List.singleton <$> Run.bind type value
  | initial decl => List.singleton <$> Run.initialValue call decl
  | execute stmt => (fun _ => []) <$> Run.execute call stmt
  | executeAll stmts => (fun _ => []) <$> Run.executeAll call stmts
  | executeBlock block => (fun _ => []) <$> Run.executeBlock call block
  | executeBranches branches otherwise? =>
    (fun _ => []) <$> Run.executeBranches call
      (match otherwise? with
      | some body => Run.executeBlock call body
      | none => return ())
      branches
  | loop condition? iteration? body rounds =>
    (fun _ => []) <$> Run.loop (Run.condition call condition?) (Run.executeBlock call body)
      (Run.step call iteration?) rounds
  | statics decls => (fun _ => []) <$> Run.initializeStatics decls
  | globals decls => (fun _ => []) <$> Run.initializeGlobals decls
  | run program => List.singleton <$> program.execute
  | rest => return []

/-- The values in use that it takes. An object whose members are set is in use as its owner. -/
def taken : Activity → List Handle
  | ownAll values => values
  | setMembers object _ => [.owned object.cell]
  | call _ self? arguments => arguments ++ self?.toList
  | bindParams _ arguments => arguments
  | bind _ value => [value]
  | _ => []

/-- Whether something begins. -/
def isBeginning : Activity → Bool
  | rest => false
  | _ => true

end Activity

/-- A moment of a run: how many more calls may be opened, unless it is outside of all functions,
what begins, the machine, and the values that are in use besides.
-/
structure Moment where
  depth? : Option Nat
  activity : Activity
  machine : Machine
  held : List Handle

namespace Moment

variable (setting : RunSetting)

/-- What leads from one moment to another one in the evaluation of expressions. -/
inductive Evaluates : Moment → Moment → Prop where
  | operands (depth? : Option Nat) (kind : ExprKind) (type : TypeId) (span : Span)
      (machine : Machine) (held : List Handle)
      : Evaluates ⟨depth?, .evaluate (.mk kind type span), machine, held⟩
          ⟨depth?, .evaluateAll kind.operands, machine, held⟩
  | first (depth? : Option Nat) (expr : TypedExpr) (rest : List TypedExpr) (machine : Machine)
      (held : List Handle)
      : Evaluates ⟨depth?, .evaluateAll (expr :: rest), machine, held⟩
          ⟨depth?, .evaluate expr, machine, held⟩
  | next {depth? : Option Nat} {expr : TypedExpr} {machine after : Machine} {value : Handle}
      (evaluated : Run.evaluate (Run.caller depth?) expr setting machine = (.ok value, after))
      (rest : List TypedExpr) (held : List Handle)
      : Evaluates ⟨depth?, .evaluateAll (expr :: rest), machine, held⟩
          ⟨depth?, .evaluateAll rest, after, value :: held⟩
  | choice {depth? : Option Nat} {condition : TypedExpr} {machine after : Machine} {value : Bool}
      (tested : Run.test (Run.caller depth?) condition setting machine = (.ok value, after))
      (whenTrue whenFalse : TypedExpr) (type : TypeId) (span : Span) (held : List Handle)
      : Evaluates
          ⟨depth?, .evaluate (.mk (.ternary condition whenTrue whenFalse) type span), machine, held⟩
          ⟨depth?, .evaluate (if value then whenTrue else whenFalse), after, held⟩
  | call {depth? : Option Nat} {kind : ExprKind} {machine after : Machine} {values : List Handle}
      {function : FunctionId} {self? : Option Handle} {arguments : List Handle}
      (evaluated : Run.evaluateAll (Run.caller depth?) kind.operands setting machine =
        (.ok values, after))
      (calls : kind.call? (machine.frames.head?.bind (·.self?)) values =
        some (function, self?, arguments))
      (type : TypeId) (span : Span) (held : List Handle)
      : Evaluates ⟨depth?, .evaluate (.mk kind type span), machine, held⟩
          ⟨depth?, .call function self? arguments, kind.entered after, held⟩
  | perform {depth? : Option Nat} {function : FunctionId} {exprs : List TypedExpr}
      {machine after : Machine} {arguments : List Handle}
      (evaluated : Run.evaluateAll (Run.caller depth?) exprs setting machine =
        (.ok arguments, after))
      (builtin : (setting.registry.function function).isBuiltin)
      (type : TypeId) (span : Span) (held : List Handle)
      : Evaluates ⟨depth?, .evaluate (.mk (.construct (some function) exprs) type span), machine,
            held⟩
          ⟨depth?, .call function none arguments, after, held⟩
  | construct {depth? : Option Nat} {function : FunctionId} {exprs : List TypedExpr} {type : TypeId}
      {machine middle after : Machine} {arguments : List Handle} {object : Handle}
      (evaluated : Run.evaluateAll (Run.caller depth?) exprs setting machine =
        (.ok arguments, middle))
      (scripted : (setting.registry.function function).isBuiltin = false)
      (made : Run.createDefault type setting middle = (.ok object, after))
      (span : Span) (held : List Handle)
      : Evaluates ⟨depth?, .evaluate (.mk (.construct (some function) exprs) type span), machine,
            held⟩
          ⟨depth?, .call function (some object.toReference) arguments, after,
            .owned object.cell :: held⟩
  | elements {depth? : Option Nat} {exprs : List TypedExpr} {machine after : Machine}
      {values : List Handle}
      (evaluated : Run.evaluateAll (Run.caller depth?) exprs setting machine = (.ok values, after))
      (type : TypeId) (span : Span) (held : List Handle)
      : Evaluates ⟨depth?, .evaluate (.mk (.list exprs) type span), machine, held⟩
          ⟨depth?, .ownAll values, after, held⟩
  | owned {depth? : Option Nat} {value owner : Handle} {machine after : Machine}
      (owns : Run.own value setting machine = (.ok owner, after))
      (rest : List Handle) (held : List Handle)
      : Evaluates ⟨depth?, .ownAll (value :: rest), machine, held⟩
          ⟨depth?, .ownAll rest, after, .owned owner.cell :: held⟩
  | members {depth? : Option Nat} {type : TypeId} {machine after : Machine} {object : Handle}
      (made : Run.createDefault type setting machine = (.ok object, after))
      (members : List MemberValue) (span : Span) (held : List Handle)
      : Evaluates ⟨depth?, .evaluate (.mk (.designated members) type span), machine, held⟩
          ⟨depth?, .setMembers object members, after, held⟩
  | member (depth? : Option Nat) (object : Handle) (index : Nat) (expr : TypedExpr)
      (rest : List MemberValue) (machine : Machine) (held : List Handle)
      : Evaluates ⟨depth?, .setMembers object (.mk index expr :: rest), machine, held⟩
          ⟨depth?, .evaluate expr, machine, .owned object.cell :: held⟩
  | memberOwned {depth? : Option Nat} {expr : TypedExpr} {machine after : Machine} {value : Handle}
      (evaluated : Run.evaluate (Run.caller depth?) expr setting machine = (.ok value, after))
      (object : Handle) (index : Nat) (rest : List MemberValue) (held : List Handle)
      : Evaluates ⟨depth?, .setMembers object (.mk index expr :: rest), machine, held⟩
          ⟨depth?, .ownAll [value], after, .owned object.cell :: held⟩
  | memberSet {depth? : Option Nat} {expr : TypedExpr} {machine middle later after : Machine}
      {value owner object : Handle} {index : Nat}
      (evaluated : Run.evaluate (Run.caller depth?) expr setting machine = (.ok value, middle))
      (owns : Run.own value setting middle = (.ok owner, later))
      (set : Run.setMember object index owner setting later = (.ok (), after))
      (rest : List MemberValue) (held : List Handle)
      : Evaluates ⟨depth?, .setMembers object (.mk index expr :: rest), machine, held⟩
          ⟨depth?, .setMembers object rest, after, held⟩

/-- What leads from one moment to another one in the execution of statements. -/
inductive Executes : Moment → Moment → Prop where
  | initial {decl : TypedVariable} {expr : TypedExpr} (given : decl.initial? = some expr)
      (depth? : Option Nat) (machine : Machine) (held : List Handle)
      : Executes ⟨depth?, .initial decl, machine, held⟩ ⟨depth?, .evaluate expr, machine, held⟩
  | bindInitial {depth? : Option Nat} {decl : TypedVariable} {expr : TypedExpr}
      {machine after : Machine} {value : Handle} (given : decl.initial? = some expr)
      (evaluated : Run.evaluate (Run.caller depth?) expr setting machine = (.ok value, after))
      (held : List Handle)
      : Executes ⟨depth?, .initial decl, machine, held⟩ ⟨depth?, .bind decl.type value, after, held⟩
  | bindDefault {decl : TypedVariable} {machine after : Machine} {value : Handle}
      (missing : decl.initial? = none)
      (made : Run.createDefault decl.type setting machine = (.ok value, after))
      (depth? : Option Nat) (held : List Handle)
      : Executes ⟨depth?, .initial decl, machine, held⟩ ⟨depth?, .bind decl.type value, after, held⟩
  | expression (depth? : Option Nat) (expr : TypedExpr) (machine : Machine) (held : List Handle)
      : Executes ⟨depth?, .execute (.expression expr), machine, held⟩
          ⟨depth?, .evaluate expr, machine, held⟩
  | varDecl (depth? : Option Nat) (decl : TypedVariable) (machine : Machine) (held : List Handle)
      : Executes ⟨depth?, .execute (.varDecl decl), machine, held⟩
          ⟨depth?, .initial decl, machine, held⟩
  | returnValue (depth? : Option Nat) (expr : TypedExpr) (span : Span) (machine : Machine)
      (held : List Handle)
      : Executes ⟨depth?, .execute (.returnValue (some expr) span), machine, held⟩
          ⟨depth?, .evaluate expr, machine, held⟩
  | conditional (depth? : Option Nat) (branches : List TypedBranch) (otherwise? : Option TypedBlock)
      (span : Span) (machine : Machine) (held : List Handle)
      : Executes ⟨depth?, .execute (.conditional branches otherwise? span), machine, held⟩
          ⟨depth?, .executeBranches branches otherwise?, machine, held⟩
  | condition (depth? : Option Nat) (condition : TypedExpr) (body : TypedBlock)
      (rest : List TypedBranch) (otherwise? : Option TypedBlock) (machine : Machine)
      (held : List Handle)
      : Executes ⟨depth?, .executeBranches (.mk condition body :: rest) otherwise?, machine, held⟩
          ⟨depth?, .evaluate condition, machine, held⟩
  | branch {depth? : Option Nat} {condition : TypedExpr} {machine after : Machine}
      (tested : Run.test (Run.caller depth?) condition setting machine = (.ok true, after))
      (body : TypedBlock) (rest : List TypedBranch) (otherwise? : Option TypedBlock)
      (held : List Handle)
      : Executes ⟨depth?, .executeBranches (.mk condition body :: rest) otherwise?, machine, held⟩
          ⟨depth?, .executeBlock body, after, held⟩
  | nextBranch {depth? : Option Nat} {condition : TypedExpr} {machine after : Machine}
      (tested : Run.test (Run.caller depth?) condition setting machine = (.ok false, after))
      (body : TypedBlock) (rest : List TypedBranch) (otherwise? : Option TypedBlock)
      (held : List Handle)
      : Executes ⟨depth?, .executeBranches (.mk condition body :: rest) otherwise?, machine, held⟩
          ⟨depth?, .executeBranches rest otherwise?, after, held⟩
  | otherwise (depth? : Option Nat) (body : TypedBlock) (machine : Machine) (held : List Handle)
      : Executes ⟨depth?, .executeBranches [] (some body), machine, held⟩
          ⟨depth?, .executeBlock body, machine, held⟩
  | whileLoop (depth? : Option Nat) (condition : TypedExpr) (body : TypedBlock) (span : Span)
      (machine : Machine) (held : List Handle)
      : Executes ⟨depth?, .execute (.whileLoop condition body span), machine, held⟩
          ⟨depth?, .loop (some condition) none body setting.limits.iterations, machine, held⟩
  | forInitial (depth? : Option Nat) (initial : TypedStmt)
      (condition? iteration? : Option TypedExpr) (body : TypedBlock) (span : Span)
      (machine : Machine) (held : List Handle)
      : Executes
          ⟨depth?, .execute (.forLoop (some initial) condition? iteration? body span), machine,
            held⟩
          ⟨depth?, .execute initial, machine.enterScope, held⟩
  | forLoop (depth? : Option Nat) (condition? iteration? : Option TypedExpr) (body : TypedBlock)
      (span : Span) (machine : Machine) (held : List Handle)
      : Executes ⟨depth?, .execute (.forLoop none condition? iteration? body span), machine, held⟩
          ⟨depth?, .loop condition? iteration? body setting.limits.iterations, machine.enterScope,
            held⟩
  | forLoopAfter {depth? : Option Nat} {initial : TypedStmt} {machine after : Machine}
      (executed : Run.execute (Run.caller depth?) initial setting machine.enterScope =
        (.ok (), after))
      (condition? iteration? : Option TypedExpr) (body : TypedBlock) (span : Span)
      (held : List Handle)
      : Executes
          ⟨depth?, .execute (.forLoop (some initial) condition? iteration? body span), machine,
            held⟩
          ⟨depth?, .loop condition? iteration? body setting.limits.iterations, after, held⟩
  | loopCondition (depth? : Option Nat) (condition : TypedExpr) (iteration? : Option TypedExpr)
      (body : TypedBlock) (rounds : Nat) (machine : Machine) (held : List Handle)
      : Executes ⟨depth?, .loop (some condition) iteration? body (rounds + 1), machine, held⟩
          ⟨depth?, .evaluate condition, machine, held⟩
  | loopBody {depth? : Option Nat} {condition? : Option TypedExpr} {machine after : Machine}
      (holds : Run.condition (Run.caller depth?) condition? setting machine = (.ok true, after))
      (iteration? : Option TypedExpr) (body : TypedBlock) (rounds : Nat) (held : List Handle)
      : Executes ⟨depth?, .loop condition? iteration? body (rounds + 1), machine, held⟩
          ⟨depth?, .executeBlock body, after, held⟩
  | loopStep {depth? : Option Nat} {condition? : Option TypedExpr} {body : TypedBlock}
      {machine before middle after : Machine}
      (holds : Run.condition (Run.caller depth?) condition? setting machine = (.ok true, before))
      (executed : Run.executeBlock (Run.caller depth?) body setting before = (.ok (), middle))
      (stays : Run.leavesLoop setting middle = (.ok false, after))
      (iteration : TypedExpr) (rounds : Nat) (held : List Handle)
      : Executes ⟨depth?, .loop condition? (some iteration) body (rounds + 1), machine, held⟩
          ⟨depth?, .evaluate iteration, after, held⟩
  | loopAgain {depth? : Option Nat} {condition? iteration? : Option TypedExpr} {body : TypedBlock}
      {machine before middle later after : Machine}
      (holds : Run.condition (Run.caller depth?) condition? setting machine = (.ok true, before))
      (executed : Run.executeBlock (Run.caller depth?) body setting before = (.ok (), middle))
      (stays : Run.leavesLoop setting middle = (.ok false, later))
      (stepped : Run.step (Run.caller depth?) iteration? setting later = (.ok (), after))
      (rounds : Nat) (held : List Handle)
      : Executes ⟨depth?, .loop condition? iteration? body (rounds + 1), machine, held⟩
          ⟨depth?, .loop condition? iteration? body rounds, after, held⟩
  | block (depth? : Option Nat) (body : TypedBlock) (machine : Machine) (held : List Handle)
      : Executes ⟨depth?, .execute (.block body), machine, held⟩
          ⟨depth?, .executeBlock body, machine, held⟩
  | body (depth? : Option Nat) (stmts : List TypedStmt) (span : Span) (machine : Machine)
      (held : List Handle)
      : Executes ⟨depth?, .executeBlock (.mk stmts span), machine, held⟩
          ⟨depth?, .executeAll stmts, machine.enterScope, held⟩
  | first (depth? : Option Nat) (stmt : TypedStmt) (rest : List TypedStmt) (machine : Machine)
      (held : List Handle)
      : Executes ⟨depth?, .executeAll (stmt :: rest), machine, held⟩
          ⟨depth?, .execute stmt, machine, held⟩
  | next {depth? : Option Nat} {stmt : TypedStmt} {machine after : Machine}
      (executed : Run.execute (Run.caller depth?) stmt setting machine = (.ok (), after))
      (goesOn : Run.interrupted after = false)
      (rest : List TypedStmt) (held : List Handle)
      : Executes ⟨depth?, .executeAll (stmt :: rest), machine, held⟩
          ⟨depth?, .executeAll rest, after, held⟩

/-- What leads from one moment to another one in the calls of functions. The arguments become
parameters, the body is executed in a frame of its own, and what it returns is bound.
-/
inductive Calls : Moment → Moment → Prop where
  | within (function : FunctionId) (self? : Option Handle) (arguments : List Handle)
      (machine : Machine) (held : List Handle)
      : Calls ⟨none, .call function self? arguments, machine, held⟩
          ⟨some (setting.limits.callDepth - machine.frames.length), .call function self? arguments,
            machine, held⟩
  | params {function : FunctionId} {block : TypedBlock}
      (scripted : (setting.registry.function function).body = .script (some block)) (depth : Nat)
      (self? : Option Handle) (arguments : List Handle) (machine : Machine) (held : List Handle)
      : Calls ⟨some (depth + 1), .call function self? arguments, machine, held⟩
          ⟨some depth, .bindParams (setting.registry.function function).params arguments, machine,
            self?.toList ++ held⟩
  | param (depth? : Option Nat) (param : Param) (params : List Param) (argument : Handle)
      (arguments : List Handle) (machine : Machine) (held : List Handle)
      : Calls ⟨depth?, .bindParams (param :: params) (argument :: arguments), machine, held⟩
          ⟨depth?, .bind param.type argument, machine, arguments ++ held⟩
  | nextParam {param : Param} {argument value : Handle} {machine after : Machine}
      (bound : Run.bind param.type argument setting machine = (.ok value, after))
      (depth? : Option Nat) (params : List Param) (arguments : List Handle) (held : List Handle)
      : Calls ⟨depth?, .bindParams (param :: params) (argument :: arguments), machine, held⟩
          ⟨depth?, .bindParams params arguments, after, value :: held⟩
  | body {function : FunctionId} {block : TypedBlock} {arguments : List Handle}
      {params : Bindings} {machine after : Machine}
      (scripted : (setting.registry.function function).body = .script (some block))
      (bound : Run.bindParams (setting.registry.function function).params arguments setting
        machine = (.ok params, after))
      (depth : Nat) (self? : Option Handle) (held : List Handle)
      : Calls ⟨some (depth + 1), .call function self? arguments, machine, held⟩
          ⟨some depth, .executeBlock block,
            { after with frames := ⟨function, [], params, self?⟩ :: after.frames }, held⟩
  | result {depth : Nat} {function : FunctionId} {block : TypedBlock}
      {self? returned? : Option Handle}
      {arguments : List Handle} {params : Bindings} {machine before middle after : Machine}
      {value : Handle}
      (scripted : (setting.registry.function function).body = .script (some block))
      (bound : Run.bindParams (setting.registry.function function).params arguments setting
        machine = (.ok params, before))
      (executed : Run.inFrame ⟨function, [], params, self?⟩
        (Run.executeBlock (Run.callWithin depth) block) setting before = (.ok returned?, middle))
      (returned : (match returned? with
        | some value => pure value
        | none => Run.void : Run Handle) setting middle = (.ok value, after))
      (held : List Handle)
      : Calls ⟨some (depth + 1), .call function self? arguments, machine, held⟩
          ⟨some depth,
            .bind ((setting.registry.function function).returnType?.getD setting.builtins.void)
              value,
            after, held⟩

/-- What leads from one moment to another one outside of all functions. -/
inductive Prepares : Moment → Moment → Prop where
  | statics (program : Program) (machine : Machine)
      : Prepares ⟨none, .run program, machine, []⟩
          ⟨none, .statics (program.modules.flatMap fun other => other.scriptUnit.globals), machine,
            []⟩
  | static (decl : TypedVariable) (rest : List TypedVariable) (machine : Machine)
      : Prepares ⟨none, .statics (decl :: rest), machine, []⟩ ⟨none, .initial decl, machine, []⟩
  | nextStatic {decl : TypedVariable} {machine after : Machine} {value : Handle}
      (initial : Run.initialValue Run.call decl setting machine = (.ok value, after))
      (rest : List TypedVariable)
      : Prepares ⟨none, .statics (decl :: rest), machine, []⟩
          ⟨none, .statics rest, { after with statics := after.statics.set decl.index value }, []⟩
  | globals {program : Program} {machine after : Machine}
      (prepared : Run.initializeStatics
        (program.modules.flatMap fun other => other.scriptUnit.globals) setting machine =
          (.ok (), after))
      : Prepares ⟨none, .run program, machine, []⟩
          ⟨none, .globals program.scriptUnit.globals, after, []⟩
  | global (decl : TypedVariable) (rest : List TypedVariable) (machine : Machine)
      : Prepares ⟨none, .globals (decl :: rest), machine, []⟩ ⟨none, .initial decl, machine, []⟩
  | nextGlobal {decl : TypedVariable} {machine after : Machine} {value : Handle}
      (initial : Run.initialValue Run.call decl setting machine = (.ok value, after))
      (rest : List TypedVariable)
      : Prepares ⟨none, .globals (decl :: rest), machine, []⟩
          ⟨none, .globals rest, { after with globals := after.globals.set decl.index value }, []⟩
  | main {program : Program} {machine after : Machine}
      (prepared : program.prepare setting machine = (.ok (), after))
      : Prepares ⟨none, .run program, machine, []⟩
          ⟨none, .call program.main none [], after, []⟩

/-- What leads from one moment to the one when that which began is done, or was stopped. -/
inductive Rests : Moment → Moment → Prop where
  | ended {depth? : Option Nat} {activity : Activity} {machine after : Machine}
      {values : List Handle}
      (outcome : activity.action (Run.caller depth?) setting machine = (.ok values, after))
      (held : List Handle)
      : Rests ⟨depth?, activity, machine, held⟩ ⟨depth?, .rest, after, values ++ held⟩
  | stopped {depth? : Option Nat} {activity : Activity} {machine after : Machine} {stop : Stop}
      (outcome : activity.action (Run.caller depth?) setting machine = (.error stop, after))
      (held : List Handle)
      : Rests ⟨depth?, activity, machine, held⟩ ⟨depth?, .rest, after, held⟩

/-- (Leads setting before after) says that a moment leads to another one in a run. -/
inductive Leads (before after : Moment) : Prop where
  | evaluates (step : Evaluates setting before after)
  | executes (step : Executes setting before after)
  | calls (step : Calls setting before after)
  | prepares (step : Prepares setting before after)
  | rests (step : Rests setting before after)

end Moment

/-- (Reaches program limits system moment) says that a run of a program on a build system comes to
a moment.
-/
def Program.Reaches (program : Program) (limits : Limits) (system : BuildSystem) (moment : Moment)
    : Prop :=
  Relation.ReflTransGen (Moment.Leads (program.setting limits))
    ⟨none, .run program, Machine.ofSystem system, []⟩ moment

/-- A run comes to the moment at its end. -/
theorem Program.reaches_end (program : Program) (limits : Limits) (system : BuildSystem)
    : program.Reaches limits system
        ⟨none, .rest, (program.run limits system).2,
          (program.run limits system).1.toOption.toList⟩ := by
  have runs : Activity.action (Run.caller none) (.run program) (program.setting limits)
      (Machine.ofSystem system) =
        ((program.run limits system).1.map List.singleton, (program.run limits system).2) := by
    show (List.singleton <$> program.execute : Run (List Handle)) _ _ = _
    rw [map_eq_pure_bind, Run.run_bind]
    unfold Program.run
    rcases program.execute (program.setting limits) (Machine.ofSystem system) with
      ⟨value | stop, after⟩ <;> rfl
  cases result : (program.run limits system).1 with
  | ok value =>
      rw [result] at runs
      exact .single (.rests (.ended runs []))
  | error stop =>
      rw [result] at runs
      exact .single (.rests (.stopped runs []))

end BuildScript
