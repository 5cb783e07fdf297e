import BuildScript.Run.Eval

/-! Executing statements, where calls of functions are left to a parameter. -/

namespace BuildScript

namespace Run

/-- The value that a variable begins with. -/
def initialValue (call : Caller) (decl : TypedVariable) : Run Handle := do
  let value ←
    match decl.initial? with
    | some initial => evaluate call initial
    | none => createDefault decl.type
  bind decl.type value

/-- A value that is nothing. -/
def void : Run Handle := perform Effect.void

/-- Whether an expression is true. -/
def test (call : Caller) (condition : TypedExpr) : Run Bool := do
  let condition ← evaluate call condition
  return (← valueOf condition).asBool

/-- Whether the statements that follow are passed over. -/
def interrupted (machine : Machine) : Bool := machine.returned?.isSome || machine.breaking

/-- Whether a loop ends after its body. A `break` is done with then. -/
def leavesLoop : Run Bool := do
  let machine ← get
  if machine.breaking then
    set { machine with breaking := false }
    return true
  else return machine.returned?.isSome

/-- Carries out a body and a step in turn for as long as a condition holds, at most a number of
times.
-/
def loop (condition : Run Bool) (body step : Run Unit) : Nat → Run Unit
  | 0 => throw .exhausted
  | rounds + 1 => do
    if ← condition then
      body
      if ← leavesLoop then return ()
      else
        step
        loop condition body step rounds
    else return ()

mutual

/-- Executes a statement. -/
def execute (call : Caller) : TypedStmt → Run Unit
  | .expression value => do
    let _ ← evaluate call value
    return ()
  | .varDecl decl => do
    let value ← initialValue call decl
    modify (Machine.addVariable decl.index value)
  | .returnValue value? _ => do
    let value ←
      match value? with
      | some value => evaluate call value
      | none => void
    modify fun machine => { machine with returned? := some value }
  | .implicitReturn _ => do
    let value ← void
    modify fun machine => { machine with returned? := some value }
  | .conditional branches otherwise? _ =>
    executeBranches call
      (match otherwise? with
      | some body => executeBlock call body
      | none => return ())
      branches
  | .whileLoop condition body _ => do
    loop (test call condition) (executeBlock call body) (return ())
      (← read).limits.iterations
  | .forLoop initial? condition? iteration? body _ => inScope do
    match initial? with
    | some initial => execute call initial
    | none => pure ()
    let condition : Run Bool :=
      match condition? with
      | some condition => test call condition
      | none => return true
    let step : Run Unit :=
      match iteration? with
      | some iteration => do
        let _ ← evaluate call iteration
        return ()
      | none => return ()
    loop condition (executeBlock call body) step (← read).limits.iterations
  | .breakLoop _ => modify fun machine => { machine with breaking := true }
  | .block body => executeBlock call body

/-- Executes the statements of a block in a scope of their own. -/
def executeBlock (call : Caller) : TypedBlock → Run Unit
  | .mk body _ => inScope (executeAll call body)

/-- Executes statements until one of them returns or breaks. -/
def executeAll (call : Caller) : List TypedStmt → Run Unit
  | [] => return ()
  | first :: rest => do
    execute call first
    if interrupted (← get) then return () else executeAll call rest

/-- Executes the block of the first condition that holds, or else something else. -/
def executeBranches (call : Caller) (otherwise : Run Unit) : List TypedBranch → Run Unit
  | [] => otherwise
  | .mk condition body :: rest => do
    if ← test call condition then executeBlock call body
    else executeBranches call otherwise rest

end

end Run

end BuildScript
