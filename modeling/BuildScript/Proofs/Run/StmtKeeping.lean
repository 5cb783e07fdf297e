import BuildScript.Proofs.Run.Keeping
import BuildScript.Proofs.Run.Lawfulness
import BuildScript.Proofs.Typed.Parts
import BuildScript.Run.Program

/-! Executing statements and calling functions keeps machines sound, by induction over statements
and over the calls that may be opened. A statement adds the variable that it declares to the
innermost scope, and what happens in scopes and calls of their own adds none.
-/

namespace BuildScript

namespace Run.Keeps

variable {allowed : Nat → Prop} {given : List Handle} {call : Caller} {α β : Type}

-----------------------------------------------------------------------------------------
-- Parts of statements
-----------------------------------------------------------------------------------------

theorem initialValue (called : Calls allowed call) (decl : TypedVariable)
    (sets : decl.SetsOnly allowed)
    : Keeps allowed Machine.SameShape [] (Run.initialValue call decl) fun value => [value] := by
  unfold Run.initialValue
  cases found : decl.initial? with
  | none => exact andThen (createDefault decl.type).ofOwned fun value => bindIn decl.type value
  | some initial =>
      exact andThen (evaluate called initial (sets initial found)) fun value =>
        bindIn decl.type value

theorem test (called : Calls allowed call) (condition : TypedExpr)
    (sets : condition.SetsOnly allowed)
    : Keeps allowed Machine.SameShape [] (Run.test call condition) fun _ => [] :=
  andThen (evaluate called condition sets) fun condition =>
    andThen (valueOf condition) fun _ => pure _ fun _ => Nat.zero_le _

/-- An expression whose value is not needed may be evaluated. -/
theorem discarded (called : Calls allowed call) (value : TypedExpr)
    (sets : value.SetsOnly allowed)
    : Keeps allowed Machine.SameShape []
        (do
          let _ ← Run.evaluate call value
          return ())
        fun _ => [] :=
  andThen (evaluate called value sets) fun _ => pure _ fun _ => Nat.zero_le _

theorem leavesLoop
    : Keeps allowed Machine.SameShape [] Run.leavesLoop fun _ => [] := by
  intro setting admitted machine held sound
  rw [Obeys.leavesLoop_run]
  cases machine.breaking with
  | true => exact ⟨sound.rearranged rfl fun _ => Nat.le_refl _, rfl⟩
  | false => exact ⟨sound, rfl⟩

/-- A loop keeps machines sound and their variables the same when its parts do, by induction over
the rounds that it may take.
-/
theorem loop {condition : Run Bool} {body step : Run Unit}
    (tested : Keeps allowed Machine.SameShape [] condition fun _ => [])
    (done : Keeps allowed Machine.Encloses [] body fun _ => [])
    (stepped : Keeps allowed Machine.SameShape [] step fun _ => []) (rounds : Nat)
    : Keeps allowed Machine.Encloses [] (Run.loop condition body step rounds) fun _ => [] := by
  induction rounds with
  | zero => exact fun _ _ machine _ sound => ⟨sound, (Machine.SameShape.refl machine).encloses⟩
  | succ rounds ih =>
      rw [Run.loop]
      refine bindWith Machine.SameShape.composesEncloses [] tested fun holds => ?_
      split
      · refine bindWith Machine.Encloses.composes [] done fun _ => ?_
        refine bindWith Machine.SameShape.composesEncloses [] leavesLoop fun _ => ?_
        split
        · exact (pure () fun _ => Nat.zero_le _).related fun _ _ => Machine.SameShape.encloses
        · exact bindWith Machine.SameShape.composesEncloses [] stepped fun _ => ih
      · exact (pure () fun _ => Nat.zero_le _).related fun _ _ => Machine.SameShape.encloses

/-- What is done in a scope of its own leaves no variable behind. -/
theorem inScope {indices : List Nat} {action : Run α}
    (keeps : Keeps allowed (Machine.Declares indices) [] action fun _ => [])
    : Keeps allowed Machine.Encloses [] (Run.inScope action) fun _ => [] :=
  keeps.enclosed (fun _ => rfl) (fun _ => rfl)
    (fun machine handle => Nat.le_of_eq (by rw [Machine.handles_enterScope]))
    Machine.count_leaveScope_le fun _ _ => Machine.Declares.scope

/-- The loop of a `for` statement after its start, with its condition and step if it has any. -/
theorem loopOf (called : Calls allowed call) {body : Run Unit}
    (done : Keeps allowed Machine.Encloses [] body fun _ => [])
    (condition? iteration? : Option TypedExpr)
    : TypedExpr.MaySetOnly allowed condition? → TypedExpr.MaySetOnly allowed iteration? →
        Keeps allowed Machine.Encloses []
          (do
            let condition : Run Bool :=
              match condition? with
              | some condition => Run.test call condition
              | none => return true
            let step : Run Unit :=
              match iteration? with
              | some iteration => do
                let _ ← Run.evaluate call iteration
                return ()
              | none => return ()
            Run.loop condition body step (← MonadReader.read).limits.iterations)
          fun _ => [] := by
  intro tests steps
  refine read fun setting _ => loop ?_ done ?_ _
  · cases condition? with
    | none => exact pure true fun _ => Nat.zero_le _
    | some condition => exact test called condition (tests condition rfl)
  · cases iteration? with
    | none => exact pure () fun _ => Nat.zero_le _
    | some iteration => exact discarded called iteration (steps iteration rfl)

/-- What follows a statement unless it is interrupted declares what it declares, or nothing. -/
theorem unlessInterrupted {indices : List Nat} {rest : Run Unit}
    (follow : Keeps allowed (Machine.Declares indices) [] rest fun _ => [])
    : Keeps allowed (Machine.Declares indices) []
        (do if Run.interrupted (← MonadState.get) then return () else rest) fun _ => [] := by
  refine get fun setting admitted machine held sound => ?_
  cases Run.interrupted machine with
  | true => exact ⟨sound, (Machine.SameShape.refl machine).encloses.declares indices⟩
  | false => exact follow setting admitted machine held sound

/-- A value that is returned goes from those in use into the machine. -/
theorem returning (value : Handle)
    : Keeps allowed Machine.SameShape [value]
        (MonadState.modifyGet fun machine : Machine =>
          ((), { machine with returned? := some value })) fun _ => [] := by
  refine modified (fun _ => rfl) (fun machine handle => ?_) fun _ => rfl
  simp only [Machine.handles, Option.toList_some, List.count_append]
  omega

/-- A declaration gives its variable a value. -/
theorem declare (called : Calls allowed call) (decl : TypedVariable)
    (sets : decl.SetsOnly allowed)
    : Keeps allowed (Machine.Declares [decl.index]) [] (Run.execute call (.varDecl decl))
        fun _ => [] := by
  refine bindWith (Machine.SameShape.composesDeclares [decl.index]) []
    (initialValue called decl sets) fun value => modified (fun machine => ?_)
    (fun machine handle => ?_) fun machine => .addVariable machine decl.index value
  · unfold Machine.addVariable
    split <;> rfl
  · exact machine.count_addVariable_le decl.index value handle

-----------------------------------------------------------------------------------------
-- Statements
-----------------------------------------------------------------------------------------

mutual

/-- Executing a statement keeps machines sound, by induction over statements. -/
theorem execute (called : Calls allowed call) (stmt : TypedStmt) (sets : stmt.SetsOnly allowed)
    : Keeps allowed (Machine.Declares stmt.declares) [] (Run.execute call stmt) fun _ => [] := by
  have still {action : Run Unit}
      (keeps : Keeps allowed Machine.SameShape [] action fun _ => [])
      : Keeps allowed (Machine.Declares []) [] action fun _ => [] :=
    keeps.related fun _ _ same => same.encloses.declares []
  have closed {action : Run Unit}
      (keeps : Keeps allowed Machine.Encloses [] action fun _ => [])
      : Keeps allowed (Machine.Declares []) [] action fun _ => [] :=
    keeps.related fun _ _ same => same.declares []
  cases stmt with
  | expression value => exact still (discarded called value sets)
  | varDecl decl => exact declare called decl sets
  | returnValue value? span =>
      cases value? with
      | none => exact still (andThen void returning)
      | some value => exact still (andThen (evaluate called value (sets value rfl)) returning)
  | implicitReturn span => exact still (andThen void returning)
  | conditional branches otherwise? span =>
      cases otherwise? with
      | none =>
          exact closed (executeBranches called branches
            ((pure () fun _ => Nat.zero_le _).related fun _ _ => Machine.SameShape.encloses) sets)
      | some body =>
          exact closed (executeBranches called branches (executeBlock called body sets.2) sets.1)
  | whileLoop condition body span =>
      exact closed (read fun setting _ => loop (test called condition sets.1)
        (executeBlock called body sets.2) (pure () fun _ => Nat.zero_le _) _)
  | forLoop initial? condition? iteration? body span =>
      cases initial? with
      | none =>
          have rounds := loopOf called (executeBlock called body sets.2.2) condition?
            iteration? sets.1 sets.2.1
          exact closed (inScope (rounds.related fun _ _ same => same.declares []))
      | some initial =>
          have rounds := loopOf called (executeBlock called body sets.2.2.2) condition?
            iteration? sets.2.1 sets.2.2.1
          refine closed
            (inScope (bindWith (Machine.Declares.composes _ _) [] (execute called initial sets.1)
            fun _ => rounds.related fun _ _ same => same.declares []))
  | breakLoop span =>
      exact still (modified (fun _ => rfl) (fun _ _ => Nat.le_add_left _ _) fun _ => rfl)
  | block body => exact closed (executeBlock called body sets)
termination_by structural stmt

theorem executeBlock (called : Calls allowed call) (block : TypedBlock)
    (sets : block.SetsOnly allowed)
    : Keeps allowed Machine.Encloses [] (Run.executeBlock call block) fun _ => [] := by
  cases block with
  | mk body span => exact inScope (executeAll called body sets)
termination_by structural block

theorem executeAll (called : Calls allowed call) (stmts : List TypedStmt)
    (sets : TypedStmt.AllSetOnly allowed stmts)
    : Keeps allowed (Machine.Declares (stmts.flatMap TypedStmt.declares)) []
        (Run.executeAll call stmts) fun _ => [] := by
  cases stmts with
  | nil =>
      exact (pure () fun _ => Nat.zero_le _).related fun _ _ same => same.encloses.declares []
  | cons first rest =>
      refine bindWith (Machine.Declares.composes _ _) [] (execute called first sets.1) fun _ => ?_
      exact unlessInterrupted (executeAll called rest sets.2)
termination_by structural stmts

theorem executeBranches (called : Calls allowed call) (branches : List TypedBranch)
    {otherwise : Run Unit} (other : Keeps allowed Machine.Encloses [] otherwise fun _ => [])
    (sets : TypedBranch.AllSetOnly allowed branches)
    : Keeps allowed Machine.Encloses [] (Run.executeBranches call otherwise branches)
        fun _ => [] := by
  cases branches with
  | nil => exact other
  | cons first rest =>
      cases first with
      | mk condition body =>
          refine bindWith Machine.SameShape.composesEncloses []
            (test called condition sets.1) fun holds => ?_
          split
          · exact executeBlock called body sets.2.1
          · exact executeBranches called rest other sets.2.2
termination_by structural branches

end

-----------------------------------------------------------------------------------------
-- Calls
-----------------------------------------------------------------------------------------

/-- Arguments become parameters one after the other, by induction over the parameters. -/
theorem bindParams (params : List Param) (arguments : List Handle)
    : Keeps allowed Machine.SameShape arguments (Run.bindParams params arguments)
        Bindings.handles := by
  induction params generalizing arguments with
  | nil => exact pure _ fun _ => Nat.zero_le _
  | cons param params ih =>
      cases arguments with
      | nil => exact pure _ fun _ => Nat.zero_le _
      | cons argument arguments =>
          refine bind arguments (bindIn param.type argument) fun bound => ?_
          have paired (rest : Bindings)
              : Keeps allowed Machine.SameShape (rest.handles ++ [bound])
                  (Pure.pure ((param.index, bound) :: rest)) Bindings.handles := by
            refine pure _ fun other => ?_
            simp only [Bindings.handles, List.map_cons, List.count_append, List.count_cons,
              List.count_nil]
            omega
          refine (bind [bound] (ih arguments) paired).given_le fun other => ?_
          simp only [List.count_append]
          omega

/-- A call that ends gives up its handles, and what it returned is no longer the machine's. -/
theorem count_takeReturned_le (machine : Machine) (handle : Handle)
    : (takeReturned machine).handles.count handle + machine.returned?.toList.count handle ≤
        machine.handles.count handle := by
  obtain ⟨store, frames, globals, statics, returned?, breaking⟩ := machine
  cases frames with
  | nil =>
      simp only [takeReturned, Machine.handles, List.tail_nil, List.count_append,
        Option.toList_none, List.count_nil]
      omega
  | cons frame rest =>
      simp only [takeReturned, Machine.handles, List.tail_cons, List.flatMap_cons,
        List.count_append, Option.toList_none, List.count_nil]
      omega

theorem modify_run (change : Machine → Machine) (setting : RunSetting) (machine : Machine)
    : (modify change : Run PUnit) setting machine = (.ok ⟨⟩, change machine) :=
  rfl

/-- A call takes its parameters and its object with it when it ends, and gives what it returned,
if anything.
-/
theorem inFrame {body : Run Unit} (frame : Frame)
    (keeps : Keeps allowed Machine.Encloses [] body fun _ => [])
    : Keeps allowed Machine.SameShape frame.handles (Run.inFrame frame body) Option.toList := by
  intro setting admitted machine held sound
  have opened : Machine.Sound allowed { machine with frames := frame :: machine.frames }
      ([] ++ held) := by
    refine sound.rearranged rfl fun handle => ?_
    simp only [Machine.handles, List.flatMap_cons, List.count_append, List.count_nil]
    omega
  unfold Run.inFrame
  rw [run_bind, modify_run]
  simp only [Run.ensuring]
  rw [run_bind]
  cases outcome : body setting { machine with frames := frame :: machine.frames } with
  | mk result after =>
      cases result with
      | ok value =>
          obtain ⟨sound, same⟩ := keeps.ok admitted opened outcome
          refine ⟨sound.rearranged rfl fun handle => ?_, same.frame⟩
          have less := count_takeReturned_le after handle
          simp only [List.count_append, List.count_nil] at less ⊢
          omega
      | error stop =>
          obtain ⟨sound, same⟩ := keeps.error admitted opened outcome
          refine ⟨sound.rearranged rfl fun handle => ?_, same.frame⟩
          have less := count_takeReturned_le after handle
          simp only [List.count_append] at less ⊢
          omega

/-- Calling a function of a script keeps machines sound when the calls in its body do. -/
theorem callScript (called : Calls allowed call) {body : TypedBlock}
    (sets : body.SetsOnly allowed) (id : FunctionId) (returnType : TypeId) (params : List Param)
    (self? : Option Handle) (arguments : List Handle)
    : Keeps allowed Machine.SameShape (arguments ++ self?.toList)
        (Run.callScript call id returnType params body self? arguments) fun value => [value] := by
  refine bind self?.toList (bindParams params arguments) fun bindings => ?_
  refine andThen (inFrame ⟨id, [], bindings, self?⟩ (executeBlock called body sets))
    fun returned? => ?_
  cases returned? with
  | none => exact andThen void fun value => bindIn returnType value
  | some value => exact bindIn returnType value

/-- A check may look at the setting first. -/
theorem checked_read {next : RunSetting → Run α} {results : α → List Handle}
    (keeps : ∀ setting : RunSetting, setting.Admits allowed →
      Keeps allowed Machine.SameShape given (Run.checked (next setting)) results)
    : Keeps allowed Machine.SameShape given (Run.checked (MonadReader.read >>= next)) results :=
  fun setting admitted => keeps setting admitted setting admitted

/-- Calls keep machines sound, by induction over the calls that may be opened. -/
theorem callWithin (depth : Nat) : Calls allowed (Run.callWithin depth) := by
  induction depth with
  | zero =>
      intro id self? arguments
      unfold Run.callWithin
      refine checked_read fun setting admitted => checked ?_
      dsimp only
      split
      · exact perform (.operation _ self? arguments _)
      · exact perform (.leaf (.componentCreate _))
      · exact fail _
      · exact fail _
  | succ depth ih =>
      intro id self? arguments
      unfold Run.callWithin
      refine checked_read fun setting admitted => checked ?_
      dsimp only
      split
      · exact perform (.operation _ self? arguments _)
      · exact perform (.leaf (.componentCreate _))
      · exact fail _
      · next body found =>
          have sets := admitted.bodies id
          rw [found] at sets
          exact callScript ih sets id _ _ self? arguments

/-- Calls that count the open frames keep machines sound, too. -/
theorem callAny : Calls allowed Run.call := by
  intro id self? arguments
  refine read fun setting _ => get fun setting admitted machine held sound => ?_
  exact callWithin _ id self? arguments setting admitted machine held sound

end Run.Keeps

end BuildScript
