import BuildScript.Proofs.Run.Placement
import BuildScript.Proofs.Run.Latching
import BuildScript.Proofs.Run.Readiness
import BuildScript.Proofs.Run.Simulation
import BuildScript.Proofs.Run.ValueSemantics

/-! What a `for` statement stands for. It does what a block does that starts in the same way and
goes on with a `while` statement, whose body carries out the step after the body. Both go alike, up
to the scope that the body of the `while` statement opens, and up to the cell of the literal that
stands for a condition that is not given.
-/

namespace BuildScript

open Padding

/-- The condition of the `while` statement that a `for` statement stands for: what is true if the
`for` statement has none. Its type is that of truth values.
-/
def TypedExpr.orTrue (condition? : Option TypedExpr) (boolean : TypeId) (span : Span) : TypedExpr :=
  condition?.getD (.mk (.bool true) boolean span)

/-- The body of the `while` statement that a `for` statement stands for. -/
def TypedBlock.withStep (body : TypedBlock) (iteration? : Option TypedExpr) (span : Span)
    : TypedBlock :=
  .mk (.block body :: iteration?.toList.map .expression) span

/-- The block that a `for` statement stands for. -/
def TypedBlock.ofFor (initial? : Option TypedStmt) (condition? iteration? : Option TypedExpr)
    (body : TypedBlock) (boolean : TypeId) (span : Span)
    : TypedBlock :=
  .mk
    (initial?.toList ++
      [.whileLoop (.orTrue condition? boolean span) (body.withStep iteration? span) span])
    span

-----------------------------------------------------------------------------------------
-- Rounds of loops
-----------------------------------------------------------------------------------------

namespace Run

variable {setting : RunSetting} {machine after : Machine}

/-- A round of a loop whose condition holds, and whether the loop is left. -/
def round (body step : Run Unit) : Run Bool := do
  body
  if ← leavesLoop then return true else
    step
    return false

theorem loop_succ (condition : Run Bool) (body step : Run Unit) (rounds : Nat)
    : loop condition body step (rounds + 1) = do
        if ← condition then
          if ← round body step then return () else loop condition body step rounds
        else return () := by
  rw [loop]
  refine congrArg (condition >>= ·) (funext fun holds => ?_)
  cases holds with
  | false => rfl
  | true =>
      simp only [round, ↓reduceIte, bind_assoc]
      refine congrArg (body >>= ·) (funext fun _ => ?_)
      refine congrArg (leavesLoop >>= ·) (funext fun leaves => ?_)
      cases leaves <;> simp

/-- A round after which a loop goes on has come to the end of its body and of its step. -/
theorem of_round {body step : Run Unit}
    (went : round body step setting machine = (.ok false, after))
    : ∃ middle later, body setting machine = (.ok (), middle)
        ∧ leavesLoop setting middle = (.ok false, later)
        ∧ step setting later = (.ok (), after) := by
  rw [round] at went
  obtain ⟨_, middle, executed, went⟩ := of_bind went
  obtain ⟨leaves, later, stays, went⟩ := of_bind went
  cases leaves with
  | true => exact nomatch went
  | false =>
      obtain ⟨_, last, stepped, went⟩ := of_bind went
      cases went
      exact ⟨middle, later, executed, stays, stepped⟩

/-- The step of a round may be carried out at the end of its body, unless the rest of that is passed
over, as long as the step leaves machines idle.
-/
theorem round_eq {body step : Run Unit}
    (still : ∀ machine after, machine.Idle → step setting machine = (.ok (), after) → after.Idle)
    : round body step setting machine =
        round (do
          body
          if interrupted (← MonadState.get) then return () else step) (return ())
            setting machine := by
  simp only [round, bind_assoc]
  rw [run_bind, run_bind]
  cases body setting machine with
  | mk result middle =>
      cases result with
      | error stop => rfl
      | ok value =>
          simp only [run_bind, run_get]
          cases quiet : interrupted middle with
          | true =>
              have passed : (Pure.pure () : Run Unit) setting middle = (.ok (), middle) := rfl
              simp only [↓reduceIte, passed, leavesLoop_eq, quiet]
          | false =>
              have idle := idle_of_interrupted quiet
              simp only [Bool.false_eq_true, ↓reduceIte, leavesLoop_idle setting idle, run_bind]
              cases stepped : step setting middle with
              | mk result after =>
                  cases result with
                  | error stop => rfl
                  | ok value =>
                      have goesOn := leavesLoop_idle setting (still middle after idle stepped)
                      simp only [goesOn]
                      rfl

/-- A round after which a loop goes on is as regular as its step. -/
theorem Obeys.round {law : Law} {body step : Run Unit}
    (done : body.Obeys law (.interruptible true)) (stepped : step.Obeys law .regular)
    (admitted : law.admits setting)
    (went : Run.round body step setting machine = (.ok false, after))
    : law.ended .regular machine after := by
  obtain ⟨middle, later, executed, stays, last⟩ := of_round went
  obtain ⟨idle, rfl⟩ := of_leavesLoop stays
  have resumed := law.resume (done.ok admitted executed) (.inl (interrupted_of_idle idle))
  exact law.trans resumed (stepped.ok admitted last)

end Run

-----------------------------------------------------------------------------------------
-- Machines that loops begin with
-----------------------------------------------------------------------------------------

/-- (Ready condition? machine) says that a loop may begin on a machine: in a call, without a
`return` or a `break` that is being carried out, and without a fatal error if it has no condition.
-/
structure Machine.Ready (condition? : Option TypedExpr) (machine : Machine) : Prop where
  idle : machine.Idle
  called : machine.frames ≠ []
  clear : condition? = none → machine.store.system.failed = false

namespace Machine.Ready

variable {setting : RunSetting} {condition? iteration? : Option TypedExpr} {body : TypedBlock}
  {machine after : Machine} {depth : Nat}

/-- A loop may begin again after what keeps machines idle, with their outline, and fatal errors from
being passed over.
-/
theorem regular (ready : machine.Ready condition?)
    (restored : Law.restoring.ended .regular machine after)
    (latched : Law.latching.ended .regular machine after)
    : after.Ready condition? := by
  obtain ⟨same, idle⟩ := restored ready.idle
  refine ⟨idle, fun none => ready.called ?_, fun absent => (latched (ready.clear absent)).1⟩
  have frames := same.frames
  rw [none] at frames
  exact List.eq_nil_of_length_eq_zero frames.symm

theorem enterScope (ready : machine.Ready condition?) : machine.enterScope.Ready condition? where
  idle := ⟨ready.idle.returned, ready.idle.breaking⟩
  called none := by
    have length := machine.length_frames_enterScope
    rw [none] at length
    exact ready.called (List.eq_nil_of_length_eq_zero length.symm)
  clear := ready.clear

variable (inside : setting.registry.WellScoped)

include inside

/-- A loop may begin after what obeys the laws of restoring and of latching. -/
theorem again {α : Type} {action : Run α} {value : α} (ready : machine.Ready condition?)
    (restores : action.Obeys .restoring .regular) (latches : action.Obeys .latching .regular)
    (outcome : action setting machine = (.ok value, after))
    : after.Ready condition? :=
  ready.regular (restores.ok inside outcome) (latches.ok trivial outcome)

/-- A loop may begin after the statement that it starts with. -/
theorem begin {stmt : TypedStmt} (initial : stmt.isInitial = true)
    (ready : machine.Ready condition?)
    (executed : Run.execute (Run.caller (some depth)) stmt setting machine = (.ok (), after))
    : after.Ready condition? :=
  ready.again inside (.begin .restoring initial) (.begin (.caller id) initial) executed

/-- A loop may begin again after its condition was tested. -/
theorem condition (ready : machine.Ready condition?) {holds : Bool}
    (tested : Run.condition (Run.caller (some depth)) condition? setting machine =
      (.ok holds, after))
    : after.Ready condition? :=
  ready.again inside (.conditionOf .restoring condition?) (.condition id condition?) tested

/-- A loop may begin again after a round. -/
theorem round (breaks : body.wellScoped true = true) (ready : machine.Ready condition?)
    (went : Run.round (Run.executeBlock (Run.caller (some depth)) body)
      (Run.step (Run.caller (some depth)) iteration?) setting machine = (.ok false, after))
    : after.Ready condition? :=
  ready.regular
    (Run.Obeys.round (.executeBlock .restoring true body fun _ => breaks)
      (.stepOf .restoring iteration?) inside went)
    (Run.Obeys.round (.executeBlock (.caller id) true body fun _ => breaks)
      (.step id iteration?) trivial went)

end Machine.Ready

-----------------------------------------------------------------------------------------
-- Runs in one setting
-----------------------------------------------------------------------------------------

namespace Simulation

variable {setting : RunSetting} {names : CellId → CellId} {depth : Nat} {machine twin : Machine}
  {held : List Handle} {α β : Type} {given : α → β} {action : Run α} {other : Run β}

/-- (ofNames setting names) compares runs in one setting, where the cells of the second one have
other names. Of the first one it is known that its heap is tidy.
-/
def ofNames (setting : RunSetting) (names : CellId → CellId) : Simulation where
  setting := setting
  twin := setting
  names := names
  holds moment := moment.machine.store.heap.Tidy
  environment := rfl
  iterations := rfl
  orderly _ tidy := .inr tidy

/-- All that a sound moment leads to is sound, by induction over what leads to it. -/
theorem known_of_sound {moment : Moment} (sound : moment.Sound fun _ => True)
    : (ofNames setting names).Known moment := by
  intro later reached
  have kept : later.Sound fun _ => True := by
    induction reached with
    | refl => exact sound
    | tail _ step ih => exact step.sound setting.admits_any ih
  exact ⟨_, kept.machine.owned⟩

theorem calls (depth : Nat)
    : (ofNames setting names).CallsMirrored (some depth) (Run.callWithin depth) :=
  .callWithin (Nat.le_refl depth) fun less => absurd less (Nat.lt_irrefl depth)

/-- What goes alike whatever the names of cells are makes cells, and removes none. -/
theorem size_le {allowed : Nat → Prop} (sound : machine.Sound allowed held)
    (mirrored : ∀ names twin, machine.Mirrors names none twin →
      (ofNames setting names).Mirrored none machine twin given action other)
    : machine.store.heap.cells.size ≤
        (action setting machine).2.store.heap.cells.size := by
  have skipped := (Machine.Mirrors.refl machine).skip sound default
  exact Heap.Mirrors.size_le_of_skipping (.refl _) (mirrored _ _ skipped).machine.store.heap

namespace Mirrored

variable {simulation : Simulation}

/-- An action may be carried out in a scope of its own in the second run only. -/
theorem inAddedScope (made : simulation.Mirrored (some ⟨0, 0⟩) machine twin.enterScope given action
      other)
    : simulation.Mirrored none machine twin given action (Run.inScope other) :=
  ⟨made.result, made.machine.leavePadding⟩

/-- Rounds without a step are mirrored if their bodies are. -/
theorem round {padding? : Option Padding} {body another : Run Unit}
    (made : simulation.Mirrored padding? machine twin id body another)
    : simulation.Mirrored padding? machine twin id (Run.round body (return ()))
        (Run.round another (return ())) := by
  refine made.bind fun _ _ _ _ mirrors => (leavesLoop mirrors).bind fun leaves _ _ _ mirrors => ?_
  cases leaves with
  | true => exact pure mirrors rfl
  | false => exact pure mirrors rfl

end Mirrored

end Simulation

-----------------------------------------------------------------------------------------
-- Loops of both kinds
-----------------------------------------------------------------------------------------

namespace Run

variable {call : Caller} {setting : RunSetting} {machine : Machine}

/-- The last of several statements is not followed by anything that could be passed over. -/
theorem executeAll_singleton (call : Caller) (stmt : TypedStmt)
    : executeAll call [stmt] = execute call stmt := by
  funext setting machine
  rw [executeAll, run_bind]
  cases execute call stmt setting machine with
  | mk result after =>
      cases result with
      | error stop => rfl
      | ok value =>
          simp only [run_bind, run_get, executeAll]
          split <;> rfl

/-- Nothing is passed over on a machine without signals. -/
theorem unlessInterrupted_of_idle (idle : machine.Idle) (action : Run Unit)
    : (do if interrupted (← MonadState.get) then return () else action : Run Unit) setting machine =
        action setting machine := by
  simp only [run_bind, run_get, interrupted_of_idle idle, Bool.false_eq_true, ↓reduceIte]

/-- The step of a loop does what it does as a statement. -/
theorem executeAll_step (call : Caller) (iteration? : Option TypedExpr)
    : executeAll call (iteration?.toList.map .expression) = step call iteration? := by
  cases iteration? with
  | none => rfl
  | some iteration => exact executeAll_singleton call (.expression iteration)

/-- The literal is true, and makes a cell. -/
theorem test_true (clear : machine.store.system.failed = false) (boolean : TypeId) (span : Span)
    : test call (.mk (.bool true) boolean span) setting machine =
        (.ok true, machine.alloc ⟨boolean, .bool true⟩) := by
  have made : new boolean (.bool true) setting machine =
      (.ok (.owned ⟨machine.store.heap.cells.size⟩), machine.alloc ⟨boolean, .bool true⟩) := by
    rw [new, perform_run]
    rfl
  have evaluated : evaluate call (.mk (.bool true) boolean span) setting machine =
      (.ok (.owned ⟨machine.store.heap.cells.size⟩), machine.alloc ⟨boolean, .bool true⟩) := by
    show checked (new boolean (.bool true)) setting machine = _
    rw [checked, run_bind, made]
    simp only [run_bind, run_get, Machine.alloc, clear]
    rfl
  rw [test_of_evaluate evaluated]
  simp [Machine.alloc, Heap.value, Heap.read_alloc, Handle.cell, Value.asBool]

end Run

namespace Simulation

variable {setting : RunSetting} {names : CellId → CellId} {depth rounds : Nat}
  {machine before twin : Machine} {held : List Handle} {condition? iteration? : Option TypedExpr}
  {body : TypedBlock} {α β : Type}

/-- A body and the step after it are mirrored by those that are in the body of the `while`
statement, in a scope of their own.
-/
theorem bodyAndStep (span : Span)
    (sound : Moment.Sound (fun _ => True)
      ⟨some depth, .loop condition? iteration? body (rounds + 1), machine, held⟩)
    (tested : Run.condition (Run.caller (some depth)) condition? setting machine =
      (.ok true, before))
    (called : before.frames ≠ []) (mirrors : before.Mirrors names none twin)
    : (ofNames setting names).Mirrored none before twin id
        (do
          Run.executeBlock (Run.callWithin depth) body
          if Run.interrupted (← MonadState.get) then return ()
          else Run.step (Run.callWithin depth) iteration?)
        (Run.executeBlock (Run.callWithin depth) (body.withStep iteration? span)) := by
  have known := @known_of_sound setting names _ sound
  refine .inAddedScope ?_
  rw [Run.executeAll, Run.executeAll_step]
  refine (Mirrored.executeBlock (calls depth) body before twin.enterScope _ held
    (known.leads (.executes (.loopBody tested ..))) (mirrors.enterPadding called)).bind
      fun _ middle twin' executed mirrors => .get ?_
  rw [mirrors.interrupted]
  cases quiet : Run.interrupted middle with
  | true => exact .pure mirrors rfl
  | false =>
      have stays := Run.leavesLoop_idle setting (Run.idle_of_interrupted quiet)
      have steps (iteration : TypedExpr) (given : iteration? = some iteration)
          : (ofNames setting names).Known ⟨some depth, .evaluate iteration, middle, held⟩ := by
        subst given
        exact known.leads (.executes (.loopStep tested executed stays ..))
      exact .step (calls depth) iteration? steps mirrors

/-- A round of a loop is mirrored by one of the `while` statement. -/
theorem round (span : Span) (inside : setting.registry.WellScoped)
    (sound : Moment.Sound (fun _ => True)
      ⟨some depth, .loop condition? iteration? body (rounds + 1), machine, held⟩)
    (tested : Run.condition (Run.caller (some depth)) condition? setting machine =
      (.ok true, before))
    (called : before.frames ≠ []) (mirrors : before.Mirrors names none twin)
    : (ofNames setting names).Mirrored none before twin id
        (Run.round (Run.executeBlock (Run.callWithin depth) body)
          (Run.step (Run.callWithin depth) iteration?))
        (Run.round
          (Run.executeBlock (Run.callWithin depth) (body.withStep iteration? span))
          (return ())) := by
  have made := (bodyAndStep span sound tested called mirrors).round
  unfold Mirrored
  rwa [Run.round_eq fun machine after idle stepped => ?still]
  case still =>
    exact (Run.Obeys.stepOf (@Run.Obeys.restoring (some depth)) iteration?).stillIdle
      inside idle stepped

/-- (Follows condition? size names later) says that names after a loop that has begun with a heap of
that size are those before it. The names of cells that were made since then may be others if the
loop has no condition.
-/
structure Follows (condition? : Option TypedExpr) (size : Nat) (names later : CellId → CellId)
    : Prop where
  below : ∀ cell : CellId, cell.index < size → later cell = names cell
  same : condition? ≠ none → later = names

theorem Follows.refl (condition? : Option TypedExpr) (size : Nat) (names : CellId → CellId)
    : Follows condition? size names names :=
  ⟨fun _ _ => rfl, fun _ => rfl⟩

theorem Follows.trans {size larger : Nat} {later last : CellId → CellId}
    (first : Follows condition? size names later) (second : Follows condition? larger later last)
    (grown : size ≤ larger)
    : Follows condition? size names last where
  below cell inside :=
    (second.below cell (Nat.lt_of_lt_of_le inside grown)).trans (first.below cell inside)
  same given := (second.same given).trans (first.same given)

/-- (MirroredAnew setting condition? names machine twin action other) says that an action on a
machine agrees with another one on its mirror, under names that follow those of the machines.
-/
def MirroredAnew (setting : RunSetting) (condition? : Option TypedExpr) (names : CellId → CellId)
    (machine twin : Machine) (action other : Run α)
    : Prop :=
  ∃ later, Follows condition? machine.store.heap.cells.size names later
    ∧ (ofNames setting later).Agree none id (action setting machine) (other setting twin)

/-- Actions that are mirrored under the names of the machines need no others. -/
theorem Mirrored.anew {action other : Run α}
    (made : (ofNames setting names).Mirrored none machine twin id action other)
    : MirroredAnew setting condition? names machine twin action other :=
  ⟨names, .refl .., made⟩

/-- What follows an action that removes no cells may need other names. -/
theorem MirroredAnew.bind {action other : Run α} {next following : α → Run β}
    (first : MirroredAnew setting condition? names machine twin action other)
    (grown : machine.store.heap.cells.size ≤ (action setting machine).2.store.heap.cells.size)
    (later : ∀ names value after twin', action setting machine = (.ok value, after) →
      after.Mirrors names none twin' →
        MirroredAnew setting condition? names after twin' (next value) (following value))
    : MirroredAnew setting condition? names machine twin (action >>= next)
        (other >>= following) := by
  obtain ⟨middle, follows, agree, mirrors⟩ := first
  unfold MirroredAnew
  rw [Run.run_bind, Run.run_bind]
  cases outcome : action setting machine with
  | mk result after =>
      cases outcome' : other setting twin with
      | mk result' twin' =>
          rw [outcome] at agree mirrors grown
          rw [outcome'] at agree mirrors
          obtain rfl := agree
          cases result with
          | error stop => exact ⟨middle, follows, rfl, mirrors⟩
          | ok value =>
              obtain ⟨last, further, agrees⟩ := later middle value after twin' outcome mirrors
              exact ⟨last, follows.trans further grown, agrees⟩

/-- A condition that is not given is tested by the literal, which makes a cell. -/
theorem condition (boolean : TypeId) (span : Span)
    (sound : Moment.Sound (fun _ => True)
      ⟨some depth, .loop condition? iteration? body (rounds + 1), machine, held⟩)
    (ready : machine.Ready condition?) (mirrors : machine.Mirrors names none twin)
    : MirroredAnew setting condition? names machine twin
        (Run.condition (Run.caller (some depth)) condition?)
        (Run.test (Run.callWithin depth) (.orTrue condition? boolean span)) := by
  cases condition? with
  | some condition => exact (Mirrored.condition (calls depth) (known_of_sound sound) mirrors).anew
  | none =>
      refine ⟨Heap.skipping machine.store.heap.cells.size names,
        ⟨fun cell inside => Heap.skipping_below inside names, fun given => absurd rfl given⟩, ?_⟩
      have clear : twin.store.system.failed = false := by
        rw [mirrors.store.system]
        exact ready.clear rfl
      have skips := mirrors.skip sound.machine ⟨boolean, .bool true⟩
      rw [show Run.test _ (TypedExpr.orTrue none boolean span) setting twin = _ from
        Run.test_true clear boolean span]
      exact ⟨rfl, skips⟩

/-- A loop is mirrored by the `while` statement, by induction over the rounds that both may take. -/
theorem loop (boolean : TypeId) (span : Span) (inside : setting.registry.WellScoped)
    (breaks : body.wellScoped true = true)
    (sound : Moment.Sound (fun _ => True)
      ⟨some depth, .loop condition? iteration? body rounds, machine, held⟩)
    (ready : machine.Ready condition?) (mirrors : machine.Mirrors names none twin)
    : MirroredAnew setting condition? names machine twin
        (Run.loop (Run.condition (Run.caller (some depth)) condition?)
          (Run.executeBlock (Run.caller (some depth)) body)
          (Run.step (Run.caller (some depth)) iteration?) rounds)
        (Run.loop (Run.test (Run.callWithin depth) (.orTrue condition? boolean span))
          (Run.executeBlock (Run.callWithin depth) (body.withStep iteration? span))
          (return ()) rounds) := by
  induction rounds generalizing machine twin names with
  | zero => exact Mirrored.anew (.throw mirrors .exhausted)
  | succ rounds ih =>
      rw [Run.loop_succ, Run.loop_succ]
      refine (condition boolean span sound ready mirrors).bind
        (size_le sound.machine fun names twin mirrors =>
          .condition (calls depth) (known_of_sound sound) mirrors)
        fun names holds before twin' tested mirrors => ?_
      cases holds with
      | false => exact Mirrored.anew (.pure mirrors rfl)
      | true =>
          have again := ready.condition inside tested
          have goes (names : CellId → CellId) (twin : Machine)
              (mirrors : before.Mirrors names none twin) :=
            round span inside sound tested again.called mirrors
          have begins :=
            (Moment.Leads.executes (.loopBody tested ..)).sound setting.admits_any sound
          refine (goes names twin' mirrors).anew.bind (size_le begins.machine goes)
            fun names leaves after twin' went mirrors => ?_
          cases leaves with
          | true => exact Mirrored.anew (.pure mirrors rfl)
          | false =>
              obtain ⟨middle, later, executed, stays, stepped⟩ := Run.of_round went
              have rest :=
                (Moment.Leads.executes (.loopAgain tested executed stays stepped ..)).sound
                setting.admits_any sound
              exact ih rest (again.round inside breaks went) mirrors

/-- Actions that are mirrored anew are so in scopes of their own. -/
theorem MirroredAnew.inScope {action other : Run α}
    (made : MirroredAnew setting condition? names machine.enterScope twin.enterScope action other)
    : MirroredAnew setting condition? names machine twin (Run.inScope action)
        (Run.inScope other) := by
  obtain ⟨later, follows, agrees⟩ := made
  have inner : (ofNames setting later).Mirrored (Padding.inner none) machine.enterScope
      twin.enterScope id action other :=
    agrees
  exact ⟨later, follows, inner.inScope⟩

/-- A `for` statement is mirrored by the block that it stands for. -/
theorem forLoop {initial? : Option TypedStmt} {span : Span} {inLoop : Bool} (boolean : TypeId)
    (place : Span) (inside : setting.registry.WellScoped)
    (inPlace :
      (TypedStmt.forLoop initial? condition? iteration? body span).wellScoped inLoop = true)
    (sound : machine.Sound (fun _ => True) held) (ready : machine.Ready condition?)
    : MirroredAnew setting condition? id machine machine
        (Run.execute (Run.caller (some depth)) (.forLoop initial? condition? iteration? body span))
        (Run.executeBlock (Run.callWithin depth)
          (.ofFor initial? condition? iteration? body boolean place)) := by
  rw [TypedStmt.wellScoped, Bool.and_eq_true] at inPlace
  have start : Moment.Sound (fun _ => True)
      ⟨some depth, .execute (.forLoop initial? condition? iteration? body span), machine, held⟩ :=
    ⟨TypedStmt.setsOnly_any _, sound⟩
  have refl := Machine.Mirrors.refl machine.enterScope
  cases initial? with
  | none =>
      refine .inScope ?_
      have rounds := (Moment.Leads.executes (.forLoop ..)).sound setting.admits_any start
      show MirroredAnew setting condition? id machine.enterScope machine.enterScope _
        (Run.executeAll (Run.callWithin depth) [_])
      rw [Run.executeAll_singleton]
      exact loop boolean place inside inPlace.2 rounds ready.enterScope refl
  | some initial =>
      refine .inScope ?_
      have begins := (Moment.Leads.executes (.forInitial ..)).sound setting.admits_any start
      have goes (names : CellId → CellId) (twin : Machine)
          (mirrors : machine.enterScope.Mirrors names none twin)
          : (ofNames setting names).Mirrored none machine.enterScope twin id
            (Run.execute (Run.caller (some depth)) initial)
            (Run.execute (Run.callWithin depth) initial) :=
        .execute (calls depth) initial _ twin none held (not_isInnermost_inner none)
          (known_of_sound begins) mirrors
      refine (goes id _ refl).anew.bind (size_le begins.machine goes)
        fun names _ after twin' executed mirrors => ?_
      have rounds :=
        (Moment.Leads.executes (.forLoopAfter executed ..)).sound setting.admits_any start
      have again := ready.enterScope.begin inside inPlace.1 executed
      have idle : twin'.Idle := Run.idle_of_interrupted (by
        rw [mirrors.interrupted, Run.interrupted_of_idle again.idle])
      unfold MirroredAnew
      rw [Run.unlessInterrupted_of_idle idle, List.append_eq, List.nil_append,
        Run.executeAll_singleton]
      exact loop boolean place inside inPlace.2 rounds again mirrors

end Simulation

-----------------------------------------------------------------------------------------
-- Accepted programs
-----------------------------------------------------------------------------------------

namespace Program

variable {program : Program}

/-- At every moment of a run at which a statement is executed, a loop may begin, unless a fatal
error was reported and it has no condition.
-/
theorem Reaches.ready {limits : Limits} {system : BuildSystem} {moment : Moment}
    {condition? : Option TypedExpr} (reached : program.Reaches limits system moment)
    (accepted : program.Accepted) (statement : moment.activity.isStatement = true)
    (clear : condition? = none → moment.machine.store.system.failed = false)
    : moment.machine.Ready condition? := by
  have regular := reached.regular accepted
  refine ⟨regular.idle ?_, regular.called statement, clear⟩
  intro rests
  rw [rests] at statement
  exact nomatch statement

/-- A `for` statement does what the block does that it stands for. In an accepted program, on every
sound machine on which a loop may begin, and whatever bounds the rounds of loops, both come to their
ends or are stopped for the same reason, and they leave the same machine up to the names of cells:
the same variables in the calls that are open and outside of functions, the same value of a
`return`, the same heap, and the same build system with all that was asked of it. The names of the
cells that there were before stay, and if there is a condition, so do all.
-/
theorem Accepted.forLoop_desugars (accepted : program.Accepted) (callDepth depth : Nat)
    {initial? : Option TypedStmt} {condition? iteration? : Option TypedExpr} {body : TypedBlock}
    {span : Span} {inLoop : Bool}
    (inPlace :
      (TypedStmt.forLoop initial? condition? iteration? body span).wellScoped inLoop = true)
    {machine : Machine} {held : List Handle} (sound : machine.Sound (fun _ => True) held)
    (ready : machine.Ready condition?)
    : let loop iterations := Run.execute (Run.callWithin depth)
        (.forLoop initial? condition? iteration? body span)
        (program.setting ⟨callDepth, iterations⟩) machine
      let block iterations := Run.executeBlock (Run.callWithin depth)
        (.ofFor initial? condition? iteration? body program.builtins.bool span)
        (program.setting ⟨callDepth, iterations⟩) machine
      ((∃ iterations, (loop iterations).1 ≠ .error .exhausted) ↔
          ∃ iterations, (block iterations).1 ≠ .error .exhausted)
        ∧ ∀ iterations, (block iterations).1 = (loop iterations).1
          ∧ ∃ names : CellId → CellId,
              (∀ cell : CellId, cell.index < machine.store.heap.cells.size → names cell = cell)
              ∧ (condition? ≠ none → names = id)
              ∧ (loop iterations).2.Mirrors names none (block iterations).2 := by
  intro loop block
  have goes (iterations : Nat)
      : Simulation.MirroredAnew (program.setting ⟨callDepth, iterations⟩) condition? id machine
        machine
        (Run.execute (Run.callWithin depth) (.forLoop initial? condition? iteration? body span))
        (Run.executeBlock (Run.callWithin depth)
          (.ofFor initial? condition? iteration? body program.builtins.bool span)) :=
    Simulation.forLoop program.builtins.bool span accepted.wellScoped inPlace sound ready
  have same (iterations : Nat) : (block iterations).1 = (loop iterations).1 := by
    obtain ⟨names, _, agrees⟩ := goes iterations
    exact agrees.result.trans (congrFun Except.map_id _)
  refine ⟨exists_congr fun iterations => ?_, fun iterations => ⟨same iterations, ?_⟩⟩
  · rw [same]
  · obtain ⟨names, follows, agrees⟩ := goes iterations
    exact ⟨names, follows.below, follows.same, agrees.machine⟩

/-- The loop without a condition, a start and a step that is the second statement of `main`: how
many calls may be opened, its body and its place, and the machine on which it is executed.
-/
def mainLoop? (program : Program) (limits : Limits) (system : BuildSystem)
    : Option (Nat × TypedBlock × Span × Machine) :=
  match program.insideMain? limits system with
  | some ⟨some depth, .executeAll (.forLoop none none none body span :: _), machine, []⟩ =>
    some (depth, body, span, machine)
  | _ => none

/-- A run comes to the loop in `main`. -/
theorem reaches_mainLoop {limits : Limits} {system : BuildSystem} {depth : Nat} {body : TypedBlock}
    {span : Span} {machine : Machine}
    (found : program.mainLoop? limits system = some (depth, body, span, machine))
    : program.Reaches limits system
        ⟨some depth, .execute (.forLoop none none none body span), machine, []⟩ := by
  unfold mainLoop? at found
  split at found
  · next inside =>
      cases found
      exact (reaches_insideMain inside).tail (.executes (.first ..))
  · cases found

theorem eq_ok_of_isOk {outcome : Except Stop Unit} (ended : outcome.isOk = true)
    : outcome = .ok () := by
  cases outcome with
  | ok value => rfl
  | error stop => exact nomatch ended

/-- A script that leaves a loop without a condition after some rounds. -/
def roundsText : String :=
  "int main() \x7b
     int n = 0; for (;;) \x7b n = n + 1; if (n == 3) \x7b break; \x7d \x7d return n; \x7d"

set_option maxRecDepth 100000 in
/-- No fatal error is reported before the loop, and it comes to its end. -/
theorem rounds_text
    : ((ofText? roundsText).bind fun program =>
        (program.mainLoop? ⟨20, 20⟩ (BuildSystem.ofRoot "/")).map
          fun (depth, body, span, machine) =>
            (machine.store.system.failed,
              (Run.execute (Run.callWithin depth) (.forLoop none none none body span)
                (program.setting ⟨20, 20⟩) machine).1.isOk)) = some (false, true) := by
  decide +kernel

/-- Witness: the loop that goes some rounds comes to its end, and so does the `while` statement. -/
theorem Accepted.forLoop_desugars_rounds
    : ∃ program depth body span machine, ofText? roundsText = some program
        ∧ program.Reaches ⟨20, 20⟩ (BuildSystem.ofRoot "/")
          ⟨some depth, .execute (.forLoop none none none body span), machine, []⟩
        ∧ (Run.execute (Run.callWithin depth) (.forLoop none none none body span)
            (program.setting ⟨20, 20⟩) machine).1 = .ok ()
        ∧ (Run.executeBlock (Run.callWithin depth)
            (.ofFor none none none body program.builtins.bool span)
            (program.setting ⟨20, 20⟩) machine).1 = .ok () := by
  obtain ⟨program, compiled, found⟩ := Option.bind_eq_some_iff.mp rounds_text
  obtain ⟨⟨depth, body, span, machine⟩, loops, ended⟩ := Option.map_eq_some_iff.mp found
  obtain ⟨clear, ended⟩ := Prod.mk.inj ended
  have accepted := ofText?_accepted compiled
  have reached := reaches_mainLoop loops
  obtain ⟨inLoop, inPlace⟩ := (reached.regular accepted).wellScoped
  have sound := (reached.sound (RunSetting.admits_any _) program.setsOnly_any).machine
  have same := (accepted.forLoop_desugars 20 depth inPlace sound
    (reached.ready accepted rfl fun _ => clear)).2 20
  have ends := eq_ok_of_isOk ended
  exact ⟨program, depth, body, span, machine, compiled, reached, ends, same.1.trans ends⟩

/-- A script that leaves a loop without a condition at once. -/
def breakingText : String :=
  "int main() \x7b int n; for (;;) \x7b break; \x7d cmake::enable_ctest(); return 0; \x7d"

/-- Whether a run is stopped by a fatal error. -/
def stopsFatally : Except Stop Unit × Machine → Bool
  | (.error .fatal, _) => true
  | _ => false

set_option maxRecDepth 100000 in
/-- After a fatal error, the loop that is left at once comes to its end, and the `while` statement
is stopped.
-/
theorem breaking_text
    : ((ofText? breakingText).bind fun program =>
        (program.mainLoop? ⟨20, 20⟩ ((BuildSystem.ofRoot "/").request (.fatalError "boom"))).map
          fun (depth, body, span, machine) =>
            ((Run.execute (Run.callWithin depth) (.forLoop none none none body span)
                (program.setting ⟨20, 20⟩) machine).1.isOk,
              stopsFatally (Run.executeBlock (Run.callWithin depth)
                (.ofFor none none none body program.builtins.bool span)
                (program.setting ⟨20, 20⟩) machine))) = some (true, true) := by
  decide +kernel

/-- Counterexample: on a build system to which a fatal error was reported before, a loop without a
condition comes to its end, and the block that it stands for is stopped, since it evaluates a
literal.
-/
theorem forLoop_without_condition_passes_failure
    : ∃ program depth body span machine, ofText? breakingText = some program ∧ program.Accepted
        ∧ program.Reaches ⟨20, 20⟩ ((BuildSystem.ofRoot "/").request (.fatalError "boom"))
          ⟨some depth, .execute (.forLoop none none none body span), machine, []⟩
        ∧ (Run.execute (Run.callWithin depth) (.forLoop none none none body span)
            (program.setting ⟨20, 20⟩) machine).1 = .ok ()
        ∧ (Run.executeBlock (Run.callWithin depth)
            (.ofFor none none none body program.builtins.bool span)
            (program.setting ⟨20, 20⟩) machine).1 = .error .fatal := by
  obtain ⟨program, compiled, found⟩ := Option.bind_eq_some_iff.mp breaking_text
  obtain ⟨⟨depth, body, span, machine⟩, loops, ended⟩ := Option.map_eq_some_iff.mp found
  obtain ⟨ends, stops⟩ := Prod.mk.inj ended
  refine ⟨program, depth, body, span, machine, compiled, ofText?_accepted compiled,
    reaches_mainLoop loops, eq_ok_of_isOk ends, ?_⟩
  unfold stopsFatally at stops
  split at stops
  · next same => exact congrArg Prod.fst same
  · cases stops

end Program

end BuildScript
