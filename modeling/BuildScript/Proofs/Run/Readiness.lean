import BuildScript.Proofs.Run.Frames
import BuildScript.Proofs.Run.Restoration
import BuildScript.Proofs.Workspace.Functions

/-! What begins at the moments of a run. It does so on a machine on which neither a `return` nor a
`break` is being carried out. Statements begin in calls, where they may stand.

Directories that are entered for a call stay open until it has ended. What the body of a function
returns is the value of the expression of one of the `return`s in it,
which was evaluated last, or a void value.
-/

namespace BuildScript

-----------------------------------------------------------------------------------------
-- Idle machines
-----------------------------------------------------------------------------------------

namespace Run

variable {setting : RunSetting} {machine after : Machine} {depth? : Option Nat}

/-- A machine is idle when nothing is passed over on it. -/
theorem idle_of_interrupted (quiet : interrupted machine = false) : machine.Idle := by
  simp only [interrupted, Bool.or_eq_false_iff, Option.isSome_eq_false_iff,
    Option.isNone_iff_eq_none] at quiet
  exact ⟨quiet.1, quiet.2⟩

theorem interrupted_of_idle (idle : machine.Idle) : interrupted machine = false := by
  rw [interrupted, idle.returned, idle.breaking]
  rfl

/-- A loop is left if the rest of its body was passed over, and a `break` is done with. -/
theorem leavesLoop_eq (setting : RunSetting) (machine : Machine)
    : leavesLoop setting machine =
        (.ok (interrupted machine), { machine with breaking := false }) := by
  rw [Obeys.leavesLoop_run, interrupted]
  obtain ⟨store, frames, globals, statics, returned?, breaking⟩ := machine
  cases breaking <;> simp

/-- A loop goes on with an idle machine. -/
theorem leavesLoop_idle (setting : RunSetting) (idle : machine.Idle)
    : leavesLoop setting machine = (.ok false, machine) := by
  rw [Obeys.leavesLoop_run, idle.breaking, idle.returned]
  rfl

/-- A loop goes on only with an idle machine. -/
theorem of_leavesLoop (stays : leavesLoop setting machine = (.ok false, after))
    : machine.Idle ∧ after = machine := by
  have quiet : interrupted machine = false := by
    rw [leavesLoop_eq] at stays
    exact Except.ok.inj (congrArg Prod.fst stays)
  have idle := idle_of_interrupted quiet
  rw [leavesLoop_idle setting idle] at stays
  exact ⟨idle, (congrArg Prod.snd stays).symm⟩

namespace Obeys

/-- Calls restore machines where functions are well scoped. -/
theorem restoring (function : FunctionId) (self? : Option Handle) (arguments : List Handle)
    : (Run.caller depth? function self? arguments).Obeys .restoring .regular := by
  cases depth? with
  | none => exact callAny (fun _ _ admitted => admitted) function self? arguments
  | some depth =>
      exact callWithin (fun _ _ admitted => admitted) depth function self? arguments

/-- A regular action leaves the outline of an idle machine, and leaves it idle. -/
theorem restores {α : Type} {action : Run α} (obeys : action.Obeys .restoring .regular)
    (inside : setting.registry.WellScoped) (idle : machine.Idle) {value : α}
    (outcome : action setting machine = (.ok value, after))
    : machine.SameOutline after ∧ after.Idle :=
  obeys.ok inside outcome idle

theorem stillIdle {α : Type} {action : Run α} (obeys : action.Obeys .restoring .regular)
    (inside : setting.registry.WellScoped) (idle : machine.Idle) {value : α}
    (outcome : action setting machine = (.ok value, after))
    : after.Idle :=
  (obeys.restores inside idle outcome).2

end Obeys

end Run

-----------------------------------------------------------------------------------------
-- What begins
-----------------------------------------------------------------------------------------

namespace Activity

/-- (WellScoped activity) says that the statements of what begins stand where they may. -/
def WellScoped : Activity → Prop
  | execute stmt => ∃ inLoop, stmt.wellScoped inLoop = true
  | executeAll stmts => ∃ inLoop, TypedStmt.allWellScoped inLoop stmts = true
  | executeBlock block => ∃ inLoop, block.wellScoped inLoop = true
  | executeBranches branches otherwise? =>
    ∃ inLoop, TypedBranch.allWellScoped inLoop branches = true
      ∧ ∀ body ∈ otherwise?, body.wellScoped inLoop = true
  | loop _ _ body _ => body.wellScoped true = true
  | _ => True

/-- Whether statements begin. -/
def isStatement : Activity → Bool
  | execute _ | executeAll _ | executeBlock _ | executeBranches .. | loop .. => true
  | _ => false

end Activity

/-- (Regular moment) says that what begins at a moment does so where and on what it may. -/
structure Moment.Regular (moment : Moment) : Prop where
  wellScoped : moment.activity.WellScoped
  called : moment.activity.isStatement = true → moment.machine.frames ≠ []
  idle : moment.activity ≠ .rest → moment.machine.Idle

namespace Moment

variable {setting : RunSetting} {before after : Moment} (inside : setting.registry.WellScoped)

include inside

omit inside in
/-- Whatever begins does so on an idle machine. -/
theorem Regular.start (regular : before.Regular) (beginning : before.activity.isBeginning = true)
    : before.machine.Idle := by
  refine regular.idle fun resting => ?_
  rw [resting] at beginning
  cases beginning

/-- What leads on in the evaluation of expressions leaves machines idle, by cases on it. -/
theorem Evaluates.regular (step : Evaluates setting before after) (regular : before.Regular)
    : after.Regular := by
  have start : before.machine.Idle := by
    cases step with
    | _ => exact regular.start rfl
  suffices last : after.machine.Idle by
    cases step with
    | _ => exact ⟨trivial, nofun, fun _ => last⟩
  have called {depth? : Option Nat} := @Run.Obeys.restoring depth?
  cases step with
  | operands | first | member => exact start
  | next evaluated | memberOwned evaluated =>
      exact (Run.Obeys.evaluate called _).stillIdle inside start evaluated
  | choice tested => exact (Run.Obeys.test called _).stillIdle inside start tested
  | @call depth? kind machine after values function self? arguments evaluated =>
      have idle := (Run.Obeys.evaluateAll called _).stillIdle inside start evaluated
      cases kind with
      | _ => exact ⟨idle.returned, idle.breaking⟩
  | perform evaluated | elements evaluated =>
      exact (Run.Obeys.evaluateAll called _).stillIdle inside start evaluated
  | construct evaluated _ made =>
      have idle := (Run.Obeys.evaluateAll called _).stillIdle inside start evaluated
      exact (Run.Obeys.createDefault _).stillIdle inside idle made
  | owned owns => exact (Run.Obeys.own _).stillIdle inside start owns
  | members made => exact (Run.Obeys.createDefault _).stillIdle inside start made
  | memberSet evaluated owns set =>
      have idle := (Run.Obeys.evaluate called _).stillIdle inside start evaluated
      exact (Run.Obeys.setMember _ _ _).stillIdle inside
        ((Run.Obeys.own _).stillIdle inside idle owns) set

omit inside in
/-- What leads on in the execution of statements stays in the calls that are open. -/
theorem Executes.called (step : Executes setting before after) (regular : before.Regular)
    (statement : after.activity.isStatement = true)
    : after.machine.frames ≠ [] := by
  have outer : before.activity.isStatement = true := by
    cases step with
    | initial | bindInitial | bindDefault => exact nomatch statement
    | _ => rfl
  have same : after.machine.frames.length = before.machine.frames.length :=
    (step.keeps .count).frames
  intro none
  rw [none] at same
  exact regular.called outer (List.eq_nil_of_length_eq_zero same.symm)

/-- What leads on in the execution of statements leaves machines idle, by cases on it. -/
theorem Executes.idle (step : Executes setting before after) (regular : before.Regular)
    : after.machine.Idle := by
  have start : before.machine.Idle := by
    cases step with
    | _ => exact regular.start rfl
  have called {depth? : Option Nat} := @Run.Obeys.restoring depth?
  cases step with
  | initial | expression | varDecl | returnValue | conditional | condition | otherwise | whileLoop
  | loopCondition | block | first => exact start
  | forInitial | forLoop | body => exact ⟨start.returned, start.breaking⟩
  | bindInitial _ evaluated => exact (Run.Obeys.evaluate called _).stillIdle inside start evaluated
  | bindDefault _ made => exact (Run.Obeys.createDefault _).stillIdle inside start made
  | branch tested | nextBranch tested =>
      exact (Run.Obeys.test called _).stillIdle inside start tested
  | @forLoopAfter depth? initial machine after executed =>
      obtain ⟨inLoop, inPlace⟩ := regular.wellScoped
      rw [TypedStmt.wellScoped, Bool.and_eq_true] at inPlace
      have entered : machine.enterScope.Idle := ⟨start.returned, start.breaking⟩
      exact (Run.Obeys.begin called inPlace.1).stillIdle inside entered executed
  | loopBody holds => exact (Run.Obeys.conditionOf called _).stillIdle inside start holds
  | loopStep _ _ stays =>
      obtain ⟨idle, rfl⟩ := Run.of_leavesLoop stays
      exact idle
  | loopAgain _ _ stays stepped =>
      obtain ⟨idle, rfl⟩ := Run.of_leavesLoop stays
      exact (Run.Obeys.stepOf called _).stillIdle inside idle stepped
  | next _ goesOn => exact Run.idle_of_interrupted goesOn

omit inside in
/-- What leads on in the execution of statements stands where it may, by cases on it. -/
theorem Executes.wellScoped (step : Executes setting before after)
    (inPlace : before.activity.WellScoped)
    : after.activity.WellScoped := by
  cases step with
  | initial | bindInitial | bindDefault | expression | varDecl | returnValue | condition
  | loopCondition | loopStep => exact trivial
  | conditional depth? branches otherwise? =>
      obtain ⟨inLoop, inPlace⟩ := inPlace
      cases otherwise? with
      | none => exact ⟨inLoop, inPlace, fun body given => nomatch given⟩
      | some body =>
          rw [TypedStmt.wellScoped, Bool.and_eq_true] at inPlace
          exact ⟨inLoop, inPlace.1, fun other given => Option.some.inj given ▸ inPlace.2⟩
  | branch =>
      obtain ⟨inLoop, inPlace, _⟩ := inPlace
      rw [TypedBranch.allWellScoped, Bool.and_eq_true] at inPlace
      exact ⟨inLoop, inPlace.1⟩
  | nextBranch =>
      obtain ⟨inLoop, inPlace, last⟩ := inPlace
      rw [TypedBranch.allWellScoped, Bool.and_eq_true] at inPlace
      exact ⟨inLoop, inPlace.2, last⟩
  | otherwise depth? body =>
      obtain ⟨inLoop, _, last⟩ := inPlace
      exact ⟨inLoop, last body rfl⟩
  | whileLoop => exact inPlace.elim fun _ inPlace => inPlace
  | forInitial depth? initial =>
      obtain ⟨inLoop, inPlace⟩ := inPlace
      rw [TypedStmt.wellScoped, Bool.and_eq_true] at inPlace
      cases initial with
      | expression | varDecl => exact ⟨inLoop, rfl⟩
      | _ => exact nomatch inPlace.1
  | forLoop | forLoopAfter =>
      obtain ⟨inLoop, inPlace⟩ := inPlace
      rw [TypedStmt.wellScoped, Bool.and_eq_true] at inPlace
      exact inPlace.2
  | loopBody => exact ⟨true, inPlace⟩
  | loopAgain => exact inPlace
  | block | body => exact inPlace
  | first =>
      obtain ⟨inLoop, inPlace⟩ := inPlace
      rw [TypedStmt.allWellScoped, Bool.and_eq_true] at inPlace
      exact ⟨inLoop, inPlace.1⟩
  | next =>
      obtain ⟨inLoop, inPlace⟩ := inPlace
      rw [TypedStmt.allWellScoped, Bool.and_eq_true] at inPlace
      exact ⟨inLoop, inPlace.2⟩

/-- What leads on in the call of a function begins where it may, by cases on it. -/
theorem Calls.regular (step : Calls setting before after) (regular : before.Regular)
    : after.Regular := by
  have start : before.machine.Idle := by
    cases step with
    | _ => exact regular.start rfl
  cases step with
  | within | params | param => exact ⟨trivial, nofun, fun _ => start⟩
  | nextParam bound =>
      exact ⟨trivial, nofun, fun _ => (Run.Obeys.bindIn _ _).stillIdle inside start bound⟩
  | @body function block arguments params machine after scripted bound =>
      have inPlace := inside function
      rw [scripted] at inPlace
      have idle := (Run.Obeys.bindParams _ _).stillIdle inside start bound
      exact ⟨⟨false, inPlace⟩, fun _ => List.cons_ne_nil _ _,
        fun _ => ⟨idle.returned, idle.breaking⟩⟩
  | @result depth function block self? returned? arguments params machine prior middle after value
      scripted bound executed returned =>
      have inPlace := inside function
      rw [scripted] at inPlace
      have body := Run.Obeys.executeBlock (@Run.Obeys.restoring (some depth)) false block
        fun _ => inPlace
      have idle := (body.inFrame _).stillIdle inside
        ((Run.Obeys.bindParams _ _).stillIdle inside start bound) executed
      refine ⟨trivial, nofun, fun _ => ?_⟩
      cases returned? with
      | none => exact (@Run.Obeys.void .restoring).stillIdle inside idle returned
      | some given =>
          cases returned
          exact idle

/-- What leads on outside of all functions leaves machines idle, by cases on it. -/
theorem Prepares.regular (step : Prepares setting before after) (regular : before.Regular)
    : after.Regular := by
  have start : before.machine.Idle := by
    cases step with
    | _ => exact regular.start rfl
  have called := @Run.Obeys.restoring none
  have scripts : Law.restoring.scoping → ∀ setting, Law.restoring.admits setting →
      setting.registry.WellScoped :=
    fun _ _ admitted => admitted
  cases step with
  | statics | static | global => exact ⟨trivial, nofun, fun _ => start⟩
  | nextStatic initial | nextGlobal initial =>
      have idle := (Run.Obeys.initialValue called _).stillIdle inside start initial
      exact ⟨trivial, nofun, fun _ => ⟨idle.returned, idle.breaking⟩⟩
  | globals prepared =>
      exact ⟨trivial, nofun, fun _ =>
        (Run.Obeys.initializeStatics scripts _).stillIdle inside start prepared⟩
  | main prepared =>
      exact ⟨trivial, nofun, fun _ =>
        (Run.Obeys.prepare _ scripts).stillIdle inside start prepared⟩

/-- What leads on begins where and on what it may. -/
theorem Leads.regular (step : Leads setting before after) (regular : before.Regular)
    : after.Regular := by
  cases step with
  | evaluates step => exact step.regular inside regular
  | executes step =>
      exact ⟨step.wellScoped regular.wellScoped, step.called regular,
        fun _ => step.idle inside regular⟩
  | calls step => exact step.regular inside regular
  | prepares step => exact step.regular inside regular
  | rests step =>
      cases step with
      | ended | stopped => exact ⟨trivial, nofun, fun goesOn => absurd rfl goesOn⟩

end Moment

/-- Every moment of a run of an accepted program is regular, by induction over what leads to it. -/
theorem Program.Reaches.regular {program : Program} {limits : Limits} {system : BuildSystem}
    {moment : Moment} (reached : program.Reaches limits system moment)
    (accepted : program.Accepted)
    : moment.Regular := by
  induction reached with
  | refl => exact ⟨trivial, nofun, fun _ => ⟨rfl, rfl⟩⟩
  | tail _ step ih => exact step.regular accepted.wellScoped ih

-----------------------------------------------------------------------------------------
-- Directories
-----------------------------------------------------------------------------------------

/-- The directory in which the call that an expression comes down to is made, if it is one. -/
def ExprKind.directory? : ExprKind → Option String
  | .scriptDirectory directory _ _ | .declarativeDirectory directory _ => some directory
  | _ => none

/-- A call that is made in a directory opens it, by cases on what is called. -/
theorem ExprKind.directories_of_entered (kind : ExprKind) (machine : Machine)
    : (kind.entered machine).store.system.directories =
        machine.store.system.directories ++ kind.directory?.toList := by
  cases kind with
  | scriptDirectory | declarativeDirectory => rfl
  | _ => exact (List.append_nil _).symm

namespace Moment

/-- The directory that is entered when one moment leads to another one. -/
def entered? (before after : Moment) : Option String :=
  match before.activity, after.activity with
  | .evaluate expr, .call .. => expr.kind.directory?
  | _, _ => none

/-- The directories that are open at a moment. -/
def directories (moment : Moment) : List String := moment.machine.store.system.directories

/-- (Opens setting start directories moment) says that one moment leads to another one, and which
directories are entered on the way.
-/
inductive Opens (setting : RunSetting) (start : Moment) : List String → Moment → Prop where
  | here : Opens setting start [] start
  | step {directories : List String} {before after : Moment}
      (earlier : Opens setting start directories before) (lead : Leads setting before after)
      : Opens setting start (directories ++ (before.entered? after).toList) after

variable {setting : RunSetting} {before after : Moment} (inside : setting.registry.WellScoped)

/-- (Descends before after) says that directories stay open from one moment to another one, besides
the one that is entered.
-/
def Descends (before after : Moment) : Prop :=
  after.directories = before.directories ++ (before.entered? after).toList

/-- Directories stay open where they are the same and no call is made. -/
theorem Descends.ofSame (same : after.directories = before.directories)
    (plain : before.entered? after = none)
    : Descends before after := by
  rw [Descends, plain, Option.toList_none, List.append_nil]
  exact same

theorem Descends.ofOutline (same : before.machine.SameOutline after.machine)
    (plain : before.entered? after = none)
    : Descends before after :=
  .ofSame same.directories plain

include inside

/-- What leads on in the evaluation of expressions, by cases on it. -/
theorem Evaluates.descends (step : Evaluates setting before after) (regular : before.Regular)
    : Descends before after := by
  have start : before.machine.Idle := by
    cases step with
    | _ => exact regular.start rfl
  have called {depth? : Option Nat} := @Run.Obeys.restoring depth?
  cases step with
  | operands | first | member => exact .ofOutline (.refl _) rfl
  | next evaluated | memberOwned evaluated =>
      exact .ofOutline ((Run.Obeys.evaluate called _).restores inside start evaluated).1 rfl
  | choice tested => exact .ofOutline ((Run.Obeys.test called _).restores inside start tested).1 rfl
  | @call depth? kind machine after values function self? arguments evaluated =>
      have same := ((Run.Obeys.evaluateAll called _).restores inside start evaluated).1
      exact (kind.directories_of_entered _).trans (same.directories ▸ rfl)
  | perform evaluated | elements evaluated =>
      exact .ofOutline ((Run.Obeys.evaluateAll called _).restores inside start evaluated).1 rfl
  | construct evaluated _ made =>
      have same := (Run.Obeys.evaluateAll called _).restores inside start evaluated
      have later := (Run.Obeys.createDefault _).restores inside same.2 made
      exact .ofOutline (same.1.trans later.1) rfl
  | owned owns => exact .ofOutline ((Run.Obeys.own _).restores inside start owns).1 rfl
  | members made => exact .ofOutline ((Run.Obeys.createDefault _).restores inside start made).1 rfl
  | memberSet evaluated owns set =>
      have first := (Run.Obeys.evaluate called _).restores inside start evaluated
      have second := (Run.Obeys.own _).restores inside first.2 owns
      have last := (Run.Obeys.setMember _ _ _).restores inside second.2 set
      exact .ofOutline (first.1.trans (second.1.trans last.1)) rfl

/-- A round of a loop that goes on leaves the outline. -/
theorem round {depth? : Option Nat} {condition? : Option TypedExpr} {body : TypedBlock}
    {machine prior middle last : Machine} (idle : machine.Idle)
    (inPlace : body.wellScoped true = true)
    (holds : Run.condition (Run.caller depth?) condition? setting machine = (.ok true, prior))
    (executed : Run.executeBlock (Run.caller depth?) body setting prior = (.ok (), middle))
    (stays : Run.leavesLoop setting middle = (.ok false, last))
    : machine.SameOutline last ∧ last.Idle := by
  have called := @Run.Obeys.restoring depth?
  have tested := (Run.Obeys.conditionOf called _).restores inside idle holds
  have obeys := Run.Obeys.executeBlock called true body fun _ => inPlace
  have done := obeys.ok inside executed tested.2
  obtain ⟨idle, rfl⟩ := Run.of_leavesLoop stays
  exact ⟨tested.1.trans done.1, idle⟩

/-- What leads on in the execution of statements, by cases on it. -/
theorem Executes.descends (step : Executes setting before after) (regular : before.Regular)
    : Descends before after := by
  have start : before.machine.Idle := by
    cases step with
    | _ => exact regular.start rfl
  have called {depth? : Option Nat} := @Run.Obeys.restoring depth?
  cases step with
  | initial | expression | varDecl | returnValue | conditional | condition | otherwise | whileLoop
  | loopCondition | block | first | forInitial | forLoop | body => exact .ofSame rfl rfl
  | bindInitial _ evaluated =>
      exact .ofOutline ((Run.Obeys.evaluate called _).restores inside start evaluated).1 rfl
  | bindDefault _ made =>
      exact .ofOutline ((Run.Obeys.createDefault _).restores inside start made).1 rfl
  | branch tested | nextBranch tested =>
      exact .ofOutline ((Run.Obeys.test called _).restores inside start tested).1 rfl
  | loopBody holds =>
      exact .ofOutline ((Run.Obeys.conditionOf called _).restores inside start holds).1 rfl
  | loopStep holds executed stays =>
      exact .ofOutline (round inside start regular.wellScoped holds executed stays).1 rfl
  | loopAgain holds executed stays stepped =>
      have once := round inside start regular.wellScoped holds executed stays
      have last := (Run.Obeys.stepOf called _).restores inside once.2 stepped
      exact .ofOutline (once.1.trans last.1) rfl
  | @forLoopAfter depth? initial machine after executed =>
      obtain ⟨inLoop, inPlace⟩ := regular.wellScoped
      rw [TypedStmt.wellScoped, Bool.and_eq_true] at inPlace
      have entered : machine.enterScope.Idle := ⟨start.returned, start.breaking⟩
      have same := ((Run.Obeys.begin called inPlace.1).restores inside entered executed).1
      exact .ofSame same.directories rfl
  | @next depth? stmt machine after executed =>
      obtain ⟨inLoop, inPlace⟩ := regular.wellScoped
      rw [TypedStmt.allWellScoped, Bool.and_eq_true] at inPlace
      have obeys := Run.Obeys.execute (@called depth?) inLoop stmt fun _ => inPlace.1
      exact .ofOutline (obeys.ok inside executed start).1 rfl

/-- What leads on in the call of a function, by cases on it. -/
theorem Calls.descends (step : Calls setting before after) (regular : before.Regular)
    : Descends before after := by
  have start : before.machine.Idle := by
    cases step with
    | _ => exact regular.start rfl
  cases step with
  | within | params | param => exact .ofSame rfl rfl
  | nextParam bound =>
      exact .ofOutline ((Run.Obeys.bindIn _ _).restores inside start bound).1 rfl
  | body _ bound =>
      have same := ((Run.Obeys.bindParams _ _).restores inside start bound).1
      exact .ofSame same.directories rfl
  | @result depth function block self? returned? arguments params machine prior middle after value
      scripted bound executed returned =>
      have inPlace := inside function
      rw [scripted] at inPlace
      have first := (Run.Obeys.bindParams _ _).restores inside start bound
      have body := Run.Obeys.executeBlock (@Run.Obeys.restoring (some depth)) false block
        fun _ => inPlace
      have second := (body.inFrame _).restores inside first.2 executed
      refine .ofOutline ((first.1.trans second.1).trans ?_) rfl
      cases returned? with
      | none => exact ((@Run.Obeys.void .restoring).restores inside second.2 returned).1
      | some given =>
          cases returned
          exact .refl _

/-- What leads on outside of all functions, by cases on it. -/
theorem Prepares.descends (step : Prepares setting before after) (regular : before.Regular)
    : Descends before after := by
  have start : before.machine.Idle := by
    cases step with
    | _ => exact regular.start rfl
  have called := @Run.Obeys.restoring none
  have scripts : Law.restoring.scoping → ∀ setting, Law.restoring.admits setting →
      setting.registry.WellScoped :=
    fun _ _ admitted => admitted
  cases step with
  | statics | static | global => exact .ofSame rfl rfl
  | nextStatic initial | nextGlobal initial =>
      have same := ((Run.Obeys.initialValue called _).restores inside start initial).1
      exact .ofSame same.directories rfl
  | globals prepared =>
      exact .ofOutline
        ((Run.Obeys.initializeStatics scripts _).restores inside start prepared).1 rfl
  | main prepared =>
      exact .ofOutline ((Run.Obeys.prepare _ scripts).restores inside start prepared).1 rfl

/-- The directories that are open stay open when something leads on, besides the one that is entered
for a call, by cases on what leads on.
-/
theorem Leads.descends (step : Leads setting before after) (regular : before.Regular)
    (beginning : after.activity.isBeginning = true)
    : Descends before after := by
  cases step with
  | evaluates step => exact step.descends inside regular
  | executes step => exact step.descends inside regular
  | calls step => exact step.descends inside regular
  | prepares step => exact step.descends inside regular
  | rests step =>
      cases step with
      | ended | stopped => cases beginning

omit inside in
/-- What leads on from a moment does so from one at which something begins. -/
theorem Leads.beginning (step : Leads setting before after)
    (beginning : after.activity.isBeginning = true)
    : before.activity.isBeginning = true := by
  cases step with
  | evaluates step | executes step | calls step | prepares step => cases step <;> rfl
  | rests step =>
      cases step with
      | ended | stopped => cases beginning

end Moment

-----------------------------------------------------------------------------------------
-- What is returned
-----------------------------------------------------------------------------------------

/-- (Returned setting returns moment after value) says of a value that is given up by a `return`
that it is that of the expression of one of the `return`s, which was evaluated last since a moment,
or that it is a new void one and one of the `return`s has no expression.
-/
def Moment.Returned (setting : RunSetting) (returns : List (Option TypedExpr)) (moment : Moment)
    (after : Machine) (value : Handle)
    : Prop :=
  (∃ expr, some expr ∈ returns ∧ ∃ before last held,
    Relation.ReflTransGen (Leads setting) moment
      ⟨moment.depth?, .evaluate expr, before, held⟩
    ∧ Run.evaluate (Run.caller moment.depth?) expr setting before = (.ok value, last)
    ∧ last.store = after.store)
  ∨ none ∈ returns ∧ ∃ cell, value = .owned cell
    ∧ after.store.heap.read cell = ⟨setting.builtins.void, .void⟩

namespace Run

open Moment

variable {setting : RunSetting} {depth? : Option Nat} {machine after : Machine}
  {returns more : List (Option TypedExpr)}

/-- (Returns setting depth? activity action returns) says that what an action gives up by a `return`
is returned by one of some `return`s, since the moment at which an activity begins.
-/
def Returns (setting : RunSetting) (depth? : Option Nat) (activity : Activity) (action : Run Unit)
    (returns : List (Option TypedExpr))
    : Prop :=
  ∀ machine held after value, Moment.Regular ⟨depth?, activity, machine, held⟩ →
    action setting machine = (.ok (), after) → after.returned? = some value →
    Returned setting returns ⟨depth?, activity, machine, held⟩ after value

/-- What is done in a scope of its own ends when the scope is left. -/
theorem of_inScope {α : Type} {action : Run α} {result : α}
    (ended : inScope action setting machine = (.ok result, after))
    : ∃ last, action setting machine.enterScope = (.ok result, last) ∧ after = last.leaveScope := by
  have ran : inScope action setting machine =
      ((action setting machine.enterScope).1, (action setting machine.enterScope).2.leaveScope) :=
    rfl
  rw [ran] at ended
  exact ⟨_, Prod.ext (Prod.mk.inj ended).1 rfl, (Prod.mk.inj ended).2.symm⟩

namespace Returns

variable {activity outer : Activity} {action : Run Unit} {stmt : TypedStmt} {start last : Machine}
  {held kept : List Handle} {value : Handle} (inside : setting.registry.WellScoped)

include inside

/-- What is returned inside of something is returned by it. -/
theorem outside (inner : Returns setting depth? activity action returns)
    (lead : Leads setting ⟨depth?, outer, machine, held⟩ ⟨depth?, activity, start, kept⟩)
    (regular : Regular ⟨depth?, outer, machine, held⟩)
    (ended : action setting start = (.ok (), last)) (returned : last.returned? = some value)
    (within : returns ⊆ more) (store : last.store = after.store)
    : Returned setting more ⟨depth?, outer, machine, held⟩ after value := by
  rcases inner start kept last value (lead.regular inside regular) ended returned with
    ⟨expr, among, before, final, others, leads, evaluated, same⟩ | ⟨among, cell, owns, void⟩
  · exact .inl ⟨expr, within among, before, final, others, .head lead leads, evaluated,
      same.trans store⟩
  · exact .inr ⟨within among, cell, owns, store ▸ void⟩

/-- A loop returns what its body does, by induction over the rounds. -/
theorem loop (condition? iteration? : Option TypedExpr) {body : TypedBlock}
    (inner : Returns setting depth? (.executeBlock body) (Run.executeBlock (caller depth?) body)
      returns)
    (rounds : Nat)
    : Returns setting depth? (.loop condition? iteration? body rounds)
        (Run.loop (Run.condition (caller depth?) condition?)
          (Run.executeBlock (caller depth?) body) (Run.step (caller depth?) iteration?) rounds)
        returns := by
  induction rounds with
  | zero =>
      intro _ _ _ _ _ ended
      cases ended
  | succ rounds ih =>
      intro machine held after value regular ended returned
      have idle := regular.start rfl
      rw [Run.loop] at ended
      obtain ⟨holds, before, tested, ended⟩ := of_bind ended
      cases holds with
      | false =>
          cases ended
          have idle := (Obeys.conditionOf Obeys.restoring condition?).stillIdle inside idle tested
          cases returned.symm.trans idle.returned
      | true =>
          obtain ⟨_, middle, executed, ended⟩ := of_bind ended
          obtain ⟨leaves, later, stays, ended⟩ := of_bind ended
          cases leaves with
          | true =>
              cases ended
              rw [leavesLoop_eq] at stays
              obtain rfl := (Prod.mk.inj stays).2
              exact inner.outside inside (.executes (.loopBody tested iteration? body rounds held))
                regular executed returned (List.Subset.refl _) rfl
          | false =>
              obtain ⟨_, last, stepped, ended⟩ := of_bind ended
              exact ih.outside inside
                (.executes (.loopAgain tested executed stays stepped rounds held)) regular ended
                returned (List.Subset.refl _) rfl

/-- A statement that a loop may start with returns nothing. -/
theorem begin (initial : stmt.isInitial = true) (returns : List (Option TypedExpr))
    : Returns setting depth? (.execute stmt) (Run.execute (caller depth?) stmt) returns := by
  intro machine held after value regular ended returned
  have idle := (Obeys.begin Obeys.restoring initial).stillIdle inside
    (regular.start rfl) ended
  cases returned.symm.trans idle.returned

omit inside in
/-- What does nothing returns nothing. -/
theorem nothing (beginning : activity.isBeginning = true) (returns : List (Option TypedExpr))
    : Returns setting depth? activity (return ()) returns := by
  intro machine held after value regular ended returned
  cases ended
  cases returned.symm.trans (regular.start beginning).returned

omit inside in
/-- A `return` without a value gives a void one. -/
theorem void
    (gives : Run.execute (caller depth?) stmt = Run.void >>= fun value =>
      modify fun machine => { machine with returned? := some value })
    : Returns setting depth? (.execute stmt) (Run.execute (caller depth?) stmt) [none] := by
  intro machine held after value regular ended returned
  rw [gives] at ended
  cases ended
  cases returned
  exact .inr ⟨.head _, _, rfl, (Heap.read_alloc ..).trans (if_pos rfl)⟩

mutual

/-- What a statement returns is what one of the `return`s in it gives, by induction over statements.
-/
theorem execute (depth? : Option Nat) (stmt : TypedStmt)
    : Returns setting depth? (.execute stmt) (Run.execute (caller depth?) stmt) stmt.returns := by
  cases stmt with
  | expression expr => exact Returns.begin inside rfl _
  | varDecl decl => exact Returns.begin inside rfl _
  | implicitReturn span => exact Returns.void rfl
  | breakLoop span =>
      intro machine held after value regular ended returned
      cases ended
      cases returned.symm.trans (regular.start rfl).returned
  | returnValue value? span =>
      cases value? with
      | none => exact Returns.void rfl
      | some expr =>
          intro machine held after value regular ended returned
          rw [Run.execute] at ended
          obtain ⟨result, last, evaluated, ended⟩ := of_bind ended
          cases ended
          cases returned
          exact .inl ⟨expr, .head _, machine, last, held,
            .single (.executes (.returnValue depth? expr span machine held)), evaluated, rfl⟩
  | conditional branches otherwise? span =>
      intro machine held after value regular ended returned
      have lead : Leads setting _ _ :=
        .executes (.conditional depth? branches otherwise? span machine held)
      cases otherwise? with
      | none =>
          have otherwise : Returns setting depth? (.executeBranches [] none) (return ()) [] :=
            Returns.nothing rfl []
          have inner := executeBranches depth? branches none otherwise
          rw [List.append_nil] at inner
          exact inner.outside inside lead regular ended returned (List.Subset.refl _) rfl
      | some body =>
          have otherwise : Returns setting depth? (.executeBranches [] (some body))
              (Run.executeBlock (caller depth?) body) body.returns :=
            fun machine held _ _ regular ended returned =>
              (executeBlock depth? body).outside inside
                (.executes (.otherwise depth? body machine held)) regular ended returned
                (List.Subset.refl _) rfl
          exact (executeBranches depth? branches (some body) otherwise).outside inside lead regular
            ended returned (List.Subset.refl _) rfl
  | whileLoop condition body span =>
      intro machine held after value regular ended returned
      have rounds := Returns.loop inside (some condition) none (executeBlock depth? body)
        setting.limits.iterations
      exact rounds.outside inside (.executes (.whileLoop depth? condition body span machine held))
        regular ended returned (List.Subset.refl _) rfl
  | forLoop initial? condition? iteration? body span =>
      intro machine held after value regular ended returned
      have rounds := Returns.loop inside condition? iteration? (executeBlock depth? body)
        setting.limits.iterations
      cases initial? with
      | none =>
          obtain ⟨last, looped, rfl⟩ := of_inScope ended
          exact rounds.outside inside
            (.executes (.forLoop depth? condition? iteration? body span machine held)) regular
            looped returned (List.Subset.refl _) rfl
      | some initial =>
          obtain ⟨last, inner, rfl⟩ := of_inScope ended
          obtain ⟨_, before, executed, looped⟩ := of_bind inner
          exact rounds.outside inside
            (.executes (.forLoopAfter executed condition? iteration? body span held)) regular looped
            returned (List.subset_append_right _ _) rfl
  | block body =>
      exact fun machine held _ _ regular ended returned =>
        (executeBlock depth? body).outside inside (.executes (.block depth? body machine held))
          regular ended returned (List.Subset.refl _) rfl
termination_by structural stmt

theorem executeBlock (depth? : Option Nat) (block : TypedBlock)
    : Returns setting depth? (.executeBlock block) (Run.executeBlock (caller depth?) block)
        block.returns := by
  cases block with
  | mk body span =>
      intro machine held after value regular ended returned
      obtain ⟨last, executed, rfl⟩ := of_inScope ended
      exact (executeAll depth? body).outside inside
        (.executes (.body depth? body span machine held)) regular executed returned
        (List.Subset.refl _) rfl
termination_by structural block

theorem executeAll (depth? : Option Nat) (stmts : List TypedStmt)
    : Returns setting depth? (.executeAll stmts) (Run.executeAll (caller depth?) stmts)
        (TypedStmt.allReturns stmts) := by
  cases stmts with
  | nil => exact Returns.nothing rfl _
  | cons first rest =>
      intro machine held after value regular ended returned
      rw [Run.executeAll] at ended
      obtain ⟨_, middle, executed, ended⟩ := of_bind ended
      rw [run_bind, run_get] at ended
      dsimp only at ended
      split at ended
      · cases ended
        exact (execute depth? first).outside inside
          (.executes (.first depth? first rest machine held)) regular executed returned
          (List.subset_append_left _ _) rfl
      · next goesOn =>
        exact (executeAll depth? rest).outside inside
          (.executes (.next executed (Bool.eq_false_iff.mpr goesOn) rest held)) regular ended
          returned (List.subset_append_right _ _) rfl
termination_by structural stmts

theorem executeBranches (depth? : Option Nat) (branches : List TypedBranch)
    (otherwise? : Option TypedBlock) {otherwise : Run Unit}
    {returns : List (Option TypedExpr)}
    (last : Returns setting depth? (.executeBranches [] otherwise?) otherwise returns)
    : Returns setting depth? (.executeBranches branches otherwise?)
        (Run.executeBranches (caller depth?) otherwise branches)
        (TypedBranch.allReturns branches ++ returns) := by
  cases branches with
  | nil => exact last
  | cons first rest =>
      cases first with
      | mk condition body =>
          intro machine held after value regular ended returned
          rw [Run.executeBranches] at ended
          obtain ⟨holds, before, tested, ended⟩ := of_bind ended
          rw [TypedBranch.allReturns, List.append_assoc]
          cases holds with
          | true =>
              exact (executeBlock depth? body).outside inside
                (.executes (.branch tested body rest otherwise? held)) regular ended returned
                (List.subset_append_left _ _) rfl
          | false =>
              exact (executeBranches depth? rest otherwise? last).outside inside
                (.executes (.nextBranch tested body rest otherwise? held)) regular ended returned
                (List.subset_append_right _ _) rfl
termination_by structural branches

end

end Returns

/-- Statements of which the last one is a `return` are not all passed over without a signal, by
induction over them.
-/
theorem executeAll_interrupted {call : Caller} {stmts : List TypedStmt}
    (ends : stmts.getLast?.any TypedStmt.isReturn = true)
    (ended : executeAll call stmts setting machine = (.ok (), after))
    : interrupted after = true := by
  induction stmts generalizing machine with
  | nil => cases ends
  | cons first rest ih =>
      rw [executeAll] at ended
      obtain ⟨_, middle, executed, ended⟩ := of_bind ended
      rw [run_bind, run_get] at ended
      dsimp only at ended
      split at ended
      · next signals =>
        cases ended
        exact signals
      · next quiet =>
        cases rest with
        | cons second rest => exact ih ends ended
        | nil =>
            -- The last statement is a `return`, which leaves its value.
            cases first with
            | returnValue value? span =>
                cases value? <;>
                · rw [execute] at executed
                  obtain ⟨_, _, _, executed⟩ := of_bind executed
                  cases executed
                  exact absurd rfl quiet
            | implicitReturn span =>
                rw [execute] at executed
                obtain ⟨_, _, _, executed⟩ := of_bind executed
                cases executed
                exact absurd rfl quiet
            | _ => cases ends

/-- What a body gives in a frame of its own is what it has returned. -/
theorem of_inFrame {frame : Frame} {body : Run Unit} {returned? : Option Handle}
    (ended : inFrame frame body setting machine = (.ok returned?, after))
    : ∃ last, body setting { machine with frames := frame :: machine.frames } = (.ok (), last)
        ∧ returned? = last.returned? ∧ after = takeReturned last := by
  have ran : inFrame frame body setting machine =
      (let outcome := (do body; return (← get).returned? : Run (Option Handle)) setting
        { machine with frames := frame :: machine.frames }
      (outcome.1, takeReturned outcome.2)) :=
    rfl
  rw [ran] at ended
  obtain ⟨result, rfl⟩ := Prod.mk.inj ended
  obtain ⟨_, last, executed, given⟩ := of_bind (Prod.ext result rfl)
  obtain ⟨taken, final⟩ := Prod.mk.inj given
  exact ⟨last, executed, (Except.ok.inj taken).symm, congrArg takeReturned final.symm⟩

/-- The body of a function that ends in a `return` returns. -/
theorem returned_isSome (depth? : Option Nat) (inside : setting.registry.WellScoped)
    {block : TypedBlock}
    (inPlace : block.wellScoped false = true) (ends : block.endsInReturn = true)
    (idle : machine.Idle)
    (ended : executeBlock (caller depth?) block setting machine = (.ok (), after))
    : after.returned?.isSome = true := by
  have obeys := Obeys.executeBlock (@Obeys.restoring depth?) false block fun _ => inPlace
  have goesOn := (obeys.ok inside ended idle).2
  cases block with
  | mk body span =>
      obtain ⟨last, executed, rfl⟩ := of_inScope ended
      have signals := executeAll_interrupted ends executed
      rw [interrupted, Bool.or_eq_true] at signals
      exact signals.resolve_right fun breaking => Bool.false_ne_true (goesOn breaking)

end Run

end BuildScript
