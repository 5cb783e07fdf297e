import BuildScript.Proofs.Accepted
import BuildScript.Proofs.Run.Placement
import BuildScript.Proofs.Run.Readiness
import BuildScript.Proofs.Workspace.TypeNames

/-! Faults that the check of a script does not prevent. Programs are accepted that a run stops in
at initialisers whose class never became known, at the call of a member function where there is no
object, or at a name without storage. So are programs in which a scope declares a name twice or a
name means two things, and programs whose run tells a wrong directory, since it tells those that
calls were made in.
-/

namespace BuildScript

-----------------------------------------------------------------------------------------
-- Accepted programs
-----------------------------------------------------------------------------------------

/-- The functions that a body calls on the object at hand, if it does nothing but return what one
of them gives.
-/
def FunctionBody.calledHere : FunctionBody → List FunctionId
  | .script (some (.mk [.returnValue (some (.mk (.implicitCall called _) _ _)) _] _)) => [called]
  | _ => []

/-- The names of the variables that a body declares in its own scope, in order. -/
def FunctionBody.declaredNames : FunctionBody → List String
  | .script (some (.mk stmts _)) => stmts.filterMap fun
    | .varDecl decl => some decl.name
    | _ => none
  | _ => []

namespace Program

/-- What a run of a program gives and what it asks of the build system, when it begins in the root
directory and may take as much as in any session.
-/
def outcome (program : Program) : Option Int64 × List BuildCall :=
  let session := Session.start Config.standard fun _ => none
  let (result?, system) := session.run program (BuildSystem.ofRoot "/")
  (result?, system.calls.toList)

/-- The program of a text stops at once by a fault. -/
def StopsBy (fault : Fault) (program : Program) : Prop :=
  program.outcome = (none, [.fatalError fault.message])

instance (fault : Fault) (program : Program) : Decidable (program.StopsBy fault) :=
  inferInstanceAs (Decidable (_ = _))

/-- A script that chooses between two initialisers of an object. -/
def choosingText : String :=
  "class A \x7b int a; \x7d "
    ++ "int main() \x7b A a = true ? \x7b.a = 1\x7d : \x7b.a = 2\x7d; return a.a; \x7d"

/-- A script that calls a member function by its full name. -/
def callingText : String :=
  "class A \x7b int f() \x7b return 1; \x7d \x7d int main() \x7b return A::f(); \x7d"

/-- A script in which a class calls a member function of another one by its full name. -/
def strayingText : String :=
  "class A \x7b int f() \x7b return 7; \x7d \x7d "
    ++ "class B \x7b int g() \x7b return A::f(); \x7d \x7d int main() \x7b return B().g(); \x7d"

/-- (CallsStranger program object) says that a member function of a class calls one on the object
at hand and returns its result, which belongs neither to the class nor to one it is derived from.
-/
def CallsStranger (program : Program) (object : TypeId) : Prop :=
  ∃ caller ∈ (program.registry.context (program.registry.type object).context).functions,
    ∃ called ∈ (program.registry.function caller).body.calledHere,
      ∀ ancestor ∈ program.registry.lineage object,
        (program.registry.type ancestor).context ≠ (program.registry.function called).context

instance (program : Program) (object : TypeId) : Decidable (program.CallsStranger object) :=
  inferInstanceAs (Decidable (∃ caller ∈ _, ∃ called ∈ _, ∀ ancestor ∈ _, _))

/-- The program of a text that may lead to some files. -/
def ofFiles? (files : List (String × String)) (source : String) : Option Program :=
  (Session.compileSource source (Session.start Config.standard (Sources.ofFiles files))).1

theorem ofFiles?_accepted {files : List (String × String)} {source : String} {program : Program}
    (compiled : ofFiles? files source = some program)
    : program.Accepted :=
  Session.compileSource_accepted compiled

/-- A script that asks for lists of its own class, whose member function makes use of a variable,
before it imports another script.
-/
def preparingText : String :=
  "int late = 5; class C \x7b int y; int h() \x7b return late; \x7d \x7d list<C> first; "
    ++ "import \"m.cmsl\"; int main() \x7b return 0; \x7d"

/-- A script with a class of the same name, of whose objects it makes a list at once. -/
def listingText : String :=
  "class C \x7b int y; int h() \x7b return 1; \x7d \x7d int early = (\x7bC()\x7d).front().h();"

/-- The program of the first script, which imports the second one. -/
def prepared? : Option Program :=
  (Session.compileSource preparingText
    (Session.start Config.standard (Sources.ofFiles [("m.cmsl", listingText)]))).1

set_option maxRecDepth 100000 in
/-- The scripts above are accepted, and this is what becomes of them. -/
theorem faulty_texts
    : ((ofText? choosingText).map fun program => decide (program.StopsBy .untypedInitializers)) =
        some true ∧
      ((ofText? callingText).map fun program => decide (program.StopsBy .missingObject)) =
        some true ∧
      ((ofText? strayingText).map fun program =>
        decide (∃ object ∈ program.declared, program.CallsStranger object)) = some true ∧
      (prepared?.map fun program => decide (program.StopsBy (.uninitializedName "late"))) =
        some true := by
  refine ⟨?choosing, ?calling, ?straying, ?listing⟩
  case choosing => decide +kernel
  case calling => decide +kernel
  case straying => decide +kernel
  case listing => decide +kernel

/-- The class of initialisers may stay unknown: where one of two initialisers is chosen as the
initial value of an object, neither is bound to its class, and the run stops.
-/
theorem Accepted.leaves_initializers
    : ∃ program, ofText? choosingText = some program ∧ program.Accepted ∧
        program.StopsBy .untypedInitializers := by
  obtain ⟨program, compiled, stops⟩ := Option.map_eq_some_iff.mp faulty_texts.1
  exact ⟨program, compiled, ofText?_accepted compiled, of_decide_eq_true stops⟩

/-- Member functions are found by their full names from everywhere. So an accepted program may
call one where there is no object, which stops it, and may call one on an object of a class that
has nothing to do with its own.
-/
theorem Accepted.calls_without_object
    : (∃ program, ofText? callingText = some program ∧ program.Accepted ∧
        program.StopsBy .missingObject) ∧
      ∃ program, ofText? strayingText = some program ∧ program.Accepted ∧
        ∃ object ∈ program.declared, program.CallsStranger object := by
  obtain ⟨_, calling, straying, _⟩ := faulty_texts
  constructor
  · obtain ⟨program, compiled, stops⟩ := Option.map_eq_some_iff.mp calling
    exact ⟨program, compiled, ofText?_accepted compiled, of_decide_eq_true stops⟩
  · obtain ⟨program, compiled, strays⟩ := Option.map_eq_some_iff.mp straying
    exact ⟨program, compiled, ofText?_accepted compiled, of_decide_eq_true strays⟩

/-- A variable outside of functions may be read too early: lists are told apart by the names of
their classes, so that a script gets hold of objects of a class that is declared after all of its
own variables have their first values.
-/
theorem Accepted.reads_early
    : ∃ program, prepared? = some program ∧ program.Accepted ∧
        program.StopsBy (.uninitializedName "late") := by
  obtain ⟨_, _, _, listing⟩ := faulty_texts
  obtain ⟨program, compiled, stops⟩ := Option.map_eq_some_iff.mp listing
  have read : ofFiles? [("m.cmsl", listingText)] preparingText = some program := compiled
  exact ⟨program, compiled, ofFiles?_accepted read, of_decide_eq_true stops⟩

/-- A script in which two exported variables, two members, two parameters and two variables of a
function have the same name.
-/
def redeclaringText : String :=
  "export int v = 1; export int v = 2; class A \x7b int m; int m; \x7d "
    ++ "int f(int a, int a) \x7b return a; \x7d "
    ++ "int main() \x7b int x = 1; int x = 2; return x; \x7d"

/-- What becomes of a script that only imports that one. -/
def importingTwice : Option Program × Session :=
  Session.compileSource "import \"m.cmsl\"; int main() \x7b return 0; \x7d"
    (Session.start Config.standard (Sources.ofFiles [("m.cmsl", redeclaringText)]))

set_option maxRecDepth 100000 in
/-- The first script is accepted, and the other one is not. -/
theorem redeclaring_texts
    : ((ofText? redeclaringText).map fun program =>
        decide (¬ (program.scriptUnit.globals.map (·.name)).Nodup
          ∧ (∃ type ∈ program.registry.types.toList, type.name = "A"
            ∧ ¬ (type.members.map (·.name)).Nodup)
          ∧ (∃ function ∈ program.registry.functions.toList, function.name = "f"
            ∧ ¬ (function.params.map (·.name)).Nodup)
          ∧ ¬ (program.registry.function program.main).body.declaredNames.Nodup)) = some true ∧
      (importingTwice.1.isNone
        ∧ importingTwice.2.diagnostics.map (·.message) =
          [(Problem.importConflict "v").message]) := by
  refine ⟨?redeclaring, ?importing⟩
  case redeclaring => decide +kernel
  case importing => decide +kernel

/-- A scope may declare a name twice: an accepted program may have two global variables, two members
of a class, two parameters of a function and two variables of a block that have the same name. So a
script that is accepted may be in conflict with itself when it is imported.
-/
theorem Accepted.redeclares
    : (∃ program, ofText? redeclaringText = some program ∧ program.Accepted
        ∧ ¬ (program.scriptUnit.globals.map (·.name)).Nodup
        ∧ (∃ type ∈ program.registry.types.toList, type.name = "A"
          ∧ ¬ (type.members.map (·.name)).Nodup)
        ∧ (∃ function ∈ program.registry.functions.toList, function.name = "f"
          ∧ ¬ (function.params.map (·.name)).Nodup)
        ∧ ¬ (program.registry.function program.main).body.declaredNames.Nodup) ∧
      importingTwice.1 = none ∧
      importingTwice.2.diagnostics.map (·.message) = [(Problem.importConflict "v").message] := by
  obtain ⟨redeclaring, none, conflict⟩ := redeclaring_texts
  obtain ⟨program, compiled, twice⟩ := Option.map_eq_some_iff.mp redeclaring
  exact ⟨⟨program, compiled, ofText?_accepted compiled, of_decide_eq_true twice⟩,
    Option.isNone_iff_eq_none.mp none, conflict⟩

/-- A script in which a function is called by its name alone and on an object of the same class. -/
def overloadingText : String :=
  "class B \x7b int f(int x) \x7b return 1; \x7d \x7d "
    ++ "class D : B \x7b int f(int& x) \x7b return 2; \x7d int g() \x7b return f(5); \x7d \x7d "
    ++ "int main() \x7b D d; return d.g() - d.f(5); \x7d"

/-- A script in which a member is set by its name alone and read from the object. -/
def doublingText : String :=
  "class A \x7b int m; int m; int g() \x7b m = 1; return m; \x7d \x7d "
    ++ "int main() \x7b A a; a.g(); return a.m; \x7d"

set_option maxRecDepth 100000 in
/-- The scripts above are accepted, and this is what they give. -/
theorem disagreeing_texts
    : ((ofText? overloadingText).map (·.outcome.1)) = some (some (-1)) ∧
      ((ofText? doublingText).map (·.outcome.1)) = some (some 0) := by
  refine ⟨?overloading, ?doubling⟩
  case overloading => decide +kernel
  case doubling => decide +kernel

/-- A name may mean another member inside of a class than it does on an object of the class. Inside,
the functions of a class are chosen from together with those of its bases, of which one that fits
exactly comes first; on an object, those of the class itself do. Of two members that have one name,
the last one is meant inside, and the first one on an object.
-/
theorem Accepted.resolves_apart
    : (∃ program, ofText? overloadingText = some program ∧ program.Accepted ∧
        program.outcome.1 = some (-1)) ∧
      ∃ program, ofText? doublingText = some program ∧ program.Accepted ∧
        program.outcome.1 = some 0 := by
  obtain ⟨overloading, doubling⟩ := disagreeing_texts
  constructor
  · obtain ⟨program, compiled, differs⟩ := Option.map_eq_some_iff.mp overloading
    exact ⟨program, compiled, ofText?_accepted compiled, differs⟩
  · obtain ⟨program, compiled, differs⟩ := Option.map_eq_some_iff.mp doubling
    exact ⟨program, compiled, ofText?_accepted compiled, differs⟩

variable {program : Program} {limits : Limits} {system : BuildSystem} {moment : Moment}

/-- The directories that a run reports are those that the calls which are open were made in, in the
order in which they were entered, whichever scripts these calls stand in.
-/
theorem Reaches.directories_entered (reached : program.Reaches limits system moment)
    (accepted : program.Accepted) (beginning : moment.activity.isBeginning = true)
    : ∃ directories,
        Moment.Opens (program.setting limits) ⟨none, .run program, Machine.ofSystem system, []⟩
          directories moment
        ∧ moment.directories = system.directories ++ directories := by
  induction reached with
  | refl => exact ⟨[], .here, (List.append_nil _).symm⟩
  | tail earlier step ih =>
      obtain ⟨directories, opens, same⟩ := ih (step.beginning beginning)
      have regular := Program.Reaches.regular earlier accepted
      have inside : (program.setting limits).registry.WellScoped := accepted.wellScoped
      refine ⟨_, opens.step step, ?_⟩
      rw [step.descends inside regular beginning, same, List.append_assoc]

/-- The moment of a run at which the call of a script in a directory begins with which `main` goes
on after its first statement, and the name of the directory.
-/
def insideDirectory? (program : Program) (limits : Limits) (system : BuildSystem)
    : Option (String × Moment) :=
  match program.insideMain? limits system with
  | some ⟨depth?, .executeAll (.expression (.mk (.scriptDirectory directory function []) _ _) :: _),
      machine, []⟩ =>
    some (directory,
      ⟨depth?, .call function none [], machine.request (.enterDirectory directory), []⟩)
  | _ => none

/-- A run comes to the moment at which such a call begins. -/
theorem reaches_insideDirectory {directory : String}
    (inside : program.insideDirectory? limits system = some (directory, moment))
    : program.Reaches limits system moment ∧ moment.activity.isBeginning = true := by
  unfold insideDirectory? at inside
  split at inside
  · next depth? directory function type span rest machine inMain =>
    cases inside
    have begins := ((reaches_insideMain inMain).tail (.executes (.first ..))).tail
      (.executes (.expression ..))
    have none : Run.evaluateAll (Run.caller depth?) [] (program.setting limits) machine =
        (.ok [], machine) :=
      rfl
    exact ⟨begins.tail (.evaluates (.call none rfl type span [])), rfl⟩
  · cases inside

/-- A script that tells in which directory it is. -/
def tellingText : String :=
  "void main() \x7b cmake::message(cmake::current_source_dir()); \x7d"

/-- A script that goes on to a directory in the middle of its `main`. -/
def goingText : String := "int main() \x7b int a = 0; add_subdirectory(\"x\"); return a; \x7d"

set_option maxRecDepth 100000 in
/-- The script above is accepted, with the one of the directory that it goes on to. -/
theorem going_text
    : ((ofFiles? [("x/CMakeLists.cmsl", tellingText)] goingText).bind fun program =>
        (program.insideDirectory? ⟨20, 20⟩ (BuildSystem.ofRoot ".")).map fun (directory, moment) =>
          (directory, moment.directories, moment.machine.store.system.currentSourceDir)) =
        some ("x", ["x"], "./x") := by
  decide +kernel

/-- Witness: the directory of the call is open when it begins, and it is the one that is reported.
-/
theorem Reaches.directories_entered_going
    : ∃ program moment,
        ofFiles? [("x/CMakeLists.cmsl", tellingText)] goingText = some program ∧ program.Accepted
        ∧ program.Reaches ⟨20, 20⟩ (BuildSystem.ofRoot ".") moment
        ∧ Moment.Opens (program.setting ⟨20, 20⟩)
          ⟨none, .run program, Machine.ofSystem (BuildSystem.ofRoot "."), []⟩ ["x"] moment
        ∧ moment.machine.store.system.currentSourceDir = "./x" := by
  obtain ⟨program, compiled, found⟩ := Option.bind_eq_some_iff.mp going_text
  obtain ⟨⟨directory, moment⟩, inside, same⟩ := Option.map_eq_some_iff.mp found
  obtain ⟨_, same⟩ := Prod.mk.inj same
  obtain ⟨opened, reported⟩ := Prod.mk.inj same
  obtain ⟨reached, beginning⟩ := reaches_insideDirectory inside
  have accepted := ofFiles?_accepted compiled
  obtain ⟨directories, opens, same⟩ := reached.directories_entered accepted beginning
  obtain rfl : ["x"] = directories := opened.symm.trans same
  exact ⟨program, moment, compiled, accepted, reached, opens, reported⟩

/-- A script that exports a function that goes on to a directory. -/
def enteringText : String := "export void enter() \x7b add_subdirectory(\"x\"); \x7d"

/-- The program of a script that calls the function, which it imports from another directory. -/
def entered? : Option Program :=
  (Session.compileSource "import \"lib/m.cmsl\"; int main() \x7b enter(); return 0; \x7d"
    (Session.start Config.standard (Sources.ofFiles
      [("lib/m.cmsl", enteringText), ("lib/x/CMakeLists.cmsl", tellingText)]))).1

set_option maxRecDepth 100000 in
/-- The script is accepted, with the script that tells its directory. It tells another one. -/
theorem entered_text
    : (entered?.map fun program =>
        (program.modules.map (·.path),
          (program.run ⟨20, 20⟩ (BuildSystem.ofRoot ".")).2.store.system.calls.toList)) =
        some (["lib/x/CMakeLists.cmsl", "lib/m.cmsl"],
          [.enterDirectory "x", .message "./x", .leaveDirectory]) := by
  decide +kernel

/-- The directory that a run reports may not be the one of the script that is executed: a function
of a script in another directory goes on to a directory from there when it is checked, but from the
directory of its caller when it is run.
-/
theorem Accepted.misreports_directory
    : ∃ program, entered? = some program ∧ program.Accepted
        ∧ program.modules.map (·.path) = ["lib/x/CMakeLists.cmsl", "lib/m.cmsl"]
        ∧ Path.parent? "lib/x/CMakeLists.cmsl" = some "lib/x"
        ∧ (program.run ⟨20, 20⟩ (BuildSystem.ofRoot ".")).2.store.system.calls.toList =
          [.enterDirectory "x", .message "./x", .leaveDirectory]
        ∧ Path.normalize "./x" ≠ "lib/x" := by
  obtain ⟨program, compiled, ran⟩ := Option.map_eq_some_iff.mp entered_text
  obtain ⟨paths, calls⟩ := Prod.ext_iff.mp ran
  have read : ofFiles? [("lib/m.cmsl", enteringText), ("lib/x/CMakeLists.cmsl", tellingText)] _ =
      some program :=
    compiled
  exact ⟨program, compiled, ofFiles?_accepted read, paths, by decide +kernel, calls,
    by decide +kernel⟩

end Program

end BuildScript
