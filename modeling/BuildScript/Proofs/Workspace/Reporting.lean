import BuildScript.Proofs.Typed.Making
import BuildScript.Proofs.Workspace.Nesting

/-! Checks that report. A check that succeeds tells nothing, and a check that fails has told why.
What a failed check tells is an error with the notes that explain it, behind what its neighbours
have told.

Compilations that report. Loading tells nothing unless it fails, so that a compilation gives a
program exactly when it tells nothing, and otherwise tells at least one error.
-/

namespace BuildScript

/-- (Tells step failed fails) says that a step of a compilation adds to what was told, that it adds
nothing unless it has failed, and that what it has told then is a failure.
-/
def Workspace.Tells {α : Type} (step : StateM Workspace α) (failed : α → Prop)
    (fails : List Diagnostic → Prop)
    : Prop :=
  ∀ before, ∃ told, (step before).2.diagnostics = before.diagnostics ++ told
    ∧ (¬ failed (step before).1 → told = [])
    ∧ (failed (step before).1 → fails told)

/-- Whether messages are a failure together with any error behind them. -/
def Diagnostic.BeforeError (fails : List Diagnostic → Prop) (told : List Diagnostic) : Prop :=
  ∀ problem span, fails (told ++ [Diagnostic.error problem span])

/-- (Neighbours.Report fails neighbours) says that a neighbour that is reached tells nothing, and
that what is told when it is not reached makes a failure together with one more error.
-/
structure Neighbours.Report (fails : List Diagnostic → Prop) (neighbours : Neighbours) : Prop where
  importModule : ∀ name span, Workspace.Tells (neighbours.importModule name span) (· = .none)
    (Diagnostic.BeforeError fails)
  addDirectory : ∀ name span, Workspace.Tells (neighbours.addDirectory name span) (· = .failed)
    (Diagnostic.BeforeError fails)
  addComponentFile : ∀ name span, Workspace.Tells (neighbours.addComponentFile name span)
    (· = .none) (Diagnostic.BeforeError fails)

/-- What checks may tell when they fail: an error with notes does, and the neighbours agree. -/
structure BuildSetting.Reports (fails : List Diagnostic → Prop) (setting : BuildSetting)
    : Prop where
  own : ∀ problem span notes, (∀ note ∈ notes, note.severity = Severity.note) →
    fails (Diagnostic.error problem span :: notes)
  neighbours : setting.neighbours.Report fails

namespace Build

variable {α β : Type} {fails : List Diagnostic → Prop} {setting : BuildSetting}

/-- (Reports action fails setting) says that a check either succeeds and tells nothing or fails and
tells why.
-/
def Reports (action : Build α) (fails : List Diagnostic → Prop) (setting : BuildSetting) : Prop :=
  ∀ before,
    (∃ value after, Gives action setting before value after
        ∧ after.workspace.diagnostics = before.workspace.diagnostics)
      ∨ ∃ after told, action setting before = (none, after)
        ∧ after.workspace.diagnostics = before.workspace.diagnostics ++ told ∧ fails told

namespace Reports

/-- A check that always succeeds. -/
theorem quiet {action : Build α} (succeeds : action.Succeeds setting)
    : action.Reports fails setting := by
  intro before
  obtain ⟨value, after, gives, same⟩ := succeeds before
  exact .inl ⟨value, after, gives, by rw [same]⟩

/-- Two checks in a row report if each does. The second one need only do so for what the first one
can give.
-/
theorem bindGiven {action : Build α} {next : α → Build β} (first : action.Reports fails setting)
    (later : ∀ value, (∃ before middle, Gives action setting before value middle) →
      (next value).Reports fails setting)
    : (action >>= next).Reports fails setting := by
  intro before
  rcases first before with ⟨value, middle, gives, silent⟩ | ⟨after, told, failed, told_, why⟩
  · unfold Gives
    rw [Made.bind_some gives]
    rcases later value ⟨before, middle, gives⟩ middle with
      ⟨result, after, given, silentToo⟩ | ⟨after, told, failed, same, why⟩
    · exact .inl ⟨result, after, given, silentToo.trans silent⟩
    · exact .inr ⟨after, told, failed, silent ▸ same, why⟩
  · exact .inr ⟨after, told, Made.bind_none failed, told_, why⟩

/-- A check that fails with an error and with notes that explain it. -/
theorem explained (reports : setting.Reports fails) (problem : Problem) (span : Span)
    {next : Build α} (explains : next.Explains setting)
    : (onWorkspace (Workspace.reportError problem span) >>= fun _ => next).Reports
        fails setting := by
  intro before
  obtain ⟨after, notes, failed, same, all⟩ := explains _
  refine .inr ⟨after, Diagnostic.error problem span :: notes, ?_, ?_, reports.own _ _ _ all⟩
  · rw [Made.bind_some (Made.gives_step _ before)]
    exact failed
  · rw [same]
    exact List.append_assoc _ [Diagnostic.error problem span] notes

/-- A neighbour is asked, and it is an error if it is not reached. -/
theorem ask (failed : α → Prop) {step : StateM Workspace α} {next : α → Build β}
    (tells : Workspace.Tells step failed (Diagnostic.BeforeError fails))
    (rejects : ∀ value, failed value → ∃ problem span, next value = Build.reject problem span)
    (later : ∀ value, ¬ failed value → (next value).Reports fails setting)
    : (onWorkspace step >>= next).Reports fails setting := by
  intro before
  obtain ⟨told, same, silent, why⟩ := tells before.workspace
  unfold Gives
  rw [Made.bind_some (Made.gives_step step before)]
  by_cases failure : failed (step before.workspace).1
  · obtain ⟨problem, span, rejected⟩ := rejects _ failure
    rw [rejected]
    refine .inr ⟨_, told ++ [Diagnostic.error problem span], rfl, ?_, why failure problem span⟩
    show (step before.workspace).2.diagnostics ++ [Diagnostic.error problem span] = _
    rw [same, List.append_assoc]
  · have same : (step before.workspace).2.diagnostics = before.workspace.diagnostics := by
      rw [same, silent failure, List.append_nil]
    rcases later _ failure { before with workspace := (step before.workspace).2 } with
      ⟨result, after, gives, silentToo⟩ | ⟨after, toldToo, failedToo, sameToo, whyToo⟩
    · exact .inl ⟨result, after, gives, silentToo.trans same⟩
    · exact .inr ⟨after, toldToo, failedToo, same ▸ sameToo, whyToo⟩

/-- What neighbours tell, whichever of them is asked. -/
theorem asked {step : StateM Workspace α} {failed : α → Prop} (reports : setting.Reports fails)
    (asks : setting.neighbours.Asks step failed)
    : Workspace.Tells step failed (Diagnostic.BeforeError fails) := by
  cases asks with
  | importModule name span => exact reports.neighbours.importModule name span
  | addDirectory name span => exact reports.neighbours.addDirectory name span
  | addComponentFile name span => exact reports.neighbours.addComponentFile name span

/-- A check that enters something reports in a state that differs in what is not the workspace. -/
theorem entering (change : BuildState → BuildState) (action : BuildState → Build α)
    (silent : ∀ state, (change state).workspace = state.workspace)
    (reports : ∀ state, (action state).Reports fails setting)
    : Reports
        (do
          let before ← MonadState.get
          MonadStateOf.set (change before)
          action before)
        fails setting := by
  intro before
  have same := congrArg Workspace.diagnostics (silent before)
  rcases reports before (change before) with
    ⟨value, after, gives, quiet⟩ | ⟨after, told, failed, tells, why⟩
  · exact .inl ⟨value, after, gives, quiet.trans same⟩
  · exact .inr ⟨after, told, failed, same ▸ tells, why⟩

end Reports

/-- Every check reports, by induction over how it is made. -/
theorem Made.reports {action : Build α} (made : action.Made setting)
    (reports : setting.Reports fails)
    : action.Reports fails setting := by
  induction made with
  | quiet succeeds => exact .quiet succeeds
  | bindGiven first later ih ihLater => exact ih.bindGiven ihLater
  | explained problem span explains => exact .explained reports problem span explains
  | ask asks rejects later ih => exact .ask _ (Reports.asked reports asks) rejects ih
  | entering change action silent made ih => exact .entering change action silent ih

end Build

/-- The check of a script tells something exactly when it fails. -/
theorem ScriptUnit.build_tells {fails : List Diagnostic → Prop} {builtins : BuiltinTypes}
    {neighbours : Neighbours} (reports : BuildSetting.Reports fails ⟨builtins, neighbours⟩)
    (scriptUnit : ScriptUnit) (symbols : Symbols)
    : Workspace.Tells (scriptUnit.build builtins symbols neighbours) (· = none) fails := by
  intro before
  unfold ScriptUnit.build
  rcases (Build.Made.decls scriptUnit.body).reports reports
      ⟨before, symbols, builtins.globalContext, [], [], 0⟩ with
    ⟨decls, after, gives, same⟩ | ⟨after, told, failed, same, why⟩
  · have outcome : ((Build.decls scriptUnit.body).run ⟨builtins, neighbours⟩).run.run
        ⟨before, symbols, builtins.globalContext, [], [], 0⟩ = (some decls, after) := gives
    simp only [outcome]
    exact ⟨[], by rw [same, List.append_nil], fun _ => rfl, fun none => by cases none⟩
  · have outcome : ((Build.decls scriptUnit.body).run ⟨builtins, neighbours⟩).run.run
        ⟨before, symbols, builtins.globalContext, [], [], 0⟩ = (none, after) := failed
    simp only [outcome]
    exact ⟨told, same, fun some => absurd rfl some, fun _ => why⟩

/-- Whether there is an error among some messages. -/
def Diagnostic.SomeError (told : List Diagnostic) : Prop :=
  ∃ problem ∈ told, problem.severity = Severity.error

/-- Whether some messages are one error and the notes that explain it. -/
def Diagnostic.OneError (told : List Diagnostic) : Prop :=
  ∃ problem notes, told = problem :: notes ∧ problem.severity = Severity.error
    ∧ ∀ note ∈ notes, note.severity = Severity.note

namespace Workspace

variable {α β : Type} {fails : List Diagnostic → Prop} {setting : LoadSetting}
  {neighbours : Neighbours}

-----------------------------------------------------------------------------------------
-- Steps
-----------------------------------------------------------------------------------------

namespace Tells

/-- A step that cannot fail and tells nothing. -/
theorem quiet {step : StateM Workspace α} {failed : α → Prop}
    (silent : ∀ before, (step before).2.diagnostics = before.diagnostics)
    (succeeds : ∀ before, ¬ failed (step before).1)
    : Tells step failed fails :=
  fun before => ⟨[], by rw [silent, List.append_nil], fun _ => rfl,
    fun failed => absurd failed (succeeds before)⟩

/-- A step that tells nothing, whether it fails or not. -/
theorem silent {step : StateM Workspace α} (failed : α → Prop) (why : fails [])
    (silent : ∀ before, (step before).2.diagnostics = before.diagnostics)
    : Tells step failed fails :=
  fun before => ⟨[], by rw [silent, List.append_nil], fun _ => rfl, fun _ => why⟩

/-- A step that only fails. -/
theorem failing {step : StateM Workspace α} {failed : α → Prop} (problem : Diagnostic)
    (tells : ∀ before, (step before).2.diagnostics = before.diagnostics ++ [problem])
    (fail : ∀ before, failed (step before).1) (why : fails [problem])
    : Tells step failed fails :=
  fun before => ⟨[problem], tells before, fun some => absurd (fail before) some, fun _ => why⟩

/-- Two steps in a row, the second of which passes a failure of the first on. -/
theorem bind {step : StateM Workspace β} {next : β → StateM Workspace α} {stopped : β → Prop}
    {failed : α → Prop} (first : Tells step stopped fails)
    (stops : ∀ value, stopped value → ∀ before, failed (next value before).1
      ∧ (next value before).2.diagnostics = before.diagnostics)
    (later : ∀ value, ¬ stopped value → Tells (next value) failed fails)
    : Tells (step >>= next) failed fails := by
  intro before
  obtain ⟨told, same, silent, why⟩ := first before
  have outcome : (step >>= next) before = next (step before).1 (step before).2 := rfl
  rw [outcome]
  by_cases stop : stopped (step before).1
  · obtain ⟨fail, silentToo⟩ := stops _ stop (step before).2
    exact ⟨told, silentToo.trans same, fun some => absurd fail some, fun _ => why stop⟩
  · obtain ⟨more, sameToo, rest⟩ := later _ stop (step before).2
    exact ⟨more, by rw [sameToo, same, silent stop, List.append_nil], rest⟩

/-- A step after one that tells nothing. -/
theorem after {step : StateM Workspace β} {next : β → StateM Workspace α} {failed : α → Prop}
    (silent : ∀ before, (step before).2.diagnostics = before.diagnostics)
    (later : ∀ value, Tells (next value) failed fails)
    : Tells (step >>= next) failed fails :=
  (quiet silent fun _ absurd => absurd : Tells step (fun _ => False) fails).bind
    (fun _ impossible => impossible.elim) fun value _ => later value

theorem weaken {step : StateM Workspace α} {failed : α → Prop} {weaker : List Diagnostic → Prop}
    (tells : Tells step failed fails) (implies : ∀ told, fails told → weaker told)
    : Tells step failed weaker := by
  intro before
  obtain ⟨told, same, silent, why⟩ := tells before
  exact ⟨told, same, silent, fun failed => implies told (why failed)⟩

end Tells

-----------------------------------------------------------------------------------------
-- Files
-----------------------------------------------------------------------------------------

theorem readSource_tells (sources : Sources) (path : String) (span : Span)
    : Tells (readSource sources path span) (· = none) Diagnostic.SomeError := by
  refine .after (fun _ => rfl) fun source? => ?_
  cases source? with
  | none =>
      exact .failing (Diagnostic.error (.sourceNotFound path) span) (fun _ => rfl) (fun _ => rfl)
        ⟨_, .head _, rfl⟩
  | some source => exact .quiet (fun _ => rfl) fun _ none => by cases none

theorem buildSource_tells
    (reports : BuildSetting.Reports Diagnostic.SomeError ⟨setting.builtins, neighbours⟩)
    (path source : String)
    : Tells (buildSource setting neighbours path source) (· = none) Diagnostic.SomeError := by
  unfold buildSource
  split
  · next error _ =>
      exact .failing (Diagnostic.ofSyntaxError error) (fun _ => rfl) (fun _ => rfl)
        ⟨_, .head _, rfl⟩
  · next scriptUnit _ =>
      refine .after (fun _ => rfl) fun _ => ?_
      refine (ScriptUnit.build_tells reports scriptUnit setting.symbols).bind
        (fun built? none before => ⟨none, rfl⟩) fun built? some => ?_
      exact .after (fun _ => rfl) fun _ => .quiet (fun _ => rfl) fun _ => some

theorem buildFile_tells
    (reports : BuildSetting.Reports Diagnostic.SomeError ⟨setting.builtins, neighbours⟩)
    (path : String) (span : Span)
    : Tells (buildFile setting neighbours path span) (· = none) Diagnostic.SomeError := by
  refine (readSource_tells _ _ _).bind ?_ fun source? read => ?_
  · rintro source? rfl before
    exact ⟨rfl, rfl⟩
  · cases source? with
    | none => exact absurd rfl read
    | some source => exact buildSource_tells reports path source

theorem importScript_tells
    (reports : BuildSetting.Reports Diagnostic.SomeError ⟨setting.builtins, neighbours⟩)
    (name : String) (span : Span)
    : Tells (importScript setting neighbours name span) (· = none) Diagnostic.SomeError := by
  refine .after (fun _ => rfl) fun path => .after (fun _ => rfl) fun workspace => ?_
  split
  · exact .failing (Diagnostic.error (.circularImport path) span) (fun _ => rfl) (fun _ => rfl)
      ⟨_, .head _, rfl⟩
  · split
    · exact .quiet (fun _ => rfl) fun _ none => by cases none
    · refine (buildFile_tells reports path span).bind ?_ fun built? built => ?_
      · rintro built? rfl before
        exact ⟨rfl, rfl⟩
      · cases built? with
        | none => exact absurd rfl built
        | some built => exact .quiet (fun _ => rfl) fun _ none => by cases none

-----------------------------------------------------------------------------------------
-- Components and directories
-----------------------------------------------------------------------------------------

theorem buildComponentFile_tells (path : String) (span : Span)
    : Tells (buildComponentFile setting path span) (· = none) fun _ => True := by
  refine ((readSource_tells _ _ _).weaken fun _ _ => trivial).bind ?_ fun source? read => ?_
  · rintro source? rfl before
    exact ⟨rfl, rfl⟩
  · cases source? with
    | none => exact absurd rfl read
    | some source =>
        show Tells (buildComponent setting.builtins path source) _ _
        unfold buildComponent
        split
        · exact .failing _ (fun _ => rfl) (fun _ => rfl) trivial
        · split
          · exact .failing _ (fun _ => rfl) (fun _ => rfl) trivial
          · exact .quiet (fun _ => rfl) fun _ none => by cases none

theorem buildDirectoryScript_tells
    (reports : BuildSetting.Reports Diagnostic.SomeError ⟨setting.builtins, neighbours⟩)
    (path : String) (span : Span)
    : Tells (buildDirectoryScript setting neighbours path span) (· = .failed)
        Diagnostic.SomeError := by
  refine (buildFile_tells reports path span).bind ?_ fun built? built => ?_
  · rintro built? rfl before
    exact ⟨rfl, rfl⟩
  · cases built? with
    | none => exact absurd rfl built
    | some built =>
        dsimp only
        split
        · exact .failing (Diagnostic.error .mainNotFound span) (fun _ => rfl) (fun _ => rfl)
            ⟨_, .head _, rfl⟩
        · exact .quiet (fun _ => rfl) fun _ failed => by cases failed

/-- A directory without any of the known files fails without a message of its own. -/
theorem loadDirectory_tells
    (reports : BuildSetting.Reports Diagnostic.SomeError ⟨setting.builtins, neighbours⟩)
    (name : String) (span : Span)
    : Tells (loadDirectory setting neighbours name span) (· = .failed) fun _ => True := by
  refine .after (fun _ => rfl) fun directory => .after (fun _ => rfl) fun script? => ?_
  split
  · exact (buildDirectoryScript_tells reports _ span).weaken fun _ _ => trivial
  · refine .after (fun _ => rfl) fun declarative? => ?_
    split
    · refine (buildComponentFile_tells _ span).bind ?_ fun creation? built => ?_
      · rintro creation? rfl before
        exact ⟨rfl, rfl⟩
      · cases creation? with
        | none => exact absurd rfl built
        | some creation => exact .quiet (fun _ => rfl) fun _ failed => by cases failed
    · refine .after (fun _ => rfl) fun listfile? => ?_
      split
      · exact .quiet (fun _ => rfl) fun _ failed => by cases failed
      · exact .silent _ trivial fun _ => rfl

-----------------------------------------------------------------------------------------
-- Programs
-----------------------------------------------------------------------------------------

/-- However deep scripts may lead to each other, their neighbours tell nothing unless they fail, by
induction over the depth.
-/
theorem neighboursWithin_reports (setting : LoadSetting) (depth : Nat)
    : BuildSetting.Reports Diagnostic.SomeError
        ⟨setting.builtins, neighboursWithin setting depth⟩ := by
  have any (told : List Diagnostic) : Diagnostic.BeforeError Diagnostic.SomeError told :=
    fun problem span => ⟨_, List.mem_append_right _ (.head _), rfl⟩
  refine ⟨fun problem span notes _ => ⟨_, .head _, rfl⟩, ?_⟩
  induction depth with
  | zero =>
      exact ⟨fun name span => .silent _ (any []) fun _ => rfl,
        fun name span => .silent _ (any []) fun _ => rfl,
        fun name span => .silent _ (any []) fun _ => rfl⟩
  | succ depth reports =>
      have reports : BuildSetting.Reports Diagnostic.SomeError
          ⟨setting.builtins, neighboursWithin setting depth⟩ :=
        ⟨fun problem span notes _ => ⟨_, .head _, rfl⟩, reports⟩
      exact ⟨fun name span => (importScript_tells reports name span).weaken fun told _ => any told,
        fun name span => (loadDirectory_tells reports name span).weaken fun told _ => any told,
        fun name span => .after (fun _ => rfl) fun path =>
          (buildComponentFile_tells path span).weaken fun told _ => any told⟩

end Workspace

namespace Session

/-- A script is made a program, unless it has no function called `main`. -/
theorem finish_tells (builtins : BuiltinTypes) (built : BuiltScript)
    : Workspace.Tells (finish builtins built) (· = none) Diagnostic.SomeError := by
  unfold finish
  split
  · exact .failing (Diagnostic.error .mainNotFound built.scriptUnit.span) (fun _ => rfl)
      (fun _ => rfl) ⟨_, .head _, rfl⟩
  · exact .quiet (fun _ => rfl) fun _ none => by cases none

theorem build_tells (session : Session) (nesting : Nat) (path source : String)
    : Workspace.Tells (session.build nesting path source) (· = none) Diagnostic.SomeError := by
  refine (Workspace.buildSource_tells
    (Workspace.neighboursWithin_reports session.loadSetting nesting) path source).bind ?_
    fun built? checked => ?_
  · rintro built? rfl before
    exact ⟨rfl, rfl⟩
  · cases built? with
    | none => exact absurd rfl checked
    | some built => exact finish_tells _ built

/-- A compilation in a session reports when it gives a program exactly if it has added no message,
and none exactly if it has added at least one error.
-/
def Reports (session : Session) (outcome : Option Program × Session) : Prop :=
  ∃ added, outcome.2.diagnostics = session.diagnostics ++ added
    ∧ (outcome.1.isSome ↔ added = []) ∧ (outcome.1 = none ↔ Diagnostic.SomeError added)

/-- A compilation that gives nothing and adds no message does not report. -/
theorem not_reports_of_silent {session : Session} {outcome : Option Program × Session}
    (none : outcome.1 = none) (silent : outcome.2.diagnostics = session.diagnostics)
    : ¬ session.Reports outcome := by
  rintro ⟨added, same, some, -⟩
  have nothing : added = [] := List.append_right_eq_self.mp (same.symm.trans silent)
  rw [none] at some
  cases some.mpr nothing

/-- (Answers session outcome) says that a compilation in a session reports if it comes to an end,
and that it gives nothing and adds no message if scripts lead to each other without end.
-/
structure Answers (session : Session) (outcome : Option Program × Session) : Prop where
  ended : outcome.2.exhausted = false → session.Reports outcome
  endless : outcome.2.exhausted = true →
    outcome.1 = none ∧ outcome.2.diagnostics = session.diagnostics

theorem compileWithin_answers (session : Session) (nesting : Nat) (path source : String)
    : session.Answers (compileWithin nesting path source session) := by
  obtain ⟨added, same, silent, why⟩ :=
    build_tells session nesting path source (session.workspace path source)
  rw [compileWithin_eq]
  refine ⟨fun ended => ?_, fun endless => ⟨if_pos endless, if_pos endless⟩⟩
  dsimp only at ended silent why ⊢
  rw [ended, if_neg Bool.false_ne_true, if_neg Bool.false_ne_true]
  refine ⟨added, same, ?_⟩
  dsimp only
  have nothing {told : List Diagnostic} (error : Diagnostic.SomeError told) : told ≠ [] := by
    rintro rfl
    obtain ⟨problem, among, _⟩ := error
    cases among
  cases outcome : (session.build nesting path source (session.workspace path source)).1 with
  | none =>
      exact ⟨⟨fun some => (by cases some), fun silent => absurd silent (nothing (why outcome))⟩,
        fun _ => why outcome, fun _ => rfl⟩
  | some program =>
      have quiet : added = [] := silent (by rw [outcome]; exact Option.some_ne_none program)
      exact ⟨⟨fun _ => quiet, fun _ => rfl⟩, fun none => (by cases none),
        fun error => absurd quiet (nothing error)⟩

theorem compileSource_answers (session : Session) (source : String)
    : session.Answers (compileSource source session) :=
  compileWithin_answers session _ _ source

theorem compileFile_answers (session : Session) (name : String)
    : session.Answers (compileFile name session) := by
  rw [compileFile_eq]
  dsimp only
  split
  · next source _ =>
      let path := Path.normalize (Path.join session.config.sourceRoot name)
      have looked := compileWithin_answers
        { session with consulted := path :: session.consulted, exhausted := false }
        nestingLimit path source
      exact ⟨looked.ended, looked.endless⟩
  · refine ⟨fun _ => ⟨[Diagnostic.error (.sourceNotFound _) Span.unknown], rfl, ?_, ?_⟩,
      fun endless => by cases endless⟩
    · exact ⟨fun some => (by cases some), fun silent => (by cases silent)⟩
    · exact ⟨fun _ => ⟨_, .head _, rfl⟩, fun _ => rfl⟩

end Session

/-- Scripts without neighbours tell one error when they fail. -/
theorem Neighbours.none_reports (builtins : BuiltinTypes)
    : BuildSetting.Reports Diagnostic.OneError ⟨builtins, Neighbours.none⟩ := by
  have one : Diagnostic.BeforeError Diagnostic.OneError [] :=
    fun problem span => ⟨_, [], rfl, rfl, fun _ absent => by cases absent⟩
  exact ⟨fun problem span notes all => ⟨_, notes, rfl, rfl, all⟩,
    fun _ _ => .silent _ one fun _ => rfl, fun _ _ => .silent _ one fun _ => rfl,
    fun _ _ => .silent _ one fun _ => rfl⟩

/-- A script is checked without a message, or it is refused with one error and the notes that
explain it, and whatever files there are, a compilation that comes to an end gives a program exactly
when it adds no message, and none exactly when it adds an error.
-/
theorem refused_iff_reported (session : Session)
    : (∀ (scriptUnit : ScriptUnit) (builtins : BuiltinTypes) (symbols : Symbols)
        (workspace : Workspace),
        ((scriptUnit.build builtins symbols Neighbours.none workspace).1.isSome
            ∧ (scriptUnit.build builtins symbols Neighbours.none workspace).2.diagnostics
              = workspace.diagnostics)
          ∨ ((scriptUnit.build builtins symbols Neighbours.none workspace).1 = none
            ∧ ∃ added, (scriptUnit.build builtins symbols Neighbours.none workspace).2.diagnostics
                = workspace.diagnostics ++ added ∧ Diagnostic.OneError added))
      ∧ (∀ source, session.Answers (Session.compileSource source session))
      ∧ ∀ name, session.Answers (Session.compileFile name session) := by
  refine ⟨fun scriptUnit builtins symbols workspace => ?_, session.compileSource_answers,
    session.compileFile_answers⟩
  obtain ⟨told, same, silent, why⟩ :=
    ScriptUnit.build_tells (Neighbours.none_reports builtins) scriptUnit symbols workspace
  by_cases failed : (scriptUnit.build builtins symbols Neighbours.none workspace).1 = none
  · exact .inr ⟨failed, told, same, why failed⟩
  · exact .inl ⟨Option.isSome_iff_ne_none.mpr failed, by rw [same, silent failed, List.append_nil]⟩

/-- Witness: a text without a function `main` is refused, and one with it becomes a program. -/
theorem refused_iff_reported_main
    : let session := Session.start Config.standard fun _ => none
      let refused := Session.compileSource "int one() \x7b return 1; \x7d" session
      let accepted := Session.compileSource "int main() \x7b return 1; \x7d" session
      refused.1 = none ∧ refused.2.exhausted = false ∧ session.Reports refused
        ∧ accepted.1.isSome ∧ accepted.2.exhausted = false ∧ session.Reports accepted := by
  intro session refused accepted
  have ends : refused.1.isNone ∧ refused.2.exhausted = false
      ∧ accepted.1.isSome ∧ accepted.2.exhausted = false := by
    decide +kernel
  obtain ⟨none, refusedEnds, some, acceptedEnds⟩ := ends
  have answers := (refused_iff_reported session).2.1
  exact ⟨Option.isNone_iff_eq_none.mp none, refusedEnds, (answers _).ended refusedEnds, some,
    acceptedEnds, (answers _).ended acceptedEnds⟩

/-- It is not so that every compilation of a file gives a program or adds an error. That of the
script that adds its own directory does neither, however deep scripts may lead to each other.
-/
theorem not_refused_iff_reported
    : (∀ nesting, ¬ Session.selfContaining.Reports (Session.compileWithin nesting
          "CMakeLists.cmsl" Session.selfContainingText Session.selfContaining))
      ∧ ¬ ∀ (session : Session) (name : String),
        session.Reports (Session.compileFile name session) := by
  have endless (session : Session) (config : session.config = Session.selfContaining.config)
      (sources : session.sources = Session.selfContaining.sources) (nesting : Nat)
      : ¬ session.Reports (Session.compileWithin nesting "CMakeLists.cmsl"
          Session.selfContainingText session) := by
    have circles : session.loadSetting.Circles ["CMakeLists.cmsl"] := by
      rw [Session.loadSetting, config, sources]
      exact Session.selfContaining_circles
    obtain ⟨after, outcome, -, silent, -⟩ := Session.compileWithin_endless circles (.head _)
      (by rw [sources]; exact Session.selfContaining_found) nesting
    rw [outcome]
    exact Session.not_reports_of_silent rfl silent
  refine ⟨endless _ rfl rfl, fun reports => ?_⟩
  have reported := reports Session.selfContaining "CMakeLists.cmsl"
  have path : Path.normalize (Path.join Session.selfContaining.config.sourceRoot "CMakeLists.cmsl")
      = "CMakeLists.cmsl" := by
    decide +kernel
  rw [Session.compileFile_eq] at reported
  dsimp only at reported
  rw [path, Session.selfContaining_found] at reported
  exact endless { Session.selfContaining with
    consulted := "CMakeLists.cmsl" :: Session.selfContaining.consulted
    exhausted := false } rfl rfl _ reported

end BuildScript
