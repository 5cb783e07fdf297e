import BuildScript.Proofs.Accepted
import BuildScript.Proofs.Syntax.Grammar
import BuildScript.Proofs.Typed.DeclLawfulness

/-! What scripts load keeps every law of declarations, however deep they lead to each other. So a
law relates the workspace before the first script of an accepted program to the one after it.
-/

namespace BuildScript

/-- The settings of a compilation begin with a basis when they have its types and names. -/
structure LoadSetting.Begins (setting : LoadSetting) (basis : Prelude) : Prop where
  builtins : setting.builtins = basis.builtins
  symbols : setting.symbols = basis.symbols

namespace Workspace

variable {basis : Prelude} {law : DeclLaw basis} {setting : LoadSetting}
  {neighbours : Neighbours} {before middle after : Workspace}

-----------------------------------------------------------------------------------------
-- Steps
-----------------------------------------------------------------------------------------

section Steps

variable {α β : Type} {value : α}

theorem step_pure {given : α}
    : (pure given : StateM Workspace α) before = (value, after) ↔
        value = given ∧ after = before := by
  constructor
  · intro outcome
    cases outcome
    exact ⟨rfl, rfl⟩
  · rintro ⟨rfl, rfl⟩
    rfl

/-- Two steps in a row run one after the other. -/
theorem step_bind {step : StateM Workspace β} {next : β → StateM Workspace α}
    : (step >>= next) before = (value, after) ↔
        ∃ first middle, step before = (first, middle) ∧ next first middle = (value, after) := by
  constructor
  · exact fun outcome => ⟨_, _, rfl, outcome⟩
  · rintro ⟨first, middle, start, rest⟩
    show next (step before).1 (step before).2 = (value, after)
    rw [start]
    exact rest

theorem step_get {state : Workspace}
    : (get : StateM Workspace Workspace) before = (state, after) ↔
        state = before ∧ after = before := by
  constructor
  · intro outcome
    cases outcome
    exact ⟨rfl, rfl⟩
  · rintro ⟨rfl, rfl⟩
    rfl

theorem step_modify {change : Workspace → Workspace} {value : Unit}
    : (modify change : StateM Workspace Unit) before = (value, after) ↔ after = change before := by
  constructor
  · intro outcome
    cases outcome
    rfl
  · rintro rfl
    rfl

end Steps

-----------------------------------------------------------------------------------------
-- Scripts
-----------------------------------------------------------------------------------------

/-- What is loaded may be preceded by other steps. -/
theorem Builds.thenBuilds {built : BuiltScript} (first : before.Advances basis law.load middle)
    (builds : middle.Builds law built after)
    : before.Builds law built after :=
  ⟨⟨law.loadThenLoads first.related builds.loads.related, first.grows.trans builds.loads.grows,
    fun closed => builds.loads.closed (first.closed closed)⟩, builds.exports, builds.main,
    builds.admits⟩

/-- Looking a file up changes neither the registry nor the modules. -/
theorem consult_advances {sources : Sources} {path : String} {source? : Option String}
    (read : consult sources path before = (source?, after))
    : before.Advances basis law.load after := by
  obtain ⟨_, _, noted, given⟩ := step_bind.mp read
  obtain rfl := step_modify.mp noted
  obtain ⟨rfl, rfl⟩ := step_pure.mp given
  exact .quiet rfl rfl rfl

theorem readSource_advances {sources : Sources} {path : String} {span : Span} {source : String}
    (read : readSource sources path span before = (some source, after))
    : before.Advances basis law.load after := by
  obtain ⟨source?, _, consulted, rest⟩ := step_bind.mp read
  have looked : before.Advances basis law.load _ := consult_advances consulted
  cases source? with
  | none => exact nomatch rest
  | some text =>
      obtain ⟨_, _, noted, given⟩ := step_bind.mp rest
      obtain rfl := step_modify.mp noted
      obtain ⟨_, rfl⟩ := step_pure.mp given
      exact looked.trans (.quiet rfl rfl rfl)

theorem resolve_advances {config : Config} {name path : String}
    (resolved : resolve config name before = (path, after))
    : before.Advances basis law.load after := by
  cases resolved
  exact .quiet rfl rfl rfl

theorem buildSource_builds (begins : setting.Begins basis) (obey : neighbours.Obey basis law.load)
    {path source : String} (closed : before.Closed basis) {built : BuiltScript}
    (gives : buildSource setting neighbours path source before = (some built, after))
    : before.Builds law built after := by
  unfold buildSource at gives
  cases parsed : ScriptUnit.ofSource source path with
  | error error =>
      rw [parsed] at gives
      exact nomatch gives
  | ok scriptUnit =>
      rw [parsed] at gives
      obtain ⟨_, _, entered, rest⟩ := step_bind.mp gives
      obtain rfl := step_modify.mp entered
      obtain ⟨built?, finished, outcome, rest⟩ := step_bind.mp rest
      obtain ⟨_, _, left, given⟩ := step_bind.mp rest
      obtain rfl := step_modify.mp left
      obtain ⟨rfl, rfl⟩ := step_pure.mp given
      rw [begins.builtins, begins.symbols] at outcome
      have entered : before.Advances basis law.load
          { before with inProgress := path :: before.inProgress } := .quiet rfl rfl rfl
      have left : finished.Advances basis law.load
          { finished with inProgress := finished.inProgress.tail } := .quiet rfl rfl rfl
      have checked := Builds.thenBuilds entered (ScriptUnit.build_loads law obey
        (ScriptUnit.ofSource_wellFormed parsed) (entered.closed closed) outcome)
      exact ⟨⟨law.loadsThenLoad checked.loads.related left.related, checked.loads.grows,
        fun closed => left.closed (checked.loads.closed closed)⟩, checked.exports, checked.main,
        checked.admits⟩

theorem buildFile_builds (begins : setting.Begins basis) (obey : neighbours.Obey basis law.load)
    {path : String} {span : Span} (closed : before.Closed basis) {built : BuiltScript}
    (gives : buildFile setting neighbours path span before = (some built, after))
    : before.Builds law built after := by
  obtain ⟨source?, _, outcome, rest⟩ := step_bind.mp gives
  cases source? with
  | none => exact nomatch rest
  | some source =>
      have read : before.Advances basis law.load _ := readSource_advances outcome
      exact .thenBuilds read (buildSource_builds begins obey (read.closed closed) rest)

/-- A script becomes a module when it is finished. -/
theorem Builds.finished {built : BuiltScript} (builds : before.Builds law built after)
    (path : String)
    : before.Advances basis law.load
        { after with modules := after.modules ++ [⟨path, built.scriptUnit⟩] } :=
  ⟨law.finished builds.loads.related builds.admits, builds.loads.grows, fun closed =>
    have known := builds.loads.closed closed
    ⟨known.registry, known.provides, known.begins, known.imports⟩⟩

/-- What a script exports may be kept, since it is known. -/
theorem Builds.imported {built : BuiltScript} (builds : before.Builds law built after)
    (path : String)
    : before.Advances basis law.load
        { after with
          imports := (path, built.exports) :: after.imports
          modules := after.modules ++ [⟨path, built.scriptUnit⟩] } := by
  have finished := builds.finished path
  refine ⟨law.loadTrans finished.related (law.quiet rfl rfl), builds.loads.grows,
    fun closed => ?_⟩
  have known := finished.closed closed
  refine ⟨known.registry, known.provides, known.begins, fun exported among => ?_⟩
  rcases List.mem_cons.mp among with rfl | old
  · exact builds.exports
  · exact known.imports exported old

theorem importScript_advances (begins : setting.Begins basis)
    (obey : neighbours.Obey basis law.load) {name : String} {span : Span} {symbols : Symbols}
    (closed : before.Closed basis)
    (gives : importScript setting neighbours name span before = (some symbols, after))
    : before.Advances basis law.load after ∧ symbols.Closed after.registry := by
  obtain ⟨path, _, resolved, rest⟩ := step_bind.mp gives
  have found : before.Advances basis law.load _ := resolve_advances resolved
  obtain ⟨_, workspace, read, asked⟩ := step_bind.mp rest
  obtain ⟨rfl, rfl⟩ := step_get.mp read
  split at asked
  · exact nomatch asked
  cases known : workspace.imports.find? fun known => Path.same path known.1 with
  | some exported =>
      rw [known] at asked
      cases asked
      exact ⟨found, (found.closed closed).imports exported (List.mem_of_find?_eq_some known)⟩
  | none =>
      rw [known] at asked
      obtain ⟨built?, _, outcome, last⟩ := step_bind.mp asked
      cases built? with
      | none => exact nomatch last
      | some built =>
          cases last
          have builds := buildFile_builds begins obey (found.closed closed) outcome
          exact ⟨found.trans (builds.imported path), builds.exports⟩

-----------------------------------------------------------------------------------------
-- Components and directories
-----------------------------------------------------------------------------------------

/-- The function that makes a component has no parameters. -/
theorem buildComponent_advances {path source : String} {creation : FunctionId}
    (gives : buildComponent basis.builtins path source before = (some creation, after))
    : before.Advances basis law.load after ∧ after.registry.HasArity creation 0 := by
  unfold buildComponent at gives
  cases parsed : ComponentDecl.ofSource source path with
  | error error =>
      rw [parsed] at gives
      exact nomatch gives
  | ok decl =>
      rw [parsed] at gives
      dsimp only at gives
      cases checked : Component.check decl with
      | error diagnostic =>
          rw [checked] at gives
          exact nomatch gives
      | ok component =>
          rw [checked] at gives
          cases gives
          refine ⟨.ofStep (.component component), Registry.knowsFunction_addFunction _ _, ?_⟩
          exact congrArg (·.params.length)
            ((Registry.function_addFunction _ _ _).trans (if_pos rfl))

theorem buildComponentFile_advances (begins : setting.Begins basis) {path : String} {span : Span}
    {creation : FunctionId}
    (gives : buildComponentFile setting path span before = (some creation, after))
    : before.Advances basis law.load after ∧ after.registry.HasArity creation 0 := by
  obtain ⟨source?, _, outcome, rest⟩ := step_bind.mp gives
  cases source? with
  | none => exact nomatch rest
  | some source =>
      rw [begins.builtins] at rest
      obtain ⟨advances, arity⟩ := buildComponent_advances rest
      exact ⟨(readSource_advances outcome).trans advances, arity⟩

theorem buildDirectoryScript_advances (begins : setting.Begins basis)
    (obey : neighbours.Obey basis law.load) {path : String} {span : Span}
    {content : DirectoryContent} (closed : before.Closed basis)
    (gives : buildDirectoryScript setting neighbours path span before = (content, after))
    (succeeded : content ≠ .failed)
    : before.Advances basis law.load after ∧ content.Known after.registry := by
  obtain ⟨built?, _, outcome, rest⟩ := step_bind.mp gives
  cases built? with
  | none =>
      obtain ⟨rfl, _⟩ := step_pure.mp rest
      exact absurd rfl succeeded
  | some built =>
      dsimp only at rest
      cases called : built.main? with
      | none =>
          rw [called] at rest
          cases rest
          exact absurd rfl succeeded
      | some main =>
          rw [called] at rest
          cases rest
          have builds := buildFile_builds begins obey closed outcome
          exact ⟨builds.finished path, (builds.main main called).known⟩

theorem loadDirectory_advances (begins : setting.Begins basis)
    (obey : neighbours.Obey basis law.load) {name : String} {span : Span}
    {content : DirectoryContent} (closed : before.Closed basis)
    (gives : loadDirectory setting neighbours name span before = (content, after))
    (succeeded : content ≠ .failed)
    : before.Advances basis law.load after ∧ content.Known after.registry := by
  obtain ⟨directory, _, resolved, rest⟩ := step_bind.mp gives
  obtain ⟨script?, _, first, rest⟩ := step_bind.mp rest
  have start : before.Advances basis law.load _ :=
    (resolve_advances resolved).trans (consult_advances first)
  split at rest
  · obtain ⟨loads, known⟩ := buildDirectoryScript_advances begins obey (start.closed closed) rest
      succeeded
    exact ⟨start.trans loads, known⟩
  obtain ⟨declarative?, _, second, rest⟩ := step_bind.mp rest
  have start := start.trans (consult_advances second)
  split at rest
  · obtain ⟨creation?, _, outcome, rest⟩ := step_bind.mp rest
    cases creation? with
    | none =>
        obtain ⟨rfl, _⟩ := step_pure.mp rest
        exact absurd rfl succeeded
    | some creation =>
        obtain ⟨rfl, rfl⟩ := step_pure.mp rest
        obtain ⟨advances, arity⟩ := buildComponentFile_advances begins outcome
        exact ⟨start.trans advances, arity⟩
  obtain ⟨listfile?, _, third, rest⟩ := step_bind.mp rest
  have start := start.trans (consult_advances third)
  split at rest
  · obtain ⟨rfl, rfl⟩ := step_pure.mp rest
    exact ⟨start, trivial⟩
  · obtain ⟨rfl, _⟩ := step_pure.mp rest
    exact absurd rfl succeeded

-----------------------------------------------------------------------------------------
-- Programs
-----------------------------------------------------------------------------------------

/-- However deep scripts may lead to each other, what they load obeys the law, by induction over
the depth.
-/
theorem neighboursWithin_obey (begins : setting.Begins basis) (depth : Nat)
    : (neighboursWithin setting depth).Obey basis law.load := by
  induction depth with
  | zero =>
      constructor
      · intro _ _ _ _ _ _ impossible
        exact nomatch impossible
      · intro _ _ _ _ _ _ failed succeeded
        cases failed
        exact absurd rfl succeeded
      · intro _ _ _ _ _ _ impossible
        exact nomatch impossible
  | succ depth obey =>
      constructor
      · exact importScript_advances begins obey
      · exact loadDirectory_advances begins obey
      · intro name span before creation after _ outcome
        obtain ⟨path, _, resolved, built⟩ := step_bind.mp outcome
        obtain ⟨advances, arity⟩ := buildComponentFile_advances begins built
        exact ⟨(resolve_advances resolved).trans advances, arity⟩

end Workspace

set_option maxRecDepth 100000 in
/-- The provided registry has no loose ends and has the builtins, and the provided names mean
provided types and functions.
-/
theorem Prelude.standard_closed
    : Prelude.standard.registry.Closed
      ∧ Prelude.standard.registry.Provides Prelude.standard.builtins
      ∧ Prelude.standard.symbols.Closed Prelude.standard.registry := by
  refine ⟨Registry.closed_of_isClosed (by decide +kernel), ?provides,
    ScopeTable.holds_of_all (by decide +kernel), ScopeTable.holdsNamed_of_all (by decide +kernel),
    ScopeTable.holds_of_all (by decide +kernel), ScopeTable.holds_of_all (by decide +kernel)⟩
  case provides =>
    unfold Registry.Provides
    decide +kernel

set_option maxRecDepth 100000 in
/-- The provided functions have no bodies. -/
theorem Prelude.standard_builtin
    : Prelude.standard.registry.functions.toList.all (·.isBuiltin) = true := by
  decide +kernel

namespace Session

/-- What stays the same while a session compiles. -/
def loadSetting (session : Session) : LoadSetting :=
  ⟨session.config, session.sources, Prelude.standard.builtins, Prelude.standard.symbols⟩

/-- The workspace in which a session begins to compile a text. -/
def workspace (session : Session) (path source : String) : Workspace :=
  { Workspace.ofRegistry Prelude.standard.registry with
    diagnostics := session.diagnostics
    texts := (path, source) :: session.texts
    consulted := session.consulted }

/-- What a session does to compile a text. -/
def build (session : Session) (nesting : Nat) (path source : String)
    : StateM Workspace (Option Program) := do
  match ← Workspace.buildSource session.loadSetting
    (Workspace.neighboursWithin session.loadSetting nesting) path source with
  | none => return none
  | some built => finish Prelude.standard.builtins built

/-- The program of a text is what it is built to, and the session keeps the messages, unless scripts
led to each other without end.
-/
theorem compileWithin_eq (nesting : Nat) (path source : String) (session : Session)
    : compileWithin nesting path source session =
        let given := session.build nesting path source (session.workspace path source)
        (if given.2.exhausted then none else given.1, { session with
          diagnostics := if given.2.exhausted then session.diagnostics else given.2.diagnostics
          texts := given.2.texts
          consulted := given.2.consulted
          exhausted := given.2.exhausted }) :=
  rfl

/-- (Builds session nesting path source built after) says that a session builds a script from a
text, which need not have a function called `main`, and leaves the workspace `after`.
-/
def Builds (session : Session) (nesting : Nat) (path source : String) (built : BuiltScript)
    (after : Workspace) : Prop :=
  Workspace.buildSource session.loadSetting
    (Workspace.neighboursWithin session.loadSetting nesting) path source
    (session.workspace path source) = (some built, after)

/-- The program of a text is made of the script that the session builds from it. -/
theorem exists_builds {nesting : Nat} {path source : String} {session : Session}
    {program : Program} (compiled : (compileWithin nesting path source session).1 = some program)
    : ∃ built after, session.Builds nesting path source built after
        ∧ built.main? = some program.main
        ∧ program = ⟨after.registry, Prelude.standard.builtins, after.modules, built.scriptUnit,
            program.main⟩ := by
  rw [compileWithin_eq] at compiled
  dsimp only at compiled
  split at compiled
  · cases compiled
  obtain ⟨built?, after, outcome, rest⟩ := Workspace.step_bind.mp (Prod.ext compiled rfl)
  cases built? with
  | none => cases rest
  | some built =>
      dsimp only [Session.finish] at rest
      cases called : built.main? with
      | none =>
          rw [called] at rest
          cases rest
      | some main =>
          rw [called] at rest
          cases rest
          exact ⟨built, _, outcome, called, rfl⟩

/-- A session begins with the provided types, so what it builds keeps every law. -/
theorem Builds.lawful {session : Session} {nesting : Nat} {path source : String}
    {built : BuiltScript} {after : Workspace}
    (builds : session.Builds nesting path source built after) (law : DeclLaw Prelude.standard)
    : (session.workspace path source).Builds law built after ∧ after.Closed Prelude.standard := by
  obtain ⟨noLooseEnds, provides, known⟩ := Prelude.standard_closed
  have closed : (session.workspace path source).Closed Prelude.standard :=
    ⟨noLooseEnds, provides, known, fun _ absent => absurd absent List.not_mem_nil⟩
  have begins : session.loadSetting.Begins Prelude.standard := ⟨rfl, rfl⟩
  have obey : (Workspace.neighboursWithin session.loadSetting nesting).Obey Prelude.standard
      law.load :=
    Workspace.neighboursWithin_obey begins nesting
  have lawful := Workspace.buildSource_builds begins obey closed builds
  exact ⟨lawful, lawful.loads.closed closed⟩

end Session

/-- A law that begins with the provided names relates the workspace with the provided types and no
modules to a workspace with the registry and the modules of an accepted program, and what was
declared besides the modules are the types of the program's script.
-/
theorem Program.Accepted.loads {program : Program} (accepted : program.Accepted)
    (law : DeclLaw Prelude.standard)
    : ∃ before after : Workspace,
        before.registry = Prelude.standard.registry ∧ before.modules = []
        ∧ law.loads before program.scriptUnit.types after ∧ after.Closed Prelude.standard
        ∧ program.registry = after.registry ∧ program.modules = after.modules
        ∧ program.builtins = Prelude.standard.builtins := by
  obtain ⟨nesting, path, source, session, compiled⟩ := accepted
  obtain ⟨built, after, builds, _, same⟩ := Session.exists_builds compiled
  obtain ⟨lawful, closed⟩ := builds.lawful law
  rw [same]
  exact ⟨session.workspace path source, after, rfl, rfl, lawful.loads.related, closed, rfl, rfl,
    rfl⟩

end BuildScript
