import BuildScript.Proofs.Path.Normalization
import BuildScript.Proofs.Typed.Making
import BuildScript.Proofs.Workspace.Loading

/-! Laws of workspaces. Whether or not it succeeds, whatever is loaded is put together from a few
changes of the workspace. So a law that these keep relates the workspaces before and after any
check, and before and after anything that neighbours are asked for.
-/

namespace BuildScript

namespace Workspace

/-- The workspace in which the checks of a script begin. -/
def entering (workspace : Workspace) (path : String) : Workspace :=
  { workspace with inProgress := path :: workspace.inProgress }

/-- The workspace after the checks of a script. -/
def leaving (workspace : Workspace) : Workspace :=
  { workspace with inProgress := workspace.inProgress.tail }

/-- The workspace after the import of a script. -/
def importing (workspace : Workspace) (path : String) (exports : Symbols) : Workspace :=
  { workspace with imports := (path, exports) :: workspace.imports }

/-- The steps to the scripts that were imported, newest first. -/
def importedSteps (workspace : Workspace) : List (List Path.Component) :=
  workspace.imports.map fun entry => Path.components entry.1

/-- The steps to the scripts that are being checked, innermost first. -/
def openSteps (workspace : Workspace) : List (List Path.Component) :=
  workspace.inProgress.map Path.components

/-- (meant config name workspace) is the path that a script means by a name, as it is spelled. -/
def meant (config : Config) (name : String) (workspace : Workspace) : String :=
  Path.join (currentDirectory config workspace).1 name

/-- A path is new when its steps lead somewhere, and neither to a script that was imported nor to
one that is being checked.
-/
structure IsNew (workspace : Workspace) (path : String) : Prop where
  canonical : Path.IsCanonical (Path.components path)
  unknown : Path.components path ∉ workspace.importedSteps
  closed : Path.components path ∉ workspace.openSteps

/-- (Imports setting neighbours path span before exports? after) says how a script is imported: not
at all while it is being checked, at once if it was imported before, and otherwise by checking it.
-/
inductive Imports (setting : LoadSetting) (neighbours : Neighbours) (path : String) (span : Span)
    (before : Workspace) : Option Symbols → Workspace → Prop
  | refused (inside : Path.components path ∈ before.openSteps)
    : Imports setting neighbours path span before none
        (reportError (.circularImport path) span before).2
  | known {entry} (closed : Path.components path ∉ before.openSteps)
    (among : entry ∈ before.imports) (same : Path.components path = Path.components entry.1)
    : Imports setting neighbours path span before (some entry.2) before
  | failed {after} (isNew : before.IsNew path)
    (fails : buildFile setting neighbours path span before = (none, after))
    : Imports setting neighbours path span before none after
  | checked {built after} (isNew : before.IsNew path)
    (gives : buildFile setting neighbours path span before = (some built, after))
    : Imports setting neighbours path span before (some built.exports)
        (addModule path built (after.importing path built.exports)).2

end Workspace

/-- A law is a relation between workspaces that loading keeps. The first four changes are all that
checks and files make. A script that was checked is left, and it may be imported if it is new.
-/
structure WorkspaceLaw (sources : Sources) where
  related : Workspace → Workspace → Prop
  trans : ∀ {before middle after}, related before middle → related middle after →
    related before after
  quiet : ∀ {before after : Workspace}, after.diagnostics = before.diagnostics →
    after.texts = before.texts → after.imports = before.imports →
    after.inProgress = before.inProgress → related before after
  told : ∀ (before : Workspace) told,
    related before { before with diagnostics := before.diagnostics ++ told }
  read : ∀ (before : Workspace) {path text}, sources path = some text →
    related before { before with texts := (path, text) :: before.texts }
  left : ∀ {before path after}, related (before.entering path) after →
    related before after.leaving
  imported : ∀ {before path after exports}, related (before.entering path) after →
    before.IsNew path → related before (after.leaving.importing path exports)

variable {sources : Sources}

/-- A step of a compilation keeps a law when the law relates the workspaces before and after it. -/
def WorkspaceLaw.Keeps {α : Type} (law : WorkspaceLaw sources) (step : StateM Workspace α) : Prop :=
  ∀ before, law.related before (step before).2

/-- Neighbours keep a law, whichever of them is asked. -/
def Neighbours.Keep (neighbours : Neighbours) (law : WorkspaceLaw sources) : Prop :=
  ∀ {α : Type} {step : StateM Workspace α} {failed : α → Prop},
    neighbours.Asks step failed → law.Keeps step

namespace WorkspaceLaw

variable {α β : Type} {law : WorkspaceLaw sources}

theorem refl (law : WorkspaceLaw sources) (workspace : Workspace)
    : law.related workspace workspace :=
  law.quiet rfl rfl rfl rfl

namespace Keeps

/-- A step that is of no concern to laws. -/
theorem quiet {step : StateM Workspace α}
    (same : ∀ before,
      (step before).2.diagnostics = before.diagnostics ∧ (step before).2.texts = before.texts
      ∧ (step before).2.imports = before.imports
      ∧ (step before).2.inProgress = before.inProgress)
    : law.Keeps step :=
  fun before => law.quiet (same before).1 (same before).2.1 (same before).2.2.1 (same before).2.2.2

theorem pure (value : α) : law.Keeps (Pure.pure value) := fun before => law.refl before

theorem bind {step : StateM Workspace β} {next : β → StateM Workspace α} (first : law.Keeps step)
    (later : ∀ value, law.Keeps (next value))
    : law.Keeps (step >>= next) :=
  fun before => law.trans (first before) (later _ _)

theorem report (diagnostic : Diagnostic) : law.Keeps (Workspace.report diagnostic) :=
  fun before => law.told before [diagnostic]

end Keeps

end WorkspaceLaw

variable {law : WorkspaceLaw sources}

-----------------------------------------------------------------------------------------
-- Checks
-----------------------------------------------------------------------------------------

/-- Every check keeps a law when its neighbours do, by induction over how it is made. -/
theorem Build.Made.keeps {α : Type} {setting : BuildSetting} {action : Build α}
    (made : action.Made setting) (keep : setting.neighbours.Keep law) (before : BuildState)
    : law.related before.workspace (action setting before).2.workspace := by
  induction made generalizing before with
  | quiet succeeds =>
      obtain ⟨value, after, gives, same⟩ := succeeds before
      rw [gives, same]
      exact law.quiet rfl rfl rfl rfl
  | @bindGiven α β action next first later ih ihLater =>
      have start := ih before
      cases outcome : action setting before with
      | mk value? middle =>
          rw [outcome] at start
          cases value? with
          | none =>
              rw [bind_none outcome]
              exact start
          | some value =>
              rw [bind_some outcome]
              exact law.trans start (ihLater value ⟨before, middle, outcome⟩ middle)
  | explained problem span explains =>
      have start := law.told before.workspace [Diagnostic.error problem span]
      obtain ⟨after, notes, failed, same, _⟩ := explains _
      rw [bind_some (gives_step (Workspace.reportError problem span) before), failed, same]
      exact law.trans start (law.told _ notes)
  | @ask α β step failed next asks rejects later ih =>
      have start := keep asks before.workspace
      rw [bind_some (gives_step step before)]
      by_cases failure : failed (step before.workspace).1
      · obtain ⟨problem, span, rejected⟩ := rejects _ failure
        rw [rejected]
        exact law.trans start (law.told _ [Diagnostic.error problem span])
      · exact law.trans start
          (ih _ failure { before with workspace := (step before.workspace).2 })
  | entering change action silent made ih =>
      have start := ih before (change before)
      rw [silent] at start
      exact start

namespace Workspace

variable {setting : LoadSetting} {neighbours : Neighbours} {law : WorkspaceLaw setting.sources}
  {before after : Workspace}

theorem scriptUnit_keeps (keep : neighbours.Keep law) (scriptUnit : ScriptUnit)
    (builtins : BuiltinTypes) (symbols : Symbols)
    : law.Keeps (scriptUnit.build builtins symbols neighbours) := by
  intro before
  have made : (Build.decls scriptUnit.body).Made ⟨builtins, neighbours⟩ := .decls _
  exact made.keeps keep ⟨before, symbols, builtins.globalContext, [], [], 0⟩

-----------------------------------------------------------------------------------------
-- Files
-----------------------------------------------------------------------------------------

theorem consult_keeps (path : String) : law.Keeps (consult setting.sources path) :=
  .quiet fun _ => ⟨rfl, rfl, rfl, rfl⟩

/-- The text of a file is put in front, and a message is given if there is no such file. -/
theorem readSource_eq (path : String) (span : Span) (before : Workspace)
    : readSource setting.sources path span before =
        let looked := { before with consulted := path :: before.consulted }
        match setting.sources path with
        | some source => (some source, { looked with texts := (path, source) :: before.texts })
        | none => (none, (reportError (.sourceNotFound path) span looked).2) := by
  unfold readSource
  simp only [bind, StateT.bind, consult]
  cases setting.sources path <;> rfl

theorem readSource_keeps (path : String) (span : Span)
    : law.Keeps (readSource setting.sources path span) := by
  intro before
  have looked : law.related before _ := consult_keeps path before
  rw [readSource_eq]
  cases found : setting.sources path with
  | none => exact law.trans looked (law.told _ [Diagnostic.error (.sourceNotFound path) span])
  | some source => exact law.trans looked (law.read _ found)

/-- A script is checked in a workspace that it was entered in, and left afterwards. -/
theorem buildSource_eq (path source : String) (before : Workspace)
    : buildSource setting neighbours path source before =
        match ScriptUnit.ofSource source path with
        | .error error => (none, (report (Diagnostic.ofSyntaxError error) before).2)
        | .ok scriptUnit =>
          let checked := scriptUnit.build setting.builtins setting.symbols neighbours
            (before.entering path)
          (checked.1, checked.2.leaving) := by
  rw [buildSource]
  cases ScriptUnit.ofSource source path <;> rfl

theorem buildSource_keeps (keep : neighbours.Keep law) (path source : String)
    : law.Keeps (buildSource setting neighbours path source) := by
  intro before
  rw [buildSource_eq]
  cases ScriptUnit.ofSource source path with
  | error error => exact law.told before _
  | ok scriptUnit => exact law.left (scriptUnit_keeps keep scriptUnit _ _ (before.entering path))

/-- A script that was checked may be imported if it was new. -/
theorem buildSource_importing (keep : neighbours.Keep law) {path source : String}
    {built : BuiltScript}
    (gives : buildSource setting neighbours path source before = (some built, after))
    (isNew : before.IsNew path)
    : law.related before (after.importing path built.exports) := by
  rw [buildSource_eq] at gives
  cases parsed : ScriptUnit.ofSource source path with
  | error error =>
      rw [parsed] at gives
      cases gives
  | ok scriptUnit =>
      rw [parsed] at gives
      obtain ⟨-, rfl⟩ := Prod.mk.inj gives
      exact law.imported (scriptUnit_keeps keep scriptUnit _ _ _) isNew

theorem buildFile_keeps (keep : neighbours.Keep law) (path : String) (span : Span)
    : law.Keeps (buildFile setting neighbours path span) := by
  refine (readSource_keeps path span).bind fun source? => ?_
  cases source? with
  | none => exact .pure none
  | some source => exact buildSource_keeps keep path source

theorem buildFile_importing (keep : neighbours.Keep law) {path : String} {span : Span}
    {built : BuiltScript}
    (gives : buildFile setting neighbours path span before = (some built, after))
    (isNew : before.IsNew path)
    : law.related before (after.importing path built.exports) := by
  obtain ⟨source?, middle, read, rest⟩ := step_bind.mp gives
  have start : law.related before (readSource setting.sources path span before).2 :=
    readSource_keeps path span before
  rw [read] at start
  rw [readSource_eq] at read
  cases found : setting.sources path with
  | none =>
      rw [found] at read
      cases read
      cases rest
  | some source =>
      rw [found] at read
      cases read
      exact law.trans start
        (buildSource_importing keep rest ⟨isNew.canonical, isNew.unknown, isNew.closed⟩)

-----------------------------------------------------------------------------------------
-- Imports
-----------------------------------------------------------------------------------------

theorem any_same {path : String}
    : before.inProgress.any (Path.same path) = true ↔ Path.components path ∈ before.openSteps := by
  simp only [Path.same, openSteps, List.any_eq_true, List.mem_map, beq_iff_eq,
    eq_comm (a := Path.components path)]

theorem find?_same_eq_none {path : String}
    : (before.imports.find? fun known => Path.same path known.1) = none ↔
        Path.components path ∉ before.importedSteps := by
  simp only [Path.same, importedSteps, List.find?_eq_none, List.mem_map, beq_iff_eq, not_exists,
    not_and, eq_comm (a := Path.components path)]

theorem resolve_meant (config : Config) (name : String) (workspace : Workspace)
    : resolve config name workspace = (Path.normalize (workspace.meant config name), workspace) :=
  rfl

/-- Imports go by the normalised path that is meant. -/
theorem importScript_imports (name : String) (span : Span) {exports? : Option Symbols}
    (gives : importScript setting neighbours name span before = (exports?, after))
    : Imports setting neighbours (Path.normalize (before.meant setting.config name)) span before
        exports? after := by
  obtain ⟨path, middle, resolved, rest⟩ := step_bind.mp gives
  obtain ⟨rfl, rfl⟩ := Prod.mk.inj ((resolve_meant setting.config name before).symm.trans resolved)
  obtain ⟨_, workspace, read, asked⟩ := step_bind.mp rest
  obtain ⟨rfl, rfl⟩ := step_get.mp read
  split at asked
  · next inside =>
      obtain ⟨_, _, told, given⟩ := step_bind.mp asked
      obtain rfl := step_modify.mp told
      obtain ⟨rfl, rfl⟩ := step_pure.mp given
      exact .refused (any_same.mp inside)
  · next outside =>
      have closed := mt any_same.mpr outside
      cases found : workspace.imports.find? fun known =>
          Path.same (Path.normalize (workspace.meant setting.config name)) known.1 with
      | some known =>
          rw [found] at asked
          obtain ⟨rfl, rfl⟩ := step_pure.mp asked
          exact .known closed (List.mem_of_find?_eq_some found)
            (by simpa [Path.same] using List.find?_some found)
      | none =>
          rw [found] at asked
          have isNew : workspace.IsNew (Path.normalize (workspace.meant setting.config name)) :=
            ⟨Path.isCanonical_normalize _, find?_same_eq_none.mp found, closed⟩
          obtain ⟨built?, checked, outcome, last⟩ := step_bind.mp asked
          cases built? with
          | none =>
              obtain ⟨rfl, rfl⟩ := step_pure.mp last
              exact .failed isNew outcome
          | some built =>
              cases last
              exact .checked isNew outcome

theorem importScript_keeps (keep : neighbours.Keep law) (name : String) (span : Span)
    : law.Keeps (importScript setting neighbours name span) := by
  intro before
  rcases outcome : importScript setting neighbours name span before with ⟨exports?, after⟩
  have imports := importScript_imports name span outcome
  clear outcome
  cases imports with
  | refused => exact law.told before _
  | known => exact law.refl before
  | failed isNew fails =>
      have start := buildFile_keeps keep (Path.normalize (before.meant setting.config name)) span
        before
      rwa [fails] at start
  | checked isNew gives =>
      exact law.trans (buildFile_importing keep gives isNew) (law.quiet rfl rfl rfl rfl)

-----------------------------------------------------------------------------------------
-- Components and directories
-----------------------------------------------------------------------------------------

theorem buildComponent_keeps (builtins : BuiltinTypes) (path source : String)
    : law.Keeps (buildComponent builtins path source) := by
  unfold buildComponent
  split
  · exact (WorkspaceLaw.Keeps.report _).bind fun _ => .pure none
  · split
    · exact (WorkspaceLaw.Keeps.report _).bind fun _ => .pure none
    · exact .quiet fun _ => ⟨rfl, rfl, rfl, rfl⟩

theorem buildComponentFile_keeps (path : String) (span : Span)
    : law.Keeps (buildComponentFile setting path span) := by
  refine (readSource_keeps path span).bind fun source? => ?_
  cases source? with
  | none => exact .pure none
  | some source => exact buildComponent_keeps _ path source

theorem resolve_keeps (config : Config) (name : String) : law.Keeps (resolve config name) :=
  .quiet fun _ => ⟨rfl, rfl, rfl, rfl⟩

theorem buildDirectoryScript_keeps (keep : neighbours.Keep law) (path : String) (span : Span)
    : law.Keeps (buildDirectoryScript setting neighbours path span) := by
  refine (buildFile_keeps keep path span).bind fun built? => ?_
  cases built? with
  | none => exact .pure _
  | some built =>
      dsimp only
      split
      · exact (WorkspaceLaw.Keeps.report _).bind fun _ => .pure _
      · exact .quiet fun _ => ⟨rfl, rfl, rfl, rfl⟩

theorem loadDirectory_keeps (keep : neighbours.Keep law) (name : String) (span : Span)
    : law.Keeps (loadDirectory setting neighbours name span) := by
  refine (resolve_keeps _ name).bind fun directory => ?_
  refine (consult_keeps _).bind fun script? => ?_
  split
  · exact buildDirectoryScript_keeps keep _ span
  · refine (consult_keeps _).bind fun declarative? => ?_
    split
    · refine (buildComponentFile_keeps _ span).bind fun creation? => ?_
      cases creation? <;> exact .pure _
    · refine (consult_keeps _).bind fun listfile? => ?_
      split <;> exact .pure _

-----------------------------------------------------------------------------------------
-- Programs
-----------------------------------------------------------------------------------------

/-- However deep scripts may lead to each other, their neighbours keep every law, by induction over
the depth.
-/
theorem neighboursWithin_keep (setting : LoadSetting) (law : WorkspaceLaw setting.sources)
    (depth : Nat)
    : (neighboursWithin setting depth).Keep law := by
  induction depth with
  | zero =>
      intro α step failed asks
      cases asks <;> exact .quiet fun _ => ⟨rfl, rfl, rfl, rfl⟩
  | succ depth keep =>
      intro α step failed asks
      cases asks with
      | importModule name span => exact importScript_keeps keep name span
      | addDirectory name span => exact loadDirectory_keeps keep name span
      | addComponentFile name span =>
          exact (resolve_keeps _ name).bind fun path => buildComponentFile_keeps path span

end Workspace

namespace Session

theorem finish_keeps (builtins : BuiltinTypes) (built : BuiltScript)
    : law.Keeps (finish builtins built) := by
  unfold finish
  split
  · exact (WorkspaceLaw.Keeps.report _).bind fun _ => .pure none
  · exact .quiet fun _ => ⟨rfl, rfl, rfl, rfl⟩

/-- A session keeps every law while it compiles a text. -/
theorem build_keeps (session : Session) (law : WorkspaceLaw session.loadSetting.sources)
    (nesting : Nat) (path source : String)
    : law.Keeps (session.build nesting path source) := by
  have keep : (Workspace.neighboursWithin session.loadSetting nesting).Keep law :=
    Workspace.neighboursWithin_keep session.loadSetting law nesting
  refine (Workspace.buildSource_keeps keep path source).bind fun built? => ?_
  cases built? with
  | none => exact .pure none
  | some built => exact finish_keeps _ built

end Session

end BuildScript
