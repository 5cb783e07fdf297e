import BuildScript.Proofs.Workspace.Loading

/-! Scripts that lead to each other without end. The import of a script that is being checked is
refused, but nothing keeps the script of a directory from being added to itself, directly or
around a circle of directories. So no depth is enough to load such a script.
-/

namespace BuildScript

-----------------------------------------------------------------------------------------
-- Circles
-----------------------------------------------------------------------------------------

/-- The directory that a call adds, if the call does that and nothing else. -/
def Expr.addedDirectory? : Expr → Option String
  | .call callee [.string name _] _ =>
    if callee.isGeneric = false ∧ callee.path = [Build.addDirectoryName] then some name else none
  | _ => none

/-- The directory that a script adds before anything else: its first declaration is a variable
that starts out as the result of adding it.
-/
def ScriptUnit.addedFirst? (scriptUnit : ScriptUnit) : Option String :=
  match scriptUnit.body with
  | .varDecl decl :: _ => if decl.exported then none else decl.initial?.bind Expr.addedDirectory?
  | _ => none

/-- The script of the directory that a script means by a name. -/
def LoadSetting.scriptBeside (setting : LoadSetting) (path name : String) : String :=
  Path.join
    (Path.normalize (Path.join ((Path.parent? path).getD setting.config.sourceRoot) name))
    setting.config.scriptName

/-- The scripts at some paths go round in circles when each of them adds a directory first whose
script is another one of them, or the same one.
-/
def LoadSetting.Circles (setting : LoadSetting) (paths : List String) : Prop :=
  ∀ path ∈ paths, ∃ source scriptUnit name,
    setting.sources path = some source ∧ ScriptUnit.ofSource source path = .ok scriptUnit
      ∧ scriptUnit.addedFirst? = some name ∧ setting.scriptBeside path name ∈ paths

theorem Expr.of_addedDirectory? {expr : Expr} {name : String}
    (adds : expr.addedDirectory? = some name)
    : ∃ callee nameSpan span, expr = .call callee [.string name nameSpan] span
        ∧ callee.isGeneric = false ∧ callee.path = [Build.addDirectoryName] := by
  unfold Expr.addedDirectory? at adds
  split at adds
  · next callee _ _ _ =>
      split at adds
      · next plain =>
          cases adds
          exact ⟨callee, _, _, rfl, plain.1, plain.2⟩
      · cases adds
  · cases adds

theorem ScriptUnit.of_addedFirst? {scriptUnit : ScriptUnit} {name : String}
    (adds : scriptUnit.addedFirst? = some name)
    : ∃ decl rest initial, scriptUnit.body = .varDecl decl :: rest ∧ decl.exported = false
        ∧ decl.initial? = some initial ∧ initial.addedDirectory? = some name := by
  unfold ScriptUnit.addedFirst? at adds
  split at adds
  · next decl rest body =>
      cases shown : decl.exported with
      | true =>
          rw [if_pos shown] at adds
          cases adds
      | false =>
          rw [if_neg (Bool.eq_false_iff.mp shown)] at adds
          obtain ⟨initial, initialised, adds⟩ := Option.bind_eq_some_iff.mp adds
          exact ⟨decl, rest, initial, body, shown, initialised, adds⟩
  · cases adds

-----------------------------------------------------------------------------------------
-- Checks
-----------------------------------------------------------------------------------------

namespace Build

variable {α β : Type} {setting : BuildSetting} {before middle after : BuildState}
  {workspace : Workspace}

/-- What comes after a check that succeeds goes on from what it gives. -/
theorem bind_given {action : Build α} {next : α → Build β} {value : α}
    (gives : action setting before = (some value, middle))
    : (action >>= next) setting before = next value setting middle := by
  simp only [Bind.bind, ReaderT.bind, OptionT.bind, OptionT.mk, StateT.bind]
  rw [gives]

/-- Nothing comes after a check that fails. -/
theorem bind_failed {action : Build α} {next : α → Build β}
    (fails : action setting before = (none, after))
    : (action >>= next) setting before = (none, after) := by
  simp only [Bind.bind, ReaderT.bind, OptionT.bind, OptionT.mk, StateT.bind]
  rw [fails]
  rfl

theorem callTarget_addDirectory {callee : TypeExpr} {name : String} {nameSpan span : Span}
    (plain : callee.isGeneric = false) (adds : callee.path = [addDirectoryName])
    : callTarget callee [.string name nameSpan] span setting before
        = (some (.directory name), before) := by
  unfold callTarget
  rw [plain, adds]
  rfl

/-- The neighbours are asked for the directory at once, and if they fail so does the call. -/
theorem expr_addedDirectory {initial : Expr} {name : String}
    (adds : initial.addedDirectory? = some name)
    : ∃ span, ∀ workspace,
        setting.neighbours.addDirectory name span before.workspace = (.failed, workspace) →
          expr initial setting before = (none, { before with
            workspace :=
              (Workspace.reportError (.addSubdirectoryFailed name) span workspace).2 }) := by
  obtain ⟨callee, nameSpan, span, rfl, plain, adds⟩ := Expr.of_addedDirectory? adds
  refine ⟨span, fun workspace failed => ?_⟩
  have asked : onWorkspace (setting.neighbours.addDirectory name span) setting before =
      (some .failed, { before with workspace }) := by
    show (some (setting.neighbours.addDirectory name span before.workspace).1,
      { before with workspace := (setting.neighbours.addDirectory name span before.workspace).2 })
      = _
    rw [failed]
  unfold expr
  rw [bind_given (callTarget_addDirectory plain adds)]
  dsimp only
  rw [bind_given (show exprs [] setting before = (some [], before) from rfl), addedDirectory,
    bind_given (show (read : Build BuildSetting) setting before = (some setting, before) from rfl),
    bind_given asked]
  rfl

/-- Declarations that begin with a variable fail when what it starts out as does. -/
theorem decls_failed {decl : VariableDecl} {rest : List Stmt} {initial : Expr}
    (hidden : decl.exported = false) (initialised : decl.initial? = some initial)
    (fails : expr initial setting before = (none, after))
    : decls (.varDecl decl :: rest) setting before = (none, after) := by
  unfold decls
  refine bind_failed ?_
  unfold Build.decl
  refine bind_failed ?_
  unfold variableDecl
  rw [bind_given (show (get : Build BuildState) setting before = (some before, before) from rfl),
    hidden, initialised]
  refine bind_failed ?_
  rw [Option.mapM_some, map_eq_pure_bind]
  exact bind_failed fails

end Build

-----------------------------------------------------------------------------------------
-- Loading
-----------------------------------------------------------------------------------------

namespace Workspace

variable {setting : LoadSetting} {workspace : Workspace} {depth : Nat}

theorem consult_eq (sources : Sources) (path : String)
    : consult sources path workspace =
        (sources path, { workspace with consulted := path :: workspace.consulted }) :=
  rfl

theorem readSource_found {sources : Sources} {path source : String} {span : Span}
    (found : sources path = some source)
    : readSource sources path span workspace = (some source,
        { workspace with
          consulted := path :: workspace.consulted
          texts := (path, source) :: workspace.texts }) := by
  refine step_bind.mpr ⟨_, _, consult_eq sources path, ?_⟩
  rw [found]
  rfl

/-- A script whose declarations cannot be checked is not built. -/
theorem build_failed {scriptUnit : ScriptUnit} {builtins : BuiltinTypes} {symbols : Symbols}
    {neighbours : Neighbours} {after : BuildState}
    (fails : Build.decls scriptUnit.body ⟨builtins, neighbours⟩
      ⟨workspace, symbols, builtins.globalContext, [], [], 0⟩ = (none, after))
    : scriptUnit.build builtins symbols neighbours workspace = (none, after.workspace) := by
  unfold ScriptUnit.build
  simp only [ReaderT.run, OptionT.run, StateT.run, fails, Option.map_none]

/-- (Exhausts depth before after) says that scripts led to each other as deep as they may, and
that a file was looked up at every depth.
-/
structure Exhausts (depth : Nat) (before after : Workspace) : Prop where
  exhausted : after.exhausted = true
  consulted : depth + before.consulted.length ≤ after.consulted.length

/-- Neighbours never come to an end with a directory when they add it only to fail, as deep as
scripts may lead to each other.
-/
def Endless (neighbours : Neighbours) (depth : Nat) (path name : String) : Prop :=
  ∀ {span : Span} {before : Workspace}, before.inProgress.head? = some path →
    ∃ after, neighbours.addDirectory name span before = (.failed, after)
      ∧ before.Exhausts depth after

/-- A script is not built when it adds a directory first with which there is no end. -/
theorem buildSource_failed {neighbours : Neighbours} {path source name : String}
    {scriptUnit : ScriptUnit} (parsed : ScriptUnit.ofSource source path = .ok scriptUnit)
    (adds : scriptUnit.addedFirst? = some name) (endless : Endless neighbours depth path name)
    : ∃ after, buildSource setting neighbours path source workspace = (none, after)
        ∧ workspace.Exhausts depth after := by
  obtain ⟨decl, rest, initial, body, hidden, initialised, adds⟩ := ScriptUnit.of_addedFirst? adds
  let opened : Workspace := { workspace with inProgress := path :: workspace.inProgress }
  obtain ⟨span, fails⟩ := @Build.expr_addedDirectory ⟨setting.builtins, neighbours⟩
    ⟨opened, setting.symbols, setting.builtins.globalContext, [], [], 0⟩ _ _ adds
  obtain ⟨after, failed, exhausts⟩ := @endless span opened rfl
  have fails := @Build.decls_failed _ _ _ _ rest _ hidden initialised (fails after failed)
  rw [← body] at fails
  unfold buildSource
  rw [parsed]
  exact ⟨_, step_bind.mpr ⟨(), opened, rfl, step_bind.mpr ⟨none, _, build_failed fails, rfl⟩⟩,
    exhausts.exhausted, exhausts.consulted⟩

/-- However deep scripts may lead to each other, a script of a circle leads that deep, by
induction over the depth.
-/
theorem addDirectory_endless {paths : List String} (circles : setting.Circles paths)
    {path name : String} (leads : setting.scriptBeside path name ∈ paths) (depth : Nat)
    : Endless (neighboursWithin setting depth) depth path name := by
  induction depth generalizing path name with
  | zero => exact fun {_ _} _ => ⟨_, rfl, rfl, Nat.le_of_eq (Nat.zero_add _)⟩
  | succ depth deeper =>
      intro span workspace here
      obtain ⟨source, scriptUnit, next, found, parsed, adds, leadsOn⟩ := circles _ leads
      have directory : resolve setting.config name workspace =
          (Path.normalize (Path.join ((Path.parent? path).getD setting.config.sourceRoot) name),
            workspace) := by
        show (Path.normalize (Path.join
          ((workspace.inProgress.head?.bind Path.parent?).getD setting.config.sourceRoot) name),
            workspace) = _
        rw [here]
        rfl
      -- The script is looked up before it is read, which is one more than the depth needs.
      let script := setting.scriptBeside path name
      obtain ⟨after, failed, exhausts⟩ := @buildSource_failed setting
        { workspace with
          consulted := script :: script :: workspace.consulted
          texts := (script, source) :: workspace.texts }
        depth _ script source next scriptUnit parsed adds (deeper leadsOn)
      refine ⟨after, step_bind.mpr ⟨_, _, directory, step_bind.mpr
        ⟨_, _, consult_eq setting.sources script, ?_⟩⟩, exhausts.exhausted, ?_⟩
      · rw [found]
        exact step_bind.mpr ⟨none, after,
          step_bind.mpr ⟨some source, _, readSource_found found, failed⟩, rfl⟩
      · have more : depth + (workspace.consulted.length + 1 + 1) ≤ after.consulted.length :=
          exhausts.consulted
        omega

end Workspace

-----------------------------------------------------------------------------------------
-- Sessions
-----------------------------------------------------------------------------------------

namespace Session

/-- A script of a circle does not compile, and no depth is enough to find that out: as many files
as scripts may lead to each other are looked up, and nothing is told.
-/
theorem compileWithin_endless {session : Session} {paths : List String}
    (circles : session.loadSetting.Circles paths) {path source : String} (among : path ∈ paths)
    (found : session.sources path = some source) (nesting : Nat)
    : ∃ after, compileWithin nesting path source session = (none, after)
        ∧ after.exhausted = true ∧ after.diagnostics = session.diagnostics
        ∧ nesting + session.consulted.length ≤ after.consulted.length := by
  obtain ⟨_, scriptUnit, name, same, parsed, adds, leads⟩ := circles path among
  cases found.symm.trans same
  obtain ⟨after, failed, exhausts⟩ := @Workspace.buildSource_failed session.loadSetting
    (session.workspace path source) nesting _ path source name scriptUnit parsed adds
    (Workspace.addDirectory_endless circles leads nesting)
  have built : session.build nesting path source (session.workspace path source) = (none, after) :=
    Workspace.step_bind.mpr ⟨none, after, failed, rfl⟩
  rw [compileWithin_eq, built]
  dsimp only
  rw [exhausts.exhausted, if_pos rfl, if_pos rfl]
  exact ⟨_, rfl, rfl, rfl, exhausts.consulted⟩

/-- The script of a directory that adds its own directory. -/
def selfContainingText : String :=
  "int part = add_subdirectory(\".\"); int main() \x7b return part; \x7d"

/-- A session of which the only file is a script that adds its own directory. -/
def selfContaining : Session :=
  start .standard (.ofFiles [("CMakeLists.cmsl", selfContainingText)])

theorem selfContaining_found
    : selfContaining.sources "CMakeLists.cmsl" = some selfContainingText := by
  decide +kernel

/-- A script that adds its own directory is a circle by itself. -/
theorem selfContaining_circles : selfContaining.loadSetting.Circles ["CMakeLists.cmsl"] := by
  have adds : (ScriptUnit.ofSource selfContainingText "CMakeLists.cmsl").toOption.bind
      ScriptUnit.addedFirst? = some "." := by
    decide +kernel
  have leads : selfContaining.loadSetting.scriptBeside "CMakeLists.cmsl" "." = "CMakeLists.cmsl" :=
    by decide +kernel
  intro path among
  obtain rfl := List.mem_singleton.mp among
  obtain ⟨scriptUnit, parsed, adds⟩ := Option.bind_eq_some_iff.mp adds
  refine ⟨selfContainingText, scriptUnit, ".", selfContaining_found, ?_, adds,
    List.mem_singleton.mpr leads⟩
  cases given : ScriptUnit.ofSource selfContainingText "CMakeLists.cmsl" with
  | error error =>
      rw [given] at parsed
      cases parsed
  | ok other =>
      rw [given] at parsed
      cases parsed
      rfl

/-- There is a file that no session compiles and of which none finds that out: however deep
scripts may lead to each other, this one leads deeper.
-/
theorem compile_does_not_end (nesting : Nat) : ∃ after,
    compileWithin nesting "CMakeLists.cmsl" selfContainingText selfContaining = (none, after)
      ∧ nesting ≤ after.consulted.length := by
  obtain ⟨after, outcome, -, -, many⟩ := compileWithin_endless selfContaining_circles
    List.mem_cons_self selfContaining_found nesting
  exact ⟨after, outcome, many⟩

end Session

end BuildScript
