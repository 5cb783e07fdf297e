import BuildScript.Proofs.Run.MomentSoundness
import BuildScript.Proofs.Typed.DeclNumbering
import BuildScript.Proofs.Workspace.Loading

/-! The numbers of identifiers in accepted programs. What scripts load leaves no numbers in hand,
however deep they lead to each other, so that each number belongs to one declaration at most, in
whatever script that is.
-/

namespace BuildScript

-----------------------------------------------------------------------------------------
-- Scripts
-----------------------------------------------------------------------------------------

/-- A script that is checked has the numbers of its global variables. -/
theorem ScriptUnit.build_allots {allowed : Nat → Prop} {neighbours : Neighbours}
    (allot : neighbours.Allot allowed) {scriptUnit : ScriptUnit} {builtins : BuiltinTypes}
    {symbols : Symbols} {before after : Workspace} {built : BuiltScript}
    (gives : scriptUnit.build builtins symbols neighbours before = (some built, after))
    : before.Allots allowed [] (built.scriptUnit.globals.map (·.index)) True
        (∀ decl ∈ built.scriptUnit.globals, decl.SetsOnly allowed) after := by
  unfold ScriptUnit.build at gives
  cases outcome : (Build.decls scriptUnit.body).run ⟨builtins, neighbours⟩
      ⟨before, symbols, builtins.globalContext, [], [], 0⟩ with
  | mk decls? state =>
      simp only [OptionT.run, StateT.run, outcome] at gives
      cases decls? with
      | none => cases gives
      | some decls =>
          cases gives
          have checks : (Build.decls scriptUnit.body).Allots allowed [] True
              (fun typed => (TypedDecl.globalsOf typed).map (·.index) ++ []) _ :=
            .decls scriptUnit.body
          have checked := checks ⟨builtins, neighbours⟩ allot _ _ _ outcome
          dsimp only at checked
          rw [List.append_nil] at checked
          exact checked

namespace Workspace

variable {allowed : Nat → Prop} {setting : LoadSetting} {neighbours : Neighbours}
  {before middle after : Workspace}

/-- (LeavesNone allowed before after) says that what is loaded leaves no numbers in hand. -/
abbrev LeavesNone (allowed : Nat → Prop) (before after : Workspace) : Prop :=
  before.Allots allowed [] [] True True after

/-- Nothing happens to numbers when neither the registry nor the modules change. -/
theorem leavesNone_quiet (registry : after.registry = before.registry)
    (modules : after.modules = before.modules)
    : before.LeavesNone allowed after :=
  Allots.quiet registry modules (fun _ => Nat.le_refl _) fun _ => trivial

theorem leavesNone_consult {sources : Sources} {path : String} {source? : Option String}
    (read : consult sources path before = (source?, after))
    : before.LeavesNone allowed after := by
  cases read
  exact leavesNone_quiet rfl rfl

theorem leavesNone_readSource {sources : Sources} {path : String} {span : Span} {source : String}
    (read : readSource sources path span before = (some source, after))
    : before.LeavesNone allowed after := by
  obtain ⟨source?, _, consulted, rest⟩ := step_bind.mp read
  have looked : before.LeavesNone allowed _ := leavesNone_consult consulted
  cases source? with
  | none => cases rest
  | some text =>
      cases rest
      exact looked.andThen (leavesNone_quiet rfl rfl)

theorem leavesNone_resolve {config : Config} {name path : String}
    (resolved : resolve config name before = (path, after))
    : before.LeavesNone allowed after := by
  cases resolved
  exact leavesNone_quiet rfl rfl

/-- (Numbers allowed before built after) says that a script which is built on the way from one
workspace to another one has the numbers of its global variables.
-/
abbrev Numbers (allowed : Nat → Prop) (before : Workspace) (built : BuiltScript)
    (after : Workspace)
    : Prop :=
  before.Allots allowed [] (built.scriptUnit.globals.map (·.index)) True
    (∀ decl ∈ built.scriptUnit.globals, decl.SetsOnly allowed) after

theorem buildSource_numbers (allot : neighbours.Allot allowed) {path source : String}
    {built : BuiltScript}
    (gives : buildSource setting neighbours path source before = (some built, after))
    : before.Numbers allowed built after := by
  unfold buildSource at gives
  cases parsed : ScriptUnit.ofSource source path with
  | error error =>
      rw [parsed] at gives
      cases gives
  | ok scriptUnit =>
      rw [parsed] at gives
      obtain ⟨_, _, entered, rest⟩ := step_bind.mp gives
      obtain rfl := step_modify.mp entered
      obtain ⟨built?, finished, outcome, rest⟩ := step_bind.mp rest
      obtain ⟨_, _, left, given⟩ := step_bind.mp rest
      obtain rfl := step_modify.mp left
      obtain ⟨rfl, rfl⟩ := step_pure.mp given
      have entered : before.LeavesNone allowed
          { before with inProgress := path :: before.inProgress } := leavesNone_quiet rfl rfl
      have checked := entered.andThen (ScriptUnit.build_allots allot outcome)
      exact ⟨checked.numbers, checked.members, fun holds among given =>
        (checked.sets holds among given).imp (fun sets => ⟨sets.functions, sets.modules⟩) id⟩

theorem buildFile_numbers (allot : neighbours.Allot allowed) {path : String} {span : Span}
    {built : BuiltScript}
    (gives : buildFile setting neighbours path span before = (some built, after))
    : before.Numbers allowed built after := by
  obtain ⟨source?, _, outcome, rest⟩ := step_bind.mp gives
  cases source? with
  | none => cases rest
  | some source =>
      exact (leavesNone_readSource outcome).andThen (buildSource_numbers allot rest)

/-- A script keeps its numbers when it becomes a module. -/
theorem Numbers.finished {built : BuiltScript} (builds : before.Numbers allowed built after)
    {finished : Workspace} (registry : finished.registry = after.registry) {path : String}
    (modules : finished.modules = after.modules ++ [⟨path, built.scriptUnit⟩])
    : before.LeavesNone allowed finished := by
  refine ⟨builds.numbers.trans (.ofKept (congrArg Registry.nextIndex registry) fun number => ?_),
    registry ▸ builds.members, fun holds among given => ?_⟩
  · simp only [numbering, numbers, registry, modules, List.flatMap_append, List.flatMap_cons,
      List.flatMap_nil, List.append_nil, List.count_append, List.count_nil]
    omega
  · obtain ⟨sets, added⟩ := builds.sets holds (registry ▸ among) given
    refine ⟨⟨registry ▸ sets.functions, ?_⟩, trivial⟩
    rw [modules]
    intro other among
    rcases List.mem_append.mp among with old | new
    · exact sets.modules other old
    · exact List.mem_singleton.mp new ▸ added

theorem importScript_leavesNone (allot : neighbours.Allot allowed) {name : String} {span : Span}
    {symbols : Symbols}
    (gives : importScript setting neighbours name span before = (some symbols, after))
    : before.LeavesNone allowed after := by
  obtain ⟨path, _, resolved, rest⟩ := step_bind.mp gives
  have found : before.LeavesNone allowed _ := leavesNone_resolve resolved
  obtain ⟨_, workspace, read, asked⟩ := step_bind.mp rest
  obtain ⟨rfl, rfl⟩ := step_get.mp read
  split at asked
  · cases asked
  cases known : workspace.imports.find? fun known => Path.same path known.1 with
  | some exported =>
      rw [known] at asked
      cases asked
      exact found
  | none =>
      rw [known] at asked
      obtain ⟨built?, _, outcome, last⟩ := step_bind.mp asked
      cases built? with
      | none => cases last
      | some built =>
          cases last
          exact found.andThen ((buildFile_numbers allot outcome).finished rfl rfl)

theorem buildComponent_leavesNone {builtins : BuiltinTypes} {path source : String}
    {creation : FunctionId}
    (gives : buildComponent builtins path source before = (some creation, after))
    : before.LeavesNone allowed after := by
  unfold buildComponent at gives
  cases parsed : ComponentDecl.ofSource source path with
  | error error =>
      rw [parsed] at gives
      cases gives
  | ok decl =>
      rw [parsed] at gives
      dsimp only at gives
      cases checked : Component.check decl with
      | error diagnostic =>
          rw [checked] at gives
          cases gives
      | ok component =>
          rw [checked] at gives
          cases gives
          exact .ofRegistry (before.registry.allots_addComponent builtins component) id

theorem buildComponentFile_leavesNone {path : String} {span : Span} {creation : FunctionId}
    (gives : buildComponentFile setting path span before = (some creation, after))
    : before.LeavesNone allowed after := by
  obtain ⟨source?, _, outcome, rest⟩ := step_bind.mp gives
  cases source? with
  | none => cases rest
  | some source => exact (leavesNone_readSource outcome).andThen (buildComponent_leavesNone rest)

theorem buildDirectoryScript_leavesNone (allot : neighbours.Allot allowed) {path : String}
    {span : Span} {content : DirectoryContent}
    (gives : buildDirectoryScript setting neighbours path span before = (content, after))
    (succeeded : content ≠ .failed)
    : before.LeavesNone allowed after := by
  obtain ⟨built?, _, outcome, rest⟩ := step_bind.mp gives
  cases built? with
  | none =>
      cases rest
      exact absurd rfl succeeded
  | some built =>
      dsimp only at rest
      cases called : built.main? with
      | none =>
          rw [called] at rest
          cases rest
          exact absurd rfl succeeded
      | some main =>
          rw [called] at rest
          cases rest
          exact (buildFile_numbers allot outcome).finished rfl rfl

theorem loadDirectory_leavesNone (allot : neighbours.Allot allowed) {name : String} {span : Span}
    {content : DirectoryContent}
    (gives : loadDirectory setting neighbours name span before = (content, after))
    (succeeded : content ≠ .failed)
    : before.LeavesNone allowed after := by
  obtain ⟨directory, _, resolved, rest⟩ := step_bind.mp gives
  obtain ⟨script?, _, first, rest⟩ := step_bind.mp rest
  have start : before.LeavesNone allowed _ :=
    (leavesNone_resolve resolved).andThen (leavesNone_consult first)
  split at rest
  · exact start.andThen (buildDirectoryScript_leavesNone allot rest succeeded)
  obtain ⟨declarative?, _, second, rest⟩ := step_bind.mp rest
  have start := start.andThen (leavesNone_consult second)
  split at rest
  · obtain ⟨creation?, _, outcome, rest⟩ := step_bind.mp rest
    cases creation? with
    | none =>
        cases rest
        exact absurd rfl succeeded
    | some creation =>
        cases rest
        exact start.andThen (buildComponentFile_leavesNone outcome)
  obtain ⟨listfile?, _, third, rest⟩ := step_bind.mp rest
  have start := start.andThen (leavesNone_consult third)
  split at rest
  · cases rest
    exact start
  · cases rest
    exact absurd rfl succeeded

/-- However deep scripts may lead to each other, what they load leaves no numbers in hand, by
induction over the depth.
-/
theorem neighboursWithin_allot (depth : Nat)
    : (neighboursWithin setting depth).Allot allowed := by
  induction depth with
  | zero =>
      constructor
      · intro _ _ _ _ _ impossible
        cases impossible
      · intro _ _ _ _ _ failed succeeded
        cases failed
        exact absurd rfl succeeded
      · intro _ _ _ _ _ impossible
        cases impossible
  | succ depth allot =>
      constructor
      · exact importScript_leavesNone allot
      · exact loadDirectory_leavesNone allot
      · intro name span before creation after outcome
        obtain ⟨path, _, resolved, built⟩ := step_bind.mp outcome
        exact (leavesNone_resolve resolved).andThen (buildComponentFile_leavesNone built)

end Workspace

-----------------------------------------------------------------------------------------
-- Programs
-----------------------------------------------------------------------------------------

namespace Program

/-- The numbers of all identifiers that the scripts of a program declare: those of the variables
of its own script outside of functions, those of its functions and members, and those of the
variables of the other scripts.
-/
def numbers (program : Program) : List Nat :=
  program.scriptUnit.globals.map (·.index)
    ++ (program.registry.numbers
      ++ program.modules.flatMap fun other => other.scriptUnit.globals.map (·.index))

/-- (IsMember program index) says that a member of a class has a number. -/
def IsMember (program : Program) (index : Nat) : Prop :=
  ∃ type, ∃ member ∈ (program.registry.type type).members, member.index = index

end Program

set_option maxRecDepth 100000 in
/-- The provided functions have numbers of their own, which were given out. -/
theorem Prelude.standard_numbers
    : Prelude.standard.registry.numbers.Nodup
      ∧ ∀ number ∈ Prelude.standard.registry.numbers,
          number < Prelude.standard.registry.nextIndex := by
  decide +kernel

/-- Functions that have no bodies set no members. -/
theorem Registry.setsOnly_of_builtin {registry : Registry}
    (provided : registry.functions.toList.all (·.isBuiltin) = true) (allowed : Nat → Prop)
    : registry.SetsOnly allowed := by
  intro id
  rw [Registry.function, Array.getD_eq_getD_getElem?]
  cases found : registry.functions[id.index]? with
  | none => exact trivial
  | some info =>
      have builtin := List.all_eq_true.mp provided info
        (Array.mem_toList_iff.mpr (Array.mem_of_getElem? found))
      obtain ⟨name, params, span, returnType?, context, body⟩ := info
      cases body with
      | builtin operation => exact trivial
      | _ => cases builtin

/-- An accepted program is the outcome of building its script in the workspace with the provided
types and no modules.
-/
theorem Program.Accepted.built {program : Program} (accepted : program.Accepted)
    (allowed : Nat → Prop)
    : ∃ before after : Workspace,
        before.registry = Prelude.standard.registry ∧ before.modules = []
        ∧ before.Allots allowed [] (program.scriptUnit.globals.map (·.index)) True
            (∀ decl ∈ program.scriptUnit.globals, decl.SetsOnly allowed) after
        ∧ program.registry = after.registry ∧ program.modules = after.modules := by
  obtain ⟨nesting, path, source, session, compiled⟩ := accepted
  obtain ⟨built, after, builds, _, same⟩ := Session.exists_builds compiled
  rw [same]
  exact ⟨session.workspace path source, after, rfl, rfl, Workspace.buildSource_numbers
    (Workspace.neighboursWithin_allot nesting) builds, rfl, rfl⟩

namespace Program.Accepted

variable {program : Program}

/-- No two identifiers that an accepted program declares have the same number. -/
theorem numbers_nodup (accepted : program.Accepted) : program.numbers.Nodup := by
  obtain ⟨before, after, provided, none, allots, registry, modules⟩ :=
    accepted.built fun _ => True
  have kept : before.numbering.kept = Prelude.standard.registry.numbers := by
    rw [Workspace.numbering, Workspace.numbers, provided, none, List.flatMap_nil, List.append_nil]
  rw [numbers, registry, modules]
  refine allots.numbers.nodup (kept ▸ Prelude.standard_numbers.1) ?_
  rw [kept, Workspace.numbering, provided]
  exact Prelude.standard_numbers.2

/-- The bodies of functions and the variables outside of them set members of classes only. -/
theorem setsMembers (accepted : program.Accepted)
    : program.registry.SetsOnly program.IsMember ∧ program.SetsOnly program.IsMember := by
  obtain ⟨before, after, provided, none, allots, registry, modules⟩ :=
    accepted.built program.IsMember
  have among : after.registry.MembersAmong program.IsMember := by
    rw [← registry]
    exact fun type member inType => ⟨type, member, inType, rfl⟩
  have bodiless : before.registry.SetsOnly program.IsMember :=
    Registry.setsOnly_of_builtin (provided ▸ Prelude.standard_builtin) program.IsMember
  have moduleless : ∀ other ∈ before.modules, ∀ decl ∈ other.scriptUnit.globals,
      decl.SetsOnly program.IsMember := by
    rw [none]
    intro other absent
    cases absent
  obtain ⟨sets, globals⟩ := allots.sets trivial among ⟨bodiless, moduleless⟩
  refine ⟨registry ▸ sets.functions, fun decl declared => ?_, globals⟩
  rw [modules] at declared
  obtain ⟨other, among, declared⟩ := List.mem_flatMap.mp declared
  exact sets.modules other among decl declared

/-- The objects of an accepted program have members of classes only. -/
theorem admits (accepted : program.Accepted) (limits : Limits)
    : (program.setting limits).Admits program.IsMember := by
  refine ⟨fun type member among => ?_, accepted.setsMembers.1⟩
  obtain ⟨ancestor, _, inType⟩ := List.mem_flatMap.mp among
  exact ⟨ancestor, member, inType, rfl⟩

end Program.Accepted

end BuildScript
