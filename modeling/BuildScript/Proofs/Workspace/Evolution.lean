import BuildScript.Proofs.Typed.DeclEvolving
import BuildScript.Proofs.Workspace.Casting
import BuildScript.Proofs.Workspace.WorkspaceLaw

/-! Registries during compilations. Whatever scripts lead to, and wherever a compilation ends, the
registry has evolved from the provided one and is consistent.
-/

namespace BuildScript

namespace Workspace

variable {α β : Type} {basis : Prelude} {setting : LoadSetting} {neighbours : Neighbours}
  {before after : Workspace}

-----------------------------------------------------------------------------------------
-- Steps and components
-----------------------------------------------------------------------------------------

/-- A step leads on when every ready workspace moves on by it, whatever comes of it. -/
def LeadsOn (basis : Prelude) (step : StateM Workspace α) : Prop :=
  ∀ before : Workspace, before.Ready basis →
    before.Moves (.evolving basis) basis (step before).2

namespace LeadsOn

/-- A step that changes neither the registry nor what was imported. -/
theorem quiet {step : StateM Workspace α}
    (same : ∀ before, (step before).2.registry = before.registry
      ∧ (step before).2.imports = before.imports)
    : LeadsOn basis step :=
  fun before ready => .ofSame ready (same before).1 (same before).2

theorem pure (value : α) : LeadsOn basis (Pure.pure value : StateM Workspace α) :=
  quiet fun _ => ⟨rfl, rfl⟩

theorem bind {step : StateM Workspace β} {next : β → StateM Workspace α}
    (first : LeadsOn basis step) (later : ∀ value, LeadsOn basis (next value))
    : LeadsOn basis (step >>= next) := by
  intro before ready
  have start := first before ready
  exact start.trans (later _ _ (start.ready ready))

theorem report (diagnostic : Diagnostic) : LeadsOn basis (Workspace.report diagnostic) :=
  quiet fun _ => ⟨rfl, rfl⟩

theorem consult (sources : Sources) (path : String)
    : LeadsOn basis (Workspace.consult sources path) :=
  quiet fun _ => ⟨rfl, rfl⟩

theorem resolve (config : Config) (name : String) : LeadsOn basis (Workspace.resolve config name) :=
  quiet fun _ => ⟨rfl, rfl⟩

theorem readSource (path : String) (span : Span)
    : LeadsOn basis (Workspace.readSource setting.sources path span) := by
  refine quiet fun before => ?_
  rw [readSource_eq]
  cases setting.sources path <;> exact ⟨rfl, rfl⟩

theorem buildComponent (path source : String)
    : LeadsOn basis (Workspace.buildComponent basis.builtins path source) := by
  unfold Workspace.buildComponent
  split
  · exact (report _).bind fun _ => pure none
  split
  · exact (report _).bind fun _ => pure none
  next component _ =>
    intro before ready
    have added :=
      Registry.Furnishes.addComponent ready.closed.provides ready.globalContext component
    exact .ofRegistry ready ((RegistryLaw.evolving basis).furnishes added)

theorem buildComponentFile (begins : setting.Begins basis) (path : String) (span : Span)
    : LeadsOn basis (Workspace.buildComponentFile setting path span) := by
  refine (readSource path span).bind fun source? => ?_
  cases source? with
  | none => exact pure none
  | some source =>
      rw [begins.builtins]
      exact buildComponent path source

-----------------------------------------------------------------------------------------
-- Scripts
-----------------------------------------------------------------------------------------

/-- A script is checked between entering and leaving it. -/
theorem buildSource (begins : setting.Begins basis) (abide : neighbours.Abide basis)
    (path source : String)
    : LeadsOn basis (Workspace.buildSource setting neighbours path source) := by
  intro before ready
  rw [buildSource_eq]
  cases ScriptUnit.ofSource source path with
  | error error => exact .ofSame ready rfl rfl
  | ok scriptUnit =>
      rw [begins.builtins, begins.symbols]
      have entered : before.Moves (.evolving basis) basis (before.entering path) :=
        .ofSame ready rfl rfl
      have checked := scriptUnit.build_moves abide (entered.ready ready)
      exact (entered.trans checked).trans
        (.ofSame (checked.ready (entered.ready ready)) rfl rfl)

theorem buildFile (begins : setting.Begins basis) (abide : neighbours.Abide basis) (path : String)
    (span : Span)
    : LeadsOn basis (Workspace.buildFile setting neighbours path span) := by
  refine (readSource path span).bind fun source? => ?_
  cases source? with
  | none => exact pure none
  | some source => exact buildSource begins abide path source

/-- What a script exports is known where it was checked, so that it may be kept. -/
theorem importScript (begins : setting.Begins basis) (abide : neighbours.Abide basis)
    (obey : neighbours.Obey basis (DeclLaw.casting basis).load) (name : String) (span : Span)
    : LeadsOn basis (Workspace.importScript setting neighbours name span) := by
  intro before ready
  rcases outcome : Workspace.importScript setting neighbours name span before with ⟨exports?, after⟩
  have imports := importScript_imports name span outcome
  clear outcome
  cases imports with
  | refused => exact .ofSame ready rfl rfl
  | known => exact .ofSame ready rfl rfl
  | failed isNew fails =>
      have moves := buildFile begins abide (Path.normalize (before.meant setting.config name)) span
        before ready
      rwa [fails] at moves
  | checked isNew gives =>
      have moves := buildFile begins abide (Path.normalize (before.meant setting.config name)) span
        before ready
      rw [gives] at moves
      exact ⟨moves.moves, ((buildFile_builds begins obey ready.closed gives).imported _).closed
        ready.closed⟩

-----------------------------------------------------------------------------------------
-- Directories and neighbours
-----------------------------------------------------------------------------------------

theorem buildDirectoryScript (begins : setting.Begins basis) (abide : neighbours.Abide basis)
    (path : String) (span : Span)
    : LeadsOn basis (Workspace.buildDirectoryScript setting neighbours path span) := by
  refine (buildFile begins abide path span).bind fun built? => ?_
  cases built? with
  | none => exact pure _
  | some built =>
      dsimp only
      split
      · exact (report _).bind fun _ => pure _
      · exact quiet fun _ => ⟨rfl, rfl⟩

theorem loadDirectory (begins : setting.Begins basis) (abide : neighbours.Abide basis)
    (name : String) (span : Span)
    : LeadsOn basis (Workspace.loadDirectory setting neighbours name span) := by
  refine (resolve _ name).bind fun directory => (consult _ _).bind fun script? => ?_
  split
  · exact buildDirectoryScript begins abide _ span
  refine (consult _ _).bind fun declarative? => ?_
  split
  · refine (buildComponentFile begins _ span).bind fun creation? => ?_
    cases creation? <;> exact pure _
  refine (consult _ _).bind fun listfile? => ?_
  split <;> exact pure _

end LeadsOn

/-- Neighbours abide when each of them leads on, and when they obey some law where they succeed. -/
theorem abideOf {load : Workspace → Workspace → Prop} (obey : neighbours.Obey basis load)
    (importModule : ∀ name span, LeadsOn basis (neighbours.importModule name span))
    (addDirectory : ∀ name span, LeadsOn basis (neighbours.addDirectory name span))
    (addComponentFile : ∀ name span, LeadsOn basis (neighbours.addComponentFile name span))
    : neighbours.Abide basis := by
  refine ⟨⟨fun closed found => ?_, fun closed found succeeded => ?_, fun closed found => ?_⟩,
    fun name span before ready => ?_, fun name span before ready => ?_,
    fun name span before ready => ?_⟩
  · obtain ⟨advances, known⟩ := obey.importModule closed found
    exact ⟨⟨trivial, advances.grows, advances.closed⟩, known⟩
  · obtain ⟨advances, known⟩ := obey.addDirectory closed found succeeded
    exact ⟨⟨trivial, advances.grows, advances.closed⟩, known⟩
  · obtain ⟨advances, known⟩ := obey.addComponentFile closed found
    exact ⟨⟨trivial, advances.grows, advances.closed⟩, known⟩
  · have moves := importModule name span before ready
    exact ⟨moves.moves.1, moves.moves.2, moves.closed⟩
  · have moves := addDirectory name span before ready
    exact ⟨moves.moves.1, moves.moves.2, moves.closed⟩
  · have moves := addComponentFile name span before ready
    exact ⟨moves.moves.1, moves.moves.2, moves.closed⟩

/-- However deep scripts may lead to each other, their neighbours abide, by induction over the
depth.
-/
theorem neighboursWithin_abide (begins : setting.Begins basis) (depth : Nat)
    : (neighboursWithin setting depth).Abide basis := by
  have obey (depth : Nat) : (neighboursWithin setting depth).Obey basis
      (DeclLaw.casting basis).load :=
    neighboursWithin_obey begins depth
  induction depth with
  | zero =>
      exact abideOf (obey 0) (fun _ _ => .quiet fun _ => ⟨rfl, rfl⟩)
        (fun _ _ => .quiet fun _ => ⟨rfl, rfl⟩) fun _ _ => .quiet fun _ => ⟨rfl, rfl⟩
  | succ depth abide =>
      exact abideOf (obey (depth + 1)) (.importScript begins abide (obey depth))
        (.loadDirectory begins abide) fun name span =>
          (LeadsOn.resolve _ name).bind fun path => .buildComponentFile begins path span

/-- A script that stands alone has neighbours that abide. -/
theorem none_abide (basis : Prelude) : Neighbours.none.Abide basis := by
  have obey : Neighbours.none.Obey basis fun _ _ => True := by
    constructor
    · intro _ _ _ _ _ _ impossible
      exact nomatch impossible
    · intro _ _ _ _ _ _ failed succeeded
      cases failed
      exact absurd rfl succeeded
    · intro _ _ _ _ _ _ impossible
      exact nomatch impossible
  exact abideOf obey (fun _ _ => .pure _) (fun _ _ => .pure _) fun _ _ => .pure _

-----------------------------------------------------------------------------------------
-- One build after the other
-----------------------------------------------------------------------------------------

/-- A workspace is fresh when its registry is the provided one and nothing was imported. -/
structure IsFresh (workspace : Workspace) : Prop where
  registry : workspace.registry = Prelude.standard.registry
  imports : workspace.imports = []

/-- (BuildsNext before after) says that a script or a component is built in a workspace, and which
workspace is left behind, whether the build succeeds or fails. A script stands alone or leads to
others.
-/
inductive BuildsNext (before : Workspace) : Workspace → Prop
  | alone (scriptUnit : ScriptUnit)
    : BuildsNext before
        (scriptUnit.build Prelude.standard.builtins Prelude.standard.symbols .none before).2
  | script (setting : LoadSetting) (begins : setting.Begins .standard) (depth : Nat)
    (scriptUnit : ScriptUnit)
    : BuildsNext before
        (scriptUnit.build Prelude.standard.builtins Prelude.standard.symbols
          (neighboursWithin setting depth) before).2
  | source (setting : LoadSetting) (begins : setting.Begins .standard) (depth : Nat)
    (path source : String)
    : BuildsNext before (buildSource setting (neighboursWithin setting depth) path source before).2
  | component (path source : String)
    : BuildsNext before (buildComponent Prelude.standard.builtins path source before).2

/-- A workspace reaches another one by any number of builds. -/
def Reaches : Workspace → Workspace → Prop := Relation.ReflTransGen BuildsNext

theorem BuildsNext.moves (builds : before.BuildsNext after) (ready : before.Ready .standard)
    : before.Moves (.evolving .standard) .standard after := by
  cases builds with
  | alone scriptUnit => exact scriptUnit.build_moves (none_abide .standard) ready
  | script setting begins depth scriptUnit =>
      exact scriptUnit.build_moves (neighboursWithin_abide begins depth) ready
  | source setting begins depth path source =>
      exact LeadsOn.buildSource begins (neighboursWithin_abide begins depth) path source before
        ready
  | component path source => exact LeadsOn.buildComponent path source before ready

/-- Builds move the workspace on one after the other, by induction over them. -/
theorem Reaches.moves (reaches : before.Reaches after) (ready : before.Ready .standard)
    : before.Moves (.evolving .standard) .standard after := by
  induction reaches with
  | refl => exact .ofSame ready rfl rfl
  | tail _ builds ih => exact ih.trans (builds.moves (ih.ready ready))

theorem IsFresh.ready (fresh : before.IsFresh) : before.Ready .standard := by
  obtain ⟨closed, provides, begins⟩ := Prelude.standard_closed
  refine ⟨⟨?_, ?_, ?_, ?_⟩, ?_, ?_⟩
  all_goals rw [fresh.registry]
  · exact closed
  · exact provides
  · exact begins
  · rw [fresh.imports]
    exact fun _ absent => nomatch absent
  · exact Prelude.standard_consistent
  · decide +kernel

/-- What is reached from a fresh workspace is ready, and its registry evolved from the empty one. -/
theorem Reaches.ready {start : Workspace} (fresh : start.IsFresh) (reaches : start.Reaches before)
    : before.Ready .standard ∧ Registry.empty.Evolves before.registry := by
  have moves := reaches.moves fresh.ready
  have evolves := moves.moves.1
  rw [fresh.registry] at evolves
  exact ⟨moves.ready fresh.ready, Prelude.standard_furnished.evolves.trans evolves⟩

end Workspace

namespace Registry

variable {registry before after : Registry}

/-- (KeepsOn before after) says that one operation leads from a consistent registry to another one
and preserves what is there.
-/
structure KeepsOn (before after : Registry) : Prop where
  change : before.Change after
  consistent : before.Consistent
  stays : after.Consistent
  preserves : before.Preserves after

/-- All registries on the way are consistent, by induction over the operations. -/
theorem Evolves.throughout (evolves : before.Evolves after) (consistent : before.Consistent)
    : Relation.ReflTransGen KeepsOn before after := by
  induction evolves with
  | refl => exact .refl
  | tail first change ih =>
      have middle := Evolves.consistent first consistent
      exact ih.tail ⟨change, middle, change.consistent middle, change.preserves⟩

/-- Chains of bases are finite, since a base stands before the types derived from it. -/
theorem Closed.bases_wellFounded (closed : registry.Closed)
    : WellFounded fun base derived => (registry.type derived).base? = some base :=
  Subrelation.wf (fun {base derived} found => closed.bases derived base found)
    (measure TypeId.index).wf

end Registry

/-- The representation invariant of registries. In every registry that builds reach from the
provided one, whether they succeed or fail, all that is mentioned is there, bases stand before the
types derived from them, and contexts, references and instances are in order. Every registry on the
way to later ones is consistent as well, and no operation changes what is there.
-/
theorem Workspace.Reaches.registries_consistent {start before after : Workspace}
    (fresh : start.IsFresh) (first : start.Reaches before) (later : before.Reaches after)
    : Registry.empty.Evolves before.registry
      ∧ before.registry.Consistent
      ∧ (WellFounded fun base derived => (before.registry.type derived).base? = some base)
      ∧ Relation.ReflTransGen Registry.KeepsOn before.registry after.registry
      ∧ before.registry.Preserves after.registry := by
  obtain ⟨ready, evolved⟩ := first.ready fresh
  have evolves := (later.moves ready).moves.1
  exact ⟨evolved, ready.consistent, ready.consistent.toClosed.bases_wellFounded,
    evolves.throughout ready.consistent, evolves.preserves⟩

namespace Workspace

/-- The settings of scripts that lead to no other files. -/
def standalone : LoadSetting :=
  ⟨Config.standard, fun _ => none, Prelude.standard.builtins, Prelude.standard.symbols⟩

/-- (attempt source before) is what comes of a script that stands alone. -/
def attempt (source : String) (before : Workspace) : Option BuiltScript × Workspace :=
  buildSource standalone (neighboursWithin standalone 0) "script" source before

theorem attempt_builds (source : String) (before : Workspace)
    : before.BuildsNext (attempt source before).2 := by
  have begins : standalone.Begins .standard := ⟨rfl, rfl⟩
  exact BuildsNext.source standalone begins 0 "script" source

/-- The workspace after a script with a class that has a member of an unknown type. -/
def refused : Option BuiltScript × Workspace :=
  attempt "class A \x7b list<int> x; Missing y; \x7d" (ofRegistry Prelude.standard.registry)

/-- The workspace after another script behind it, with a class derived from another one. -/
def continued : Option BuiltScript × Workspace :=
  attempt "class A \x7b int x; \x7d class B : A \x7b A inner; list<B> others; \x7d" refused.2

set_option maxRecDepth 100000 in
/-- A script that fails leaves a class and an instance of a generic type behind, and one that
succeeds goes on from there.
-/
theorem Reaches.registries_consistent_continued
    : (refused.1.isNone = true ∧ continued.1.isSome = true
        ∧ Prelude.standard.registry.types.size + 4 = refused.2.registry.types.size
        ∧ refused.2.registry.types.size + 6 = continued.2.registry.types.size)
      ∧ Registry.empty.Evolves refused.2.registry
      ∧ refused.2.registry.Consistent
      ∧ (WellFounded fun base derived => (refused.2.registry.type derived).base? = some base)
      ∧ Relation.ReflTransGen Registry.KeepsOn refused.2.registry continued.2.registry
      ∧ refused.2.registry.Preserves continued.2.registry := by
  have fresh : (ofRegistry Prelude.standard.registry).IsFresh := ⟨rfl, rfl⟩
  exact ⟨by decide +kernel, Reaches.registries_consistent fresh
    (Relation.ReflTransGen.single (attempt_builds _ _))
    (Relation.ReflTransGen.single (attempt_builds _ _))⟩

end Workspace

end BuildScript
