import BuildScript.Proofs.Workspace.WorkspaceLaw

/-! Scripts that are known by their places. The paths of imported scripts are normalised, and so are
those of the scripts that are being checked, unless the settings put dots or parents into the names
of scripts. So a script that was imported or is being checked is recognised however it is spelled.
-/

namespace BuildScript

namespace Workspace

/-- (Adds before after) says that the same scripts are being checked as before, and that the scripts
that were imported meanwhile have paths that lead to different places, where neither an earlier one
is nor one that is being checked.
-/
structure Adds (before after : Workspace) : Prop where
  inProgress : after.inProgress = before.inProgress
  imports : ∃ added, after.importedSteps = added ++ before.importedSteps ∧ added.Nodup
    ∧ ∀ steps ∈ added,
        Path.IsCanonical steps ∧ steps ∉ before.importedSteps ∧ steps ∉ before.openSteps

variable {before middle after : Workspace}

namespace Adds

/-- What concerns neither imports nor scripts that are being checked. -/
theorem quiet (sameImports : after.imports = before.imports)
    (sameScripts : after.inProgress = before.inProgress)
    : before.Adds after :=
  ⟨sameScripts, [], by simp [importedSteps, sameImports], List.nodup_nil, by simp⟩

theorem trans (first : before.Adds middle) (second : middle.Adds after) : before.Adds after := by
  obtain ⟨added, same, different, fresh⟩ := first.imports
  obtain ⟨addedToo, sameToo, differentToo, freshToo⟩ := second.imports
  have open_ : middle.openSteps = before.openSteps := by
    rw [openSteps, openSteps, first.inProgress]
  rw [same] at sameToo freshToo
  rw [open_] at freshToo
  refine ⟨second.inProgress.trans first.inProgress, addedToo ++ added, ?_, ?_, ?_⟩
  · rw [sameToo, List.append_assoc]
  · refine List.nodup_append.mpr ⟨differentToo, different, ?_⟩
    rintro steps late _ early rfl
    exact (freshToo steps late).2.1 (List.mem_append_left _ early)
  · intro steps among
    rcases List.mem_append.mp among with late | early
    · obtain ⟨canonical, unknown, closed⟩ := freshToo steps late
      exact ⟨canonical, fun old => unknown (List.mem_append_right _ old), closed⟩
    · exact fresh steps early

theorem leave {path : String} (adds : (before.entering path).Adds after)
    : before.Adds after.leaving := by
  obtain ⟨same, added, imports, different, fresh⟩ := adds
  refine ⟨by simp [leaving, same, entering], added, imports, different, fun steps among => ?_⟩
  obtain ⟨canonical, unknown, closed⟩ := fresh steps among
  exact ⟨canonical, unknown, fun open_ => closed (List.mem_cons_of_mem _ open_)⟩

/-- A new script that was checked becomes an import, since it was not imported by what it leads to.
-/
theorem imported {path : String} {exports : Symbols} (adds : (before.entering path).Adds after)
    (isNew : before.IsNew path)
    : before.Adds (after.leaving.importing path exports) := by
  obtain ⟨same, added, imports, different, fresh⟩ := adds
  have new : Path.components path ∉ added := fun among =>
    (fresh _ among).2.2 List.mem_cons_self
  refine ⟨by simp [importing, leaving, same, entering], Path.components path :: added, ?_,
    List.nodup_cons.mpr ⟨new, different⟩, ?_⟩
  · exact congrArg (Path.components path :: ·) imports
  · rintro steps (_ | ⟨_, among⟩)
    · exact ⟨isNew.canonical, isNew.unknown, isNew.closed⟩
    · obtain ⟨canonical, unknown, closed⟩ := fresh steps among
      exact ⟨canonical, unknown, fun open_ => closed (List.mem_cons_of_mem _ open_)⟩

end Adds

/-- Loading adds imports of new scripts only. -/
def addsLaw (sources : Sources) : WorkspaceLaw sources where
  related := Adds
  trans := .trans
  quiet _ _ := .quiet
  told _ _ := .quiet rfl rfl
  read _ _ _ _ := .quiet rfl rfl
  left := .leave
  imported := .imported

end Workspace

-----------------------------------------------------------------------------------------
-- Compilations
-----------------------------------------------------------------------------------------

namespace LoadSetting

/-- (Opens setting workspace path) says that the script at a path may be checked next: it is
imported, or it is that of a directory that is added.
-/
inductive Opens (setting : LoadSetting) (workspace : Workspace) : String → Prop
  | imported (name : String)
    : Opens setting workspace (Path.normalize (workspace.meant setting.config name))
  | added (name : String)
    : Opens setting workspace
        (Path.join (Path.normalize (workspace.meant setting.config name)) setting.config.scriptName)

/-- (Visits setting workspace) says that a compilation may come by a workspace: it begins with a
script below the source root, reads files, enters scripts and makes checks.
-/
inductive Visits (setting : LoadSetting) : Workspace → Prop
  | start {workspace : Workspace} (name : String) (noImports : workspace.imports = [])
    (noScripts : workspace.inProgress = [])
    : Visits setting
        (workspace.entering (Path.normalize (Path.join setting.config.sourceRoot name)))
  | read {workspace : Workspace} (consulted : List String) (texts : List (String × String))
    (visits : Visits setting workspace)
    : Visits setting { workspace with consulted, texts }
  | enter {workspace : Workspace} {path} (opens : Opens setting workspace path)
    (visits : Visits setting workspace)
    : Visits setting (workspace.entering path)
  | check {α : Type} {action : Build α} {state : BuildState} (depth : Nat)
    (made : action.Made ⟨setting.builtins, Workspace.neighboursWithin setting depth⟩)
    (visits : Visits setting state.workspace)
    : Visits setting
        (action ⟨setting.builtins, Workspace.neighboursWithin setting depth⟩ state).2.workspace

/-- The name of scripts is undotted when it has neither dots nor parents. -/
def Undotted (setting : LoadSetting) : Prop :=
  ∀ step ∈ Path.components setting.config.scriptName, step ≠ .current ∧ step ≠ .parent

end LoadSetting

/-- (Keyed workspace) says that the paths of the scripts that are being checked and of those that
were imported are normalised, and that the latter lead to different places.
-/
structure Workspace.Keyed (workspace : Workspace) : Prop where
  openSteps : ∀ steps ∈ workspace.openSteps, Path.IsCanonical steps
  importedSteps : ∀ steps ∈ workspace.importedSteps, Path.IsCanonical steps
  different : workspace.importedSteps.Nodup

namespace Workspace

variable {setting : LoadSetting} {before after : Workspace}

theorem Keyed.adds (keyed : before.Keyed) (adds : before.Adds after) : after.Keyed := by
  obtain ⟨same, added, imports, different, fresh⟩ := adds
  refine ⟨?_, ?_, ?_⟩
  · rw [Workspace.openSteps, same]
    exact keyed.openSteps
  · rw [imports]
    intro steps among
    rcases List.mem_append.mp among with new | old
    · exact (fresh steps new).1
    · exact keyed.importedSteps steps old
  · rw [imports]
    refine List.nodup_append.mpr ⟨different, keyed.different, ?_⟩
    rintro steps new _ old rfl
    exact (fresh steps new).2.1 old

theorem Keyed.enter (keyed : before.Keyed) {path : String}
    (canonical : Path.IsCanonical (Path.components path))
    : (before.entering path).Keyed := by
  refine ⟨?_, keyed.importedSteps, keyed.different⟩
  rintro steps (_ | ⟨_, among⟩)
  · exact canonical
  · exact keyed.openSteps steps among

end Workspace

namespace LoadSetting

variable {setting : LoadSetting} {workspace : Workspace}

theorem Opens.canonical (undotted : setting.Undotted) {path : String}
    (opens : setting.Opens workspace path)
    : Path.IsCanonical (Path.components path) := by
  cases opens with
  | imported name => exact Path.isCanonical_normalize _
  | added name => exact Path.isCanonical_join (Path.isCanonical_normalize _) undotted

/-- Every workspace that a compilation comes by is keyed, by induction over how it comes by. -/
theorem Visits.keyed (undotted : setting.Undotted) (visits : setting.Visits workspace)
    : workspace.Keyed := by
  induction visits with
  | start name noImports noScripts =>
      refine Workspace.Keyed.enter ⟨?_, ?_, ?_⟩ (Path.isCanonical_normalize _)
      · simp [Workspace.openSteps, noScripts]
      · simp [Workspace.importedSteps, noImports]
      · simp [Workspace.importedSteps, noImports]
  | read consulted texts visits keyed =>
      exact ⟨keyed.openSteps, keyed.importedSteps, keyed.different⟩
  | enter opens visits keyed => exact keyed.enter (opens.canonical undotted)
  | check depth made visits keyed =>
      have keep : (Workspace.neighboursWithin setting depth).Keep (Workspace.addsLaw _) :=
        Workspace.neighboursWithin_keep setting _ depth
      exact keyed.adds (made.keeps keep _)

end LoadSetting

-----------------------------------------------------------------------------------------
-- Recognition
-----------------------------------------------------------------------------------------

namespace Workspace

variable {setting : LoadSetting} {workspace : Workspace}

theorem Keyed.mem_openSteps (keyed : workspace.Keyed) (path : String)
    : Path.components (Path.normalize path) ∈ workspace.openSteps ↔
        ∃ inside ∈ workspace.inProgress, Path.SamePlace path inside := by
  have canonical : ∀ inside ∈ workspace.inProgress, Path.IsCanonical (Path.components inside) :=
    fun inside among => keyed.openSteps _ (List.mem_map_of_mem among)
  rw [Workspace.openSteps, List.mem_map]
  refine exists_congr fun inside => and_congr_right fun among => ?_
  rw [eq_comm]
  exact Path.components_normalize_eq_iff (canonical inside among)

theorem Keyed.components_eq_iff (keyed : workspace.Keyed) {known : String × Symbols}
    (among : known ∈ workspace.imports) (path : String)
    : Path.components (Path.normalize path) = Path.components known.1 ↔
        Path.SamePlace path known.1 :=
  Path.components_normalize_eq_iff (keyed.importedSteps _ (List.mem_map_of_mem among))

/-- A script that is being checked is not imported, however it is spelled. -/
theorem Keyed.importScript_refused (keyed : workspace.Keyed) (neighbours : Neighbours)
    {name : String} (span : Span)
    (inside : ∃ inside ∈ workspace.inProgress,
      Path.SamePlace (workspace.meant setting.config name) inside)
    : importScript setting neighbours name span workspace =
        let path := Path.normalize (workspace.meant setting.config name)
        (none, (reportError (.circularImport path) span workspace).2) := by
  have open_ := (keyed.mem_openSteps _).mpr inside
  rcases outcome : importScript setting neighbours name span workspace with ⟨exports?, after⟩
  have imports := importScript_imports name span outcome
  clear outcome
  cases imports with
  | refused => rfl
  | known closed => exact absurd open_ closed
  | failed isNew | checked isNew => exact absurd open_ isNew.closed

/-- A script that was imported is not checked again, however it is spelled. -/
theorem Keyed.importScript_known (keyed : workspace.Keyed) (neighbours : Neighbours)
    {name : String} (span : Span)
    (outside : ∀ inside ∈ workspace.inProgress,
      ¬ Path.SamePlace (workspace.meant setting.config name) inside)
    {known : String × Symbols} (among : known ∈ workspace.imports)
    (same : Path.SamePlace (workspace.meant setting.config name) known.1)
    : importScript setting neighbours name span workspace = (some known.2, workspace) := by
  have sameSteps := (keyed.components_eq_iff among _).mpr same
  have imported : Path.components (Path.normalize (workspace.meant setting.config name)) ∈
      workspace.importedSteps := by
    rw [sameSteps]
    exact List.mem_map_of_mem among
  rcases outcome : importScript setting neighbours name span workspace with ⟨exports?, after⟩
  have imports := importScript_imports name span outcome
  clear outcome
  cases imports with
  | refused open_ =>
      obtain ⟨inside, member, place⟩ := (keyed.mem_openSteps _).mp open_
      exact absurd place (outside inside member)
  | @known entry closed member found =>
      have one : entry = known :=
        List.inj_on_of_nodup_map keyed.different member among (found.symm.trans sameSteps)
      rw [one]
  | failed isNew | checked isNew => exact absurd imported isNew.unknown

theorem Keyed.pairwise (keyed : workspace.Keyed)
    : workspace.imports.Pairwise fun first second => ¬ Path.SamePlace first.1 second.1 := by
  refine (List.pairwise_map.mp keyed.different).imp_of_mem ?_
  intro first second among amongToo different same
  exact different ((keyed.importedSteps _ (List.mem_map_of_mem among)).components_eq
    (keyed.importedSteps _ (List.mem_map_of_mem amongToo)) same)

/-- Spellings of one place are imported alike. -/
theorem importScript_congr {neighbours : Neighbours} {first second : String} {span : Span}
    (same : Path.SamePlace (workspace.meant setting.config first)
      (workspace.meant setting.config second))
    : importScript setting neighbours first span workspace =
        importScript setting neighbours second span workspace := by
  have path := Path.normalize_eq_iff.mpr same
  simp only [importScript, Bind.bind, StateT.bind, resolve_meant, path]

end Workspace

namespace LoadSetting

open BuildScript.Path BuildScript.Workspace

/-- (Recognises setting workspace) says that no scripts were imported from the same place, and that
a script that is being checked is refused and one that was imported gives its names at once, however
it is spelled.
-/
structure Recognises (setting : LoadSetting) (workspace : Workspace) : Prop where
  different : workspace.imports.Pairwise fun first second => ¬ SamePlace first.1 second.1
  refuses : ∀ neighbours name span,
    (∃ inside ∈ workspace.inProgress, SamePlace (workspace.meant setting.config name) inside) →
    importScript setting neighbours name span workspace =
      let path := normalize (workspace.meant setting.config name)
      (none, (reportError (.circularImport path) span workspace).2)
  knows : ∀ neighbours name span,
    (∀ inside ∈ workspace.inProgress, ¬ SamePlace (workspace.meant setting.config name) inside) →
    ∀ known ∈ workspace.imports, SamePlace (workspace.meant setting.config name) known.1 →
      importScript setting neighbours name span workspace = (some known.2, workspace)

/-- Normalisation is canonical, and so a script is known by its place. Normalising once is enough,
what is left has no dots and parents only in front of a relative path, paths may be normalised
before they are joined, and two paths are normalised alike exactly if they lead to the same place.
So spellings of one place are imported alike. Provided that the settings put neither dots nor
parents into the names of scripts, all that were imported or are being checked are recognised.
-/
theorem known_by_place (setting : LoadSetting)
    : (∀ path, normalize (normalize path) = normalize path
        ∧ IsCanonical (components (normalize path)))
      ∧ (∀ base path, normalize (join (normalize base) path) = normalize (join base path))
      ∧ (∀ first second, normalize first = normalize second ↔ SamePlace first second)
      ∧ (∀ neighbours workspace first second span,
          SamePlace (workspace.meant setting.config first) (workspace.meant setting.config second) →
          importScript setting neighbours first span workspace =
            importScript setting neighbours second span workspace)
      ∧ (setting.Undotted → ∀ workspace, setting.Visits workspace →
          setting.Recognises workspace) := by
  refine ⟨fun path => ⟨normalize_normalize path, isCanonical_normalize path⟩, normalize_join,
    fun _ _ => normalize_eq_iff, fun _ _ _ _ _ => importScript_congr, ?_⟩
  intro undotted workspace visits
  have keyed := visits.keyed undotted
  exact
    { different := keyed.pairwise
      refuses := fun neighbours _ span inside => keyed.importScript_refused neighbours span inside
      knows := fun neighbours _ span outside _ among =>
        keyed.importScript_known neighbours span outside among }

/-- A setting in which every file is empty. -/
def blank : LoadSetting := ⟨Config.standard, fun _ => some "", default, default⟩

/-- The workspace of a script that has imported a module. -/
def afterImport : Workspace :=
  let start := (Workspace.ofRegistry default).entering (normalize (join "." "CMakeLists.cmsl"))
  let action := Build.decls [.importModule ⟨.string, "lib/m.cmsl", Span.unknown⟩ Span.unknown]
  (action ⟨blank.builtins, neighboursWithin blank 1⟩ { (default : BuildState) with
    workspace := start }).2.workspace

/-- Witness: neither the script nor the module that it has imported is checked again by another
name.
-/
theorem known_by_place_respelled
    : blank.Visits afterImport
        ∧ (importScript blank .none "x/../CMakeLists.cmsl" Span.unknown afterImport).1 = none
        ∧ ∃ known ∈ afterImport.imports, known.1 = "lib/m.cmsl"
          ∧ importScript blank .none "./lib//x/../m.cmsl" Span.unknown afterImport =
              (some known.2, afterImport) := by
  have undotted : blank.Undotted := by
    unfold Undotted
    decide +kernel
  have visits : blank.Visits afterImport :=
    .check 1 (.decls _) (.start "CMakeLists.cmsl" rfl rfl)
  have inside : afterImport.inProgress = ["CMakeLists.cmsl"] := by decide +kernel
  have imported : afterImport.imports.map (·.1) = ["lib/m.cmsl"] := by decide +kernel
  obtain ⟨-, -, alike, -, recognised⟩ := known_by_place blank
  have recognises := recognised undotted afterImport visits
  refine ⟨visits, ?_, ?_⟩
  · have refused := recognises.refuses .none "x/../CMakeLists.cmsl" Span.unknown
      ⟨"CMakeLists.cmsl", by simp [inside], (alike _ _).mp (by decide +kernel)⟩
    rw [refused]
  · have among : "lib/m.cmsl" ∈ afterImport.imports.map (·.1) := by simp [imported]
    obtain ⟨known, member, named⟩ := List.mem_map.mp among
    refine ⟨known, member, named, ?_⟩
    refine recognises.knows .none "./lib//x/../m.cmsl" Span.unknown ?_ known member ?_
    · rw [inside, List.forall_mem_singleton, ← alike]
      decide +kernel
    · rw [← alike, named]
      decide +kernel

/-- The text of a script that imports itself. -/
def selfImportingText : String := "import \"m.cmsl\"; int main() \x7b return 0; \x7d"

/-- A session in which the name of scripts begins with a dot, and a script adds a directory whose
script imports itself.
-/
def dotted : Session :=
  .start { Config.standard with scriptName := "./m.cmsl" }
    (.ofFiles [("m.cmsl", selfImportingText),
      ("x/main.cmsl", "int main() \x7b add_subdirectory(\"..\"); return 0; \x7d")])

set_option maxRecDepth 100000 in
/-- A dot in the name of scripts goes into the path of a script that is being checked. So the script
may import itself: it is checked once more, and only then recognised.
-/
theorem checked_again_when_dotted
    : (∃ workspace, dotted.loadSetting.Visits workspace
        ∧ workspace.inProgress = ["./m.cmsl", "x/main.cmsl"]
        ∧ ¬ dotted.loadSetting.Recognises workspace)
      ∧ ((Session.compileFile "x/main.cmsl" dotted).2.diagnostics.map fun diagnostic =>
          (diagnostic.message, diagnostic.span.file)) =
          [("circular import of 'm.cmsl'", "m.cmsl"), ("Importing failed", "m.cmsl"),
            ("Importing failed", "./m.cmsl"),
            ("failed to add subdirectory '..'", "x/main.cmsl")] := by
  have visits : dotted.loadSetting.Visits
      (((dotted.workspace "x/main.cmsl" "").entering "x/main.cmsl").entering "./m.cmsl") :=
    .enter (.added "..") (.start "x/main.cmsl" rfl rfl)
  refine ⟨⟨_, visits, rfl, fun recognises => ?_⟩, by decide +kernel⟩
  have refused := recognises.refuses (neighboursWithin dotted.loadSetting 1) "m.cmsl" Span.unknown
    ⟨"./m.cmsl", List.mem_cons_self, normalize_eq_iff.mp (by decide +kernel)⟩
  have texts := congrArg (fun result => result.2.texts.length) refused
  revert texts
  decide +kernel

end LoadSetting

end BuildScript
