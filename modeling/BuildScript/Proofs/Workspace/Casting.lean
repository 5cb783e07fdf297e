import BuildScript.Proofs.Workspace.TypeNames

/-! Casts in scripts. Where a cast is put in, the value was seen to fit, and this is still so when
the script is complete. So all casts in a script that is built make sense, and so do those in the
modules that it leads to.
-/

namespace BuildScript

-----------------------------------------------------------------------------------------
-- The law of casts
-----------------------------------------------------------------------------------------

/-- A workspace admits its modules when its registry admits the expressions in them. -/
def Workspace.AdmitsModules (b : BuiltinTypes) (workspace : Workspace) : Prop :=
  ∀ finished ∈ workspace.modules, workspace.registry.AdmitsAll b finished.scriptUnit.exprs

namespace Workspace.AdmitsModules

variable {b : BuiltinTypes} {before after : Workspace}

theorem retain (admits : before.AdmitsModules b)
    (retains : before.registry.Retains after.registry) (modules : after.modules = before.modules)
    : after.AdmitsModules b := by
  intro finished among
  rw [modules] at among
  exact (admits finished among).retain retains

theorem mono (admits : before.AdmitsModules b) {registry : Registry}
    (grows : before.registry.Grows registry)
    : AdmitsModules b { before with registry } :=
  admits.retain grows.retains rfl

/-- A script whose expressions are admitted may be finished. -/
theorem finish (admits : after.AdmitsModules b) (path : String) {scriptUnit : TypedUnit}
    (own : after.registry.AdmitsAll b scriptUnit.exprs)
    : AdmitsModules b { after with modules := after.modules ++ [⟨path, scriptUnit⟩] } := by
  intro finished among
  rcases List.mem_append.mp among with old | new
  · exact admits finished old
  · rw [List.mem_singleton.mp new]
    exact own

end Workspace.AdmitsModules

/-- Checks leave all modules admitted, whatever types they declare. -/
def DeclLaw.casting (basis : Prelude) : DeclLaw basis where
  load before after :=
    before.AdmitsModules basis.builtins → after.AdmitsModules basis.builtins
  keeps before after :=
    before.workspace.AdmitsModules basis.builtins → after.workspace.AdmitsModules basis.builtins
  refl _ admits := admits
  trans first second admits := second (first admits)
  workspace related := related
  report _ _ admits := admits
  index _ admits := admits.mono (.ofSame rfl rfl rfl rfl)
  reference _ id _ admits := admits.mono (Registry.grows_addReference _ id)
  generic _ family value _ admits := admits.mono (Registry.grows_addGeneric _ _ family value)
  names _ _ _ admits := admits
  signals _ _ _ admits := admits
  localScope related := related
  declares before _ after :=
    before.workspace.AdmitsModules basis.builtins → after.workspace.AdmitsModules basis.builtins
  loads before _ after :=
    before.AdmitsModules basis.builtins → after.AdmitsModules basis.builtins
  kept related := related
  follow first second admits := second (first admits)
  loadTrans first second admits := second (first admits)
  loadThenLoads first second admits := second (first admits)
  loadsThenLoad first second admits := second (first admits)
  quiet registry modules admits := admits.retain (by rw [registry]; exact .refl _) modules
  step taken admits := admits.mono taken.grows
  members _ _ admits := admits.retain (Registry.retains_setMembers _ _ _) rfl
  finished related own admits := (related admits).finish _ own
  script related := related
  declared state name contextKind kind base? exported _ _ _ _ admits :=
    admits.mono (state.grows_addType name contextKind kind base? exported)
  namedScopes _ related := related
  merged _ _ _ _ admits := admits

-----------------------------------------------------------------------------------------
-- Built scripts
-----------------------------------------------------------------------------------------

namespace Session.Builds

variable {session : Session} {nesting : Nat} {path source : String} {built : BuiltScript}
  {after : Workspace}

/-- References are regular when a script is built, since its types are named. -/
theorem regular (builds : session.Builds nesting path source built after)
    : after.registry.Regular Prelude.standard.builtins := by
  have named := ((builds.lawful .naming).1.loads.related.named (.ofPrelude rfl rfl)).1
  refine named.registry.regular (List.mem_append_left _ ?_)
  simp [Prelude.provided, BuiltinTypes.types]

/-- The expressions in a built script, and in all modules it leads to, are admitted. Witness: the
law of casts.
-/
theorem admits_scripts (builds : session.Builds nesting path source built after)
    : ∀ scriptUnit ∈ after.modules.map (·.scriptUnit) ++ [built.scriptUnit],
        after.registry.AdmitsAll Prelude.standard.builtins scriptUnit.exprs := by
  have lawful := (builds.lawful (.casting _)).1
  have none : (session.workspace path source).AdmitsModules Prelude.standard.builtins :=
    fun _ absent => absurd absent List.not_mem_nil
  intro scriptUnit among
  rcases List.mem_append.mp among with inModules | main
  · obtain ⟨finished, loaded, rfl⟩ := List.mem_map.mp inModules
    exact lawful.loads.related none finished loaded
  · rw [List.mem_singleton.mp main]
    exact lawful.admits

/-- Casts make sense. Wherever a cast of some type stands around an expression in a script that is
built, or in a module that it leads to, the two types are not the same, and the kind of the cast
tells how they are related. A cast to a reference or to a value is one between a reference and a
value of the same type. A cast to a base is one from a type that is strictly derived from the other,
to a reference or to a value.
-/
theorem casts_convert (builds : session.Builds nesting path source built after)
    : ∀ scriptUnit ∈ after.modules.map (·.scriptUnit) ++ [built.scriptUnit],
        ∀ outermost ∈ scriptUnit.exprs,
        ∀ (cast inner : TypedExpr) (kind : CastKind), outermost.Contains cast →
          cast.kind = .cast kind inner →
          after.registry.Converts kind cast.type inner.type
            ∧ after.registry.sameType cast.type inner.type = false := by
  intro scriptUnit among outermost inScript
  have admits := builds.admits_scripts scriptUnit among outermost inScript
  exact admits.casts after.registry (.refl _) builds.regular

end Session.Builds

/-- The expressions that give the global variables of an accepted program their first values are
admitted, those of its modules included.
-/
theorem Program.Accepted.admits_initial {program : Program} (accepted : program.Accepted)
    : ∀ scriptUnit ∈ program.modules.map (·.scriptUnit) ++ [program.scriptUnit],
        ∀ decl ∈ scriptUnit.globals, ∀ initial, decl.initial? = some initial →
          program.registry.Admits Prelude.standard.builtins initial := by
  obtain ⟨nesting, path, source, session, compiled⟩ := accepted
  obtain ⟨built, after, builds, _, same⟩ := Session.exists_builds compiled
  rw [same]
  exact fun scriptUnit among decl declared initial found =>
    builds.admits_scripts scriptUnit among initial (TypedUnit.initial_exprs declared found)

/-- A script with casts of all kinds around the initial values of variables. -/
def castingText : String :=
  "class A \x7b int x; \x7d class B : A \x7b int y; \x7d
   void convert() \x7b
     int i = 1; int& r = i; int j = r; B b = B(); A& s = b; A a = b;
   \x7d"

/-- The kinds of the casts among expressions. -/
def castKinds (exprs : List TypedExpr) : List CastKind :=
  exprs.filterMap fun expr =>
    match expr.kind with
    | .cast kind _ => some kind
    | _ => none

/-- What a session without files builds from the script with casts of all kinds. -/
def builtCasting : Option BuiltScript × Workspace :=
  let session := Session.start Config.standard fun _ => none
  Workspace.buildSource session.loadSetting (Workspace.neighboursWithin session.loadSetting 0) ""
    castingText (session.workspace "" castingText)

set_option maxRecDepth 100000 in
/-- The script with casts of all kinds is built, and these are in it. -/
theorem builtCasting_kinds
    : (builtCasting.1.map fun built => (castKinds built.scriptUnit.exprs, built.main?.isNone)) =
        some ([.reference, .value, .baseReference, .baseValue], true) := by
  decide +kernel

/-- There are casts of all kinds in one script that has no function called `main`, and they make
sense.
-/
theorem Session.Builds.casts_convert_castingText
    : ∃ built after, Session.Builds (.start Config.standard fun _ => none) 0 "" castingText built
          after
        ∧ built.main? = none
        ∧ ∀ kind, ∃ cast ∈ built.scriptUnit.exprs, ∃ inner, cast.kind = .cast kind inner
          ∧ after.registry.Converts kind cast.type inner.type
          ∧ after.registry.sameType cast.type inner.type = false := by
  obtain ⟨built, outcome, found⟩ := Option.map_eq_some_iff.mp builtCasting_kinds
  obtain ⟨kinds, mainless⟩ := Prod.mk.inj found
  have builds : Session.Builds (.start Config.standard fun _ => none) 0 "" castingText built
      builtCasting.2 :=
    (Prod.eta builtCasting).symm.trans (congrArg (·, builtCasting.2) outcome)
  refine ⟨built, builtCasting.2, builds, Option.isNone_iff_eq_none.mp mainless, fun kind => ?_⟩
  have among : kind ∈ castKinds built.scriptUnit.exprs := by
    rw [kinds]
    cases kind <;> decide
  obtain ⟨cast, inScript, same⟩ := List.mem_filterMap.mp among
  split at same
  · next other inner isCast =>
      cases same
      exact ⟨cast, inScript, inner, isCast, builds.casts_convert built.scriptUnit
        (List.mem_append_right _ (.head _)) cast inScript cast inner kind (.self cast) isCast⟩
  · exact nomatch same

end BuildScript
