import BuildScript.Proofs.Run.OperationRequests
import BuildScript.Proofs.Workspace.Loading

/-! Laws of functions. A law says something of each function in a registry. When it holds of the
functions that the language itself provides, and of those of a script before and after their bodies
are checked, then it holds of all functions in an accepted program. So bodies are well scoped and
end in a `return`, their expressions are admitted, and `main` is a function of the script.
-/

namespace BuildScript

/-- Whether a provided function makes no request and has not the name of the function that is
called first.
-/
def Signature.isSilent (signature : Signature) : Bool :=
  signature.name != "main" && signature.operation.isSilent

/-- A law of functions. What it says of a function in a registry is still so when the registry has
gone on. Its other fields follow how a function comes about and what becomes of it.
-/
structure FunctionLaw (b : BuiltinTypes) where
  holds : Registry → FunctionInfo → Prop
  retain : ∀ {before after : Registry} {info}, holds before info → before.Retains after →
    holds after info
  unchecked : ∀ registry {info}, info.body = .script none → holds registry info
  component : ∀ (registry : Registry) {info} {component : Component},
    info.name = Registry.componentFunctionName → info.body = .component component →
    holds registry info
  provided : ∀ (registry : Registry) {info} {signature : Signature},
    signature.isSilent = true → info.name = signature.name →
    info.body = .builtin signature.operation → holds registry info
  deduced : ∀ {registry info} (type : TypeId), holds registry info →
    holds registry { info with returnType? := some type }
  checked : ∀ {registry : Registry} {body : TypedBlock} (info : FunctionInfo),
    body.wellScoped false = true → body.endsInReturn = true →
    registry.AdmitsAll b body.exprs →
    holds registry { info with body := .script (some body) }

namespace FunctionLaw

variable {b : BuiltinTypes} {law : FunctionLaw b} {before after registry : Registry}

/-- (Rules law registry) says that a law holds of all functions in a registry. -/
def Rules (law : FunctionLaw b) (registry : Registry) : Prop :=
  ∀ id, law.holds registry (registry.function id)

-----------------------------------------------------------------------------------------
-- Provided functions
-----------------------------------------------------------------------------------------

theorem listSignatures_silent (b : BuiltinTypes) (list value listRef valueRef : TypeId)
    : (Registry.listSignatures b list value listRef valueRef).all (·.isSilent) = true :=
  rfl

theorem externalSignatures_silent (b : BuiltinTypes) (external value externalRef : TypeId)
    : (Registry.externalSignatures b external value externalRef).all (·.isSilent) = true :=
  rfl

theorem enumSignatures_silent (b : BuiltinTypes) (id reference : TypeId)
    : (Registry.enumSignatures b id reference).all (·.isSilent) = true :=
  rfl

namespace Rules

-----------------------------------------------------------------------------------------
-- Steps and programs
-----------------------------------------------------------------------------------------

theorem retain (rules : law.Rules before) (retains : before.Retains after)
    (same : after.functions = before.functions)
    : law.Rules after := by
  intro id
  rw [Registry.function, same]
  exact law.retain (rules id) retains

theorem addFunction {info : FunctionInfo} (rules : law.Rules registry)
    (own : law.holds registry info)
    : law.Rules (registry.addFunction info).2 := by
  have retains := (Registry.grows_addFunction registry info).retains
  intro id
  rw [Registry.function_addFunction]
  split
  · exact law.retain own retains
  · exact law.retain (rules id) retains

theorem modifyFunction {id : FunctionId} {change : FunctionInfo → FunctionInfo}
    (rules : law.Rules registry) (grows : registry.Grows (registry.modifyFunction id change))
    (kept : law.holds registry (change (registry.function id)))
    : law.Rules (registry.modifyFunction id change) := by
  intro other
  rw [Registry.function_modifyFunction]
  split
  · next changed =>
      rw [← changed.1]
      exact law.retain kept grows.retains
  · exact law.retain (rules other) grows.retains

theorem addBuiltin {context : ContextId} {signature : Signature} (rules : law.Rules registry)
    (silent : signature.isSilent = true)
    : law.Rules (registry.addBuiltin context signature.name signature.params signature.result
        signature.operation).2 := by
  refine addFunction (rules.retain ?_ ?_) (law.provided _ silent rfl rfl)
  · rw [Registry.numberParams_same]
    refine Registry.Grows.retains ?_
    exact .ofSame rfl rfl rfl rfl
  · rw [Registry.numberParams_same]

/-- Provided functions that make no requests may be added, by induction over their declarations. -/
theorem addBuiltins {context : ContextId} {signatures : List Signature}
    (rules : law.Rules registry) (silent : signatures.all (·.isSilent) = true)
    : law.Rules (registry.addBuiltins context signatures) := by
  induction signatures generalizing registry with
  | nil => exact rules
  | cons first rest ih =>
      obtain ⟨firstSilent, restSilent⟩ := (Bool.and_eq_true ..).mp silent
      exact ih (rules.addBuiltin firstSilent) restSilent

theorem addReference (rules : law.Rules registry) (id : TypeId)
    : law.Rules (registry.addReference id).2 := by
  refine rules.retain (Registry.grows_addReference registry id).retains ?_
  rcases Registry.addReference_cases registry id with
    ⟨same, _⟩ | ⟨existing, same, _⟩ | ⟨_, _, added⟩
  · rw [same]
  · rw [same]
  · rw [added]
    rfl

theorem addEnumFunctions (rules : law.Rules registry) (builtins : BuiltinTypes) (id : TypeId)
    : law.Rules (registry.addEnumFunctions builtins id) :=
  (rules.addReference id).addBuiltins (enumSignatures_silent _ _ _)

theorem addGenericFunctions (rules : law.Rules registry) (builtins : BuiltinTypes)
    (family : GenericFamily) (id value : TypeId)
    : law.Rules (registry.addGenericFunctions builtins family id value) := by
  cases family with
  | list =>
      exact ((rules.addReference value).addReference id).addBuiltins
        (listSignatures_silent _ _ _ _ _)
  | external => exact (rules.addReference id).addBuiltins (externalSignatures_silent _ _ _ _)

theorem addGeneric (rules : law.Rules registry) (builtins : BuiltinTypes)
    (family : GenericFamily) (value : TypeId)
    : law.Rules (registry.addGeneric builtins family value).2 := by
  rcases Registry.addGeneric_cases registry builtins family value with
    ⟨existing, same, _⟩ | ⟨missing, added⟩
  · rw [same]
    exact rules
  · rw [added]
    have grows := @Registry.grows_addInstance registry builtins family _ missing
    exact addGenericFunctions (rules.retain grows.retains rfl) builtins family _ _

/-- Every step of a declaration leaves the law in force, by cases on the step. -/
theorem step (rules : law.Rules registry) (step : registry.Step b after) : law.Rules after := by
  have grows := step.grows
  cases step with
  | index => exact rules.retain grows.retains rfl
  | reference id => exact rules.addReference id
  | component component => exact rules.addFunction (law.component _ rfl rfl)
  | context kind name parent? => exact rules.retain grows.retains rfl
  | function info missing => exact rules.addFunction (law.unchecked _ missing)
  | assignment context object reference =>
      exact @addBuiltin _ _ _ context ⟨"=", [object], reference, .assignObject⟩ rules rfl
  | deduction id type => exact rules.modifyFunction grows (law.deduced type (rules id))
  | body id body script inside ends admits =>
      exact rules.modifyFunction grows (law.checked _ inside ends admits)
  | enumeration id => exact rules.addEnumFunctions b id

end Rules

end FunctionLaw

/-- Checks leave a law of functions in force, whatever types they declare. -/
def DeclLaw.functions (basis : Prelude) (law : FunctionLaw basis.builtins) : DeclLaw basis where
  load before after := law.Rules before.registry → law.Rules after.registry
  keeps before after := law.Rules before.workspace.registry → law.Rules after.workspace.registry
  refl _ rules := rules
  trans first second rules := second (first rules)
  workspace related := related
  report _ _ rules := rules
  index _ rules := rules.step .index
  reference _ id _ rules := rules.addReference id
  generic _ family value _ rules := rules.addGeneric _ family value
  names _ _ _ rules := rules
  signals _ _ _ rules := rules
  localScope related := related
  declares before _ after := law.Rules before.workspace.registry →
    law.Rules after.workspace.registry
  loads before _ after := law.Rules before.registry → law.Rules after.registry
  kept related := related
  follow first second rules := second (first rules)
  loadTrans first second rules := second (first rules)
  loadThenLoads first second rules := second (first rules)
  loadsThenLoad first second rules := second (first rules)
  quiet same _ rules := by
    rw [same]
    exact rules
  step taken rules := rules.step taken
  members _ _ rules := rules.retain (Registry.retains_setMembers _ _ _) rfl
  finished related _ := related
  script related := related
  declared state name contextKind kind base? exported _ _ _ _ rules :=
    rules.retain (state.grows_addType name contextKind kind base? exported).retains rfl
  namedScopes _ related := related
  merged _ _ _ _ rules := rules

/-- A law that holds of all provided functions, and of one that is not known, holds of all
functions in an accepted program. Witness: the law of declarations that leave it in force.
-/
theorem Program.Accepted.rules {program : Program} (accepted : program.Accepted)
    (law : FunctionLaw Prelude.standard.builtins)
    (provided : ∀ info ∈ Prelude.standard.registry.functions.toList,
      law.holds Prelude.standard.registry info)
    : law.Rules program.registry := by
  have start : law.Rules Prelude.standard.registry := by
    intro id
    rw [Registry.function, Array.getD_eq_getD_getElem?]
    cases found : Prelude.standard.registry.functions[id.index]? with
    | none => exact law.unchecked _ rfl
    | some info =>
        exact provided info (Array.mem_toList_iff.mpr (Array.mem_of_getElem? found))
  obtain ⟨before, after, first, _, loads, _, registry, _⟩ := accepted.loads (.functions _ law)
  rw [registry]
  exact loads (first ▸ start)

-----------------------------------------------------------------------------------------
-- Bodies
-----------------------------------------------------------------------------------------

/-- Each provided function stands for an operation. -/
theorem Prelude.standard_provided
    : ∀ info ∈ Prelude.standard.registry.functions.toList,
        ∃ operation, info.body = .builtin operation := by
  intro info among
  have builtin := List.all_eq_true.mp Prelude.standard_builtin info among
  obtain ⟨name, params, span, returnType?, context, body⟩ := info
  cases body with
  | builtin operation => exact ⟨operation, rfl⟩
  | _ => cases builtin

/-- The bodies of functions are well scoped. -/
def FunctionLaw.scoping (b : BuiltinTypes) : FunctionLaw b where
  holds _ info := info.body.wellScoped = true
  retain inside _ := inside
  unchecked _ _ missing := by
    rw [missing]
    rfl
  component _ _ _ _ made := by
    rw [made]
    rfl
  provided _ _ _ _ _ made := by
    rw [made]
    rfl
  deduced _ inside := inside
  checked _ inside _ _ := inside

/-- The functions of an accepted program are well scoped. Witness: the law of scoping. -/
theorem Program.Accepted.wellScoped {program : Program} (accepted : program.Accepted)
    : program.registry.WellScoped := by
  refine accepted.rules (.scoping _) fun info among => ?_
  obtain ⟨operation, body⟩ := Prelude.standard_provided info among
  show info.body.wellScoped = true
  rw [body]
  rfl

/-- The bodies of functions end in a `return`. -/
def FunctionLaw.returning (b : BuiltinTypes) : FunctionLaw b where
  holds _ info := info.body.endsInReturn = true
  retain ends _ := ends
  unchecked _ _ missing := by
    rw [missing]
    rfl
  component _ _ _ _ made := by
    rw [made]
    rfl
  provided _ _ _ _ _ made := by
    rw [made]
    rfl
  deduced _ ends := ends
  checked _ _ ends _ := ends

/-- The functions of an accepted program end in a `return`. Witness: the law of returning. -/
theorem Program.Accepted.endsInReturn {program : Program} (accepted : program.Accepted)
    (id : FunctionId)
    : (program.registry.function id).body.endsInReturn = true := by
  refine accepted.rules (.returning _) (fun info among => ?_) id
  obtain ⟨operation, body⟩ := Prelude.standard_provided info among
  show info.body.endsInReturn = true
  rw [body]
  rfl

/-- A registry admits the bodies of functions when it admits the expressions in them. -/
def Registry.AdmitsBodies (b : BuiltinTypes) (registry : Registry) : Prop :=
  ∀ id body, (registry.function id).body = .script (some body) → registry.AdmitsAll b body.exprs

/-- The expressions in the bodies of functions are admitted. -/
def FunctionLaw.casting (b : BuiltinTypes) : FunctionLaw b where
  holds registry info :=
    ∀ body, info.body = .script (some body) → registry.AdmitsAll b body.exprs
  retain admits retains body found := (admits body found).retain retains
  unchecked _ _ missing body found := nomatch missing.symm.trans found
  component _ _ _ _ made body found := nomatch made.symm.trans found
  provided _ _ _ _ _ made body found := nomatch made.symm.trans found
  deduced _ admits := admits
  checked _ _ _ admits body found := by
    cases found
    exact admits

/-- The expressions in the functions of an accepted program are admitted. Witness: the law of
casting.
-/
theorem Program.Accepted.admitsBodies {program : Program} (accepted : program.Accepted)
    : program.registry.AdmitsBodies Prelude.standard.builtins := by
  refine accepted.rules (.casting _) fun info among body found => ?_
  obtain ⟨operation, provided⟩ := Prelude.standard_provided info among
  exact nomatch provided.symm.trans found

-----------------------------------------------------------------------------------------
-- Ordinary functions
-----------------------------------------------------------------------------------------

/-- Whether a function is ordinary: only one of a script may be called `main`, and a provided one
without parameters makes no request, unless it is the one that enables tests.
-/
def FunctionInfo.isOrdinary (info : FunctionInfo) : Bool :=
  match info.body with
  | .script _ => true
  | .component _ => info.name != "main"
  | .builtin operation =>
    info.name != "main"
      && (!info.params.isEmpty || operation.isSilent
        || operation matches .system .enableCtest)

/-- Functions are ordinary. -/
def FunctionLaw.ordinary (b : BuiltinTypes) : FunctionLaw b where
  holds _ info := info.isOrdinary = true
  retain ordinary _ := ordinary
  unchecked _ _ missing := by
    rw [FunctionInfo.isOrdinary, missing]
  component _ _ _ name made := by
    rw [FunctionInfo.isOrdinary, made, name]
    rfl
  provided _ _ _ silent name made := by
    obtain ⟨nameless, silent⟩ := (Bool.and_eq_true ..).mp silent
    rw [FunctionInfo.isOrdinary, made, name]
    simp only [nameless, silent, Bool.true_or, Bool.or_true, Bool.and_self]
  deduced _ ordinary := ordinary
  checked _ _ _ _ := rfl

set_option maxRecDepth 100000 in
/-- The functions of an accepted program are ordinary. Witness: the law of ordinary functions. -/
theorem Program.Accepted.ordinary {program : Program} (accepted : program.Accepted)
    (id : FunctionId)
    : (program.registry.function id).isOrdinary = true := by
  have provided : Prelude.standard.registry.functions.toList.all (·.isOrdinary) = true := by
    decide +kernel
  exact accepted.rules (.ordinary _) (List.all_eq_true.mp provided) id

/-- The function that an accepted program calls first is one of its script. Witness: it is called
`main`, as no provided function is.
-/
theorem Program.Accepted.main_script {program : Program} (accepted : program.Accepted)
    : ∃ body?, (program.registry.function program.main).body = .script body? := by
  have named : (program.registry.function program.main).name = "main" := by
    obtain ⟨nesting, path, source, session, compiled⟩ := accepted
    obtain ⟨built, after, builds, main, same⟩ := Session.exists_builds compiled
    rw [same]
    exact ((builds.lawful (.functions _ (.scoping _))).1.main _ main).name
  have ordinary := accepted.ordinary program.main
  rw [FunctionInfo.isOrdinary, named] at ordinary
  cases body : (program.registry.function program.main).body with
  | script body? => exact ⟨body?, rfl⟩
  | component component =>
      rw [body] at ordinary
      exact nomatch ordinary
  | builtin operation =>
      rw [body] at ordinary
      exact nomatch ordinary

end BuildScript
