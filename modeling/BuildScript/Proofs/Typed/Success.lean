import BuildScript.Typed.Decl

/-! Checks that succeed. A check that fails makes the whole compilation fail, so that what is
proved of a checked script needs the successful checks only.
-/

namespace BuildScript

/-- A function that is chosen is one of the candidates and takes the arguments, by induction over
the groups.
-/
theorem Registry.chooseOverload_viable {registry : Registry} {arguments : List TypeId}
    {groups : List (List FunctionId)} {function : FunctionId}
    (chosen : registry.chooseOverload arguments groups = .ok function)
    : ∃ group ∈ groups, function ∈ group
      ∧ (registry.totalFitness? (registry.function function).params arguments).isSome = true := by
  induction groups with
  | nil => exact nomatch chosen
  | cons candidates groups ih =>
      rw [chooseOverload] at chosen
      split at chosen
      · obtain ⟨group, among, fits⟩ := ih chosen
        exact ⟨group, .tail _ among, fits⟩
      · next winner best =>
          cases chosen
          have winners : function ∈ bestOf (registry.viable candidates arguments) := by
            rw [best]
            exact .head _
          obtain ⟨scored, found, rfl⟩ := List.mem_map.mp winners
          obtain ⟨candidate, among, scores⟩ := List.mem_filterMap.mp (List.mem_filter.mp found).1
          obtain ⟨score, fits, rfl⟩ := Option.map_eq_some_iff.mp scores
          exact ⟨candidates, .head _, among, by rw [fits]; rfl⟩
      · exact nomatch chosen

/-- Arguments fit as many parameters, by induction over the parameters. -/
theorem Registry.length_of_totalFitness? {registry : Registry} {params : List Param}
    {arguments : List TypeId} (fits : (registry.totalFitness? params arguments).isSome = true)
    : params.length = arguments.length := by
  induction params generalizing arguments with
  | nil =>
      cases arguments with
      | nil => rfl
      | cons argument arguments => simp [totalFitness?] at fits
  | cons param params ih =>
      cases arguments with
      | nil => simp [totalFitness?] at fits
      | cons argument arguments =>
          obtain ⟨score, sum⟩ := Option.isSome_iff_exists.mp fits
          obtain ⟨own, _, rest⟩ := Option.bind_eq_some_iff.mp sum
          obtain ⟨others, found, _⟩ := Option.map_eq_some_iff.mp rest
          exact congrArg (· + 1) (ih (Option.isSome_iff_exists.mpr ⟨others, found⟩))

namespace Build

variable {α β : Type} {setting : BuildSetting} {before after : BuildState}

/-- (Gives action setting before value after) says that a check succeeds with a value and leads
from one state to another.
-/
def Gives (action : Build α) (setting : BuildSetting) (before : BuildState) (value : α)
    (after : BuildState)
    : Prop :=
  action setting before = (some value, after)

@[simp]
theorem gives_pure {given value : α}
    : Gives (pure given) setting before value after ↔ value = given ∧ after = before := by
  constructor
  · intro gives
    cases gives
    exact ⟨rfl, rfl⟩
  · rintro ⟨rfl, rfl⟩
    rfl

/-- Two checks in a row succeed when each does, by cases on the outcome of the first. -/
@[simp]
theorem gives_bind {action : Build α} {next : α → Build β} {value : β}
    : Gives (action >>= next) setting before value after ↔
        ∃ first middle, Gives action setting before first middle
          ∧ Gives (next first) setting middle value after := by
  have unfolded : (action >>= next) setting before =
      match action setting before with
      | (some first, middle) => next first setting middle
      | (none, middle) => (none, middle) := by
    simp only [Bind.bind, ReaderT.bind, OptionT.bind, OptionT.mk, StateT.bind]
    cases action setting before with
    | mk result middle => cases result <;> rfl
  unfold Gives
  rw [unfolded]
  cases outcome : action setting before with
  | mk result middle =>
      cases result with
      | none =>
          constructor
          · exact fun gives => nomatch gives
          · rintro ⟨first, reached, impossible, _⟩
            exact nomatch impossible
      | some first =>
          constructor
          · exact fun gives => ⟨first, middle, rfl, gives⟩
          · rintro ⟨given, reached, same, gives⟩
            cases same
            exact gives

@[simp]
theorem gives_map {action : Build α} {change : α → β} {value : β}
    : Gives (change <$> action) setting before value after ↔
        ∃ first, Gives action setting before first after ∧ value = change first := by
  rw [← bind_pure_comp, gives_bind]
  constructor
  · rintro ⟨first, middle, gives, last⟩
    obtain ⟨rfl, rfl⟩ := gives_pure.mp last
    exact ⟨first, gives, rfl⟩
  · rintro ⟨first, gives, rfl⟩
    exact ⟨first, after, gives, gives_pure.mpr ⟨rfl, rfl⟩⟩

@[simp]
theorem gives_failure {value : α} : ¬ Gives failure setting before value after :=
  fun gives => nomatch gives

@[simp]
theorem gives_get {value : BuildState}
    : Gives get setting before value after ↔ value = before ∧ after = before := by
  constructor
  · intro gives
    cases gives
    exact ⟨rfl, rfl⟩
  · rintro ⟨rfl, rfl⟩
    rfl

@[simp]
theorem gives_read {value : BuildSetting}
    : Gives read setting before value after ↔ value = setting ∧ after = before := by
  constructor
  · intro gives
    cases gives
    exact ⟨rfl, rfl⟩
  · rintro ⟨rfl, rfl⟩
    rfl

@[simp]
theorem gives_modifyGet {change : BuildState → α × BuildState} {value : α}
    : Gives (modifyGet change) setting before value after ↔ (value, after) = change before := by
  constructor
  · intro gives
    have same : (some (change before).1, (change before).2) = (some value, after) := gives
    cases same
    rfl
  · intro same
    show (some (change before).1, (change before).2) = (some value, after)
    rw [← same]

@[simp]
theorem gives_modify {change : BuildState → BuildState} {value : Unit}
    : Gives (modify change) setting before value after ↔ after = change before := by
  rw [show (modify change : Build Unit) = modifyGet fun state => ((), change state) from rfl,
    gives_modifyGet]
  exact ⟨fun same => congrArg Prod.snd same, fun same => by rw [same]⟩

@[simp]
theorem gives_set {state : BuildState} {value : Unit}
    : Gives (set state) setting before value after ↔ after = state := by
  constructor
  · intro gives
    cases gives
    rfl
  · rintro rfl
    rfl

@[simp]
theorem gives_onWorkspace {step : StateM Workspace α} {value : α}
    : Gives (onWorkspace step) setting before value after ↔
        ∃ workspace, step before.workspace = (value, workspace)
          ∧ after = { before with workspace } := by
  rw [onWorkspace, gives_modifyGet]
  constructor
  · intro same
    cases outcome : step before.workspace with
    | mk given workspace =>
        simp only [StateT.run, outcome, Prod.mk.injEq] at same
        exact ⟨workspace, by rw [same.1], same.2⟩
  · rintro ⟨workspace, outcome, rfl⟩
    simp only [StateT.run, outcome]

@[simp]
theorem gives_onRegistry {change : Registry → α × Registry} {value : α}
    : Gives (onRegistry change) setting before value after ↔
        ∃ registry, change before.workspace.registry = (value, registry)
          ∧ after = { before with workspace := { before.workspace with registry } } := by
  rw [onRegistry, gives_onWorkspace]
  constructor
  · rintro ⟨workspace, outcome, rfl⟩
    cases outcome
    exact ⟨_, rfl, rfl⟩
  · rintro ⟨registry, outcome, rfl⟩
    refine ⟨_, ?_, rfl⟩
    show ((change before.workspace.registry).1, _) = _
    rw [outcome]

/-- A check that rejects what it checks does not succeed. -/
@[simp]
theorem gives_reject {problem : Problem} {span : Span} {value : α}
    : ¬ Gives (reject problem span) setting before value after := by
  simp [reject]

@[simp]
theorem gives_registry {value : Registry}
    : Gives registry setting before value after ↔
        value = before.workspace.registry ∧ after = before := by
  simp only [registry, gives_bind, gives_get, gives_pure]
  constructor
  · rintro ⟨_, _, ⟨rfl, rfl⟩, rfl, rfl⟩
    exact ⟨rfl, rfl⟩
  · rintro ⟨rfl, rfl⟩
    exact ⟨_, _, ⟨rfl, rfl⟩, rfl, rfl⟩

@[simp]
theorem gives_symbols {value : Symbols}
    : Gives symbols setting before value after ↔
        value = before.symbols ∧ after = before := by
  simp only [symbols, gives_bind, gives_get, gives_pure]
  constructor
  · rintro ⟨_, _, ⟨rfl, rfl⟩, rfl, rfl⟩
    exact ⟨rfl, rfl⟩
  · rintro ⟨rfl, rfl⟩
    exact ⟨_, _, ⟨rfl, rfl⟩, rfl, rfl⟩

@[simp]
theorem gives_builtins {value : BuiltinTypes}
    : Gives builtins setting before value after ↔
        value = setting.builtins ∧ after = before := by
  simp only [builtins, gives_bind, gives_read, gives_pure]
  constructor
  · rintro ⟨_, _, ⟨rfl, rfl⟩, rfl, rfl⟩
    exact ⟨rfl, rfl⟩
  · rintro ⟨rfl, rfl⟩
    exact ⟨_, _, ⟨rfl, rfl⟩, rfl, rfl⟩

@[simp]
theorem gives_modifySymbols {change : Symbols → Symbols} {value : Unit}
    : Gives (modifySymbols change) setting before value after ↔
        after = { before with symbols := change before.symbols } := by
  rw [modifySymbols, gives_modify]

@[simp]
theorem gives_modifyRegistry {change : Registry → Registry} {value : Unit}
    : Gives (modifyRegistry change) setting before value after ↔
        after = { before with
          workspace := { before.workspace with
            registry := change before.workspace.registry } } := by
  rw [modifyRegistry, gives_onRegistry]
  constructor
  · rintro ⟨registry, outcome, rfl⟩
    cases outcome
    rfl
  · rintro rfl
    exact ⟨_, rfl, rfl⟩

/-- A check in a scope of its own succeeds when the check does, between entering and leaving. -/
@[simp]
theorem gives_inLocalScope {body : Build α} {value : α}
    : Gives (inLocalScope body) setting before value after ↔
        ∃ middle,
          Gives body setting { before with symbols := before.symbols.enterLocal } value middle
          ∧ after = { middle with symbols := middle.symbols.leave } := by
  simp only [inLocalScope, gives_bind, gives_modifySymbols, gives_pure]
  constructor
  · rintro ⟨_, _, rfl, given, middle, inner, _, _, rfl, rfl, rfl⟩
    exact ⟨middle, inner, rfl⟩
  · rintro ⟨middle, inner, rfl⟩
    exact ⟨(), _, rfl, value, middle, inner, (), _, rfl, rfl, rfl⟩

/-- The check of the body of a loop succeeds when the check does, with one more loop counted. -/
@[simp]
theorem gives_inLoop {body : Build α} {value : α}
    : Gives (inLoop body) setting before value after ↔
        ∃ middle,
          Gives body setting { before with loopDepth := before.loopDepth + 1 } value middle
          ∧ after = { middle with loopDepth := middle.loopDepth - 1 } := by
  simp only [inLoop, gives_bind, gives_modify, gives_pure]
  constructor
  · rintro ⟨_, _, rfl, given, middle, inner, _, _, rfl, rfl, rfl⟩
    exact ⟨middle, inner, rfl⟩
  · rintro ⟨middle, inner, rfl⟩
    exact ⟨(), _, rfl, value, middle, inner, (), _, rfl, rfl, rfl⟩

@[simp]
theorem gives_ite {condition : Prop} [Decidable condition] {whenTrue whenFalse : Build α}
    {value : α}
    : Gives (if condition then whenTrue else whenFalse) setting before value after ↔
        if condition then Gives whenTrue setting before value after
        else Gives whenFalse setting before value after := by
  split <;> rfl

@[simp]
theorem gives_isVoid {id : TypeId} {value : Bool}
    : Gives (isVoid id) setting before value after ↔
        value = (before.workspace.registry.type (before.workspace.registry.decayed id)).isVoid
          ∧ after = before := by
  simp only [isVoid, gives_bind, gives_registry, gives_pure]
  constructor
  · rintro ⟨_, _, ⟨rfl, rfl⟩, rfl, rfl⟩
    exact ⟨rfl, rfl⟩
  · rintro ⟨rfl, rfl⟩
    exact ⟨_, _, ⟨rfl, rfl⟩, rfl, rfl⟩

@[simp]
theorem gives_isConvertible {target : TypeId} {expr : TypedExpr} {value : Bool}
    : Gives (isConvertible target expr) setting before value after ↔
        value = (before.workspace.registry.fitness? target expr.type).isSome
          ∧ after = before := by
  simp only [isConvertible, gives_bind, gives_registry, gives_pure]
  constructor
  · rintro ⟨_, _, ⟨rfl, rfl⟩, rfl, rfl⟩
    exact ⟨rfl, rfl⟩
  · rintro ⟨rfl, rfl⟩
    exact ⟨_, _, ⟨rfl, rfl⟩, rfl, rfl⟩

@[simp]
theorem gives_generateIndex {value : Nat}
    : Gives generateIndex setting before value after ↔
        value = before.workspace.registry.nextIndex
          ∧ after = { before with
              workspace := { before.workspace with
                registry := before.workspace.registry.generateIndex.2 } } := by
  rw [generateIndex, gives_onRegistry]
  constructor
  · rintro ⟨registry, outcome, rfl⟩
    cases outcome
    exact ⟨rfl, rfl⟩
  · rintro ⟨rfl, rfl⟩
    exact ⟨_, rfl, rfl⟩

theorem gives_optionMapM {action : α → Build β} {element? : Option α} {value? : Option β}
    (gives : Gives (element?.mapM action) setting before value? after)
    : (element? = none ∧ value? = none ∧ after = before)
      ∨ ∃ element value, element? = some element ∧ value? = some value
          ∧ Gives (action element) setting before value after := by
  cases element? with
  | none =>
      obtain ⟨rfl, rfl⟩ := gives_pure.mp gives
      exact .inl ⟨rfl, rfl, rfl⟩
  | some element =>
      obtain ⟨value, given, rfl⟩ := gives_map.mp gives
      exact .inr ⟨element, value, rfl, rfl, given⟩

-----------------------------------------------------------------------------------------
-- Calls
-----------------------------------------------------------------------------------------

/-- Choosing a function changes nothing. -/
theorem gives_chooseFunction {groups : List (List FunctionId)} {arguments : List TypedExpr}
    {name : String} {span : Span} {function : FunctionId}
    (gives : Gives (chooseFunction groups arguments name span) setting before function after)
    : before.workspace.registry.chooseOverload (arguments.map (·.type)) groups = .ok function
      ∧ after = before := by
  simp only [chooseFunction, gives_bind, gives_registry] at gives
  obtain ⟨_, _, ⟨rfl, rfl⟩, gives⟩ := gives
  split at gives
  · next chosen found =>
      obtain ⟨rfl, rfl⟩ := gives_pure.mp gives
      exact ⟨found, rfl⟩
  · exact absurd gives gives_reject
  · simp at gives

/-- Asking what a function returns changes nothing. -/
theorem gives_returnType {function : FunctionId} {span : Span} {type : TypeId}
    (gives : Gives (returnType function span) setting before type after)
    : after = before := by
  simp only [returnType, gives_bind, gives_registry] at gives
  obtain ⟨_, _, ⟨rfl, rfl⟩, gives⟩ := gives
  split at gives
  · exact (gives_pure.mp gives).2
  · simp at gives

/-- Arguments that are made to fit as many parameters are as many, by induction over the
parameters.
-/
theorem length_fitArguments {params : List Param} {arguments fitted : List TypedExpr}
    (same : params.length = arguments.length)
    (gives : Gives (fitArguments params arguments) setting before fitted after)
    : fitted.length = arguments.length := by
  induction params generalizing arguments fitted before after with
  | nil =>
      cases arguments with
      | nil =>
          obtain ⟨rfl, _⟩ := gives_pure.mp gives
          rfl
      | cons argument arguments => cases same
  | cons param params ih =>
      cases arguments with
      | nil => cases same
      | cons argument arguments =>
          simp only [fitArguments, gives_bind, gives_pure] at gives
          obtain ⟨first, middle, _, others, last, rest, rfl, _⟩ := gives
          exact congrArg (· + 1) (ih (Nat.succ.inj same) rest)

/-- A call has as many arguments as it is given. -/
theorem length_memberFunction {groups : List (List FunctionId)} {arguments : List TypedExpr}
    {name : String} {span : Span} {call : FunctionId × TypeId × List TypedExpr}
    (gives : Gives (memberFunction groups arguments name span) setting before call after)
    : call.2.2.length = arguments.length := by
  simp only [memberFunction, gives_bind, gives_pure] at gives
  obtain ⟨function, first, chosen, type, second, returned, fitted, third, fits, rfl, _⟩ := gives
  obtain ⟨found, rfl⟩ := gives_chooseFunction chosen
  obtain rfl := gives_returnType returned
  simp only [fitCall, gives_bind, gives_registry] at fits
  obtain ⟨_, _, ⟨rfl, rfl⟩, fits⟩ := fits
  obtain ⟨_, _, _, takes⟩ := Registry.chooseOverload_viable found
  refine length_fitArguments ?_ fits
  rw [Registry.length_of_totalFitness? takes, List.length_map]

-----------------------------------------------------------------------------------------
-- Declarations of variables
-----------------------------------------------------------------------------------------

/-- The type of a variable, deduced or written. -/
def variableType (decl : VariableDecl) (initial? : Option TypedExpr) : Build TypeId :=
  if decl.type.isAuto then deducedType decl initial? else resolveType decl.type

/-- The steps of the check of a variable: its initial value and its type are checked, they are
made to fit, and the variable is numbered and named.
-/
theorem gives_variableDecl {decl : VariableDecl} {typed : TypedVariable}
    (gives : (variableDecl decl).Gives setting before typed after)
    : ∃ initial? evaluated type resolved fitted? fitted,
        (decl.initial?.mapM expr).Gives setting before initial? evaluated
        ∧ (variableType decl initial?).Gives setting evaluated type resolved
        ∧ (resolved.workspace.registry.type
            (resolved.workspace.registry.decayed type)).isVoid = false
        ∧ (fitInitial decl type initial?).Gives setting resolved fitted? fitted
        ∧ typed
          = ⟨type, decl.name.value, fitted.workspace.registry.nextIndex, fitted?, decl.span⟩
        ∧ after = { fitted with
            workspace := { fitted.workspace with
              registry := fitted.workspace.registry.generateIndex.2 }
            symbols := { fitted.symbols with
              ids := fitted.symbols.ids.register decl.name.value
                ⟨type, fitted.workspace.registry.nextIndex⟩ decl.exported } } := by
  simp only [variableDecl, gives_bind, gives_get, gives_ite] at gives
  obtain ⟨_, _, ⟨rfl, rfl⟩, gives⟩ := gives
  split at gives
  · exact absurd gives gives_reject
  obtain ⟨initial?, evaluated, initial, gives⟩ := gives
  split at gives
  all_goals
    next auto =>
      obtain ⟨type, _, determined, empty, resolved, checked, gives⟩ := gives
      obtain ⟨rfl, rfl⟩ := gives_isVoid.mp checked
      split at gives
      · exact absurd gives gives_reject
      next inhabited =>
        simp only [gives_generateIndex, gives_modifySymbols, gives_pure] at gives
        obtain ⟨fitted?, fitted, fits, _, _, ⟨rfl, rfl⟩, _, _, rfl, rfl, rfl⟩ := gives
        exact ⟨initial?, evaluated, type, resolved, fitted?, fitted, initial,
          by simpa [variableType, auto] using determined, by simpa using inhabited, fits, rfl,
          rfl⟩

end Build

end BuildScript
