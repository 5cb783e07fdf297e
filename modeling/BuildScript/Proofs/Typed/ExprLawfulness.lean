import BuildScript.Proofs.Typed.ExprLaw

/-! The checks of expressions keep every law of expressions. They are followed function by
function, with the types and functions that each of them gives, and with the casts that are put in.
-/

namespace BuildScript.Build

-----------------------------------------------------------------------------------------
-- Casts
-----------------------------------------------------------------------------------------

mutual

/-- Making an expression fit a type changes nothing, by induction over expressions. -/
theorem fit_same (target : TypeId) (expr : TypedExpr) {setting : BuildSetting}
    {before after : BuildState} {typed : TypedExpr}
    (gives : (fit target expr).Gives setting before typed after)
    : after = before := by
  cases expr with
  | mk kind type span =>
      rw [fit] at gives
      simp only [gives_bind, gives_registry, gives_ite] at gives
      obtain ⟨_, _, ⟨rfl, rfl⟩, gives⟩ := gives
      split at gives
      · cases kind with
        | pending fields =>
            simp only [gives_ite, gives_bind, gives_builtins, gives_pure] at gives
            split at gives
            · obtain ⟨_, _, inner, _, rfl⟩ := gives
              exact fitFields_same _ [] fields inner
            · obtain ⟨_, _, _, impossible⟩ := gives
              exact absurd impossible gives_reject
        | _ => exact (gives_pure.mp gives).2
      · split at gives
        · exact (gives_pure.mp gives).2
        · exact (gives_pure.mp gives).2
termination_by structural expr

theorem fitFields_same (object : TypeId) (seen : List Nat) (fields : List PendingField)
    {setting : BuildSetting} {before after : BuildState} {values : List MemberValue}
    (gives : (fitFields object seen fields).Gives setting before values after)
    : after = before := by
  cases fields with
  | nil => exact (gives_pure.mp gives).2
  | cons first rest =>
      cases first with
      | mk name value span =>
          rw [fitFields] at gives
          simp only [gives_bind, gives_registry] at gives
          obtain ⟨_, _, ⟨rfl, rfl⟩, gives⟩ := gives
          split at gives
          · exact absurd gives gives_reject
          · simp only [gives_ite, gives_bind, gives_isConvertible, gives_pure] at gives
            split at gives
            · exact absurd gives gives_reject
            · obtain ⟨_, _, ⟨rfl, rfl⟩, gives⟩ := gives
              split at gives
              · obtain ⟨_, _, fitted, _, _, others, _, rfl⟩ := gives
                exact (fitFields_same object _ rest others).trans (fit_same _ value fitted)
              · exact absurd gives gives_reject
termination_by structural fields

end

mutual

/-- What is made to fit a type that it fits is admitted, by induction over expressions. -/
theorem fit_admits (target : TypeId) (expr : TypedExpr) {b : BuiltinTypes}
    {setting : BuildSetting} {before after : BuildState} {typed : TypedExpr}
    (closed : before.workspace.registry.Closed) (known : before.workspace.registry.Knows target)
    (admits : before.workspace.registry.Admits b expr)
    (fits : before.workspace.registry.Fits b target expr.type)
    (gives : (fit target expr).Gives setting before typed after)
    : before.workspace.registry.Admits b typed := by
  cases expr with
  | mk kind type span =>
      rw [fit] at gives
      simp only [gives_bind, gives_registry, gives_ite] at gives
      obtain ⟨_, _, ⟨rfl, rfl⟩, gives⟩ := gives
      split at gives
      · cases kind with
        | pending fields =>
            simp only [gives_ite, gives_bind, gives_builtins, gives_pure] at gives
            split at gives
            · obtain ⟨values, _, inner, rfl, _⟩ := gives
              exact .node (closed.decayed_known known)
                (fitFields_admits _ [] fields closed (fun _ among => admits.part among) inner)
                nofun
            · obtain ⟨_, _, _, impossible⟩ := gives
              exact absurd impossible gives_reject
        | _ =>
            rw [(gives_pure.mp gives).1]
            exact admits
      · next undesignated =>
          split at gives
          · rw [(gives_pure.mp gives).1]
            exact admits
          · next differs =>
              rw [(gives_pure.mp gives).1]
              exact .cast closed known admits fits (Bool.not_eq_true _ ▸ undesignated)
                (Bool.not_eq_true _ ▸ differs) span
termination_by structural expr

theorem fitFields_admits (object : TypeId) (seen : List Nat) (fields : List PendingField)
    {b : BuiltinTypes} {setting : BuildSetting} {before after : BuildState}
    {values : List MemberValue} (closed : before.workspace.registry.Closed)
    (admits : before.workspace.registry.AdmitsAll b (fields.map PendingField.value))
    (gives : (fitFields object seen fields).Gives setting before values after)
    : before.workspace.registry.AdmitsAll b (values.map MemberValue.value) := by
  cases fields with
  | nil =>
      rw [(gives_pure.mp gives).1]
      exact .nil
  | cons first rest =>
      cases first with
      | mk name value span =>
          rw [fitFields] at gives
          simp only [gives_bind, gives_registry] at gives
          obtain ⟨_, _, ⟨rfl, rfl⟩, gives⟩ := gives
          split at gives
          · exact absurd gives gives_reject
          next member found =>
            simp only [gives_ite, gives_bind, gives_isConvertible, gives_pure] at gives
            split at gives
            · exact absurd gives gives_reject
            obtain ⟨_, _, ⟨rfl, rfl⟩, gives⟩ := gives
            split at gives
            · next convertible =>
                obtain ⟨own, _, fitted, others, _, further, rfl, _⟩ := gives
                obtain rfl := fit_same _ value fitted
                have memberKnown := closed.findMember_known found
                have valueAdmits := admits value (.head _)
                exact .cons
                  (fit_admits _ value closed memberKnown valueAdmits
                    (Registry.fits_of_fitness closed memberKnown valueAdmits.known convertible)
                    fitted)
                  (fitFields_admits object _ rest closed
                    (fun other among => admits other (.tail _ among)) further)
            · exact absurd gives gives_reject
termination_by structural fields

end

namespace Keeps

variable {basis : Prelude} {law : ExprLaw basis} {world : Registry}

-----------------------------------------------------------------------------------------
-- Types and casts
-----------------------------------------------------------------------------------------

theorem isVoid (id : TypeId) : (Build.isVoid id).Keeps law world anything :=
  registryThen fun _ _ _ _ => .done _

/-- A value that is convertible fits from there on. -/
theorem isConvertible {target : TypeId} {value : TypedExpr} (targetKnown : world.Knows target)
    (known : world.Knows value.type)
    : (Build.isConvertible target value).Keeps law world fun registry convertible =>
        convertible = true → registry.Fits basis.builtins target value.type := by
  refine registryThen fun later grows closed _ => .pure fun _ grown convertible => ?_
  exact (Registry.fits_of_fitness closed (grows.knows targetKnown) (grows.knows known)
    convertible).mono grown.retains

/-- Making the instance of a generic type keeps every law, by induction over the type. -/
theorem genericType (type : TypeExpr)
    : (Build.genericType type).Keeps law world Registry.Knows := by
  have made (family : GenericFamily) (argument : TypeExpr) {later : Registry} {value : TypeId}
      (known : later.Knows value) : Keeps law later Registry.Knows (do
      let b ← Build.builtins
      let registry ← Build.registry
      let allowed := [b.bool, b.int, b.double, b.string].any (registry.sameType · value)
      if family == .external && !allowed then
        Build.reject (.wrongExternType (registry.typeName value)) argument.span
      else Build.onRegistry fun registry => registry.addGeneric b family value) := by
    refine builtinsThen fun first grows _ => registryThen fun second grown _ _ => ?_
    dsimp only
    split
    · exact reject _ _
    · exact addGeneric family (grown.knows (grows.knows known))
  induction type using Build.genericType.induct generalizing world with
  | case1 isReference span head family argument generic type named =>
      rename_i ih
      rw [Build.genericType]
      · rw [if_pos generic]
        exact ih.bind fun later _ value known => made family argument known
      · exact named
  | case2 isReference span head family argument plain type =>
      rename_i named
      rw [Build.genericType]
      · rw [if_neg plain]
        refine symbolsThen fun later symbols grows _ closed => ?_
        split
        · next value found =>
            have known : later.Knows value := closed.types.find? found
            exact (knownType known).bind fun later _ value known => made family argument known
        · exact rejectThen _ _ _
      · exact named
  | case3 generics isReference span head family several type =>
      rename_i named
      rw [Build.genericType]
      · exact reject _ _
      · exact family
      · exact named
      · exact several
  | case4 names generics isReference span type =>
      rename_i unnamed
      rw [Build.genericType]
      · refine symbolsThen fun later symbols grows _ closed => ?_
        split
        · exact reject _ _
        · exact reject _ _
      · exact unnamed

theorem namedType (type : TypeExpr) {next : TypeId → Build TypeId}
    (keeps : ∀ {later : Registry} {id}, later.Knows id →
      (next id).Keeps law later Registry.Knows)
    : Keeps law world Registry.Knows
        (if type.isGeneric then Build.genericType type.withoutReference >>= next
          else do
            match (← Build.symbols).types.find? type.path with
            | some id => Pure.pure id >>= next
            | none =>
              Build.reject (.typeNotFound type.withoutReference.text) type.span >>= next) := by
  split
  · exact (genericType _).bind fun _ _ _ known => keeps known
  · refine symbolsThen fun later symbols grows _ closed => ?_
    split
    · next id found =>
        have known : later.Knows id := closed.types.find? found
        exact (knownType known).bind fun _ _ _ known => keeps known
    · exact rejectThen _ _ _

theorem resolveType (type : TypeExpr)
    : (Build.resolveType type).Keeps law world Registry.Knows := by
  unfold Build.resolveType
  split
  · exact namedType type addReference
  · exact namedType type fun known => .pure fun _ grows => grows.knows known

theorem fit {target : TypeId} {expr : TypedExpr} (known : world.Knows target)
    (admits : world.Admits basis.builtins expr)
    (fits : world.Fits basis.builtins target expr.type)
    : (Build.fit target expr).Keeps law world (Registry.Admits basis.builtins) := by
  intro setting before value after _ closed grows gives
  obtain rfl := fit_same target expr gives
  exact ⟨.refl closed, fit_admits target expr closed.workspace.registry (grows.knows known)
    (admits.mono grows) (fits.mono grows.retains) gives⟩

/-- The arguments of a call fit known parameters, by induction over the parameters. -/
theorem fitArguments {params : List Param} {arguments : List TypedExpr}
    (known : ∀ param ∈ params, world.Knows param.type)
    (admits : world.AdmitsAll basis.builtins arguments)
    (fits : world.FitsAll basis.builtins params (arguments.map (·.type)))
    : (Build.fitArguments params arguments).Keeps law world
        (Registry.AdmitsAll basis.builtins) := by
  induction params generalizing arguments world with
  | nil => exact .pure fun _ _ => .nil
  | cons param params ih =>
      cases arguments with
      | nil => exact .pure fun _ _ => .nil
      | cons argument arguments =>
          obtain ⟨own, others⟩ := List.forall₂_cons.mp fits
          refine (fit (known param (.head _)) (admits argument (.head _)) own).bind
            fun later grows first fitted => ?_
          refine (ih (fun other among => grows.knows (known other (.tail _ among)))
            (fun other among => (admits other (.tail _ among)).mono grows)
            (Registry.FitsAll.mono others grows.retains)).bind fun last grown rest fittedRest => ?_
          exact .pure fun _ growth => .cons (fitted.mono (grown.trans growth))
            (fittedRest.mono growth)

theorem fitCondition {condition : TypedExpr} (admits : world.Admits basis.builtins condition)
    : (Build.fitCondition condition).Keeps law world (Registry.Admits basis.builtins) := by
  refine builtinsThen fun first grows _ => registryThen fun second grown closed provides => ?_
  have admits := admits.mono (grows.trans grown)
  split
  · next same =>
      exact fit provides.bool admits (Registry.fits_bool closed provides admits.known same)
  · exact reject _ _

-----------------------------------------------------------------------------------------
-- Calls
-----------------------------------------------------------------------------------------

/-- A function that is chosen takes the arguments. -/
theorem chooseFunction {groups : List (List FunctionId)} {arguments : List TypedExpr}
    (known : KnownGroups world groups) (admits : world.AdmitsAll basis.builtins arguments)
    (name : String) (span : Span)
    : (Build.chooseFunction groups arguments name span).Keeps law world
        fun registry function => registry.Takes basis.builtins function arguments := by
  refine registryThen fun later grows closed _ => ?_
  split
  · next function chosen =>
      obtain ⟨group, among, inGroup, viable⟩ := Registry.chooseOverload_viable chosen
      have takes : later.Takes basis.builtins function arguments :=
        ⟨grows.knowsFunction (known group among function inGroup),
          Registry.fitsAll_of_totalFitness closed (closed.params function)
            (admits.mono grows).known viable⟩
      exact .pure fun _ grown => takes.mono grown
  · exact reject _ _
  · exact (report _).bind fun _ _ _ _ => thenFailure _

theorem returnType (function : FunctionId) (span : Span)
    : (Build.returnType function span).Keeps law world Registry.Knows := by
  refine registryThen fun later grows closed _ => ?_
  split
  · next type found => exact .pure fun _ grown => grown.knows (closed.results function type found)
  · refine getThen fun state _ _ => ?_
    split
    · exact reject _ _
    · exact reject _ _

/-- The arguments of a call are as many as the function has parameters. -/
theorem fitCall {function : FunctionId} {arguments : List TypedExpr}
    (takes : world.Takes basis.builtins function arguments)
    (admits : world.AdmitsAll basis.builtins arguments)
    : (Build.fitCall function arguments).Keeps law world fun registry fitted =>
        registry.AdmitsAll basis.builtins fitted ∧ registry.HasArity function fitted.length := by
  refine registryThen fun later grows closed _ => ?_
  have takes := takes.mono grows
  intro setting before fitted after suits known grown gives
  obtain ⟨advances, fits⟩ := fitArguments (closed.params function) (admits.mono grows) takes.fits
    _ _ _ _ suits known grown gives
  refine ⟨advances, fits, ?_⟩
  rw [length_fitArguments takes.arity.params gives]
  exact takes.arity.mono (grown.trans advances.grows)

/-- A member function that is chosen is known with the type of its result and takes the arguments.
-/
theorem memberFunction {groups : List (List FunctionId)} {arguments : List TypedExpr}
    (known : KnownGroups world groups) (admits : world.AdmitsAll basis.builtins arguments)
    (name : String) (span : Span)
    : (Build.memberFunction groups arguments name span).Keeps law world
        fun registry chosen => registry.HasArity chosen.1 chosen.2.2.length
          ∧ registry.Knows chosen.2.1 ∧ registry.AdmitsAll basis.builtins chosen.2.2 := by
  refine (chooseFunction known admits name span).bind fun first grows function takes => ?_
  refine (returnType function span).bind fun second grown type typed => ?_
  refine (fitCall (takes.mono grown) (admits.mono (grows.trans grown))).bind
    fun third growth fitted fits => ?_
  exact .pure fun _ final =>
    ⟨fits.2.mono final, final.knows (growth.knows typed), Registry.AdmitsAll.mono fits.1 final⟩

theorem construction {type : TypeId} {arguments : List TypedExpr} (known : world.Knows type)
    (admits : world.AdmitsAll basis.builtins arguments) (span : Span)
    : (Build.construction type arguments span).Keeps law world
        (Registry.Admits basis.builtins) := by
  refine registryThen fun later grows closed _ => ?_
  dsimp only
  split
  · split
    · exact .pure fun _ grown => .node (grown.knows (grows.knows known)) .nil nofun
    · exact reject _ _
  · refine (chooseFunction (closed.findMemberFunctions_known _ _) (admits.mono grows) _ span).bind
      fun first grown function takes => ?_
    have both := grows.trans grown
    refine (fitCall takes (admits.mono both)).bind fun _ growth _ fits => ?_
    exact .pure fun _ final =>
      .call (final.knows (growth.knows (both.knows known))) (fits.1.mono final) nofun rfl
        (fits.2.mono final)

theorem functionCall {function : FunctionId} {arguments : List TypedExpr}
    (takes : world.Takes basis.builtins function arguments)
    (admits : world.AdmitsAll basis.builtins arguments) (span : Span)
    : (Build.functionCall function arguments span).Keeps law world
        (Registry.Admits basis.builtins) := by
  refine (returnType function span).bind fun first grows type typed => ?_
  refine (fitCall (takes.mono grows) (admits.mono grows)).bind fun second grown fitted fits => ?_
  refine registryThen fun third growth _ _ => .pure fun last final => ?_
  have known := final.knows (growth.knows (grown.knows typed))
  have arity := fits.2.mono (growth.trans final)
  have fits := fits.1.mono (growth.trans final)
  -- The call is one of the object at hand or one of no object.
  split
  · exact .call known fits nofun rfl arity
  · exact .call known fits nofun rfl arity

/-- What a directory brings in keeps a law that the neighbours obey. -/
theorem addedDirectory (directory : String) {arguments : List TypedExpr}
    (admits : world.AdmitsAll basis.builtins arguments) (span : Span)
    : (Build.addedDirectory directory arguments span).Keeps law world
        (Registry.Admits basis.builtins) := by
  refine askThen (fun registry content => content.Known registry) .failed
    (fun _ _ _ _ => gives_reject)
    (fun suits => suits.obey.addDirectory) fun later grows content succeeded found => ?_
  cases content with
  | script main =>
      have group : KnownGroups later [[main]] := by
        intro group among function inGroup
        rw [List.mem_singleton.mp among] at inGroup
        rw [List.mem_singleton.mp inGroup]
        exact found
      refine (chooseFunction group (admits.mono grows) "main" span).bind
        fun first start function takes => ?_
      refine (returnType function span).bind fun second grown type typed => ?_
      refine (fitCall (takes.mono grown)
        (admits.mono (grows.trans (start.trans grown)))).bind fun _ growth _ fits => ?_
      exact .pure fun _ final => .call (final.knows (growth.knows typed)) (fits.1.mono final) nofun
        rfl (fits.2.mono final)
  | component creation =>
      exact (returnType creation span).bind fun _ grown type typed => .pure fun _ final =>
        .call (final.knows typed) .nil nofun rfl (Registry.HasArity.mono found (grown.trans final))
  | listfile =>
      exact builtinsThen fun _ _ provides =>
        .pure fun _ final => .node (final.knows provides.void) .nil nofun
  | failed => exact absurd rfl succeeded

theorem addedComponentFile (file : String) (span : Span)
    : (Build.addedComponentFile file span).Keeps law world (Registry.Admits basis.builtins) := by
  refine askThen (fun registry creation? => ∀ creation, creation? = some creation →
      registry.HasArity creation 0) none (fun _ _ _ _ => gives_reject)
    (fun suits closed outcome succeeded => ?_) fun later grows creation? succeeded found => ?_
  · obtain ⟨creation, rfl⟩ := Option.ne_none_iff_exists'.mp succeeded
    obtain ⟨advances, arity⟩ := suits.obey.addComponentFile closed outcome
    exact ⟨advances, fun other same => Option.some.inj same ▸ arity⟩
  · cases creation? with
    | none => exact absurd rfl succeeded
    | some creation =>
        exact (returnType creation span).bind fun _ grown type typed => .pure fun _ final =>
          .call (final.knows typed) .nil nofun rfl ((found creation rfl).mono (grown.trans final))

-----------------------------------------------------------------------------------------
-- Names and operators
-----------------------------------------------------------------------------------------

theorem identifier (path : List String) (span : Span)
    : (Build.identifier path span).Keeps law world (Registry.Admits basis.builtins) := by
  refine symbolsThen fun later symbols grows _ closed => ?_
  dsimp only
  cases variableFound : symbols.ids.find? path with
  | some symbol =>
      have known : later.Knows symbol.type := closed.ids.find? variableFound
      exact .pure fun _ final => .node (final.knows known) .nil nofun
  | none =>
      cases enumeratorFound : symbols.enums.find? path with
      | some symbol =>
          have known : later.Knows symbol.type := closed.enums.find? enumeratorFound
          exact .pure fun _ final => .node (final.knows known) .nil nofun
      | none => exact reject _ _

theorem binary (operator : Token) {lhs rhs : TypedExpr}
    (lhsAdmits : world.Admits basis.builtins lhs) (rhsAdmits : world.Admits basis.builtins rhs)
    (span : Span)
    : (Build.binary operator lhs rhs span).Keeps law world (Registry.Admits basis.builtins) := by
  refine registryThen fun later grows closed _ => ?_
  split
  · exact reject _ _
  · refine (memberFunction (closed.findMemberFunctions_known _ _) (.single (rhsAdmits.mono grows)) _
      span).bind fun second grown chosen given => ?_
    obtain ⟨function, type, arguments⟩ := chosen
    split
    · next fitted same =>
        cases same
        obtain ⟨arity, known, fits⟩ := given
        exact .pure fun _ final => .call (final.knows known)
          (.cons (lhsAdmits.mono (grows.trans (grown.trans final))) (fits.mono final)) nofun rfl
          (arity.mono final)
    · exact failure

theorem unary (operator : Token) {operand : TypedExpr}
    (admits : world.Admits basis.builtins operand) (span : Span)
    : (Build.unary operator operand span).Keeps law world (Registry.Admits basis.builtins) := by
  refine registryThen fun later grows closed _ => ?_
  dsimp only
  split
  · exact reject _ _
  · next some =>
      have groups : KnownGroups later (((later.findMemberFunctions operand.type
          operator.value).map fun group => group.filter fun id =>
            (later.function id).params.isEmpty).filter (!·.isEmpty)) := by
        intro group among function inGroup
        obtain ⟨whole, inWhole, rfl⟩ := List.mem_map.mp (List.mem_filter.mp among).1
        exact closed.findMemberFunctions_known _ _ whole inWhole function
          (List.mem_filter.mp inGroup).1
      refine (chooseFunction groups .nil _ span).bind fun second grown function takes => ?_
      refine (returnType function span).bind fun third growth _ typed => .pure fun _ final => ?_
      exact .call (final.knows typed)
        (.single (admits.mono (grows.trans (grown.trans (growth.trans final))))) nofun rfl
        (takes.arity.mono (growth.trans final))

theorem ternary {condition whenTrue whenFalse : TypedExpr}
    (admits : world.Admits basis.builtins condition)
    (trueAdmits : world.Admits basis.builtins whenTrue)
    (falseAdmits : world.Admits basis.builtins whenFalse) (span : Span)
    : (Build.ternary condition whenTrue whenFalse span).Keeps law world
        (Registry.Admits basis.builtins) := by
  refine registryThen fun later grows closed _ => ?_
  have trueAdmits := trueAdmits.mono grows
  have falseAdmits := falseAdmits.mono grows
  split
  · exact .pure fun _ final => .node (final.knows trueAdmits.known)
      (.cons (admits.mono (grows.trans final))
        (.cons (trueAdmits.mono final) (.single (falseAdmits.mono final)))) nofun
  · dsimp only
    split
    · next same =>
        have value := closed.decayed_known trueAdmits.known
        have trueFits := Registry.fits_decayed (b := basis.builtins) closed trueAdmits.known
          trueAdmits.known (Registry.sameType_iff.mpr rfl)
        have falseFits := Registry.fits_decayed (b := basis.builtins) closed trueAdmits.known
          falseAdmits.known same
        refine (fit value trueAdmits trueFits).bind fun second grown first fitted => ?_
        refine (fit (grown.knows value) (falseAdmits.mono grown)
          (falseFits.mono grown.retains)).bind fun third growth other otherFitted => ?_
        refine .pure fun _ final => ?_
        have fitted := fitted.mono (growth.trans final)
        exact .node fitted.known
          (.cons (admits.mono (grows.trans (grown.trans (growth.trans final))))
            (.cons fitted (.single (otherFitted.mono final)))) nofun
    · exact reject _ _

theorem memberAccess {object : TypedExpr} (admits : world.Admits basis.builtins object)
    (name : Token) (span : Span)
    : (Build.memberAccess object name span).Keeps law world (Registry.Admits basis.builtins) := by
  refine registryThen fun later grows closed _ => ?_
  split
  · next member found =>
      exact .pure fun _ final => .node (final.knows (closed.findMember_known found))
        (.single (admits.mono (grows.trans final))) nofun
  · exact reject _ _

theorem listValue {values : List TypedExpr} (admits : world.AdmitsAll basis.builtins values)
    (span : Span)
    : (Build.listValue values span).Keeps law world (Registry.Admits basis.builtins) := by
  cases values with
  | nil => exact reject _ _
  | cons first rest =>
      refine builtinsThen fun start grown _ => registryThen fun later grows closed _ => ?_
      have admits := admits.mono (grown.trans grows)
      have firstKnown := (admits first (.head _)).known
      have value := closed.decayed_known firstKnown
      dsimp only
      split
      · next same =>
          have fits {element : TypedExpr} (among : element ∈ first :: rest)
              : later.Fits basis.builtins (later.decayed first.type) element.type :=
            Registry.fits_decayed closed firstKnown (admits element among).known
              ((Registry.sameType_comm _ _).trans (List.all_eq_true.mp same element among))
          refine (addGeneric .list value).bind fun second growth list made => ?_
          refine (mapM (Registry.Admits basis.builtins) _ (fun element among third further => ?_)
            fun fitted grows => fitted.mono grows).bind fun third further values fitted => ?_
          · have both := growth.trans further
            exact fit (both.knows value) ((admits element among).mono both)
              ((fits among).mono both.retains)
          · exact .pure fun _ final => .node (final.knows (further.knows made))
              (Registry.AdmitsAll.mono fitted final) nofun
      · exact reject _ _

-----------------------------------------------------------------------------------------
-- Expressions
-----------------------------------------------------------------------------------------

theorem literalName (function : String) (arguments : List Expr) (span : Span)
    : (Build.literalName function arguments span).Keeps law world anything := by
  unfold Build.literalName
  split
  · exact .done _
  · exact reject _ _

/-- A callee means known types and functions. -/
def knownTarget (registry : Registry) : CallTarget → Prop
  | .constructor type => registry.Knows type
  | .functions groups _ => KnownGroups registry groups
  | _ => True

theorem callTarget (callee : TypeExpr) (arguments : List Expr) (span : Span)
    : (Build.callTarget callee arguments span).Keeps law world knownTarget := by
  unfold Build.callTarget
  split
  · refine (resolveType _).bind fun first grows type known => ?_
    refine registryThen fun second grown closed _ => ?_
    exact .pure fun _ final => final.knows (closed.decayed_known (grown.knows known))
  · split
    · exact (literalName _ arguments span).bind fun _ _ _ _ => .pure fun _ _ => trivial
    · split
      · exact (literalName _ arguments span).bind fun _ _ _ _ => .pure fun _ _ => trivial
      · refine symbolsThen fun first symbols grows _ closed => ?_
        split
        · next type found =>
            have known : first.Knows type := closed.types.find? found
            refine registryThen fun second grown closed _ => ?_
            exact .pure fun _ final => final.knows (closed.decayed_known (grown.knows known))
        · dsimp only
          split
          · exact reject _ _
          · have groups : KnownGroups first (symbols.functions.findAll callee.path) :=
              closed.knowsFunctions.findAll callee.path
            exact .pure fun _ final => knownGroups_mono groups final

mutual

/-- Checking an expression keeps every law, by induction over expressions. -/
theorem expr (source : Expr) {world : Registry}
    : (Build.expr source).Keeps law world (Registry.Admits basis.builtins) := by
  cases source with
  | bool value span =>
      exact builtinsThen fun _ _ provides =>
        .pure fun _ final => .node (final.knows provides.bool) .nil nofun
  | int value span =>
      exact builtinsThen fun _ _ provides =>
        .pure fun _ final => .node (final.knows provides.int) .nil nofun
  | double value span =>
      exact builtinsThen fun _ _ provides =>
        .pure fun _ final => .node (final.knows provides.double) .nil nofun
  | string value span =>
      exact builtinsThen fun _ _ provides =>
        .pure fun _ final => .node (final.knows provides.string) .nil nofun
  | id names span => exact identifier _ span
  | binary operator lhs rhs span =>
      exact (expr lhs).bind fun _ _ _ left => (expr rhs).bind fun _ grows _ right =>
        binary operator (left.mono grows) right span
  | unary operator operand span =>
      exact (expr operand).bind fun _ _ _ admits => unary operator admits span
  | ternary condition whenTrue whenFalse span =>
      refine (expr condition).bind fun _ _ _ admits => ?_
      refine (fitCondition admits).bind fun _ _ _ fitted => ?_
      refine (expr whenTrue).bind fun _ grows _ trueAdmits => ?_
      exact (expr whenFalse).bind fun _ grown _ falseAdmits =>
        ternary (fitted.mono (grows.trans grown)) (trueAdmits.mono grown) falseAdmits span
  | member object name span =>
      exact (expr object).bind fun _ _ _ admits => memberAccess admits name span
  | call callee arguments span =>
      rw [Build.expr]
      refine (callTarget callee arguments span).bind fun later _ target known => ?_
      cases target with
      | directory name =>
          cases arguments with
          | nil => exact failure
          | cons first rest =>
              exact (exprs rest).bind fun _ _ _ admits => addedDirectory name admits span
      | componentFile name => exact addedComponentFile name span
      | constructor type =>
          have known : later.Knows type := known
          exact (exprs arguments).bind fun _ grows _ admits =>
            construction (grows.knows known) admits span
      | functions groups name =>
          refine (exprs arguments).bind fun _ grows values admits => ?_
          refine (chooseFunction (knownGroups_mono known grows) admits name span).bind
            fun _ grown function takes => ?_
          exact functionCall takes (admits.mono grown) span
  | memberCall object name arguments span =>
      refine (expr object).bind fun _ _ object admits => registryThen fun later grows closed _ => ?_
      split
      · exact reject _ _
      · refine (exprs arguments).bind fun second grown values valuesAdmit => ?_
        refine (memberFunction (knownGroups_mono (closed.findMemberFunctions_known _ _) grown)
          valuesAdmit _ span).bind fun third growth chosen given => ?_
        obtain ⟨arity, known, fits⟩ := given
        exact .pure fun _ final => .call (final.knows known)
          (.cons (admits.mono (grows.trans (grown.trans (growth.trans final)))) (fits.mono final))
          nofun rfl (arity.mono final)
  | list values span => exact (exprs values).bind fun _ _ _ admits => listValue admits span
  | designated fields span =>
      exact (fieldInits fields).bind fun _ _ _ admits => builtinsThen fun _ grows provides =>
        .pure fun _ final => .node (final.knows provides.designated)
          (Registry.AdmitsAll.mono admits (grows.trans final)) nofun
termination_by structural source

theorem exprs (sources : List Expr) {world : Registry}
    : (Build.exprs sources).Keeps law world (Registry.AdmitsAll basis.builtins) := by
  cases sources with
  | nil => exact .pure fun _ _ => .nil
  | cons first rest =>
      exact (expr first).bind fun _ _ _ admits => (exprs rest).bind fun _ grows _ others =>
        .pure fun _ final => .cons (admits.mono (grows.trans final)) (others.mono final)
termination_by structural sources

theorem fieldInits (fields : List FieldInit) {world : Registry}
    : (Build.fieldInits fields).Keeps law world fun registry pending =>
        registry.AdmitsAll basis.builtins (pending.map PendingField.value) := by
  cases fields with
  | nil => exact .pure fun _ _ => .nil
  | cons first rest =>
      cases first with
      | mk name value =>
          exact (expr value).bind fun _ _ _ admits => (fieldInits rest).bind fun _ grows _ others =>
            .pure fun _ final => .cons (admits.mono (grows.trans final))
              (Registry.AdmitsAll.mono others final)
termination_by structural fields

end

-----------------------------------------------------------------------------------------
-- Values of variables and functions
-----------------------------------------------------------------------------------------

theorem deducedType (decl : VariableDecl) {initial? : Option TypedExpr}
    (admits : world.AdmitsAll basis.builtins initial?.toList)
    : (Build.deducedType decl initial?).Keeps law world Registry.Knows := by
  cases initial? with
  | none => exact reject _ _
  | some initial =>
      refine registryThen fun later grows closed _ => ?_
      split
      · exact reject _ _
      · have value := closed.decayed_known (grows.knows (admits initial (.head _)).known)
        dsimp only
        split
        · exact addReference value
        · exact .pure fun _ final => final.knows value

/-- A value that is there is made to fit if it is convertible. -/
theorem fitConvertible {target : TypeId} {value : TypedExpr} {otherwise : Build (Option TypedExpr)}
    (known : world.Knows target) (admits : world.Admits basis.builtins value)
    (refused : ∀ later, otherwise.Keeps law later fun registry value? =>
      registry.AdmitsAll basis.builtins value?.toList)
    : Keeps law world (fun registry value? => registry.AdmitsAll basis.builtins value?.toList)
        (do if ← Build.isConvertible target value then return some (← Build.fit target value)
            else otherwise) := by
  refine (isConvertible known admits.known).bind fun later grows convertible fits => ?_
  split
  · next holds =>
      refine (fit (grows.knows known) (admits.mono grows) (fits holds)).bind
        fun last grown fitted fittedAdmits => ?_
      exact .pure fun _ final => .single (fittedAdmits.mono final)
  · exact refused later

theorem fitInitial (decl : VariableDecl) {type : TypeId} {initial? : Option TypedExpr}
    (known : world.Knows type) (admits : world.AdmitsAll basis.builtins initial?.toList)
    : (Build.fitInitial decl type initial?).Keeps law world fun registry fitted? =>
        registry.AdmitsAll basis.builtins fitted?.toList := by
  refine registryThen fun later grows _ _ => ?_
  cases initial? with
  | none =>
      dsimp only
      split
      · exact reject _ _
      · exact .pure fun _ _ => .nil
  | some initial =>
      exact fitConvertible (grows.knows known) ((admits initial (.head _)).mono grows)
        fun _ => reject _ _

theorem fitReturn {expected : TypeId} {value? : Option TypedExpr}
    (known : world.Knows expected) (admits : world.AdmitsAll basis.builtins value?.toList)
    (span : Span)
    : (Build.fitReturn expected value? span).Keeps law world fun registry fitted? =>
        registry.AdmitsAll basis.builtins fitted?.toList := by
  refine registryThen fun later grows _ _ => ?_
  cases value? with
  | none =>
      refine (isVoid expected).bind fun _ _ empty _ => ?_
      split
      · exact .pure fun _ _ => .nil
      · exact reject _ _
  | some value =>
      exact fitConvertible (grows.knows known) ((admits value (.head _)).mono grows)
        fun _ => reject _ _

end Keeps

end BuildScript.Build
