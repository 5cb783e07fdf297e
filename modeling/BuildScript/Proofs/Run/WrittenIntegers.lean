import BuildScript.Proofs.Registry.Consistency
import BuildScript.Proofs.Run.IntegerArithmetic
import BuildScript.Proofs.Run.TextEdits
import BuildScript.Proofs.Syntax.WrittenIntegers
import BuildScript.Proofs.Workspace.WorkspaceLaw

/-! Integers are read back from their texts. A script that returns an integer by its text is checked
to return a literal, or the negation of one, and runs to the integer. On the command line every text
of an integer stands for it, that of the least one too.
-/

namespace BuildScript

open Text

-----------------------------------------------------------------------------------------
-- Minus signs
-----------------------------------------------------------------------------------------

namespace Registry

variable {registry : Registry}

theorem function_addFunction_of_known {id : FunctionId} (known : registry.KnowsFunction id)
    (info : FunctionInfo)
    : (registry.addFunction info).2.function id = registry.function id := by
  rw [function_addFunction, if_neg]
  rintro rfl
  exact absurd known (Nat.lt_irrefl _)

theorem lineageWithin_addFunction (info : FunctionInfo) (bound : Nat) (id : TypeId)
    : (registry.addFunction info).2.lineageWithin bound id = registry.lineageWithin bound id := by
  induction bound generalizing id with
  | zero => rfl
  | succ bound ih =>
      have same : (registry.addFunction info).2.type id = registry.type id := rfl
      rw [lineageWithin, lineageWithin, same]
      cases (registry.type id).base? with
      | none => rfl
      | some base => exact congrArg (id :: ·) (ih base)

/-- A new function is no member of a class that it is not declared in or above. -/
theorem findMemberFunctions_addFunction (closed : registry.Closed) {info : FunctionInfo}
    {id : TypeId} (apart : ∀ ancestor ∈ registry.lineage (registry.decayed id),
      info.context ≠ (registry.type ancestor).context) (name : String)
    : (registry.addFunction info).2.findMemberFunctions id name =
        registry.findMemberFunctions id name := by
  have lineage : (registry.addFunction info).2.lineage ((registry.addFunction info).2.decayed id) =
      registry.lineage (registry.decayed id) := lineageWithin_addFunction info _ _
  rw [findMemberFunctions, findMemberFunctions, lineage]
  refine List.filterMap_congr fun ancestor among => ?_
  have named : (registry.addFunction info).2.functionsNamed (registry.type ancestor).context name =
      registry.functionsNamed (registry.type ancestor).context name := by
    rw [functionsNamed, functionsNamed, context_addFunction,
      if_neg fun both => apart ancestor among both.1]
    refine List.filter_congr fun function listed => ?_
    rw [function_addFunction_of_known (closed.functions _ function listed)]
  have same : (registry.addFunction info).2.type ancestor = registry.type ancestor := rfl
  rw [same, named]

/-- (Negates registry int negate) says that integers have one minus sign that takes no operand but
the integer, and that it negates them.
-/
structure Negates (registry : Registry) (int : TypeId) (negate : FunctionId) : Prop where
  candidates : ((registry.findMemberFunctions int "-").map fun group =>
    group.filter fun id => (registry.function id).params.isEmpty).filter (!·.isEmpty) = [[negate]]
  params : (registry.function negate).params = []
  result : (registry.function negate).returnType? = some int
  body : (registry.function negate).body = .builtin (.int .negate)
  kind : (registry.type int).kind = .int

theorem Negates.addFunction {int : TypeId} {negate : FunctionId}
    (negates : registry.Negates int negate) (closed : registry.Closed)
    (known : registry.KnowsFunction negate) {info : FunctionInfo}
    (apart : ∀ ancestor ∈ registry.lineage (registry.decayed int),
      info.context ≠ (registry.type ancestor).context)
    : (registry.addFunction info).2.Negates int negate := by
  have same := function_addFunction_of_known known info
  have candidates : (((registry.addFunction info).2.findMemberFunctions int "-").map fun group =>
      group.filter fun id => ((registry.addFunction info).2.function id).params.isEmpty).filter
      (!·.isEmpty) = [[negate]] := by
    rw [findMemberFunctions_addFunction closed apart, ← negates.candidates]
    congr 1
    refine List.map_congr_left fun group among => List.filter_congr fun function listed => ?_
    have knownToo := closed.findMemberFunctions_known int "-" group among function listed
    rw [function_addFunction_of_known knownToo]
  refine ⟨candidates, ?_, ?_, ?_, negates.kind⟩
  · rw [same, negates.params]
  · rw [same, negates.result]
  · rw [same, negates.body]

end Registry

theorem FunctionInfo.body_of_operation? {info : FunctionInfo} {operation : Operation}
    (performs : info.operation? = some operation)
    : info.body = .builtin operation := by
  obtain ⟨name, params, span, returnType?, context, body⟩ := info
  cases body with
  | builtin other => exact congrArg FunctionBody.builtin (Option.some.inj performs)
  | _ => cases performs

set_option maxRecDepth 100000 in
/-- The provided minus sign of integers. -/
theorem Prelude.standard_negates
    : Prelude.standard.registry.Negates Prelude.standard.builtins.int ⟨17⟩ := by
  have performs : (Prelude.standard.registry.function ⟨17⟩).operation? = some (.int .negate) := by
    decide +kernel
  refine ⟨by decide +kernel, by decide +kernel, by decide +kernel,
    FunctionInfo.body_of_operation? performs, by decide +kernel⟩

-----------------------------------------------------------------------------------------
-- Checked integers
-----------------------------------------------------------------------------------------

/-- (Writes negate int value typed) says that a checked expression is the literal of an integer, or
a call of `negate` for the literal of its opposite.
-/
inductive TypedExpr.Writes (negate : FunctionId) (int : TypeId) : Int64 → TypedExpr → Prop
  | plain {value : Int64} {span : Span} : Writes negate int value (.mk (.int value) int span)
  | negated {value : Int64} {text : String} {span whole : Span}
    : Writes negate int (-value) (.mk (.unary text negate (.mk (.int value) int span)) int whole)

theorem TypedExpr.Writes.type {negate : FunctionId} {int : TypeId} {value : Int64}
    {typed : TypedExpr} (writes : typed.Writes negate int value)
    : typed.type = int := by
  cases writes <;> rfl

/-- (Returns negate int value body) says that a checked body returns an integer that is written so.
-/
inductive TypedBlock.Returns (negate : FunctionId) (int : TypeId) (value : Int64)
    : TypedBlock → Prop
  | mk {typed : TypedExpr} {span whole : Span} (writes : typed.Writes negate int value)
    : Returns negate int value (.mk [.returnValue (some typed) span] whole)

/-- (ReturnsInt registry function negate type value) says that a function of a script takes nothing
and returns an integer that is written in its body.
-/
structure Registry.ReturnsInt (registry : Registry) (function negate : FunctionId) (type : TypeId)
    (value : Int64) : Prop where
  body : ∃ body, (registry.function function).body = .script (some body)
    ∧ body.Returns negate type value
  params : (registry.function function).params = []
  result : (registry.function function).returnType? = some type
  kind : (registry.type type).kind = .int
  negates : (registry.function negate).body = .builtin (.int .negate)

-----------------------------------------------------------------------------------------
-- Checks
-----------------------------------------------------------------------------------------

/-- The names with a function added to those that a script declares for itself. -/
def Symbols.withFunction (symbols : Symbols) (name : String) (function : FunctionId) : Symbols :=
  { symbols with functions := symbols.functions.register name function false }

namespace Build

variable {setting : BuildSetting} {before : BuildState} {negate : FunctionId}

theorem gives_int (value : Int64) (span : Span)
    : Gives (expr (.int value span)) setting before (.mk (.int value) setting.builtins.int span)
        before := by
  rw [expr]
  exact gives_bind.mpr ⟨_, before, gives_builtins.mpr ⟨rfl, rfl⟩, gives_pure.mpr ⟨rfl, rfl⟩⟩

/-- The only function that takes no operand is chosen where there is none. -/
theorem chooseOverload_nil {registry : Registry} {function : FunctionId}
    (params : (registry.function function).params = [])
    : registry.chooseOverload [] [[function]] = .ok function := by
  have viable : registry.viable [function] [] = [(function, 0)] := by
    rw [Registry.viable, List.filterMap_cons, params]
    rfl
  rw [Registry.chooseOverload, viable]
  rfl

theorem gives_negation {operator : Token} {operand : TypedExpr} {span : Span}
    (isMinus : operator.value = "-") (isInt : operand.type = setting.builtins.int)
    (negates : before.workspace.registry.Negates setting.builtins.int negate)
    : Gives (unary operator operand span) setting before
        (.mk (.unary operator.value negate operand) setting.builtins.int span) before := by
  rw [unary]
  refine gives_bind.mpr ⟨_, before, gives_registry.mpr ⟨rfl, rfl⟩, ?_⟩
  dsimp only
  rw [isInt, isMinus, negates.candidates]
  refine gives_bind.mpr ⟨negate, before, ?_, ?_⟩
  · rw [chooseFunction]
    refine gives_bind.mpr ⟨_, before, gives_registry.mpr ⟨rfl, rfl⟩, ?_⟩
    rw [List.map_nil, chooseOverload_nil negates.params]
    exact gives_pure.mpr ⟨rfl, rfl⟩
  · refine gives_bind.mpr ⟨setting.builtins.int, before, ?_, gives_pure.mpr ⟨rfl, rfl⟩⟩
    rw [returnType]
    refine gives_bind.mpr ⟨_, before, gives_registry.mpr ⟨rfl, rfl⟩, ?_⟩
    rw [negates.result]
    exact gives_pure.mpr ⟨rfl, rfl⟩

/-- What is written as an integer is checked to be one. -/
theorem gives_writes {value : Int64} {written : Expr} (writes : Expr.Writes value written)
    (negates : before.workspace.registry.Negates setting.builtins.int negate)
    : ∃ typed, Gives (expr written) setting before typed before
        ∧ typed.Writes negate setting.builtins.int value := by
  cases writes with
  | plain => exact ⟨_, gives_int value _, .plain⟩
  | @negated value operator span whole isMinus =>
      have checked : Gives (expr (.unary operator (.int value span) whole)) setting before
          (.mk (.unary operator.value negate (.mk (.int value) setting.builtins.int span))
            setting.builtins.int whole) before := by
        rw [expr]
        exact gives_bind.mpr ⟨_, before, gives_int value span,
          gives_negation (congrArg Prod.snd isMinus) rfl negates⟩
      exact ⟨_, checked, .negated⟩

theorem gives_plainType {type : Token} {span : Span} {id : TypeId}
    (found : before.symbols.types.find? [type.value] = some id)
    : Gives (resolveType ⟨[type], [], false, span⟩) setting before id before := by
  simp [resolveType, TypeExpr.isGeneric, TypeExpr.path, found]

/-- An expression of the type that is wanted fits as it is. -/
theorem gives_fit {typed : TypedExpr}
    (plain : (before.workspace.registry.type typed.type).isDesignated = false)
    : Gives (fit typed.type typed) setting before typed before := by
  obtain ⟨kind, type, span⟩ := typed
  have plain : (before.workspace.registry.type type).isDesignated = false := plain
  have same : before.workspace.registry.sameType type type = true := by simp [Registry.sameType]
  rw [fit]
  refine gives_bind.mpr ⟨_, before, gives_registry.mpr ⟨rfl, rfl⟩, ?_⟩
  simp [plain, same, TypedExpr.type]

theorem gives_returnStmt {function : FunctionId} {returns : List (TypeId × Span)}
    {outer : List OpenFunction} {typed : TypedExpr} {span : Span}
    (isOpen : before.openFunctions = ⟨function, returns⟩ :: outer)
    (declared : (before.workspace.registry.function function).returnType? = some typed.type)
    (plain : (before.workspace.registry.type typed.type).isDesignated = false)
    : Gives (returnStmt (some typed) span) setting before (.returnValue (some typed) span)
        before := by
  have same : before.workspace.registry.sameType typed.type typed.type = true := by
    simp [Registry.sameType]
  have fits : (before.workspace.registry.fitness? typed.type typed.type).isSome = true := by
    simp [Registry.fitness?, plain, same]
  rw [returnStmt]
  refine gives_bind.mpr ⟨_, before, gives_get.mpr ⟨rfl, rfl⟩, ?_⟩
  rw [isOpen]
  refine gives_bind.mpr ⟨_, before, gives_registry.mpr ⟨rfl, rfl⟩, ?_⟩
  rw [declared]
  refine gives_bind.mpr ⟨some typed, before, ?_, gives_pure.mpr ⟨rfl, rfl⟩⟩
  rw [fitReturn]
  refine gives_bind.mpr ⟨_, before, gives_registry.mpr ⟨rfl, rfl⟩, ?_⟩
  refine gives_bind.mpr ⟨true, before, gives_isConvertible.mpr ⟨fits.symm, rfl⟩, ?_⟩
  exact gives_bind.mpr ⟨typed, before, gives_fit plain, gives_pure.mpr ⟨rfl, rfl⟩⟩

/-- The block of a function that returns an integer is checked in a scope of its own. -/
theorem gives_block {function : FunctionId} {outer : List OpenFunction} {value : Int64}
    {written : Block} (returns : written.Returns (Expr.Writes value))
    (negates : before.workspace.registry.Negates setting.builtins.int negate)
    (isOpen : before.openFunctions = ⟨function, []⟩ :: outer)
    (declared : (before.workspace.registry.function function).returnType? =
      some setting.builtins.int)
    : ∃ body, Gives (block written) setting before body
          { before with symbols := before.symbols.enterLocal.leave }
        ∧ body.Returns negate setting.builtins.int value := by
  obtain ⟨@⟨written, span, writes⟩⟩ := returns
  next blockSpan =>
  let entered : BuildState := { before with symbols := before.symbols.enterLocal }
  obtain ⟨typed, checked, isTyped⟩ : ∃ typed, Gives (expr written) setting entered typed entered
      ∧ typed.Writes negate setting.builtins.int value := gives_writes writes negates
  have type : typed.type = setting.builtins.int := isTyped.type
  have result : (entered.workspace.registry.function function).returnType? = some typed.type := by
    rw [type]
    exact declared
  have plain : (entered.workspace.registry.type typed.type).isDesignated = false := by
    rw [type, TypeInfo.isDesignated]
    exact congrArg (· == TypeKind.designated) negates.kind
  have returned : Gives (stmt (.returnValue (some written) span)) setting entered
      (.returnValue (some typed) span) entered := by
    rw [stmt]
    refine gives_bind.mpr ⟨some typed, entered, gives_map.mpr ⟨typed, checked, rfl⟩, ?_⟩
    exact gives_returnStmt isOpen result plain
  have listed : Gives (stmts [.returnValue (some written) span]) setting entered
      [.returnValue (some typed) span] entered := by
    rw [stmts, stmts]
    refine gives_bind.mpr ⟨_, entered, returned, ?_⟩
    exact gives_bind.mpr ⟨[], entered, gives_pure.mpr ⟨rfl, rfl⟩, gives_pure.mpr ⟨rfl, rfl⟩⟩
  refine ⟨.mk [.returnValue (some typed) span] blockSpan, ?_, .mk isTyped⟩
  rw [block]
  refine gives_inLocalScope.mpr ⟨entered, ?_, rfl⟩
  exact gives_bind.mpr ⟨_, entered, listed, gives_pure.mpr ⟨rfl, rfl⟩⟩

/-- The body of a function that takes nothing and returns an integer. -/
theorem gives_functionBody {function : FunctionId} {value : Int64} {written : Block}
    (type : TypeExpr) (name : Token) (span : Span) (returns : written.Returns (Expr.Writes value))
    (negates : before.workspace.registry.Negates setting.builtins.int negate)
    (params : (before.workspace.registry.function function).params = [])
    (declared : (before.workspace.registry.function function).returnType? =
      some setting.builtins.int)
    : ∃ body, Gives (functionBody function (.mk type name [] written false span)) setting before
          ⟨function, body, span⟩
          { before with
            workspace := { before.workspace with
              registry := before.workspace.registry.modifyFunction function fun info =>
                { info with body := .script (some body) } }
            symbols := before.symbols.enterLocal.enterLocal.leave.leave }
        ∧ body.Returns negate setting.builtins.int value := by
  let inside : BuildState :=
    { before with openFunctions := ⟨function, []⟩ :: before.openFunctions, loopDepth := 0 }
  let entered : BuildState := { inside with symbols := before.symbols.enterLocal }
  let left : BuildState :=
    { before with symbols := before.symbols.enterLocal.enterLocal.leave.leave }
  obtain ⟨body, checked, isBody⟩ : ∃ body, Gives (block written) setting entered body
        { entered with symbols := entered.symbols.enterLocal.leave }
      ∧ body.Returns negate setting.builtins.int value :=
    gives_block returns negates rfl declared
  refine ⟨body, ?_, isBody⟩
  have noParams : Gives (modifySymbols fun symbols =>
        { symbols with
          ids := (before.workspace.registry.function function).params.foldl
            (fun ids param => ids.register param.name ⟨param.type, param.index⟩ false)
            symbols.ids }) setting entered () entered := by
    refine gives_modifySymbols.mpr ?_
    rw [params]
    rfl
  rw [functionBody]
  refine gives_bind.mpr ⟨(body, []), left, ?_, ?_⟩
  · rw [inFunction]
    refine gives_bind.mpr ⟨before, before, gives_get.mpr ⟨rfl, rfl⟩, ?_⟩
    refine gives_bind.mpr ⟨(), inside, gives_set.mpr rfl, ?_⟩
    refine gives_bind.mpr ⟨body, { inside with symbols := left.symbols }, ?_, ?_⟩
    · refine gives_inLocalScope.mpr ⟨{ entered with symbols := entered.symbols.enterLocal.leave },
        ?_, rfl⟩
      refine gives_bind.mpr ⟨_, entered, gives_registry.mpr ⟨rfl, rfl⟩, ?_⟩
      exact gives_bind.mpr ⟨(), entered, noParams, checked⟩
    · refine gives_bind.mpr ⟨_, _, gives_get.mpr ⟨rfl, rfl⟩, ?_⟩
      exact gives_bind.mpr ⟨(), left, gives_modify.mpr rfl, gives_pure.mpr ⟨rfl, rfl⟩⟩
  · refine gives_bind.mpr ⟨_, left, gives_registry.mpr ⟨rfl, rfl⟩, ?_⟩
    rw [show (left.workspace.registry.function function).returnType? = _ from declared]
    have ends : endInReturn body = body := by
      cases isBody
      rfl
    refine gives_bind.mpr ⟨(), _, gives_modifyRegistry.mpr rfl, ?_⟩
    rw [ends]
    exact gives_pure.mpr ⟨rfl, rfl⟩

/-- A function that takes nothing is declared if there is none of its name. -/
theorem gives_functionDecl {type name : Token} {typeSpan span : Span} {written : Block}
    {id : TypeId} (word : type.kind = .identifier)
    (found : before.symbols.types.find? [type.value] = some id)
    (isNew : before.symbols.functions.findAllHere name.value = [])
    : Gives (functionDecl (.mk ⟨[type], [], false, typeSpan⟩ name [] written false span)) setting
        before ⟨before.workspace.registry.functions.size⟩
        { before with
          workspace := { before.workspace with
            registry := (before.workspace.registry.addFunction
              ⟨name.value, [], name.span, some id, before.context, .script none⟩).2 }
          symbols := before.symbols.withFunction name.value
            ⟨before.workspace.registry.functions.size⟩ } := by
  have isWritten : TypeExpr.isAuto ⟨[type], [], false, typeSpan⟩ = false := by
    simp [TypeExpr.isAuto, word]
  simp only [functionDecl, FunctionDecl.returnType, FunctionDecl.name, FunctionDecl.params,
    FunctionDecl.exported, isWritten, paramList]
  refine gives_bind.mpr ⟨some id, before, gives_map.mpr ⟨id, gives_plainType found, rfl⟩, ?_⟩
  refine gives_bind.mpr ⟨[], before, gives_pure.mpr ⟨rfl, rfl⟩, ?_⟩
  refine gives_bind.mpr ⟨_, before, gives_registry.mpr ⟨rfl, rfl⟩, ?_⟩
  refine gives_bind.mpr ⟨_, before, gives_symbols.mpr ⟨rfl, rfl⟩, ?_⟩
  rw [isNew]
  refine gives_bind.mpr ⟨_, before, gives_get.mpr ⟨rfl, rfl⟩, ?_⟩
  refine gives_bind.mpr ⟨_, _, gives_onRegistry.mpr ⟨_, rfl, rfl⟩, ?_⟩
  refine gives_bind.mpr ⟨(), _, gives_modifySymbols.mpr rfl, ?_⟩
  exact gives_pure.mpr ⟨rfl, rfl⟩

/-- The function `main` that returns an integer is declared and checked, where there is none yet. -/
theorem gives_main {main : Stmt} {value : Int64} (isMain : main.IsMain (Expr.Writes value))
    (found : before.symbols.types.find? ["int"] = some setting.builtins.int)
    (isNew : before.symbols.functions.findAllHere "main" = [])
    (closed : before.workspace.registry.Closed)
    (known : before.workspace.registry.KnowsFunction negate)
    (negates : before.workspace.registry.Negates setting.builtins.int negate)
    (apart : ∀ ancestor ∈ before.workspace.registry.lineage
      (before.workspace.registry.decayed setting.builtins.int),
      before.context ≠ (before.workspace.registry.type ancestor).context)
    : ∃ definition registry,
        Gives (decls [main]) setting before [.function definition]
          { before with
            workspace := { before.workspace with registry }
            symbols := (before.symbols.withFunction "main"
              ⟨before.workspace.registry.functions.size⟩).enterLocal.enterLocal.leave.leave }
        ∧ registry.ReturnsInt ⟨before.workspace.registry.functions.size⟩ negate
            setting.builtins.int value := by
  obtain @⟨type, name, typeSpan, span, written, isInt, isMain, returns⟩ := isMain
  let function : FunctionId := ⟨before.workspace.registry.functions.size⟩
  let info : FunctionInfo :=
    ⟨"main", [], name.span, some setting.builtins.int, before.context, .script none⟩
  let added : Registry := (before.workspace.registry.addFunction info).2
  let declared : BuildState :=
    { before with
      workspace := { before.workspace with registry := added }
      symbols := before.symbols.withFunction "main" function }
  have head : Gives (functionDecl (.mk ⟨[type], [], false, typeSpan⟩ name [] written false span))
      setting before function declared := by
    have called : name.value = "main" := congrArg Prod.snd isMain
    have typed : type.value = "int" := congrArg Prod.snd isInt
    rw [← typed] at found
    rw [← called] at isNew
    have gives : Gives (functionDecl (.mk ⟨[type], [], false, typeSpan⟩ name [] written false span))
        setting before _ _ := gives_functionDecl (congrArg Prod.fst isInt) found isNew
    rw [called] at gives
    exact gives
  have own : added.function function = info := by
    rw [Registry.function_addFunction]
    exact if_pos rfl
  have negatesToo : added.Negates setting.builtins.int negate :=
    negates.addFunction closed known apart
  obtain ⟨body, checked, isChecked⟩ : ∃ body, Gives (functionBody function
          (.mk ⟨[type], [], false, typeSpan⟩ name [] written false span)) setting declared
          ⟨function, body, span⟩
          { declared with
            workspace := { declared.workspace with
              registry := declared.workspace.registry.modifyFunction function fun info =>
                { info with body := .script (some body) } }
            symbols := declared.symbols.enterLocal.enterLocal.leave.leave }
        ∧ body.Returns negate setting.builtins.int value :=
    gives_functionBody _ name span returns negatesToo (congrArg FunctionInfo.params own)
      (congrArg FunctionInfo.returnType? own)
  let checkedInfo : FunctionInfo := { info with body := .script (some body) }
  let registry : Registry := added.modifyFunction function fun info =>
    { info with body := .script (some body) }
  refine ⟨⟨function, body, span⟩, registry, ?_, ?_⟩
  · let after : BuildState :=
      { declared with
        workspace := { before.workspace with registry }
        symbols := declared.symbols.enterLocal.enterLocal.leave.leave }
    have both : Gives (decl (.function (.mk ⟨[type], [], false, typeSpan⟩ name [] written false
        span))) setting before (.function ⟨function, body, span⟩) after := by
      rw [decl]
      refine gives_bind.mpr ⟨function, declared, head, ?_⟩
      exact gives_bind.mpr ⟨⟨function, body, span⟩, after, checked, gives_pure.mpr ⟨rfl, rfl⟩⟩
    rw [decls, decls]
    refine gives_bind.mpr ⟨.function ⟨function, body, span⟩, after, both, ?_⟩
    exact gives_bind.mpr ⟨[], after, gives_pure.mpr ⟨rfl, rfl⟩, gives_pure.mpr ⟨rfl, rfl⟩⟩
  · have knownHere : added.KnowsFunction function := Registry.knowsFunction_addFunction _ info
    have main : registry.function function = checkedInfo := by
      rw [Registry.function_modifyFunction, if_pos ⟨rfl, knownHere⟩, own]
    have apartFunctions : function ≠ negate := by
      rintro rfl
      exact absurd known (Nat.lt_irrefl _)
    have other : registry.function negate = added.function negate := by
      rw [Registry.function_modifyFunction, if_neg fun both => apartFunctions both.1]
    exact ⟨⟨body, congrArg FunctionInfo.body main, isChecked⟩, congrArg FunctionInfo.params main,
      congrArg FunctionInfo.returnType? main, negates.kind,
      (congrArg FunctionInfo.body other).trans negatesToo.body⟩

end Build

-----------------------------------------------------------------------------------------
-- Compilation
-----------------------------------------------------------------------------------------

/-- The names that a script can use after it has declared `main`. -/
def Prelude.withMain : Symbols :=
  standard.symbols.withFunction "main" ⟨standard.registry.functions.size⟩

set_option maxRecDepth 100000 in
/-- A script of no function can call its first one `main`, and finds it then. -/
theorem Prelude.standard_main
    : standard.symbols.types.find? ["int"] = some standard.builtins.int
      ∧ standard.symbols.functions.findAllHere "main" = []
      ∧ withMain.enterLocal.enterLocal.leave.leave.functions.find? ["main"] =
          some ⟨standard.registry.functions.size⟩ := by
  decide +kernel

set_option maxRecDepth 100000 in
/-- Integers have their functions in a context of their own. -/
theorem Prelude.standard_apart
    : ∀ ancestor ∈ standard.registry.lineage (standard.registry.decayed standard.builtins.int),
        standard.builtins.globalContext ≠ (standard.registry.type ancestor).context := by
  decide +kernel

/-- A script that returns an integer is accepted, and the function that it declares returns the
integer.
-/
theorem ScriptUnit.Returns.build {scriptUnit : ScriptUnit} {value : Int64}
    (returns : scriptUnit.Returns (Expr.Writes value)) (neighbours : Neighbours)
    {workspace : Workspace} (fresh : workspace.registry = Prelude.standard.registry)
    : ∃ built registry function,
        scriptUnit.build Prelude.standard.builtins Prelude.standard.symbols neighbours workspace =
          (some built, { workspace with registry })
        ∧ built.scriptUnit.globals = []
        ∧ built.main? = some function
        ∧ registry.ReturnsInt function ⟨17⟩ Prelude.standard.builtins.int value := by
  obtain @⟨main, span, isMain⟩ := returns
  obtain ⟨registry, diagnostics, texts, consulted, imports, inProgress, modules, exhausted⟩ :=
    workspace
  obtain rfl : registry = Prelude.standard.registry := fresh
  have known : Prelude.standard.registry.KnowsFunction ⟨17⟩ := by
    unfold Registry.KnowsFunction
    decide +kernel
  obtain ⟨found, isNew, isFound⟩ := Prelude.standard_main
  let start : BuildState :=
    ⟨⟨Prelude.standard.registry, diagnostics, texts, consulted, imports, inProgress, modules,
      exhausted⟩, Prelude.standard.symbols, Prelude.standard.builtins.globalContext, [], [], 0⟩
  obtain ⟨definition, registry, gives, isMain⟩ : ∃ definition registry,
      Build.Gives (Build.decls [main]) ⟨Prelude.standard.builtins, neighbours⟩ start
          [.function definition]
          { start with
            workspace := { start.workspace with registry }
            symbols := Prelude.withMain.enterLocal.enterLocal.leave.leave }
        ∧ registry.ReturnsInt ⟨Prelude.standard.registry.functions.size⟩ ⟨17⟩
            Prelude.standard.builtins.int value :=
    Build.gives_main isMain found isNew Prelude.standard_closed.1 known Prelude.standard_negates
      Prelude.standard_apart
  generalize Prelude.withMain.enterLocal.enterLocal.leave.leave = left at gives isFound
  let built : BuiltScript :=
    ⟨⟨span.file, [.function definition], span⟩, left.collectExports, left.functions.find? ["main"]⟩
  refine ⟨built, registry, _, ?_, rfl, isFound, isMain⟩
  rw [ScriptUnit.build]
  exact congrArg (fun given : Option (List TypedDecl) × BuildState =>
    (given.1.map fun decls =>
      (⟨⟨span.file, decls, span⟩, given.2.symbols.collectExports,
        given.2.symbols.functions.find? ["main"]⟩ : BuiltScript), given.2.workspace)) gives

namespace Session

variable {session : Session} {nesting : Nat} {path source : String}

/-- A script that is built and has a function called `main` is compiled. -/
theorem Builds.compiles {built : BuiltScript} {after : Workspace} {main : FunctionId}
    (builds : session.Builds nesting path source built after) (called : built.main? = some main)
    (ended : after.exhausted = false)
    : compileWithin nesting path source session =
        (some ⟨after.registry, Prelude.standard.builtins, after.modules, built.scriptUnit, main⟩,
          { session with
            diagnostics := after.diagnostics
            texts := after.texts
            consulted := after.consulted
            exhausted := false }) := by
  have finished : finish Prelude.standard.builtins built after =
      (some ⟨after.registry, Prelude.standard.builtins, after.modules, built.scriptUnit, main⟩,
        after) := by
    rw [finish, called]
    rfl
  have all : session.build nesting path source (session.workspace path source) =
      finish Prelude.standard.builtins built after :=
    Workspace.step_bind.mpr ⟨some built, after, builds, rfl⟩
  rw [compileWithin_eq, all, finished]
  simp only [ended, Bool.false_eq_true, if_false]

/-- A text that is no script is refused with one message. -/
theorem compileWithin_refused {error : SyntaxError}
    (refused : ScriptUnit.ofSource source path = .error error)
    : compileWithin nesting path source session =
        (none, { session with
          diagnostics := session.diagnostics ++ [Diagnostic.ofSyntaxError error]
          texts := (path, source) :: session.texts
          exhausted := false }) := by
  have all : session.build nesting path source (session.workspace path source) =
      (none, (Workspace.report (Diagnostic.ofSyntaxError error)
        (session.workspace path source)).2) := by
    refine Workspace.step_bind.mpr ⟨none, _, ?_, rfl⟩
    rw [Workspace.buildSource_eq, refused]
  rw [compileWithin_eq, all]
  rfl

/-- A script that returns an integer by its text is compiled without a message. -/
theorem compiles_returning (session : Session) (nesting : Nat) (path : String)
    {value : Int64} (other : value ≠ Int64.minValue)
    : ∃ program after negate,
        compileWithin nesting path (ScriptUnit.returning value) session = (some program, after)
        ∧ after.config = session.config ∧ after.diagnostics = session.diagnostics
        ∧ program.modules = []
        ∧ program.scriptUnit.globals = []
        ∧ program.registry.ReturnsInt program.main negate program.builtins.int value := by
  obtain ⟨scriptUnit, read, returns⟩ := ScriptUnit.ofSource_returning other path
  let before := session.workspace path (ScriptUnit.returning value)
  obtain ⟨built, registry, main, gives, bare, called, isMain⟩ := returns.build
    (Workspace.neighboursWithin session.loadSetting nesting)
    (show (before.entering path).registry = Prelude.standard.registry from rfl)
  have builds : session.Builds nesting path (ScriptUnit.returning value) built
      { before with registry } := by
    rw [Builds, Workspace.buildSource_eq, read]
    exact congrArg (fun given : Option BuiltScript × Workspace => (given.1, given.2.leaving)) gives
  exact ⟨_, _, ⟨17⟩, builds.compiles called rfl, rfl, rfl, rfl, bare, isMain⟩

end Session

-----------------------------------------------------------------------------------------
-- Runs
-----------------------------------------------------------------------------------------

namespace Run

open IntOperation (Calculates)

variable {setting : RunSetting} {machine : Machine} {number : Int} {action : Run Handle}

theorem Calculates.checked (calculates : Calculates setting machine number action)
    (alive : machine.store.system.failed = false)
    : Calculates setting machine number (Run.checked action) := by
  obtain ⟨cell, store, result, outcome, new, value, same, keeps⟩ := calculates
  refine ⟨cell, store, result, ?_, new, value, same, keeps⟩
  rw [checked_run, outcome]
  dsimp only
  rw [keeps.system, alive, if_neg Bool.false_ne_true]

theorem evaluate_int_calculates (call : Caller) (type : TypeId) (span : Span) (value : Int64)
    (alive : machine.store.system.failed = false)
    : Calculates setting machine value.toInt (evaluate call (.mk (.int value) type span)) :=
  Calculates.checked (IntOperation.calculates_of_gives (Effect.new_gives _ type (.int value))) alive

theorem callWithin_negate_calculates {negate : FunctionId} {x : Handle} {value : Int64}
    (depth : Nat) (negates : (setting.registry.function negate).body = .builtin (.int .negate))
    (holds : machine.store.heap.value x.cell = .int value)
    (alive : machine.store.system.failed = false)
    : Calculates setting machine (-value).toInt (callWithin depth negate (some x) []) := by
  have negated (result : TypeId)
      : Calculates setting machine (-value).toInt (IntOperation.act .negate x [] result) := by
    refine IntOperation.calculates_of_gives ?_
    rw [IntOperation.perform_negate holds]
    exact Effect.int_gives _
  obtain ⟨cell, store, number, outcome, rest⟩ := Calculates.checked (negated _) alive
  exact ⟨cell, store, number, (callWithin_builtin depth (some x) [] negates).trans outcome, rest⟩

/-- What is written as an integer comes to the integer. -/
theorem evaluate_calculates {negate : FunctionId} {type : TypeId} {value : Int64}
    {typed : TypedExpr} (writes : typed.Writes negate type value) (depth : Nat)
    (negates : (setting.registry.function negate).body = .builtin (.int .negate))
    (alive : machine.store.system.failed = false)
    : Calculates setting machine value.toInt (evaluate (callWithin depth) typed) := by
  cases writes with
  | plain => exact evaluate_int_calculates _ _ _ value alive
  | @negated value text span whole =>
      refine Calculates.checked ?_ alive
      obtain ⟨cell, middle, literal, outcome, -, held, same, keeps⟩ :=
        evaluate_int_calculates (callWithin depth) type span value alive
      obtain rfl : literal = value := Int64.toInt_inj.mp same
      have stillAlive : middle.system.failed = false :=
        (congrArg BuildSystem.failed keeps.system).trans alive
      have called : Calculates setting { machine with store := middle } (-literal).toInt
          (callWithin depth negate (some (.owned cell)) []) :=
        callWithin_negate_calculates depth negates held stillAlive
      obtain ⟨cell', store, result, outcome', new, held', same', keeps'⟩ := called
      refine ⟨cell', store, result, ?_, Nat.le_trans keeps.grows new, held', same',
        keeps.trans keeps'⟩
      rw [evaluateKind, run_bind, outcome]
      exact outcome'

/-- A body that returns an integer leaves it as what is returned. -/
theorem executeBlock_returns {negate : FunctionId} {type : TypeId} {value : Int64}
    {body : TypedBlock} (returns : body.Returns negate type value) (depth : Nat)
    (negates : (setting.registry.function negate).body = .builtin (.int .negate))
    (alive : machine.store.system.failed = false)
    : ∃ cell store, executeBlock (callWithin depth) body setting machine =
        (.ok (), { machine with store, returned? := some (.owned cell) })
      ∧ store.heap.value cell = .int value
      ∧ store.system = machine.store.system := by
  cases returns with
  | @mk typed span whole writes =>
  have entered : machine.enterScope.store.system.failed = false := alive
  obtain ⟨cell, store, result, outcome, -, held, same, keeps⟩ :=
    evaluate_calculates writes depth negates entered
  obtain rfl : result = value := Int64.toInt_inj.mp same
  refine ⟨cell, store, ?_, held, keeps.system⟩
  let left : Machine := { machine.enterScope with store, returned? := some (.owned cell) }
  have executed : execute (callWithin depth) (.returnValue (some typed) span) setting
      machine.enterScope = (.ok (), left) := by
    rw [execute, run_bind, outcome]
    rfl
  have all : executeAll (callWithin depth) [.returnValue (some typed) span] setting
      machine.enterScope = (.ok (), left) := by
    rw [executeAll, run_bind, executed]
    rfl
  have block : executeBlock (callWithin depth) (.mk [.returnValue (some typed) span] whole) setting
      machine = (.ok (), left.leaveScope) := by
    rw [executeBlock]
    exact congrArg (fun given => (given.1, given.2.leaveScope)) all
  rw [block]
  obtain ⟨_, _ | _, _, _, _, _⟩ := machine <;> rfl

/-- A call of such a function gives the integer. -/
theorem callWithin_returns {function negate : FunctionId} {type : TypeId} {value : Int64}
    (returns : setting.registry.ReturnsInt function negate type value) (depth : Nat)
    (alive : machine.store.system.failed = false) (idle : machine.returned? = none)
    : ∃ cell store, callWithin (depth + 1) function none [] setting machine =
        (.ok (.owned cell), { machine with store })
      ∧ store.heap.value cell = .int value
      ∧ store.system = machine.store.system := by
  obtain ⟨body, isScript, isBody⟩ := returns.body
  let frame : Frame := ⟨function, [], [], none⟩
  let inside : Machine := { machine with frames := frame :: machine.frames }
  have aliveInside : inside.store.system.failed = false := alive
  obtain ⟨cell, store, outcome, held, same⟩ :=
    executeBlock_returns isBody depth returns.negates aliveInside
  refine ⟨cell, store, ?_, held, same⟩
  have framed : inFrame frame (executeBlock (callWithin depth) body) setting machine =
      (.ok (some (.owned cell)), { machine with store }) := by
    let done : Machine := { inside with store, returned? := some (.owned cell) }
    have returned : (do
          executeBlock (callWithin depth) body
          return (← get).returned? : Run (Option Handle)) setting inside =
        (.ok (some (.owned cell)), done) := by
      rw [run_bind, outcome]
      rfl
    have left : inFrame frame (executeBlock (callWithin depth) body) setting machine =
        (.ok (some (.owned cell)), takeReturned done) :=
      congrArg (fun given : Except Stop (Option Handle) × Machine =>
        (given.1, takeReturned given.2)) returned
    rw [left]
    obtain ⟨_, _, _, _, _, _⟩ := machine
    obtain rfl := idle
    rfl
  rw [callWithin_script depth none [] isScript, checked_run, returns.params, returns.result]
  have called : callScript (callWithin depth) function type [] body none [] setting machine =
      (.ok (.owned cell), { machine with store }) := by
    have none_ : bindParams [] [] setting machine = (.ok [], machine) := by
      rw [bindParams]
      rfl
      intros
      contradiction
    rw [callScript, run_bind, none_]
    dsimp only
    rw [run_bind, framed]
    show bind type (.owned cell) setting _ = _
    rw [bind, read_run, TypeInfo.isReference, TypeInfo.referenced?, returns.kind]
    rfl
  rw [Option.getD_some, called]
  dsimp only
  rw [same, alive]
  rfl

end Run

/-- A program whose `main` returns an integer runs to that integer and makes no request. -/
theorem Session.run_returns {session : Session} {program : Program} {system : BuildSystem}
    {negate : FunctionId} {type : TypeId} {value : Int64} (alone : program.modules = [])
    (bare : program.scriptUnit.globals = [])
    (returns : program.registry.ReturnsInt program.main negate type value)
    (deep : 0 < session.config.maxCallDepth) (alive : system.failed = false)
    : session.run program system = (some value, system) := by
  obtain ⟨depth, enough⟩ := Nat.exists_eq_add_of_le' deep
  let setting := program.setting session.limits
  have prepared : program.prepare setting (Machine.ofSystem system) =
      (.ok (), Machine.ofSystem system) := by
    rw [Program.prepare, alone, bare]
    rfl
  obtain ⟨cell, store, outcome, held, same⟩ : ∃ cell store,
      Run.callWithin (depth + 1) program.main none [] setting (Machine.ofSystem system) =
        (.ok (.owned cell), { Machine.ofSystem system with store })
      ∧ store.heap.value cell = .int value ∧ store.system = system :=
    Run.callWithin_returns returns depth alive rfl
  have called : Run.call program.main none [] setting (Machine.ofSystem system) =
      (.ok (.owned cell), { Machine.ofSystem system with store }) := by
    rw [← outcome, ← show session.config.maxCallDepth = depth + 1 from enough]
    rfl
  have ran : program.run session.limits system =
      (.ok (.owned cell), { Machine.ofSystem system with store }) := by
    rw [Program.run, Program.execute, Run.run_bind, prepared]
    exact called
  rw [Session.run, ran]
  exact congrArg₂ (fun value system => (some value.asInt, system)) held same

-----------------------------------------------------------------------------------------
-- Texts of the language and of the command line
-----------------------------------------------------------------------------------------

namespace Text

theorem trim_of_solid {text : List Char} (solid : ∀ c ∈ text, isBlank c = false)
    : trim text = text := by
  have kept {chars : List Char} (solid : ∀ c ∈ chars, isBlank c = false)
      : chars.dropWhile isBlank = chars := by
    cases chars with
    | nil => rfl
    | cons c rest =>
        rw [List.dropWhile_cons, solid c List.mem_cons_self, if_neg Bool.false_ne_true]
  rw [trim, kept solid, trimEnd, kept fun c among => solid c (List.mem_reverse.mp among),
    List.reverse_reverse]

end Text

/-- No character of a written integer is a blank. -/
theorem Decimal.solid_writeInt64 (value : Int64)
    : ∀ c ∈ (writeInt64 value).toList, isBlank c = false := by
  have digits {value : Int64} (natural : 0 ≤ value.toInt)
      : ∀ c ∈ (writeInt64 value).toList, isBlank c = false := by
    intro c among
    have digit : c.isDigit = true := (isNumeral_writeInt64 natural).2 c among
    cases blank : isBlank c with
    | false => rfl
    | true => exact absurd ((digit_of_blank blank).symm.trans digit) Bool.false_ne_true
  by_cases least : value = Int64.minValue
  · subst least
    intro c among
    have all : (writeInt64 Int64.minValue).toList.all (!isBlank ·) = true := by decide
    simpa using List.all_eq_true.mp all c among
  rcases writeInt64_cases least with natural | ⟨opposite, natural, -, text⟩
  · exact digits natural
  · rw [text, List.forall_mem_cons]
    exact ⟨by decide, digits natural⟩

variable {environment : Environment} {store : Store}

/-- An integer gives its text. -/
theorem IntOperation.text_gives {x : Handle} {value : Int64} {operands : List Handle}
    (holds : store.heap.value x.cell = .int value)
    : Gives store (.string (Decimal.writeInt64 value))
        (IntOperation.text.perform x operands environment store) := by
  have performed : IntOperation.text.perform x operands = (do
      let this ← Effect.valueOf x
      let _ ← Effect.valuesOf operands
      Effect.string (Decimal.writeInt64 this.asInt)) := by
    unfold IntOperation.perform
    rfl
  rw [performed, TextEdit.values_run, holds, Value.asInt]
  exact Effect.string_gives _

/-- A value that can be read from what is defined on the command line is put into a cell. -/
theorem findExternal_run {name : String} {value : Value} {type valueType : TypeId}
    (isExternal : (environment.registry.type (environment.registry.decayed type)).kind =
      .external valueType)
    (read : (store.system.definedValue? name).bind
      (environment.registry.type valueType).kind.readValue? = some value)
    : findExternal name type environment store =
        Effect.new (environment.registry.decayed type)
          (.external (some (store.heap.alloc ⟨valueType, value⟩).1)) environment
          ⟨(store.heap.alloc ⟨valueType, value⟩).2, store.system⟩ := by
  have looked (next : Environment → Effect Handle)
      : (MonadReader.read >>= next) environment store = next environment environment store := rfl
  have asked (next : BuildSystem → Effect Handle)
      : (Effect.system >>= next) environment store = next store.system environment store := rfl
  rw [findExternal, looked]
  dsimp only
  rw [isExternal]
  dsimp only
  rw [asked, read]
  rfl

theorem copy_int {heap : Heap} {cell : CellId} {value : Int64}
    (holds : heap.value cell = .int value)
    : Heap.copy cell heap = heap.alloc ⟨(heap.read cell).type, .int value⟩ := by
  have copied : Heap.copy cell heap = (do
      let value ← Heap.copyValue (heap.value cell)
      Heap.new (heap.read cell).type value : StateM Heap CellId) heap := rfl
  rw [copied, holds]
  rfl

/-- What is known of a name is copied out. -/
theorem ExternalOperation.value_gives {self : Handle} {inner : CellId} {value : Int64}
    {operands : List Handle} {type : TypeId}
    (known : store.heap.value self.cell = .external (some inner))
    (holds : store.heap.value inner = .int value)
    : Gives store (.int value)
        (ExternalOperation.value.perform self operands type environment store) := by
  unfold ExternalOperation.perform
  rw [TextEdit.values_run, known]
  dsimp only
  have copied : (Handle.owned <$> Effect.onHeap (Heap.copy inner) : Effect Handle) environment
      store = Effect.new (store.heap.read inner).type (.int value) environment store := by
    have mapped : (Handle.owned <$> Effect.onHeap (Heap.copy inner) : Effect Handle) environment
        store = (.ok (.owned (Heap.copy inner store.heap).1),
          ⟨(Heap.copy inner store.heap).2, store.system⟩) := rfl
    rw [mapped, copy_int holds]
    rfl
  rw [copied]
  exact Effect.new_gives _ _ _

/-- An integer that is defined by its text on the command line is the value of that name. -/
theorem ExternalOperation.reads_integer {self operand : Handle} {name : String} {value : Int64}
    {type valueType : TypeId}
    (isExternal : (environment.registry.type (environment.registry.decayed type)).kind =
      .external valueType)
    (isInt : (environment.registry.type valueType).kind = .int)
    (named : store.heap.value operand.cell = .string name)
    (defined : store.system.definedValue? name = some (Decimal.writeInt64 value))
    : ∃ cell after, ExternalOperation.ofName.perform self [operand] type environment store =
        (.ok (.owned cell), after)
      ∧ Store.Keeps store after
      ∧ Gives after (.int value)
          (ExternalOperation.value.perform (.owned cell) [] valueType environment after) := by
  have read : (store.system.definedValue? name).bind
      (environment.registry.type valueType).kind.readValue? = some (.int value) := by
    rw [defined, isInt, Option.bind_some]
    show (Decimal.readInt64? (trim (Decimal.writeInt64 value).toList)).map Value.int = _
    rw [trim_of_solid (Decimal.solid_writeInt64 value), Decimal.readInt64?_written]
    rfl
  have performed : ExternalOperation.ofName.perform self [operand] type environment store =
      findExternal (store.heap.value operand.cell).asString type environment store := rfl
  rw [performed, named, Value.asString, findExternal_run isExternal read]
  let inner := store.heap.alloc ⟨valueType, .int value⟩
  let middle : Store := ⟨inner.2, store.system⟩
  have keeps : Store.Keeps store middle := Store.Keeps.alloc store _
  have held : middle.heap.value inner.1 = .int value := (Heap.value_alloc ..).trans (if_pos rfl)
  have given : Gives middle (.external (some inner.1))
      (Effect.new (environment.registry.decayed type) (.external (some inner.1)) environment
        middle) :=
    Effect.new_gives ..
  obtain ⟨cell, after, outcome, -, isValue, keepsToo⟩ := given
  refine ⟨cell, after, outcome, keeps.trans keepsToo, ?_⟩
  have still : after.heap.value inner.1 = .int value := keepsToo.value held (by simp)
  exact ExternalOperation.value_gives isValue still

-----------------------------------------------------------------------------------------
-- Round trips
-----------------------------------------------------------------------------------------

/-- The text that the script language gives of an integer. -/
def IntOperation.GivesText (value : Int64) (text : String) : Prop :=
  ∀ (environment : Environment) (store : Store) (self : Handle) (operands : List Handle),
    store.heap.value self.cell = .int value
    → Gives store (.string text) (IntOperation.text.perform self operands environment store)

/-- A text on the command line stands for an integer: whatever name it is defined for, the external
integer of that name has this value.
-/
def ExternalOperation.Defines (text : String) (value : Int64) : Prop :=
  ∀ (environment : Environment) (store : Store) (self operand : Handle) (name : String)
    (type valueType : TypeId),
    (environment.registry.type (environment.registry.decayed type)).kind = .external valueType
    → (environment.registry.type valueType).kind = .int
    → store.heap.value operand.cell = .string name
    → store.system.definedValue? name = some text
    → ∃ cell after,
        ExternalOperation.ofName.perform self [operand] type environment store =
          (.ok (.owned cell), after)
        ∧ Store.Keeps store after
        ∧ Gives after (.int value)
            (ExternalOperation.value.perform (.owned cell) [] valueType environment after)

namespace Session

/-- A text compiles without a message to a program that gives an integer, and asks nothing of the
build system.
-/
def Yields (session : Session) (nesting : Nat) (path source : String) (system : BuildSystem)
    (value : Int64) : Prop :=
  ∃ program after,
    compileWithin nesting path source session = (some program, after)
    ∧ after.diagnostics = session.diagnostics
    ∧ after.run program system = (some value, system)

/-- The text of the least integer is read as the negation of a literal that is out of range. -/
theorem compileWithin_least (session : Session) (nesting : Nat) (path : String)
    : ∃ position, compileWithin nesting path (ScriptUnit.returning Int64.minValue) session =
        (none, { session with
          diagnostics := session.diagnostics ++
            [Diagnostic.ofSyntaxError ⟨.number "9223372036854775808", position⟩]
          texts := (path, ScriptUnit.returning Int64.minValue) :: session.texts
          exhausted := false }) := by
  obtain ⟨position, refused⟩ := ScriptUnit.ofSource_least path
  exact ⟨position, compileWithin_refused refused⟩

/-- Every integer but the least one is read back from its text by the compiler, and every integer is
read back from its text on the command line. A literal has no sign: the minus sign before it is an
operator, and the literal of the least integer would be greater than all integers.
-/
theorem integers_read_back {session : Session} {system : BuildSystem}
    (deep : 0 < session.config.maxCallDepth) (alive : system.failed = false) (nesting : Nat)
    (path : String) (value : Int64)
    : IntOperation.GivesText value (Decimal.writeInt64 value)
      ∧ ExternalOperation.Defines (Decimal.writeInt64 value) value
      ∧ (value ≠ Int64.minValue
        → session.Yields nesting path (ScriptUnit.returning value) system value)
      ∧ (value = Int64.minValue → ∃ position,
          compileWithin nesting path (ScriptUnit.returning value) session =
            (none, { session with
              diagnostics := session.diagnostics ++
                [Diagnostic.ofSyntaxError ⟨.number "9223372036854775808", position⟩]
              texts := (path, ScriptUnit.returning value) :: session.texts
              exhausted := false })) := by
  refine ⟨fun _ _ _ _ holds => IntOperation.text_gives holds,
    fun _ _ _ _ _ _ _ isExternal isInt named defined =>
      ExternalOperation.reads_integer isExternal isInt named defined, fun other => ?_, ?_⟩
  · obtain ⟨program, after, negate, compiled, sameConfig, silent, alone, bare, returns⟩ :=
      session.compiles_returning nesting path other
    refine ⟨program, after, compiled, silent, ?_⟩
    exact run_returns alone bare returns (sameConfig ▸ deep) alive
  · rintro rfl
    exact session.compileWithin_least nesting path

/-- The provided registry with a type of external integers. -/
def externalIntegers : TypeId × Registry :=
  Prelude.standard.registry.addGeneric Prelude.standard.builtins .external
    Prelude.standard.builtins.int

/-- What a run begins with when an integer is defined on the command line and its name is known. -/
def definedInteger : Store where
  heap := (Heap.empty.alloc ⟨Prelude.standard.builtins.string, .string "n"⟩).2
  system := (BuildSystem.ofRoot "/").define "n" "-9223372036854775807"

/-- The integer next to the least one, returned by a script and defined on the command line. -/
theorem integers_read_back_negative
    : (Session.start Config.standard fun _ => none).Yields nestingLimit "CMakeLists.cmsl"
        "int main() \x7b return -9223372036854775807; \x7d" (BuildSystem.ofRoot "/")
        (-9223372036854775807)
      ∧ ∃ cell after,
          ExternalOperation.ofName.perform (.owned ⟨0⟩) [.owned ⟨0⟩] externalIntegers.1
              ⟨externalIntegers.2, Prelude.standard.builtins⟩ definedInteger =
            (.ok (.owned cell), after)
          ∧ Gives after (.int (-9223372036854775807))
              (ExternalOperation.value.perform (.owned cell) [] Prelude.standard.builtins.int
                ⟨externalIntegers.2, Prelude.standard.builtins⟩ after) := by
  have source : "int main() \x7b return -9223372036854775807; \x7d" =
      ScriptUnit.returning (-9223372036854775807) := by decide +kernel
  have deep : 0 < (Session.start Config.standard fun _ => none).config.maxCallDepth := by decide
  have alive : (BuildSystem.ofRoot "/").failed = false := rfl
  obtain ⟨-, defines, yields, -⟩ :=
    integers_read_back deep alive nestingLimit "CMakeLists.cmsl" (-9223372036854775807)
  have text : Decimal.writeInt64 (-9223372036854775807) = "-9223372036854775807" := by
    decide +kernel
  refine ⟨source ▸ yields (by decide), ?_⟩
  obtain ⟨cell, after, known, -, gives⟩ := defines
    ⟨externalIntegers.2, Prelude.standard.builtins⟩ definedInteger (.owned ⟨0⟩) (.owned ⟨0⟩) "n"
    externalIntegers.1 Prelude.standard.builtins.int (by decide +kernel) (by decide +kernel) rfl
    (text ▸ by decide +kernel)
  exact ⟨cell, after, known, gives⟩

/-- The script that returns the least integer by its text has no program. -/
theorem least_not_read_back
    : ¬ (Session.start Config.standard fun _ => none).Yields nestingLimit "CMakeLists.cmsl"
        "int main() \x7b return -9223372036854775808; \x7d" (BuildSystem.ofRoot "/")
        (-9223372036854775808) := by
  have source : "int main() \x7b return -9223372036854775808; \x7d" =
      ScriptUnit.returning Int64.minValue := by decide +kernel
  rw [source]
  rintro ⟨program, after, compiled, -⟩
  obtain ⟨position, refused⟩ := compileWithin_least
    (Session.start Config.standard fun _ => none) nestingLimit "CMakeLists.cmsl"
  exact Option.some_ne_none program
    ((congrArg Prod.fst compiled).symm.trans (congrArg Prod.fst refused))

end Session

end BuildScript
