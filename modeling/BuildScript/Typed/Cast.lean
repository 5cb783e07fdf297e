import BuildScript.Typed.Context

/-! Making expressions fit the places where their values go. -/

namespace BuildScript

/-- The cast that turns a value of one type into one of another type. -/
def Registry.castKind (registry : Registry) (target source : TypeId) : CastKind :=
  let toReference := (registry.type target).isReference
  if registry.sameType (registry.decayed target) (registry.decayed source) then
    if toReference then .reference else .value
  else if toReference then .baseReference
  else .baseValue

namespace Build

mutual

/-- The expression as one of the target type. A cast is put in where the types differ, and
initialisers are bound to the members of the target class.
-/
def fit (target : TypeId) : TypedExpr → Build TypedExpr
  | .mk kind type span => do
    let registry ← registry
    if (registry.type type).isDesignated then
      match kind with
      | .pending fields =>
        let object := registry.decayed target
        if (registry.type object).isObject then
          return .mk (.designated (← fitFields object [] fields)) object span
        else
          let b ← builtins
          reject
            (.incompatibleInitialization (registry.typeName target)
              (registry.typeName b.designated))
            span
      | kind => return .mk kind type span
    else if registry.sameType target type then return .mk kind type span
    else return .mk (.cast (registry.castKind target type) (.mk kind type span)) target span

/-- The initialisers with the numbers of their members, of which those in `seen` are taken. -/
def fitFields (object : TypeId) (seen : List Nat) : List PendingField → Build (List MemberValue)
  | [] => return []
  | .mk name value span :: rest => do
    let registry ← registry
    match registry.findMember? object name with
    | none => reject (.memberNotFound (registry.typeName object) name) span
    | some member =>
      if seen.contains member.index then reject (.memberInitializedTwice name) span
      else if ← isConvertible member.type value then
        let first ← fit member.type value
        let others ← fitFields object (member.index :: seen) rest
        return .mk member.index first :: others
      else
        reject
          (.incompatibleInitialization (registry.typeName member.type)
            (registry.typeName value.type))
          span

end

/-- The arguments of a call as ones of the parameters' types. -/
def fitArguments : List Param → List TypedExpr → Build (List TypedExpr)
  | param :: params, argument :: arguments => do
    let first ← fit param.type argument
    let others ← fitArguments params arguments
    return first :: others
  | _, _ => return []

/-- A condition as a value of type `bool`. -/
def fitCondition (condition : TypedExpr) : Build TypedExpr := do
  let b ← builtins
  let registry ← registry
  if registry.sameType (registry.decayed condition.type) b.bool then fit b.bool condition
  else reject (.expectedBool (registry.typeName condition.type)) condition.span

end Build

end BuildScript
