import BuildScript.Syntax.TokenStream
import BuildScript.Syntax.TypeExpr

/-! Reading types. -/

namespace BuildScript.Parse

/-- The type arguments between angle brackets. -/
def typeArgumentsWith (nested : Parse TypeExpr) : Parse (List TypeExpr) := do
  let _ ← expect .less
  let generics ← separated nested
  let _ ← expect .greater
  return generics

/-- A type without the mark of a reference. -/
def plainTypeWith (nested : Parse TypeExpr) : Parse TypeExpr := do
  match ← kind with
  | .identifier =>
    let first := (← get).current
    let names ← qualifiedName
    let generics ← if (← kind) == .less then typeArgumentsWith nested else pure []
    return ⟨names, generics, false, ← spanFrom first.span⟩
  | .autoKeyword =>
    let token ← next
    return ⟨[token], [], false, token.span⟩
  | _ => unmet .type

/-- A type. It is a reference at most once. -/
def typeExprWith (nested : Parse TypeExpr) : Parse TypeExpr := do
  let type ← plainTypeWith nested
  if (← kind) == .amp then
    let mark ← next
    if (← kind) == .amp then unmet .singleReference
    else return { type with isReference := true, span := type.span.upTo mark.span }
  else return type

/-- A type whose arguments are nested less than `depth` deep. -/
def typeExprWithin : Nat → Parse TypeExpr
  | 0 => unexpected
  | depth + 1 => typeExprWith (typeExprWithin depth)

/-- A type. -/
def typeExpr : Parse TypeExpr := do typeExprWithin (← get).depth

/-- The type arguments of a constructor that is called. -/
def typeArguments : Parse (List TypeExpr) := do typeArgumentsWith (typeExprWithin (← get).depth)

end BuildScript.Parse
