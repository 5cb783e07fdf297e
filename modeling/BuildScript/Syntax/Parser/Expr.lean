import BuildScript.Decimal.Reader
import BuildScript.Syntax.Expr
import BuildScript.Syntax.Parser.Type
import BuildScript.Syntax.Precedence

/-! Reading expressions. Each reader takes the reader of nested expressions as a parameter;
the nesting is bounded by the number of tokens.
-/

namespace BuildScript.Parse

/-- A reader of expressions whose operators bind more tightly than a given power. -/
abbrev Operand := BindingPower → Parse Expr

/-- The expressions between parentheses that a call is given. -/
def argumentsWith (nested : Operand) : Parse (List Expr) := do
  let _ ← expect .openParen
  let arguments ← if (← kind) == .closeParen then pure [] else separated (nested .lowest)
  let _ ← expect .closeParen
  return arguments

/-- A qualified name, or the call of a constructor with type arguments. A `<` that begins no
such call is left to be read as a comparison.
-/
def identifierWith (nested : Operand) : Parse Expr := do
  let first := (← get).current
  let names ← qualifiedName
  let comparison : Parse Expr := do return .id names (← spanFrom first.span)
  if (← kind) == .less then
    let generics? ← attempt do
      let generics ← typeArguments
      if (← kind) == .openParen then return generics else unexpected
    match generics? with
    | some generics =>
      let callee : TypeExpr := ⟨names, generics, false, ← spanFrom first.span⟩
      let arguments ← argumentsWith nested
      return .call callee arguments (← spanFrom first.span)
    | none => comparison
  else comparison

/-- One initialiser of a member, `.name = value` or `name: value`. -/
def fieldInitWith (nested : Operand) : Parse FieldInit := do
  if ← accept .dot then
    let name ← expect .identifier
    let _ ← expect .assignment
    return .mk name (← nested .lowest)
  else
    let name ← expect .identifier
    let _ ← expect .colon
    return .mk name (← nested .lowest)

/-- Values or initialisers of members between braces. -/
def bracesWith (nested : Operand) : Parse Expr := do
  let opening ← expect .openCurly
  let stream ← get
  if stream.kind == .dot || (stream.kind == .identifier && (stream.peek 1).kind == .colon) then
    let fields ← separated (fieldInitWith nested)
    let _ ← expect .closeCurly
    return .designated fields (← spanFrom opening.span)
  else
    let values ← if stream.kind == .closeCurly then pure [] else separated (nested .lowest)
    let _ ← expect .closeCurly
    return .list values (← spanFrom opening.span)

/-- An expression that begins with its own token: a literal, a name, a prefix operator, or
something between brackets.
-/
def primaryWith (nested : Operand) : Parse Expr := do
  match ← kind with
  | .integer =>
    let token ← next
    return .int (← numberLiteral Decimal.readInt64? token) token.span
  | .double =>
    let token ← next
    return .double (← numberLiteral Decimal.readFloat? token) token.span
  | .string =>
    let token ← next
    return .string token.value token.span
  | .trueKeyword =>
    let token ← next
    return .bool true token.span
  | .falseKeyword =>
    let token ← next
    return .bool false token.span
  | .identifier => identifierWith nested
  | .dash | .not | .plusPlus | .minusMinus =>
    let operator ← next
    let operand ← nested .unary
    return .unary operator operand (operator.span.upTo operand.span)
  | .openParen =>
    let _ ← next
    let inner ← nested .lowest
    let _ ← expect .closeParen
    return inner
  | .openCurly => bracesWith nested
  | _ => unexpected

/-- The continuation of `left` by the current token, whose power is given. Assignments group to
the right, all other operators to the left.
-/
def continuationWith (nested : Operand) (left : Expr) (power : BindingPower) : Parse Expr := do
  match ← kind with
  | .question =>
    let _ ← next
    let whenTrue ← nested .lowest
    let _ ← expect .colon
    let whenFalse ← nested .assignment
    return .ternary left whenTrue whenFalse (left.span.upTo whenFalse.span)
  | .openParen =>
    match left with
    | .id names span =>
      let arguments ← argumentsWith nested
      return .call ⟨names, [], false, span⟩ arguments (← spanFrom span)
    | _ => unmet .namedFunction
  | .dot =>
    let _ ← next
    let name ← expect .identifier
    if (← kind) == .openParen then
      let arguments ← argumentsWith nested
      return .memberCall left name arguments (← spanFrom left.span)
    else return .member left name (← spanFrom left.span)
  | _ =>
    let operator ← next
    let right ← nested (if operator.kind.isAssignment then .comma else power)
    return .binary operator left right (left.span.upTo right.span)

/-- Continues `left` as long as the tokens bind more tightly than `power`, at most `count`
times.
-/
def continueWith (nested : Operand) (power : BindingPower) (left : Expr) : Nat → Parse Expr
  | 0 => return left
  | count + 1 => do
    match (← kind).continuationPower? with
    | none => return left
    | some next =>
      if power < next then
        let longer ← continuationWith nested left next
        continueWith nested power longer count
      else return left

/-- An expression whose operators bind more tightly than `power`. -/
def exprWith (nested : Operand) : Operand := fun power => do
  let left ← primaryWith nested
  continueWith nested power left (← get).ahead.length

/-- An expression whose parts are nested less than `depth` deep. -/
def exprWithin : Nat → Operand
  | 0 => fun _ => unexpected
  | depth + 1 => exprWith (exprWithin depth)

/-- An expression. -/
def expr : Parse Expr := do exprWithin (← get).depth .lowest

end BuildScript.Parse
