import BuildScript.Component.Syntax
import BuildScript.Decimal.Reader
import BuildScript.Syntax.TokenStream
import BuildScript.Token.Lexer

/-! Reading declarative files. -/

namespace BuildScript.Parse

/-- The values after commas up to the closing bracket, at most `count` of them. The last one
may be followed by a comma.
-/
def moreValues (nested : Parse ValueExpr) : Nat → Parse (List ValueExpr)
  | 0 => return []
  | count + 1 => do
    if ← accept .comma then
      if (← kind) == .closeBracket then return []
      else
        let first ← nested
        let rest ← moreValues nested count
        return first :: rest
    else return []

/-- The values between brackets after the opening one. -/
def listValuesWith (nested : Parse ValueExpr) : Parse (List ValueExpr) := do
  if (← kind) == .closeBracket then return []
  else
    let first ← nested
    let rest ← moreValues nested (← get).ahead.length
    return first :: rest

/-- The value of a property. -/
def valueWith (nested : Parse ValueExpr) : Parse ValueExpr := do
  let token ← next
  match token.kind with
  | .trueKeyword => return .bool true token.span
  | .falseKeyword => return .bool false token.span
  | .integer => return .int (← numberLiteral Decimal.readInt64? token) token.span
  | .double => return .double (← numberLiteral Decimal.readFloat? token) token.span
  | .string => return .string token.value token.span
  | .openBracket =>
    let values ← listValuesWith nested
    let _ ← expect .closeBracket
    return .list values (← spanFrom token.span)
  | _ => throw ⟨.unmet token.value .value, token.span.position⟩

/-- A value whose lists are nested less than `depth` deep. -/
def valueWithin : Nat → Parse ValueExpr
  | 0 => unexpected
  | depth + 1 => valueWith (valueWithin depth)

/-- The value of a property. -/
def value : Parse ValueExpr := do valueWithin (← get).depth

/-- A property: its name, `=` or `:`, its value and a semicolon. -/
def property : Parse PropertyDecl := do
  let name ← expect .identifier
  match ← kind with
  | .assignment | .colon =>
    let _ ← next
    let value ← value
    let _ ← expect .semicolon
    return ⟨name, value, ← spanFrom name.span⟩
  | _ => unmet .assignmentOrColon

/-- The properties before the closing brace, at most `count` of them. -/
def properties : Nat → Parse (List PropertyDecl)
  | 0 => return []
  | count + 1 => do
    if (← kind) == .closeCurly then return []
    else
      let first ← property
      let rest ← properties count
      return first :: rest

/-- A component and nothing after it. -/
def component : Parse ComponentDecl := do
  let name ← expect .identifier
  let _ ← expect .openCurly
  let properties ← properties (← get).depth
  let _ ← expect .closeCurly
  if (← kind) == .endOfFile then return ⟨name, properties, ← spanFrom name.span⟩
  else unmet .endAfterComponent

end BuildScript.Parse

namespace BuildScript.ComponentDecl

/-- The component that a sequence of tokens spells. -/
def ofTokens (tokens : List Token) (file : String) : Except SyntaxError ComponentDecl :=
  Parse.runOn Parse.component tokens file

/-- The component that a text spells. -/
def ofSource (source file : String) : Except SyntaxError ComponentDecl := do
  ofTokens (← Token.scan source file) file

end BuildScript.ComponentDecl
