import BuildScript.Syntax.Parser.Expr
import BuildScript.Syntax.Stmt
import BuildScript.Token.Lexer

/-! Reading statements, declarations and whole scripts. As with expressions, the reader of
nested statements is a parameter, and the nesting is bounded by the number of tokens.
-/

namespace BuildScript.Parse

/-- The items before a closing brace, at most `count` of them, and the brace. -/
def untilBrace {α : Type} (item : Parse α) : Nat → Parse (List α)
  | 0 => unmet .closingBrace
  | count + 1 => do
    match ← kind with
    | .closeCurly =>
      let _ ← next
      return []
    | .endOfFile => unmet .closingBrace
    | _ =>
      let first ← item
      let rest ← untilBrace item count
      return first :: rest

/-- Items between braces. -/
def braced {α : Type} (item : Parse α) : Parse (List α) := do
  let _ ← expect .openCurly
  untilBrace item (← get).depth

/-- Statements between braces. -/
def blockWith (nested : Parse Stmt) : Parse Block := do
  let opening := (← get).current
  let body ← braced nested
  return .mk body (← spanFrom opening.span)

/-- One parameter of a function. -/
def param : Parse ParamDecl := do
  let type ← typeExpr
  let name ← expect .identifier
  return ⟨type, name⟩

/-- The rest of a function declaration after its name. -/
def functionWith (nested : Parse Stmt) (returnType : TypeExpr) (name : Token)
    : Parse FunctionDecl := do
  let _ ← expect .openParen
  let params ← if (← kind) == .closeParen then pure [] else separated param
  let _ ← expect .closeParen
  let body ← blockWith nested
  return .mk returnType name params body false (← spanFrom returnType.span)

/-- The rest of a variable declaration after its name. -/
def variableAfter (type : TypeExpr) (name : Token) : Parse VariableDecl := do
  let initial? ← if ← accept .assignment then some <$> expr else pure none
  let _ ← expect .semicolon
  return ⟨type, name, initial?, false, ← spanFrom type.span⟩

/-- A type and the name that is declared with it. -/
def declarator : Parse (TypeExpr × Token) := do
  let type ← typeExpr
  let name ← expect .identifier
  return (type, name)

/-- A declaration that begins with a type, or nothing and an unmoved stream where no type and
name come next.
-/
def declarationWith? (nested : Parse Stmt) : Parse (Option Stmt) := do
  match ← kind with
  | .identifier | .autoKeyword =>
    match ← attempt declarator with
    | none => return none
    | some (type, name) =>
      if (← kind) == .openParen then return some (.function (← functionWith nested type name))
      else return some (.varDecl (← variableAfter type name))
  | _ => return none

/-- A declaration that begins with a type, or an expression, up to its semicolon. -/
def simpleStmtWith (nested : Parse Stmt) : Parse Stmt := do
  match ← declarationWith? nested with
  | some declaration => return declaration
  | none =>
    let value ← expr
    let _ ← expect .semicolon
    return .expression value value.span

/-- The import of another script. -/
def importStmt : Parse Stmt := do
  let keyword ← next
  let path ← expect .string
  let _ ← expect .semicolon
  return .importModule path (← spanFrom keyword.span)

/-- One member of the class called `className`. A constructor is declared without the type of
its result.
-/
def classMemberWith (nested : Parse Stmt) (className : Token) : Parse ClassMember := do
  let stream ← get
  if stream.kind == .identifier && stream.current.value == className.value
      && (stream.peek 1).kind == .openParen then
    let name ← next
    return .function (← functionWith nested ⟨[className], [], false, name.span⟩ name)
  else
    let (type, name) ← declarator
    if (← kind) == .openParen then
      return .function (← functionWith nested type name)
    else
      let _ ← expect .semicolon
      return .varDecl ⟨type, name, none, false, ← spanFrom type.span⟩

/-- A class, possibly followed by a semicolon. -/
def classWith (nested : Parse Stmt) : Parse ClassDecl := do
  let keyword ← next
  let name ← expect .identifier
  let base? ← if ← accept .colon then some <$> typeExpr else pure none
  let members ← braced (classMemberWith nested name)
  let _ ← accept .semicolon
  return .mk name base? members false (← spanFrom keyword.span)

/-- The enumerators after commas up to the closing brace, at most `count` of them. The last
one may be followed by a comma.
-/
def moreEnumerators : Nat → Parse (List Token)
  | 0 => return []
  | count + 1 => do
    if ← accept .comma then
      if (← kind) == .closeCurly then return []
      else
        let first ← expect .identifier
        let rest ← moreEnumerators count
        return first :: rest
    else return []

/-- An enumeration, possibly followed by a semicolon. -/
def enumDecl : Parse EnumDecl := do
  let keyword ← next
  let name ← expect .identifier
  let _ ← expect .openCurly
  let first ← expect .identifier
  let rest ← moreEnumerators (← get).ahead.length
  let _ ← expect .closeCurly
  let _ ← accept .semicolon
  return ⟨name, first :: rest, false, ← spanFrom keyword.span⟩

/-- A declaration as an exported one that covers `span`. -/
def exportDeclaration (span : Span) : Stmt → Stmt
  | .varDecl decl => .varDecl { decl with exported := true, span }
  | .function (.mk type name params body _ _) => .function (.mk type name params body true span)
  | .classDecl (.mk name base? members _ _) => .classDecl (.mk name base? members true span)
  | .enumDecl decl => .enumDecl { decl with exported := true, span }
  | other => other

/-- An exported declaration. -/
def exportWith (nested : Parse Stmt) : Parse Stmt := do
  let keyword ← next
  let declaration ←
    match ← kind with
    | .classKeyword => Stmt.classDecl <$> classWith nested
    | .enumKeyword => Stmt.enumDecl <$> enumDecl
    | _ =>
      match ← declarationWith? nested with
      | some declaration => pure declaration
      | none => unmet .declarationAfterExport
  return exportDeclaration (← spanFrom keyword.span) declaration

/-- The segments of the name of a namespace after its first, at most `count` of them. -/
def moreNames : Nat → Parse (List Token)
  | 0 => return []
  | count + 1 => do
    if ← accept .colonColon then
      let first ← expect .identifier
      let rest ← moreNames count
      return first :: rest
    else return []

/-- A namespace. -/
def namespaceWith (nested : Parse Stmt) : Parse Stmt := do
  let keyword ← next
  let first ← expect .identifier
  let rest ← moreNames (← get).ahead.length
  let body ← braced nested
  return .namespaceDecl (first :: rest) body (← spanFrom keyword.span)

/-- A condition between parentheses and the block that it guards. -/
def branchWith (nested : Parse Stmt) : Parse Branch := do
  let _ ← expect .openParen
  let condition ← expr
  let _ ← expect .closeParen
  return .mk condition (← blockWith nested)

/-- The branches after `else`, at most `count` of them, and the block for when no condition
holds.
-/
def otherwiseWith (nested : Parse Stmt) : Nat → Parse (List Branch × Option Block)
  | 0 => return ([], none)
  | count + 1 => do
    if ← accept .elseKeyword then
      if ← accept .ifKeyword then
        let first ← branchWith nested
        let (rest, last?) ← otherwiseWith nested count
        return (first :: rest, last?)
      else return ([], some (← blockWith nested))
    else return ([], none)

/-- An `if` with its alternatives. -/
def conditionalWith (nested : Parse Stmt) : Parse Stmt := do
  let keyword ← next
  let first ← branchWith nested
  let (rest, last?) ← otherwiseWith nested (← get).ahead.length
  return .conditional (first :: rest) last? (← spanFrom keyword.span)

/-- A `while` loop. -/
def whileWith (nested : Parse Stmt) : Parse Stmt := do
  let keyword ← next
  let .mk condition body ← branchWith nested
  return .whileLoop condition body (← spanFrom keyword.span)

/-- A `for` loop, any part of whose head may be left out. -/
def forWith (nested : Parse Stmt) : Parse Stmt := do
  let keyword ← next
  let _ ← expect .openParen
  let initial? ← if ← accept .semicolon then pure none else some <$> simpleStmtWith nested
  let condition? ← if (← kind) == .semicolon then pure none else some <$> expr
  let _ ← expect .semicolon
  let iteration? ← if (← kind) == .closeParen then pure none else some <$> expr
  let _ ← expect .closeParen
  let body ← blockWith nested
  return .forLoop initial? condition? iteration? body (← spanFrom keyword.span)

/-- A `break`. -/
def breakStmt : Parse Stmt := do
  let keyword ← next
  let _ ← expect .semicolon
  return .breakLoop (← spanFrom keyword.span)

/-- A `return`. -/
def returnStmt : Parse Stmt := do
  let keyword ← next
  let value? ← if (← kind) == .semicolon then pure none else some <$> expr
  let _ ← expect .semicolon
  return .returnValue value? (← spanFrom keyword.span)

/-- A statement or declaration. -/
def stmtWith (nested : Parse Stmt) : Parse Stmt := do
  match ← kind with
  | .importKeyword => importStmt
  | .exportKeyword => exportWith nested
  | .namespaceKeyword => namespaceWith nested
  | .classKeyword => Stmt.classDecl <$> classWith nested
  | .enumKeyword => Stmt.enumDecl <$> enumDecl
  | .ifKeyword => conditionalWith nested
  | .whileKeyword => whileWith nested
  | .forKeyword => forWith nested
  | .breakKeyword => breakStmt
  | .returnKeyword => returnStmt
  | .openCurly => Stmt.block <$> blockWith nested
  | _ => simpleStmtWith nested

/-- A statement whose parts are nested less than `depth` deep. -/
def stmtWithin : Nat → Parse Stmt
  | 0 => unexpected
  | depth + 1 => stmtWith (stmtWithin depth)

/-- A statement or declaration. -/
def stmt : Parse Stmt := do stmtWithin (← get).depth

/-- The statements up to the end of the file, at most `count` of them. -/
def untilEnd : Nat → Parse (List Stmt)
  | 0 => return []
  | count + 1 => do
    if (← kind) == .endOfFile then return []
    else
      let first ← stmt
      let rest ← untilEnd count
      return first :: rest

/-- A whole script. -/
def scriptUnit : Parse ScriptUnit := do
  let stream ← get
  let body ← untilEnd stream.depth
  return ⟨body, ← spanFrom ⟨stream.file, 0, 0⟩⟩

end BuildScript.Parse

namespace BuildScript.ScriptUnit

/-- The script that a sequence of tokens spells. -/
def ofTokens (tokens : List Token) (file : String) : Except SyntaxError ScriptUnit :=
  Parse.runOn Parse.scriptUnit tokens file

/-- The script that a text spells. -/
def ofSource (source file : String) : Except SyntaxError ScriptUnit := do
  ofTokens (← Token.scan source file) file

end BuildScript.ScriptUnit
