import BuildScript.Text.Quoted
import BuildScript.Token

/-! Why a text is not a script, and how that is told. -/

namespace BuildScript

/-- What the grammar wants at a place. -/
inductive Expectation where
  | token (kind : TokenKind)
  | namedFunction
  | type
  | singleReference
  | closingBrace
  | declarationAfterExport
  | assignmentOrColon
  | value
  | endAfterComponent
deriving Repr, DecidableEq

/-- The wording of what is wanted. -/
def Expectation.message : Expectation → String
  | token kind => "expected `" ++ kind.text ++ "`"
  | namedFunction => "only named functions can be called"
  | type => "expected a type"
  | singleReference => "reference to reference is not allowed"
  | closingBrace => "expected `" ++ TokenKind.closeCurly.text ++ "`"
  | declarationAfterExport => "expected a declaration after `export`"
  | assignmentOrColon => "expected `=` or `:`"
  | value => "expected a value"
  | endAfterComponent => "expected end of file after the component"

/-- The causes of syntax errors. `token` is the text of the offending token. -/
inductive SyntaxFault where
  | unrecognised (token : String)
  | unexpected (token : String)
  | unmet (token : String) (expectation : Expectation)
  | number (token : String)
  | unterminatedComment
deriving Repr, DecidableEq

namespace SyntaxFault

/-- What is wrong. -/
def summary : SyntaxFault → String
  | unrecognised token => "unrecognised token: " ++ Text.quoted token
  | unexpected token => "unexpected token: " ++ Text.quoted token
  | unmet token expectation =>
    "unexpected token (" ++ expectation.message ++ "): " ++ Text.quoted token
  | number token => "error parsing number: " ++ Text.quoted token
  | unterminatedComment => "unterminated block comment"

/-- A guess at how it can be mended. -/
def tip? : SyntaxFault → Option String
  | unrecognised _ => none
  | unexpected token => some ("Unexpected token: `" ++ token ++ "`, did you miss a semicolon?")
  | unmet token expectation =>
    some ("Unexpected token: `" ++ token ++ "`, " ++ expectation.message)
  | number token => some ("Invalid number: `" ++ token ++ "`, is it above the integer limit?")
  | unterminatedComment => some "Block comment is missing its closing `*/`"

/-- The whole message: what is wrong, and the tip, if there is one, in parentheses. -/
def message (fault : SyntaxFault) : String :=
  match fault.tip? with
  | none => fault.summary
  | some tip => fault.summary ++ " (" ++ tip ++ ")"

end SyntaxFault

/-- A fault and where it was found. -/
structure SyntaxError where
  fault : SyntaxFault
  position : Position
deriving Repr, DecidableEq

end BuildScript
