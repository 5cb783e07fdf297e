import BuildScript.SyntaxError
import BuildScript.Text.Blank
import BuildScript.Text.Utf8
import BuildScript.Token.Escape

/-! Scripts as sequences of tokens: blanks and comments separate tokens and are dropped, and
of the operators that fit at a place the longest is taken.
-/

namespace BuildScript

open Text

/-- Whether a character may begin a word. -/
def isWordStart (c : Char) : Bool := c.isAlpha || c == '_'

/-- Whether a character may continue a word. -/
def isWordPart (c : Char) : Bool := c.isAlphanum || c == '_'

/-- A piece of the text: what it contributes to the tokens, and how many characters follow its
first one.
-/
structure Lexeme where
  content? : Option (TokenKind × String)
  tail : Nat
deriving Repr, DecidableEq

namespace Lexeme

/-- A piece that separates tokens. -/
def ignored (tail : Nat) : Lexeme := ⟨none, tail⟩

/-- A piece that is a token. -/
def token (kind : TokenKind) (value : String) (tail : Nat) : Lexeme := ⟨some (kind, value), tail⟩

/-- The number of characters of a string literal after its opening quote, the closing quote
included. A backslash takes the next character with it, unless the line ends there.
-/
def stringTail? : List Char → Option Nat
  | [] => none
  | '"' :: _ => some 1
  | '\\' :: c :: rest => if c == '\n' then none else (stringTail? rest).map (· + 2)
  | ['\\'] => none
  | _ :: rest => (stringTail? rest).map (· + 1)

/-- The number of characters up to the end of a block comment, its closing mark included. -/
def commentTail? : List Char → Option Nat
  | '*' :: '/' :: _ => some 2
  | [] => none
  | _ :: rest => (commentTail? rest).map (· + 1)

/-- The word that begins with `c`. -/
def word (c : Char) (rest : List Char) : Lexeme :=
  let part := rest.takeWhile isWordPart
  let value := String.ofList (c :: part)
  token (TokenKind.ofWord value) value part.length

/-- The fraction that continues a number: a point and at least one digit. -/
def fraction : List Char → List Char
  | '.' :: c :: rest => if c.isDigit then '.' :: c :: rest.takeWhile Char.isDigit else []
  | _ => []

/-- The number that begins with the digit `c`. -/
def number (c : Char) (rest : List Char) : Lexeme :=
  let whole := rest.takeWhile Char.isDigit
  let part := fraction (rest.dropWhile Char.isDigit)
  token (if part.isEmpty then .integer else .double) (String.ofList (c :: whole ++ part))
    (whole.length + part.length)

/-- The operator at the beginning of the text. -/
def operator? (text : List Char) : Option Lexeme :=
  (TokenKind.operators.find? fun kind => kind.text.toList.isPrefixOf text).map fun kind =>
    token kind kind.text (kind.text.length - 1)

/-- The piece of text at the beginning of `c :: rest`. -/
def scan (c : Char) (rest : List Char) : Except SyntaxFault Lexeme :=
  if isWordStart c then .ok (word c rest)
  else if c.isDigit then .ok (number c rest)
  else if isBlank c then .ok (ignored (rest.takeWhile isBlank).length)
  else
    let fallback :=
      match operator? (c :: rest) with
      | some lexeme => .ok lexeme
      | none => .error (.unrecognised c.toString)
    match c, rest with
    | '"', _ =>
      match stringTail? rest with
      | some tail =>
        .ok (token .string (String.ofList (Token.unescape (rest.take (tail - 1)))) tail)
      | none => fallback
    | '/', '/' :: after => .ok (ignored ((after.takeWhile (· != '\n')).length + 1))
    | '/', '*' :: after =>
      match commentTail? after with
      | some tail => .ok (ignored (tail + 1))
      | none => .error .unterminatedComment
    | _, _ => fallback

end Lexeme

namespace Token

/-- The tokens of a text that begins at byte `offset` of the file, the end of file last. -/
def scanFrom (file : String) (offset : Nat) : List Char → Except SyntaxError (List Token)
  | [] => .ok [endOfFile (.ofByte file offset)]
  | c :: rest =>
    match Lexeme.scan c rest with
    | .error fault => .error ⟨fault, .ofByte file offset⟩
    | .ok lexeme =>
      let next := offset + byteLength (c :: rest.take lexeme.tail)
      match scanFrom file next (rest.drop lexeme.tail), lexeme.content? with
      | .error error, _ => .error error
      | .ok tokens, none => .ok tokens
      | .ok tokens, some (kind, value) => .ok (⟨kind, value, .ofBytes file offset next⟩ :: tokens)
termination_by text => text.length
decreasing_by simp only [List.length_drop, List.length_cons]; omega

/-- The name of a text that comes from no file. -/
def unnamedFile : String := "shell"

/-- The tokens of a text, the end of file last. -/
def scan (source file : String) : Except SyntaxError (List Token) :=
  scanFrom file 0 source.toList

end Token

end BuildScript
