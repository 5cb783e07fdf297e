import BuildScript.Span

/-! The lexical units of scripts: their classes, and how each class is spelled. -/

namespace BuildScript

/-- The classes of tokens. -/
inductive TokenKind where
  | endOfFile
  | integer
  | double
  | string
  | identifier
  | openBracket
  | closeBracket
  | openCurly
  | closeCurly
  | openParen
  | closeParen
  | assignment
  | equals
  | not
  | notEquals
  | less
  | lessEquals
  | greater
  | greaterEquals
  | or
  | and
  | amp
  | dot
  | semicolon
  | colon
  | colonColon
  | question
  | comma
  | plusPlus
  | minusMinus
  | plusEquals
  | minusEquals
  | slashEquals
  | starEquals
  | percentEquals
  | plus
  | dash
  | slash
  | star
  | percent
  | classKeyword
  | enumKeyword
  | namespaceKeyword
  | importKeyword
  | exportKeyword
  | autoKeyword
  | returnKeyword
  | ifKeyword
  | elseKeyword
  | whileKeyword
  | forKeyword
  | breakKeyword
  | trueKeyword
  | falseKeyword
deriving Repr, DecidableEq, Inhabited

namespace TokenKind

/-- The spelling of an operator or keyword, and a description of any other class. -/
def text : TokenKind → String
  | endOfFile => "end of file"
  | integer => "integer"
  | double => "double"
  | string => "string"
  | identifier => "identifier"
  | openBracket => "["
  | closeBracket => "]"
  | openCurly => "\x7b"
  | closeCurly => "\x7d"
  | openParen => "("
  | closeParen => ")"
  | assignment => "="
  | equals => "=="
  | not => "!"
  | notEquals => "!="
  | less => "<"
  | lessEquals => "<="
  | greater => ">"
  | greaterEquals => ">="
  | or => "||"
  | and => "&&"
  | amp => "&"
  | dot => "."
  | semicolon => ";"
  | colon => ":"
  | colonColon => "::"
  | question => "?"
  | comma => ","
  | plusPlus => "++"
  | minusMinus => "--"
  | plusEquals => "+="
  | minusEquals => "-="
  | slashEquals => "/="
  | starEquals => "*="
  | percentEquals => "%="
  | plus => "+"
  | dash => "-"
  | slash => "/"
  | star => "*"
  | percent => "%"
  | classKeyword => "class"
  | enumKeyword => "enum"
  | namespaceKeyword => "namespace"
  | importKeyword => "import"
  | exportKeyword => "export"
  | autoKeyword => "auto"
  | returnKeyword => "return"
  | ifKeyword => "if"
  | elseKeyword => "else"
  | whileKeyword => "while"
  | forKeyword => "for"
  | breakKeyword => "break"
  | trueKeyword => "true"
  | falseKeyword => "false"

/-- The operators and punctuation, each before those that it begins with. -/
def operators : List TokenKind :=
  [openBracket, closeBracket, openCurly, closeCurly, openParen, closeParen, equals, notEquals,
    not, assignment, lessEquals, less, greaterEquals, greater, or, and, amp, dot, semicolon,
    colonColon, colon, question, comma, plusPlus, minusMinus, plusEquals, minusEquals,
    starEquals, slashEquals, percentEquals, plus, dash, slash, star, percent]

/-- The reserved words. -/
def keywords : List TokenKind :=
  [classKeyword, enumKeyword, namespaceKeyword, importKeyword, exportKeyword, autoKeyword,
    returnKeyword, ifKeyword, elseKeyword, whileKeyword, forKeyword, breakKeyword, trueKeyword,
    falseKeyword]

/-- The class of a word: the keyword spelled like it, or else an identifier. -/
def ofWord (word : String) : TokenKind :=
  (keywords.find? (·.text == word)).getD identifier

/-- Whether an operator stores into its left operand. -/
def isAssignment : TokenKind → Bool
  | assignment | plusEquals | minusEquals | starEquals | slashEquals | percentEquals => true
  | _ => false

end TokenKind

/-- A lexical unit: its class, the text it stands for, and where it was read. The text of a
string token is the string it denotes, without quotes and escapes.
-/
structure Token where
  kind : TokenKind
  value : String
  span : Span
deriving Repr, DecidableEq, Inhabited

/-- The token that ends every token sequence. -/
def Token.endOfFile (position : Position) : Token := ⟨.endOfFile, "EOF", Span.ofPosition position⟩

end BuildScript
