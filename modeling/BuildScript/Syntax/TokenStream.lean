import BuildScript.SyntaxError

/-! Reading from a sequence of tokens. The stream never runs dry: its last token is an end of
file that is not consumed.
-/

namespace BuildScript

/-- The tokens that are still to be read, and where the one read last ended. -/
structure TokenStream where
  ahead : List Token
  last : Token
  file : String
  previousEnd : Nat
deriving Repr

namespace TokenStream

/-- The stream of all tokens. An end of file is added where it is missing. -/
def ofTokens (tokens : List Token) (file : String) : TokenStream :=
  match tokens.reverse with
  | [] => ⟨[], Token.endOfFile ⟨file, 0⟩, file, 0⟩
  | last :: before =>
    if last.kind == .endOfFile then ⟨before.reverse, last, file, 0⟩
    else ⟨tokens, Token.endOfFile ⟨last.span.file, last.span.stop⟩, file, 0⟩

/-- The token `n` places ahead, or the last one. -/
def peek (stream : TokenStream) (n : Nat) : Token := (stream.ahead[n]?).getD stream.last

/-- The token to be read next. -/
def current (stream : TokenStream) : Token := stream.peek 0

/-- The class of the token to be read next. -/
def kind (stream : TokenStream) : TokenKind := stream.current.kind

/-- The stream after its current token, unless that is the last one. -/
def advance (stream : TokenStream) : TokenStream :=
  match stream.ahead with
  | [] => stream
  | token :: rest => { stream with ahead := rest, previousEnd := token.span.stop }

/-- A bound for the depth of what can be read: every level takes a token. -/
def depth (stream : TokenStream) : Nat := stream.ahead.length + 1

end TokenStream

/-- Readers of token streams. -/
abbrev Parse := StateT TokenStream (Except SyntaxError)

namespace Parse

/-- The class of the current token. -/
def kind : Parse TokenKind := return (← get).kind

/-- The current token, which is consumed. -/
def next : Parse Token :=
  modifyGet fun stream => (stream.current, stream.advance)

/-- Fails at the current token. -/
def unexpected {α : Type} : Parse α := do
  let token := (← get).current
  throw ⟨.unexpected token.value, token.span.position⟩

/-- Fails at the current token, telling what is wanted instead. -/
def unmet {α : Type} (expectation : Expectation) : Parse α := do
  let token := (← get).current
  throw ⟨.unmet token.value expectation, token.span.position⟩

/-- Consumes a token of the given class. -/
def expect (kind : TokenKind) : Parse Token := do
  if (← Parse.kind) == kind then next else unmet (.token kind)

/-- Consumes the current token if it is of the given class, and tells whether it was. -/
def accept (kind : TokenKind) : Parse Bool := do
  if (← Parse.kind) == kind then
    let _ ← next
    return true
  else return false

/-- From the beginning of `first` to the end of the token read last. -/
def spanFrom (first : Span) : Parse Span := return { first with stop := (← get).previousEnd }

/-- What a reader gives, or nothing and an unmoved stream where it fails. -/
def attempt {α : Type} (reader : Parse α) : Parse (Option α) := fun stream =>
  match reader.run stream with
  | .ok (value, after) => .ok (some value, after)
  | .error _ => .ok (none, stream)

/-- The items that follow after commas, at most `count` of them. -/
def afterCommas {α : Type} (item : Parse α) : Nat → Parse (List α)
  | 0 => return []
  | count + 1 => do
    if ← accept .comma then
      let first ← item
      let rest ← afterCommas item count
      return first :: rest
    else return []

/-- One or more items between commas. -/
def separated {α : Type} (item : Parse α) : Parse (List α) := do
  let first ← item
  let rest ← afterCommas item (← get).ahead.length
  return first :: rest

/-- The segments of a qualified name after its first, at most `count` of them. A `::` that no
word follows is left alone.
-/
def moreSegments : Nat → Parse (List Token)
  | 0 => return []
  | count + 1 => do
    let stream ← get
    if stream.kind == .colonColon && (stream.peek 1).kind == .identifier then
      let _ ← next
      let segment ← next
      let rest ← moreSegments count
      return segment :: rest
    else return []

/-- A qualified name. -/
def qualifiedName : Parse (List Token) := do
  let first ← expect .identifier
  let rest ← moreSegments (← get).ahead.length
  return first :: rest

/-- The number that a token spells. -/
def numberLiteral {α : Type} (read? : List Char → Option α) (token : Token) : Parse α :=
  match read? token.value.toList with
  | some value => return value
  | none => throw ⟨.number token.value, token.span.position⟩

/-- Runs a reader over all of the tokens. -/
def runOn {α : Type} (reader : Parse α) (tokens : List Token) (file : String)
    : Except SyntaxError α :=
  match reader.run (TokenStream.ofTokens tokens file) with
  | .ok (value, _) => .ok value
  | .error error => .error error

end Parse

end BuildScript
