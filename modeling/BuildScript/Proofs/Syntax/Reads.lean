import BuildScript.Decimal.Reader
import BuildScript.Proofs.Syntax.Bare
import BuildScript.Proofs.Syntax.Reading

/-! Expressions as tokens. Every expression that could have been written has a spelling in which
operators, alternatives and members stand between parentheses.

What readers do to the tokens they are meant for. A reader reads a sequence of contents where
it consumes just these, whatever the spans of the tokens, and gives a value of which something is
known; it fails on a sequence where there is nothing it could give.
-/

namespace BuildScript

/-- (mark kind) is the content of a token whose class has only one spelling. -/
def TokenKind.mark (kind : TokenKind) : TokenKind × String := (kind, kind.text)

/-- What may be chosen when an expression is spelled: the text of a number with a fraction, and
which members are named after a point where they are initialised.
-/
structure Spelling where
  double : Float → String
  dotted : Token → Bool

-----------------------------------------------------------------------------------------
-- Printing
-----------------------------------------------------------------------------------------

/-- (printNames names) are the segments of a qualified name. -/
def Token.printNames : List Token → List (TokenKind × String)
  | [] => []
  | first :: rest => first.content :: rest.flatMap fun name =>
      [TokenKind.colonColon.mark, name.content]

/-- (separate items) puts commas between items. -/
def Token.separate : List (List (TokenKind × String)) → List (TokenKind × String)
  | [] => []
  | first :: rest => first ++ rest.flatMap fun item => TokenKind.comma.mark :: item

mutual

/-- (print type) is the spelling of a type. -/
def TypeExpr.print : TypeExpr → List (TokenKind × String)
  | ⟨names, generics, isReference, _⟩ =>
    Token.printNames names
      ++ (if generics.isEmpty then []
        else TokenKind.less.mark :: (Token.separate (TypeExpr.printAll generics)
          ++ [TokenKind.greater.mark]))
      ++ if isReference then [TokenKind.amp.mark] else []

/-- (printAll types) are the spellings of several types. -/
def TypeExpr.printAll : List TypeExpr → List (List (TokenKind × String))
  | [] => []
  | first :: rest => first.print :: TypeExpr.printAll rest

end

section

variable (spelling : Spelling)

mutual

/-- (print expr) is the spelling of an expression. -/
def Expr.print : Expr → List (TokenKind × String)
  | .bool value _ => [(if value then TokenKind.trueKeyword else .falseKeyword).mark]
  | .int value _ => [(.integer, Decimal.writeInt64 value)]
  | .double value _ => [(.double, spelling.double value)]
  | .string value _ => [(.string, value)]
  | .id names _ => Token.printNames names
  | .binary operator lhs rhs _ =>
    TokenKind.openParen.mark :: (lhs.print
      ++ operator.content :: (rhs.print ++ [TokenKind.closeParen.mark]))
  | .unary operator operand _ =>
    TokenKind.openParen.mark :: operator.content :: (operand.print ++ [TokenKind.closeParen.mark])
  | .ternary condition whenTrue whenFalse _ =>
    TokenKind.openParen.mark :: (condition.print
      ++ TokenKind.question.mark :: (whenTrue.print
        ++ TokenKind.colon.mark :: (whenFalse.print ++ [TokenKind.closeParen.mark])))
  | .member object name _ =>
    TokenKind.openParen.mark :: (object.print
      ++ [TokenKind.dot.mark, name.content, TokenKind.closeParen.mark])
  | .call callee arguments _ =>
    callee.print ++ TokenKind.openParen.mark :: (Token.separate (Expr.printAll arguments)
      ++ [TokenKind.closeParen.mark])
  | .memberCall object name arguments _ =>
    TokenKind.openParen.mark :: (object.print
      ++ TokenKind.dot.mark :: name.content :: TokenKind.openParen.mark
        :: (Token.separate (Expr.printAll arguments)
          ++ [TokenKind.closeParen.mark, TokenKind.closeParen.mark]))
  | .list values _ =>
    TokenKind.openCurly.mark :: (Token.separate (Expr.printAll values)
      ++ [TokenKind.closeCurly.mark])
  | .designated fields _ =>
    TokenKind.openCurly.mark :: (Token.separate (FieldInit.printAll fields)
      ++ [TokenKind.closeCurly.mark])

/-- (print field) is the spelling of the initialiser of a member, with or without a point. -/
def FieldInit.print : FieldInit → List (TokenKind × String)
  | .mk name value =>
    if spelling.dotted name then
      TokenKind.dot.mark :: name.content :: TokenKind.assignment.mark :: value.print
    else name.content :: TokenKind.colon.mark :: value.print

/-- (printAll exprs) are the spellings of several expressions. -/
def Expr.printAll : List Expr → List (List (TokenKind × String))
  | [] => []
  | first :: rest => first.print :: Expr.printAll rest

/-- (printAll fields) are the spellings of several initialisers. -/
def FieldInit.printAll : List FieldInit → List (List (TokenKind × String))
  | [] => []
  | first :: rest => first.print :: FieldInit.printAll rest

end

end

-----------------------------------------------------------------------------------------
-- What can be written
-----------------------------------------------------------------------------------------

/-- The operators between two operands, assignments included. -/
def TokenKind.infixOperators : List TokenKind :=
  [.assignment, .plusEquals, .minusEquals, .starEquals, .slashEquals, .percentEquals, .or, .and,
    .equals, .notEquals, .less, .lessEquals, .greater, .greaterEquals, .plus, .dash, .star, .slash,
    .percent]

/-- The operators before one operand. -/
def TokenKind.prefixOperators : List TokenKind := [.dash, .not, .plusPlus, .minusMinus]

/-- (IsName names) says that names are the segments of a qualified name. -/
def Token.IsName (names : List Token) : Prop := names ≠ [] ∧ ∀ name ∈ names, name.kind = .identifier

mutual

/-- (Writable type) says that a type is to be deduced, or consists of a name and type arguments. -/
def TypeExpr.Writable : TypeExpr → Prop
  | ⟨names, generics, _, _⟩ =>
    (∃ name, name.kind = .autoKeyword ∧ names = [name] ∧ generics = []) ∨
      Token.IsName names ∧ TypeExpr.AllWritable generics

/-- (AllWritable types) says it of several types. -/
def TypeExpr.AllWritable : List TypeExpr → Prop
  | [] => True
  | first :: rest => first.Writable ∧ TypeExpr.AllWritable rest

end

section

variable (spelling : Spelling)

mutual

/-- (Writable expr) says that an expression could have been written: its numbers have a text, its
names are words, and its operators are those of the language.
-/
def Expr.Writable : Expr → Prop
  | .bool .. | .string .. => True
  | .int value _ => 0 ≤ value.toInt
  | .double value _ => Decimal.readFloat? (spelling.double value).toList = some value
  | .id names _ => Token.IsName names
  | .binary operator lhs rhs _ =>
    operator.kind ∈ TokenKind.infixOperators ∧ lhs.Writable ∧ rhs.Writable
  | .unary operator operand _ => operator.kind ∈ TokenKind.prefixOperators ∧ operand.Writable
  | .ternary condition whenTrue whenFalse _ =>
    condition.Writable ∧ whenTrue.Writable ∧ whenFalse.Writable
  | .member object name _ => name.kind = .identifier ∧ object.Writable
  | .call callee arguments _ =>
    callee.isReference = false ∧ Token.IsName callee.names ∧ TypeExpr.AllWritable callee.generics ∧
      Expr.AllWritable arguments
  | .memberCall object name arguments _ =>
    name.kind = .identifier ∧ object.Writable ∧ Expr.AllWritable arguments
  | .list values _ => Expr.AllWritable values
  | .designated fields _ => fields ≠ [] ∧ FieldInit.AllWritable fields

/-- (Writable field) says it of the initialiser of a member. -/
def FieldInit.Writable : FieldInit → Prop
  | .mk name value => name.kind = .identifier ∧ value.Writable

/-- (AllWritable exprs) says it of several expressions. -/
def Expr.AllWritable : List Expr → Prop
  | [] => True
  | first :: rest => first.Writable ∧ Expr.AllWritable rest

/-- (AllWritable fields) says it of several initialisers. -/
def FieldInit.AllWritable : List FieldInit → Prop
  | [] => True
  | first :: rest => first.Writable ∧ FieldInit.AllWritable rest

end

end

end BuildScript

namespace BuildScript.Parse

variable {α β : Type}

/-- (Reads reader contents rest post) says that a reader consumes the given contents where `rest`
comes after them, and gives a value for which `post` holds.
-/
def Reads (reader : Parse α) (contents rest : List (TokenKind × String)) (post : α → Prop) : Prop :=
  ∀ stream : TokenStream, stream.ahead.map Token.content = contents ++ rest →
    ∃ value after, reader stream = .ok (value, after) ∧ post value ∧
      after.ahead = stream.ahead.drop contents.length

/-- (Fails reader contents) says that a reader fails on the given contents. -/
def Fails (reader : Parse α) (contents : List (TokenKind × String)) : Prop :=
  ∀ stream : TokenStream, stream.ahead.map Token.content = contents →
    ∃ error, reader stream = .error error

/-- What is shown in a stream is known by the contents of the tokens ahead. -/
theorem content_current {stream : TokenStream} {content : TokenKind × String}
    {rest : List (TokenKind × String)} (ahead : stream.ahead.map Token.content = content :: rest)
    : stream.current.content = content := by
  obtain ⟨token, tokens, split_, first, -⟩ := List.map_eq_cons_iff.mp ahead
  rw [TokenStream.current, TokenStream.peek, split_]
  exact first

theorem kind_current {stream : TokenStream} {content : TokenKind × String}
    {rest : List (TokenKind × String)} (ahead : stream.ahead.map Token.content = content :: rest)
    : stream.kind = content.1 :=
  congrArg Prod.fst (content_current ahead)

/-- What is shown after the current token is known, too. -/
theorem content_following {stream : TokenStream} {first second : TokenKind × String}
    {rest : List (TokenKind × String)}
    (ahead : stream.ahead.map Token.content = first :: second :: rest)
    : (stream.peek 1).content = second := by
  obtain ⟨token, tokens, split_, -, after⟩ := List.map_eq_cons_iff.mp ahead
  obtain ⟨token', tokens', rfl, same, -⟩ := List.map_eq_cons_iff.mp after
  rw [TokenStream.peek, split_]
  exact same

theorem kind_following {stream : TokenStream} {first second : TokenKind × String}
    {rest : List (TokenKind × String)}
    (ahead : stream.ahead.map Token.content = first :: second :: rest)
    : (stream.peek 1).kind = second.1 :=
  congrArg Prod.fst (content_following ahead)

theorem ahead_advance (stream : TokenStream) : stream.advance.ahead = stream.ahead.drop 1 := by
  unfold TokenStream.advance
  cases ahead : stream.ahead with
  | nil => exact ahead
  | cons token rest => rfl

namespace Reads

variable {reader : Parse α} {contents rest : List (TokenKind × String)} {post : α → Prop}

theorem weaken (reads : Reads reader contents rest post) {post' : α → Prop}
    (weaker : ∀ value, post value → post' value)
    : Reads reader contents rest post' := by
  intro stream ahead
  obtain ⟨value, after, given, holds, left⟩ := reads stream ahead
  exact ⟨value, after, given, weaker value holds, left⟩

theorem pure {value : α} (holds : post value) : Reads (Pure.pure value) [] rest post :=
  fun stream _ => ⟨value, stream, rfl, holds, rfl⟩

/-- The second of two readers reads what the first one leaves. -/
theorem bind {more : List (TokenKind × String)} {mid : α → Prop} {post : β → Prop}
    {next : α → Parse β} (start : Reads reader contents (more ++ rest) mid)
    (after : ∀ value, mid value → Reads (next value) more rest post)
    : Reads (reader >>= next) (contents ++ more) rest post := by
  intro stream ahead
  rw [List.append_assoc] at ahead
  obtain ⟨value, middle, given, holds, left⟩ := start stream ahead
  have ahead' : middle.ahead.map Token.content = more ++ rest := by
    rw [left, List.map_drop, ahead, List.drop_left]
  obtain ⟨result, last, given', holds', left'⟩ := after value holds middle ahead'
  refine ⟨result, last, ?_, holds', ?_⟩
  · rw [run_bind, given]
    exact given'
  · rw [left', left, List.drop_drop, List.length_append]

/-- What comes after the last reader that consumes something consumes nothing. -/
theorem thenDone {mid : α → Prop} {post : β → Prop} {next : α → Parse β}
    (start : Reads reader contents rest mid)
    (after : ∀ value, mid value → Reads (next value) [] rest post)
    : Reads (reader >>= next) contents rest post := by
  rw [← List.append_nil contents]
  exact bind start after

theorem map {post' : β → Prop} {change : α → β} (reads : Reads reader contents rest post)
    (kept : ∀ value, post value → post' (change value))
    : Reads (change <$> reader) contents rest post' := by
  rw [← bind_pure_comp]
  exact thenDone reads fun value holds => pure (kept value holds)

theorem get {next : TokenStream → Parse α}
    (reads : ∀ stream : TokenStream, stream.ahead.map Token.content = contents ++ rest →
      Reads (next stream) contents rest post)
    : Reads (MonadState.get >>= next) contents rest post :=
  fun stream ahead => reads stream ahead stream ahead

/-- The class that is shown first may be looked at. -/
theorem kind {shown : TokenKind × String} {later : List (TokenKind × String)}
    (first : contents ++ rest = shown :: later) {next : TokenKind → Parse α}
    (reads : Reads (next shown.1) contents rest post)
    : Reads (Parse.kind >>= next) contents rest post := by
  intro stream ahead
  have here : stream.kind = shown.1 := kind_current (ahead.trans first)
  show ∃ value after, next stream.kind stream = _ ∧ _
  rw [here]
  exact reads stream ahead

theorem next (content : TokenKind × String)
    : Reads Parse.next [content] rest (fun token => token.content = content) :=
  fun stream ahead => ⟨_, _, rfl, content_current ahead, ahead_advance stream⟩

/-- A token that is expected is read. -/
theorem expect (content : TokenKind × String)
    : Reads (Parse.expect content.1) [content] rest (fun token => token.content = content) := by
  intro stream ahead
  rw [run_expect, if_pos (kind_current ahead)]
  exact next content stream ahead

theorem spanFrom (first : Span) : Reads (Parse.spanFrom first) [] rest (fun _ => True) :=
  fun stream _ => ⟨_, stream, rfl, trivial, rfl⟩

/-- Where nothing more is read than a mark, it is read and something else goes on. -/
theorem expectThen {post : β → Prop} (content : TokenKind × String) {next : Token → Parse β}
    (after : ∀ token, token.content = content → Reads (next token) contents rest post)
    : Reads (Parse.expect content.1 >>= next) (content :: contents) rest post :=
  bind (expect content) after

theorem nextThen {post : β → Prop} (content : TokenKind × String) {next' : Token → Parse β}
    (after : ∀ token, token.content = content → Reads (next' token) contents rest post)
    : Reads (Parse.next >>= next') (content :: contents) rest post :=
  bind (next content) after

theorem spanFromThen {post : β → Prop} {first : Span} {next : Span → Parse β}
    (after : ∀ span, Reads (next span) contents rest post)
    : Reads (Parse.spanFrom first >>= next) contents rest post :=
  bind (spanFrom first) fun span _ => after span

theorem pureThen {post : β → Prop} {value : α} {next : α → Parse β}
    (after : Reads (next value) contents rest post)
    : Reads (Pure.pure value >>= next) contents rest post := by
  rw [pure_bind]
  exact after

/-- A token that is looked for is accepted. -/
theorem acceptThen {post : β → Prop} (content : TokenKind × String) {next : Bool → Parse β}
    (after : Reads (next true) contents rest post)
    : Reads (Parse.accept content.1 >>= next) (content :: contents) rest post := by
  intro stream ahead
  rw [run_bind, run_accept, if_pos (kind_current ahead)]
  have ahead' : stream.advance.ahead.map Token.content = contents ++ rest := by
    rw [ahead_advance, List.map_drop, ahead]
    rfl
  obtain ⟨value, last, given, holds, left⟩ := after stream.advance ahead'
  refine ⟨value, last, given, holds, ?_⟩
  rw [left, ahead_advance, List.drop_drop, List.length_cons, Nat.add_comm]

/-- A token that is looked for is refused where another one is shown. -/
theorem refuseThen {post : β → Prop} {wanted : TokenKind} {shown : TokenKind × String}
    {later : List (TokenKind × String)} (first : contents ++ rest = shown :: later)
    (other : shown.1 ≠ wanted) {next : Bool → Parse β}
    (after : Reads (next false) contents rest post)
    : Reads (Parse.accept wanted >>= next) contents rest post := by
  intro stream ahead
  have here : stream.kind = shown.1 := kind_current (ahead.trans first)
  rw [run_bind, run_accept, if_neg (by rw [here]; exact other)]
  exact after stream ahead

/-- An attempt goes on with what is read, and otherwise from where it began. -/
theorem attemptThen {more : List (TokenKind × String)} {mid : α → Prop} {post : β → Prop}
    {next : Option α → Parse β} (start : Reads reader contents (more ++ rest) mid)
    (after : ∀ value, mid value → Reads (next (some value)) more rest post)
    : Reads (Parse.attempt reader >>= next) (contents ++ more) rest post := by
  have attempted : Reads (Parse.attempt reader) contents (more ++ rest)
      (fun value? => ∃ value, value? = some value ∧ mid value) := by
    intro stream ahead
    obtain ⟨value, last, given, holds, left⟩ := start stream ahead
    refine ⟨some value, last, ?_, ⟨value, rfl, holds⟩, left⟩
    rw [run_attempt, given]
  refine bind attempted ?_
  rintro _ ⟨value, rfl, holds⟩
  exact after value holds

theorem attemptFails {post : β → Prop} {next : Option α → Parse β}
    (fails : Fails reader (contents ++ rest)) (after : Reads (next none) contents rest post)
    : Reads (Parse.attempt reader >>= next) contents rest post := by
  intro stream ahead
  obtain ⟨error, failed⟩ := fails stream ahead
  rw [run_bind, run_attempt, failed]
  exact after stream ahead

end Reads

end BuildScript.Parse
