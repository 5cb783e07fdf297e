import BuildScript.Proofs.Syntax.OperandReading
import BuildScript.Proofs.Syntax.Places
import BuildScript.Proofs.Syntax.ScriptDescent
import Mathlib.Logic.Function.Iterate

/-! Reading makes progress on every sequence of tokens. The recursions of the readers come to an end
by themselves, before the bounds on their depth are reached; whatever is read moves a stream
strictly forward, but not past its last token; and what is tried and given up leaves the stream
where it was.
-/

namespace BuildScript

-----------------------------------------------------------------------------------------
-- Recursions
-----------------------------------------------------------------------------------------

namespace Parse

variable {α ι : Type}

/-- (SettlesEach step readers) says that a recursion of a family of readers comes to an end: called
by itself more often than there are tokens ahead, `step` does what the readers do, whatever `cut`
would do if it went on.
-/
def SettlesEach (step : (ι → Parse α) → ι → Parse α) (readers : ι → Parse α) : Prop :=
  ∀ (cut : ι → Parse α) (rounds : Nat) (stream : TokenStream), stream.Closed →
    stream.ahead.length < rounds → ∀ i, step^[rounds] cut i stream = readers i stream

/-- (Settles step reader) says that the recursion of a single reader comes to an end. -/
def Settles (step : Parse α → Parse α) (reader : Parse α) : Prop :=
  ∀ (cut : Parse α) (rounds : Nat) (stream : TokenStream), stream.Closed →
    stream.ahead.length < rounds → step^[rounds] cut stream = reader stream

/-- (Descends least step) says that each round of a recursion calls the next one further on. -/
def Descends (least : Nat) (step : (ι → Parse α) → ι → Parse α) : Prop :=
  ∀ n more more', (∀ left < n, ∀ i, Concurs left least (more i) (more' i)) →
    ∀ i, Concurs n least (step more i) (step more' i)

section

variable {step : (ι → Parse α) → ι → Parse α} {least : Nat} (loop : Nat → ι → Parse α)

/-- As many rounds as there are tokens ahead are enough, by induction over the tokens. -/
theorem Descends.concurs (descends : Descends least step)
    (unrolls : ∀ count, loop (count + 1) = step (loop count))
    (ends : ∀ more i, Concurs 0 least (step more i) (loop 0 i)) (cut : ι → Parse α)
    {n rounds count : Nat} (deep : n < rounds) (enough : n ≤ count) (i : ι)
    : Concurs n least (step^[rounds] cut i) (loop count i) := by
  induction n using Nat.strongRecOn generalizing rounds count i with
  | ind n ih =>
      obtain ⟨rounds, rfl⟩ := Nat.exists_eq_add_of_le' (show 1 ≤ rounds by omega)
      rw [Function.iterate_succ_apply']
      cases count with
      | zero =>
          obtain rfl := Nat.le_zero.mp enough
          exact ends _ i
      | succ count =>
          rw [unrolls]
          exact descends n _ _ (fun left less => ih left less (by omega) (by omega)) i

/-- A loop whose bound is the number of tokens ahead settles if it stops at the end of the file. -/
theorem SettlesEach.of_loop (descends : Descends 0 step)
    (unrolls : ∀ count, loop (count + 1) = step (loop count)) (done : ι → α)
    (ends : ∀ count i {stream : TokenStream}, stream.kind = .endOfFile →
      loop count i stream = .ok (done i, stream))
    : SettlesEach step (fun i => do loop (← get).ahead.length i) := by
  have stops (more : ι → Parse α) (i : ι) : Concurs 0 0 (step more i) (loop 0 i) := by
    intro stream closed short
    have ended : stream.kind = .endOfFile := by
      rw [TokenStream.kind, TokenStream.current, TokenStream.peek_beyond short]
      exact closed
    obtain ⟨same, moves⟩ :=
      descends 0 more (loop 0) (fun left less => absurd less (by omega)) i stream closed short
    rw [← unrolls, ends _ i ended] at same
    exact ⟨by rw [same, ends _ i ended], moves⟩
  intro cut rounds stream closed deep i
  exact (descends.concurs loop unrolls stops cut deep (Nat.le_refl _) i stream closed
    (Nat.le_refl _)).1

/-- A recursion whose bound is beyond the number of tokens ahead settles. -/
theorem SettlesEach.of_depth (descends : Descends least step)
    (unrolls : ∀ count, loop (count + 1) = step (loop count))
    : SettlesEach step (fun i => do loop (← get).depth i) := by
  intro cut rounds stream closed deep i
  have ends (more : ι → Parse α) (i : ι) : Concurs 0 least (step more i) (loop (0 + 1) i) := by
    rw [unrolls]
    exact descends 0 _ _ (fun left less => absurd less (by omega)) i
  exact (descends.concurs (fun count => loop (count + 1))
    (fun count => unrolls (count + 1)) ends cut
    deep (Nat.le_refl _) i stream closed (Nat.le_refl _)).1

end

/-- A family of one reader settles where that reader does. -/
theorem SettlesEach.single {step : Parse α → Parse α} {reader : Parse α}
    (settles : SettlesEach (fun more (_ : Unit) => step (more ())) fun _ => reader)
    : Settles step reader := by
  intro cut rounds stream closed deep
  have same : (fun more (_ : Unit) => step (more ()))^[rounds] (fun _ => cut) () =
      step^[rounds] cut := by
    clear deep
    induction rounds with
    | zero => rfl
    | succ rounds ih => rw [Function.iterate_succ_apply', Function.iterate_succ_apply', ih]
  rw [← same]
  exact settles (fun _ => cut) rounds stream closed deep ()

theorem Settles.of_loop {step : Parse α → Parse α} (loop : Nat → Parse α)
    (descends : ∀ n more more', (∀ left < n, Concurs left 0 more more') →
      Concurs n 0 (step more) (step more'))
    (unrolls : ∀ count, loop (count + 1) = step (loop count)) (done : α)
    (ends : ∀ count {stream : TokenStream}, stream.kind = .endOfFile →
      loop count stream = .ok (done, stream))
    : Settles step (do loop (← get).ahead.length) := by
  have each : Descends 0 fun more (_ : Unit) => step (more ()) :=
    fun n more more' mores _ => descends n _ _ fun left less => mores left less ()
  have unrolls' (count : Nat)
      : (fun _ : Unit => loop (count + 1)) = fun _ => step (loop count) := by
    rw [unrolls]
  exact SettlesEach.single (.of_loop (fun count _ => loop count) each unrolls' (fun _ => done)
    fun count _ _ ended => ends count ended)

theorem Settles.of_depth {step : Parse α → Parse α} {least : Nat} (loop : Nat → Parse α)
    (descends : ∀ n more more', (∀ left < n, Concurs left least more more') →
      Concurs n least (step more) (step more'))
    (unrolls : ∀ count, loop (count + 1) = step (loop count))
    : Settles step (do loop (← get).depth) := by
  have each : Descends least fun more (_ : Unit) => step (more ()) :=
    fun n more more' mores _ => descends n _ _ fun left less => mores left less ()
  have unrolls' (count : Nat)
      : (fun _ : Unit => loop (count + 1)) = fun _ => step (loop count) := by
    rw [unrolls]
  exact SettlesEach.single (.of_depth (fun count _ => loop count) each unrolls')

/-- (Advances reader) says that a reader that succeeds on a closed stream has moved it on. -/
def Advances (reader : Parse α) : Prop :=
  ∀ stream : TokenStream, stream.Closed → ∀ value after, reader stream = .ok (value, after) →
    ∃ used, stream.Passes used after ∧ 1 ≤ used.length

theorem Advances.concurs {reader : Parse α} (advances : Advances reader) (n : Nat)
    : Concurs n 1 reader reader :=
  fun stream closed _ => ⟨rfl, advances stream closed⟩

theorem Concurs.advances {reader : Parse α} (concurs : ∀ n, Concurs n 1 reader reader)
    : Advances reader :=
  fun stream closed => (concurs stream.ahead.length stream closed (Nat.le_refl _)).2

/-- An expression whose operators bind more tightly than a given power. -/
def operand : Operand := fun power => do exprWithin (← get).depth power

/-- (ReadersSettle) says that every recursion of the readers comes to an end: those of types,
expressions, statements and values, and the loops in them over readers that move on.
-/
structure ReadersSettle : Prop where
  types : Settles typeExprWith typeExpr
  expressions : SettlesEach exprWith operand
  statements : Settles stmtWith stmt
  values : Settles valueWith value
  items {α : Type} {item : Parse α} (advances : Advances item)
    : Settles (afterCommasRound item) (do afterCommas item (← get).ahead.length)
  segments : Settles moreSegmentsRound (do moreSegments (← get).ahead.length)
  continuations {nested : Operand} (advances : ∀ power, Advances (nested power))
    (power : BindingPower)
    : SettlesEach (continueRound nested power)
        (fun left => do continueWith nested power left (← get).ahead.length)
  bracedItems {α : Type} {item : Parse α} (advances : Advances item)
    : Settles (untilBraceRound item) (do untilBrace item (← get).depth)
  enumerators : Settles moreEnumeratorsRound (do moreEnumerators (← get).ahead.length)
  names : Settles moreNamesRound (do moreNames (← get).ahead.length)
  alternatives {nested : Parse Stmt} (advances : Advances nested)
    : Settles (otherwiseRound nested) (do otherwiseWith nested (← get).ahead.length)
  scripts : Settles untilEndRound (do untilEnd (← get).depth)
  listValues {nested : Parse ValueExpr} (advances : Advances nested)
    : Settles (moreValuesRound nested) (do moreValues nested (← get).ahead.length)
  properties : Settles propertiesRound (do properties (← get).depth)

/-- No value follows at the end of the file. -/
theorem moreValues_end (nested : Parse ValueExpr) (count : Nat) {stream : TokenStream}
    (ended : stream.kind = .endOfFile)
    : moreValues nested count stream = .ok ([], stream) := by
  cases count with
  | zero => rfl
  | succ count =>
      unfold moreValues
      rw [run_bind, run_accept, ended]
      rfl

theorem readers_settle : ReadersSettle where
  types := .of_depth typeExprWithin (fun _ _ _ parts => Concurs.typeExprWith parts) fun _ => rfl
  expressions :=
    .of_depth exprWithin (fun _ _ _ parts power => Concurs.exprWith parts power) fun _ => rfl
  statements := .of_depth stmtWithin (fun _ _ _ parts => Concurs.stmtWith parts) fun _ => rfl
  values := .of_depth valueWithin (fun _ _ _ parts => Concurs.valueWith parts) fun _ => rfl
  items advances :=
    .of_loop _ (fun _ _ _ mores => Concurs.afterCommasRound
      (fun left _ => (advances.concurs left).weaken (Nat.le_refl left) (Nat.zero_le 1)) mores)
      (fun _ => rfl) [] (Agrees.afterCommas_end _)
  segments :=
    .of_loop _ (fun _ _ _ => Concurs.moreSegmentsRound) (fun _ => rfl) [] Agrees.moreSegments_end
  continuations advances power :=
    .of_loop _ (fun _ _ _ mores => Concurs.continueRound (fun left _ power =>
      (advances power).concurs left) power mores) (fun _ => rfl) id
      fun count left _ => Agrees.continueWith_end _ power left count
  bracedItems advances :=
    .of_depth _ (fun _ _ _ => Concurs.untilBraceRound fun left _ => advances.concurs left)
      fun _ => rfl
  enumerators :=
    .of_loop _ (fun _ _ _ => Concurs.moreEnumeratorsRound) (fun _ => rfl) []
      Agrees.moreEnumerators_end
  names := .of_loop _ (fun _ _ _ => Concurs.moreNamesRound) (fun _ => rfl) [] Agrees.moreNames_end
  alternatives advances :=
    .of_loop _ (fun _ _ _ => Concurs.otherwiseRound fun left _ => advances.concurs left)
      (fun _ => rfl) _ (Agrees.otherwiseWith_end _)
  scripts := .of_depth _ (fun _ _ _ => Concurs.untilEndRound) fun _ => rfl
  listValues advances :=
    .of_loop _ (fun _ _ _ => Concurs.moreValuesRound fun left _ => advances.concurs left)
      (fun _ => rfl) [] (moreValues_end _)
  properties := .of_depth _ (fun _ _ _ => Concurs.propertiesRound) fun _ => rfl

end Parse

-----------------------------------------------------------------------------------------
-- Positions
-----------------------------------------------------------------------------------------

namespace TokenStream

/-- (vector tokens file) are the tokens that a stream moves over, an end of file last. -/
def vector (tokens : List Token) (file : String) : List Token :=
  match tokens.getLast? with
  | none => [Token.endOfFile ⟨file, 0⟩]
  | some last =>
    if last.kind = .endOfFile then tokens
    else tokens ++ [Token.endOfFile ⟨last.span.file, last.span.stop⟩]

/-- (At tokens position stream) says that a stream stands before the token at a position, which is
one of the given tokens: what is ahead are those from there on, and what was read last are those
before.
-/
structure At (tokens : List Token) (position : Nat) (stream : TokenStream) : Prop where
  inside : position < tokens.length
  ahead : stream.ahead ++ [stream.last] = tokens.drop position
  previousEnd : stream.previousEnd = Token.endAfter 0 (tokens.take position)

theorem ofTokens_vector (tokens : List Token) (file : String)
    : (ofTokens tokens file).ahead ++ [(ofTokens tokens file).last] = vector tokens file := by
  rcases List.eq_nil_or_concat tokens with rfl | ⟨before, last, rfl⟩
  · rfl
  · rw [List.concat_eq_append, vector, List.getLast?_concat]
    dsimp only
    by_cases ended : last.kind = .endOfFile
    · rw [if_pos ended, ofTokens_ended ended]
    · rw [if_neg ended, ofTokens, List.reverse_append, List.reverse_singleton,
        List.singleton_append]
      dsimp only
      rw [if_neg (by simpa using ended)]

namespace At

variable {tokens : List Token} {position : Nat} {stream : TokenStream}

theorem length (here : stream.At tokens position)
    : tokens.length = position + stream.ahead.length + 1 := by
  have counted := congrArg List.length here.ahead
  have inside := here.inside
  rw [List.length_append, List.length_singleton, List.length_drop] at counted
  omega

/-- What is shown ahead is a token of the sequence, the last one beyond its end. -/
theorem peek (here : stream.At tokens position) (n : Nat)
    : tokens[min (position + n) (tokens.length - 1)]? = some (stream.peek n) := by
  have counted := here.length
  have place (k : Nat) : tokens[position + k]? = (stream.ahead ++ [stream.last])[k]? := by
    rw [here.ahead, List.getElem?_drop]
  rcases Nat.lt_or_ge n stream.ahead.length with inside | beyond
  · rw [Nat.min_eq_left (by omega), place, List.getElem?_append_left inside, TokenStream.peek,
      List.getElem?_eq_getElem inside]
    rfl
  · rw [Nat.min_eq_right (by omega), counted, show position + stream.ahead.length + 1 - 1 =
      position + stream.ahead.length by omega, place, List.getElem?_append_right (Nat.le_refl _),
      Nat.sub_self, peek_beyond beyond]
    rfl

/-- Over tokens that are passed a stream moves on by their number. -/
theorem passes (here : stream.At tokens position) {used : List Token} {after : TokenStream}
    (passes : stream.Passes used after)
    : after.At tokens (position + used.length) := by
  have shown : tokens.drop position = used ++ (after.ahead ++ [after.last]) := by
    rw [← here.ahead, passes.ahead, passes.last, List.append_assoc]
  have counted := here.length
  have moved := passes.length
  refine ⟨by omega, ?_, ?_⟩
  · rw [← List.drop_drop, shown, List.drop_left]
  · rw [passes.previousEnd, here.previousEnd, List.take_add, shown, List.take_left,
      Token.endAfter_append]

/-- A stream moves on by one token, but not past the last one. -/
theorem advance (here : stream.At tokens position)
    : stream.advance.At tokens (min (position + 1) (tokens.length - 1)) := by
  have counted := here.length
  cases ahead : stream.ahead with
  | nil =>
      rw [ahead, List.length_nil] at counted
      rw [Nat.min_eq_right (by omega), show tokens.length - 1 = position by omega,
        TokenStream.advance, ahead]
      exact here
  | cons token rest =>
      have moved : stream.Passes [token] stream.advance := by
        rw [TokenStream.advance, ahead]
        exact ⟨ahead, rfl, rfl, rfl⟩
      rw [ahead, List.length_cons] at counted
      rw [Nat.min_eq_left (by omega)]
      exact here.passes moved

/-- The last token of a sequence that is moved over is an end of file. -/
theorem closed {file : String} (here : stream.At (vector tokens file) position)
    : stream.Closed := by
  have inside := here.inside
  have ahead := here.ahead
  rw [← ofTokens_vector, List.length_append, List.length_singleton] at inside
  rw [← ofTokens_vector, List.drop_append_of_le_length (by omega)] at ahead
  obtain ⟨-, same⟩ := List.append_inj' ahead rfl
  rw [Closed, (List.cons.inj same).1]
  exact ofTokens_last tokens file

end At

theorem at_ofTokens (tokens : List Token) (file : String)
    : (ofTokens tokens file).At (vector tokens file) 0 := by
  have ahead := ofTokens_vector tokens file
  refine ⟨?_, ahead, ?_⟩
  · rw [← ahead, List.length_append, List.length_singleton]
    omega
  · unfold ofTokens
    split
    · rfl
    · split <;> rfl

end TokenStream

-----------------------------------------------------------------------------------------
-- Attempts that are given up
-----------------------------------------------------------------------------------------

namespace Parse

/-- What is declared with a type and a name is never nothing. -/
theorem declaredAs_some {nested : Parse Stmt} {type : TypeExpr} {name : Token}
    {stream after : TokenStream} {declaration? : Option Stmt}
    (outcome : declaredAs nested (some (type, name)) stream = .ok (declaration?, after))
    : declaration? ≠ none := by
  obtain ⟨shown, _, -, later⟩ := ok_of_run_bind outcome
  by_cases opens : (shown == .openParen) = true
  case' pos => rw [if_pos opens] at later
  case' neg => rw [if_neg opens] at later
  all_goals
    obtain ⟨decl, _, -, finish⟩ := ok_of_run_bind later
    obtain ⟨rfl, -⟩ := Prod.mk.inj (Except.ok.inj finish)
    exact Option.some_ne_none _

/-- (Stays reader) says that a stream has not moved where a reader gives nothing. -/
def Stays {α : Type} (reader : Parse (Option α)) : Prop :=
  ∀ stream after, reader stream = .ok (none, after) → after = stream

theorem Stays.kindThen {α : Type} {next : TokenKind → Parse (Option α)}
    (rest : ∀ shown, Stays (next shown))
    : Stays (kind >>= next) := by
  intro stream after outcome
  rw [run_bind, run_kind] at outcome
  exact rest stream.kind stream after outcome

/-- A declaration is looked for without moving the stream where there is none. -/
theorem Stays.declarationWith? (nested : Parse Stmt) : Stays (Parse.declarationWith? nested) := by
  have attempted : Stays (attempt declarator >>= declaredAs nested) := by
    intro stream after outcome
    rw [run_bind, run_attempt] at outcome
    cases read : declarator stream with
    | error error =>
        rw [read] at outcome
        exact (Prod.mk.inj (Except.ok.inj outcome)).2.symm
    | ok declared =>
        rw [read] at outcome
        exact absurd rfl (declaredAs_some outcome)
  refine kindThen fun shown => ?_
  split
  · exact attempted
  · exact attempted
  · exact fun stream after outcome => (Prod.mk.inj (Except.ok.inj outcome)).2.symm

/-- Where no declaration is found, an expression is read as if none had been looked for. -/
theorem simpleStmtWith_none {nested : Parse Stmt} {stream after : TokenStream}
    (outcome : declarationWith? nested stream = .ok (none, after))
    : simpleStmtWith nested stream =
        (do
          let value ← expr
          let _ ← expect .semicolon
          return Stmt.expression value value.span) stream := by
  obtain rfl := Stays.declarationWith? nested stream after outcome
  rw [simpleStmtWith, run_bind, outcome]

/-- Where type arguments are given up, an expression goes on from its name as if none had been
looked for.
-/
theorem exprWith_comparison {nested : Operand} {stream middle : TokenStream} {names : List Token}
    {error : SyntaxError} (named : qualifiedName stream = .ok (names, middle))
    (failed : genericCallee middle = .error error) (power : BindingPower)
    : exprWith nested power stream =
        continueWith nested power
          (.id names { stream.current.span with stop := middle.previousEnd })
          middle.ahead.length middle := by
  have word : stream.kind = .identifier := by
    obtain ⟨first, _, start, -⟩ := ok_of_run_bind named
    rw [run_expect] at start
    split at start
    · next shown => exact shown
    · cases start
  have given : identifierWith nested stream =
      .ok (.id names { stream.current.span with stop := middle.previousEnd }, middle) := by
    rw [identifierWith, run_bind, run_get]
    dsimp only
    rw [run_bind, named]
    dsimp only
    rw [run_bind, run_kind]
    dsimp only
    split
    · rw [run_bind, run_attempt, show (do
        let generics ← typeArguments
        if (← kind) == .openParen then return generics else unexpected) = genericCallee from rfl,
        failed]
      rfl
    · rfl
  rw [exprWith, run_bind, primaryWith, run_bind, run_kind]
  dsimp only
  rw [word]
  dsimp only
  rw [given]
  rfl

-----------------------------------------------------------------------------------------
-- Progress
-----------------------------------------------------------------------------------------

/-- (MovesOn tokens position stream reader) says that a reader that succeeds on a stream at the
given position leaves it at a later one, which is not past the last token.
-/
def MovesOn {α : Type} (tokens : List Token) (position : Nat) (stream : TokenStream)
    (reader : Parse α)
    : Prop :=
  ∀ value after, reader stream = .ok (value, after) →
    ∃ later, position < later ∧ later < tokens.length ∧ after.At tokens later

/-- (Progresses tokens position stream) says that the readers make progress on a stream that stands
at a position among some tokens: they look at tokens in range, they move on where they succeed, and
what they try and give up has no part in what they read then.
-/
structure Progresses (tokens : List Token) (position : Nat) (stream : TokenStream) : Prop where
  peeks (n : Nat) : tokens[min (position + n) (tokens.length - 1)]? = some (stream.peek n)
  advances : stream.advance.At tokens (min (position + 1) (tokens.length - 1))
  statement : MovesOn tokens position stream stmt
  expression (power : BindingPower) : MovesOn tokens position stream (operand power)
  type : MovesOn tokens position stream typeExpr
  nested (depth : Nat)
    : MovesOn tokens position stream (stmtWithin depth)
      ∧ (∀ power, MovesOn tokens position stream (exprWithin depth power))
      ∧ MovesOn tokens position stream (typeExprWithin depth)
  noDeclaration {nested : Parse Stmt} {after : TokenStream}
    (none_ : declarationWith? nested stream = .ok (none, after))
    : after = stream ∧ simpleStmtWith nested stream =
        (do
          let value ← expr
          let _ ← expect .semicolon
          return Stmt.expression value value.span) stream
  noGenerics {nested : Operand} {names : List Token} {middle : TokenStream} {error : SyntaxError}
    (named : qualifiedName stream = .ok (names, middle))
    (failed : genericCallee middle = .error error) (power : BindingPower)
    : exprWith nested power stream =
        continueWith nested power
          (.id names { stream.current.span with stop := middle.previousEnd })
          middle.ahead.length middle

theorem Advances.movesOn {α : Type} {reader : Parse α} (advances : Advances reader)
    {tokens : List Token} {position : Nat} {stream : TokenStream} (here : stream.At tokens position)
    (closed : stream.Closed)
    : MovesOn tokens position stream reader := by
  intro value after outcome
  obtain ⟨used, passes, some_⟩ := advances stream closed value after outcome
  have there := here.passes passes
  exact ⟨_, by omega, there.inside, there⟩

/-- Reading makes progress on every sequence of tokens. All recursions come to an end, and from the
beginning to the last position there is progress wherever a stream stands.
-/
theorem reading_progresses
    : ReadersSettle ∧ ∀ (tokens : List Token) (file : String),
        (TokenStream.ofTokens tokens file).At (TokenStream.vector tokens file) 0 ∧
          ∀ position stream, stream.At (TokenStream.vector tokens file) position →
            Progresses (TokenStream.vector tokens file) position stream := by
  refine ⟨readers_settle, fun tokens file => ⟨TokenStream.at_ofTokens tokens file, ?_⟩⟩
  intro position stream here
  have moves {α : Type} {reader : Parse α} (concurs : ∀ n, Concurs n 1 reader reader)
      : MovesOn (TokenStream.vector tokens file) position stream reader :=
    (Concurs.advances concurs).movesOn here here.closed
  exact {
    peeks := here.peek
    advances := here.advance
    statement := moves fun _ => Concurs.stmt
    expression power := moves fun _ => Concurs.get fun _ _ => Concurs.exprWithin _ power
    type := moves fun _ => Concurs.typeExpr
    nested depth := ⟨moves fun _ => Concurs.stmtWithin depth,
      fun power => moves fun _ => Concurs.exprWithin depth power,
      moves fun _ => Concurs.typeExprWithin depth⟩
    noDeclaration none_ :=
      ⟨Stays.declarationWith? _ _ _ none_, simpleStmtWith_none none_⟩
    noGenerics named failed power := exprWith_comparison named failed power
  }

/-- Witness: a statement is read from two tokens that no end of file closes. -/
theorem reading_progresses_statement
    : ∃ value after, stmt (TokenStream.ofTokens
        [⟨.identifier, "x", ⟨"f", 0, 1⟩⟩, ⟨.semicolon, ";", ⟨"f", 1, 2⟩⟩] "f") =
        .ok (value, after) ∧
        ∃ later, 0 < later ∧ later < 3 ∧ after.At (TokenStream.vector
          [⟨.identifier, "x", ⟨"f", 0, 1⟩⟩, ⟨.semicolon, ";", ⟨"f", 1, 2⟩⟩] "f") later := by
  obtain ⟨begins, progress⟩ := reading_progresses.2
    [⟨.identifier, "x", ⟨"f", 0, 1⟩⟩, ⟨.semicolon, ";", ⟨"f", 1, 2⟩⟩] "f"
  exact ⟨_, _, rfl, (progress 0 _ begins).statement _ _ rfl⟩

end Parse

end BuildScript
