import BuildScript.Proofs.Syntax.Reading
import BuildScript.Syntax.Parser.Expr

/-! Readers call the readers of their parts only further on. Two readers that differ in such parts
do the same on a stream where the parts do the same on all streams with fewer tokens ahead, so that
no recursion is deeper than there are tokens, whatever comes after it. An attempt that fails goes on
where it began, and is no way to call a part without having moved on.
-/

namespace BuildScript

namespace TokenStream

/-- The tokens ahead are those that are passed and those that are ahead then. -/
theorem Passes.length {used : List Token} {before after : TokenStream}
    (passes : before.Passes used after)
    : before.ahead.length = used.length + after.ahead.length := by
  rw [passes.ahead, List.length_append]

/-- Before the end of the file there is a token ahead. -/
theorem Closed.pos {stream : TokenStream} (closed : stream.Closed)
    (inside : stream.kind ≠ .endOfFile)
    : 0 < stream.ahead.length := by
  have moved := (closed.advance inside).length
  rw [List.length_singleton] at moved
  omega

end TokenStream

namespace Parse

variable {α β : Type}

/-- (Concurs n least first second) says that two readers do the same on closed streams with at most
`n` tokens ahead, and that they move on over at least `least` tokens where they succeed.
-/
def Concurs (n least : Nat) (first second : Parse α) : Prop :=
  ∀ stream : TokenStream, stream.Closed → stream.ahead.length ≤ n →
    first stream = second stream ∧ ∀ value after, first stream = .ok (value, after) →
      ∃ used, stream.Passes used after ∧ least ≤ used.length

/-- (ConcursAt shown n least first second) says it of streams that show a token of class `shown`. -/
def ConcursAt (shown : TokenKind) (n least : Nat) (first second : Parse α) : Prop :=
  ∀ stream : TokenStream, stream.Closed → stream.ahead.length ≤ n → stream.kind = shown →
    first stream = second stream ∧ ∀ value after, first stream = .ok (value, after) →
      ∃ used, stream.Passes used after ∧ least ≤ used.length

-----------------------------------------------------------------------------------------
-- Rules
-----------------------------------------------------------------------------------------

namespace ConcursAt

variable {shown : TokenKind} {n least passed : Nat} {first second : Parse α}

/-- The second of two readers has as many tokens fewer ahead as the first one passes. -/
theorem bind {next next' : α → Parse β} (start : ConcursAt shown n passed first second)
    (rest : ∀ value, passed ≤ n → Concurs (n - passed) (least - passed) (next value) (next' value))
    : ConcursAt shown n least (first >>= next) (second >>= next') := by
  intro stream closed short here
  obtain ⟨same, moves⟩ := start stream closed short here
  rw [run_bind, run_bind, ← same]
  cases outcome : first stream with
  | error error => exact ⟨rfl, fun _ _ failed => nomatch failed⟩
  | ok read =>
      obtain ⟨used, passes, enough⟩ := moves _ _ outcome
      have counted := passes.length
      obtain ⟨same', moves'⟩ :=
        rest read.1 (by omega) read.2 (passes.closed closed) (by omega)
      refine ⟨same', fun value after given => ?_⟩
      obtain ⟨more, passes', enough'⟩ := moves' value after given
      refine ⟨used ++ more, passes.trans passes', ?_⟩
      rw [List.length_append]
      omega

theorem map {change : α → β} (start : ConcursAt shown n least first second)
    : ConcursAt shown n least (change <$> first) (change <$> second) := by
  rw [← bind_pure_comp, ← bind_pure_comp]
  refine start.bind fun value _ stream _ _ => ⟨rfl, fun _ _ given => ?_⟩
  obtain ⟨-, rfl⟩ := Prod.mk.inj (Except.ok.inj given)
  exact ⟨[], .refl stream, by omega⟩

/-- A token that is shown is passed. -/
theorem nextThen {next next' : Token → Parse α} (inner : shown ≠ .endOfFile)
    (rest : ∀ token, 1 ≤ n → Concurs (n - 1) (least - 1) (next token) (next' token))
    : ConcursAt shown n least (Parse.next >>= next) (Parse.next >>= next') := by
  have moves : ConcursAt shown n 1 Parse.next Parse.next := by
    rintro stream closed - rfl
    refine ⟨rfl, fun _ _ given => ?_⟩
    obtain ⟨rfl, rfl⟩ := Prod.mk.inj (Except.ok.inj given)
    exact ⟨_, closed.advance inner, Nat.le_refl 1⟩
  exact moves.bind rest

/-- The class that is shown may be looked at again. -/
theorem kind {next next' : TokenKind → Parse α}
    (rest : ConcursAt shown n least (next shown) (next' shown))
    : ConcursAt shown n least (Parse.kind >>= next) (Parse.kind >>= next') := by
  rintro stream closed short rfl
  exact rest stream closed short rfl

end ConcursAt

namespace Concurs

variable {n least passed : Nat} {first second : Parse α}

/-- Readers that concur on every token do so on one of a given class. -/
theorem here (concurs : Concurs n least first second) (shown : TokenKind)
    : ConcursAt shown n least first second :=
  fun stream closed short _ => concurs stream closed short

theorem weaken (concurs : Concurs n least first second) {n' least' : Nat} (fewer : n' ≤ n)
    (less : least' ≤ least)
    : Concurs n' least' first second := by
  intro stream closed short
  obtain ⟨same, moves⟩ := concurs stream closed (by omega)
  refine ⟨same, fun value after given => ?_⟩
  obtain ⟨used, passes, enough⟩ := moves value after given
  exact ⟨used, passes, by omega⟩

theorem pure (value : α) : Concurs n 0 (Pure.pure value) (Pure.pure value) := by
  intro stream _ _
  refine ⟨rfl, fun _ _ given => ?_⟩
  obtain ⟨-, rfl⟩ := Prod.mk.inj (Except.ok.inj given)
  exact ⟨[], .refl stream, Nat.zero_le _⟩

theorem bind {next next' : α → Parse β} (start : Concurs n passed first second)
    (rest : ∀ value, passed ≤ n → Concurs (n - passed) (least - passed) (next value) (next' value))
    : Concurs n least (first >>= next) (second >>= next') :=
  fun stream closed short => (start.here stream.kind).bind rest stream closed short rfl

theorem map {change : α → β} (start : Concurs n least first second)
    : Concurs n least (change <$> first) (change <$> second) :=
  fun stream closed short => (start.here stream.kind).map stream closed short rfl

/-- A reader that always fails concurs with itself. -/
theorem fails {reader : Parse α} (error : TokenStream → SyntaxError)
    (failed : ∀ stream, reader stream = .error (error stream))
    : Concurs n least reader reader := by
  refine fun stream _ _ => ⟨rfl, fun _ _ given => ?_⟩
  rw [failed] at given
  cases given

theorem throw (error : SyntaxError)
    : Concurs n least (MonadExcept.throw error : Parse α) (MonadExcept.throw error) :=
  fails _ fun _ => rfl

theorem unexpected : Concurs n least (Parse.unexpected : Parse α) Parse.unexpected :=
  fails _ run_unexpected

theorem unmet (expectation : Expectation)
    : Concurs n least (Parse.unmet expectation : Parse α) (Parse.unmet expectation) :=
  fails _ (run_unmet expectation)

/-- Readers may look at the stream first. -/
theorem look {next next' : TokenStream → Parse α}
    (rest : ∀ stream : TokenStream, ConcursAt stream.kind n least (next stream) (next' stream))
    : Concurs n least (MonadState.get >>= next) (MonadState.get >>= next') :=
  fun stream closed short => rest stream stream closed short rfl

theorem get {next next' : TokenStream → Parse α}
    (rest : ∀ stream : TokenStream, stream.ahead.length ≤ n →
      Concurs stream.ahead.length least (next stream) (next' stream))
    : Concurs n least (MonadState.get >>= next) (MonadState.get >>= next') :=
  fun stream closed short => rest stream short stream closed (Nat.le_refl _)

/-- Readers may look at the class of the current token first. -/
theorem kind {next next' : TokenKind → Parse α}
    (rest : ∀ shown, (shown ≠ .endOfFile → 1 ≤ n) →
      ConcursAt shown n least (next shown) (next' shown))
    : Concurs n least (Parse.kind >>= next) (Parse.kind >>= next') := by
  intro stream closed short
  refine rest stream.kind (fun inside => ?_) stream closed short rfl
  have pos := closed.pos inside
  omega

/-- A token that is expected is passed. -/
theorem expectThen {wanted : TokenKind} {next next' : Token → Parse α} (inner : wanted ≠ .endOfFile)
    (rest : ∀ token, 1 ≤ n → Concurs (n - 1) (least - 1) (next token) (next' token))
    : Concurs n least (Parse.expect wanted >>= next) (Parse.expect wanted >>= next') := by
  have moves : Concurs n 1 (Parse.expect wanted) (Parse.expect wanted) := by
    intro stream closed _
    refine ⟨rfl, fun value after given => ?_⟩
    obtain ⟨used, passes, rfl, -⟩ := Consumes.expect inner stream closed rfl value after given
    exact ⟨_, passes, Nat.le_refl 1⟩
  exact moves.bind rest

/-- A token that is accepted is passed, and otherwise nothing is. -/
theorem acceptThen {wanted : TokenKind} {next next' : Bool → Parse α} (inner : wanted ≠ .endOfFile)
    (accepted : 1 ≤ n → Concurs (n - 1) (least - 1) (next true) (next' true))
    (refused : Concurs n least (next false) (next' false))
    : Concurs n least (Parse.accept wanted >>= next) (Parse.accept wanted >>= next') := by
  intro stream closed short
  rw [run_bind, run_bind, run_accept]
  by_cases shown : stream.kind = wanted
  · rw [if_pos shown]
    have passes := closed.advance (by rw [shown]; exact inner)
    have counted := passes.length
    rw [List.length_singleton] at counted
    obtain ⟨same, moves⟩ := accepted (by omega) stream.advance (passes.closed closed) (by omega)
    refine ⟨same, fun value after given => ?_⟩
    obtain ⟨more, passes', enough⟩ := moves value after given
    refine ⟨stream.current :: more, passes.trans passes', ?_⟩
    rw [List.length_cons]
    omega
  · rw [if_neg shown]
    exact refused stream closed short

theorem spanFromThen {span : Span} {next next' : Span → Parse α}
    (rest : ∀ span, Concurs n least (next span) (next' span))
    : Concurs n least (Parse.spanFrom span >>= next) (Parse.spanFrom span >>= next') :=
  fun stream closed short => rest _ stream closed short

theorem numberLiteralThen {read? : List Char → Option α} {token : Token} {next next' : α → Parse β}
    (rest : ∀ value, Concurs n least (next value) (next' value))
    : Concurs n least (Parse.numberLiteral read? token >>= next)
        (Parse.numberLiteral read? token >>= next') := by
  unfold Parse.numberLiteral
  split
  · next value _ =>
      rw [pure_bind, pure_bind]
      exact rest value
  · exact fun _ _ _ => ⟨rfl, fun _ _ given => nomatch given⟩

/-- An attempt goes on from where the reader ends, or from where it began if that fails. -/
theorem attemptThen {next next' : Option α → Parse β} (start : Concurs n passed first second)
    (read : ∀ value, passed ≤ n →
      Concurs (n - passed) (least - passed) (next (some value)) (next' (some value)))
    (failed : Concurs n least (next none) (next' none))
    : Concurs n least (Parse.attempt first >>= next) (Parse.attempt second >>= next') := by
  intro stream closed short
  have goesOn := bind start read stream closed short
  rw [run_bind, run_bind] at goesOn
  rw [run_bind, run_bind, run_attempt, run_attempt]
  obtain ⟨same, -⟩ := start stream closed short
  rw [← same] at goesOn ⊢
  cases outcome : first stream with
  | error error => exact failed stream closed short
  | ok result =>
      rw [outcome] at goesOn
      exact goesOn

end Concurs

-----------------------------------------------------------------------------------------
-- Rounds
-----------------------------------------------------------------------------------------

/-- (afterCommasRound item more) is what `afterCommas` does before it calls itself as `more`. -/
def afterCommasRound (item : Parse α) (more : Parse (List α)) : Parse (List α) := do
  if ← accept .comma then
    let first ← item
    let rest ← more
    return first :: rest
  else return []

/-- (continueRound nested power more left) is what `continueWith` does before it calls itself as
`more`.
-/
def continueRound (nested : Operand) (power : BindingPower) (more : Expr → Parse Expr) (left : Expr)
    : Parse Expr := do
  match (← kind).continuationPower? with
  | none => return left
  | some next =>
    if power < next then
      let longer ← continuationWith nested left next
      more longer
    else return left

namespace Concurs

variable {n least : Nat}

section Repetition

variable {item item' : Parse α}

theorem afterCommasRound {more more' : Parse (List α)}
    (items : ∀ left < n, Concurs left 0 item item') (mores : ∀ left < n, Concurs left 0 more more')
    : Concurs n 0 (Parse.afterCommasRound item more) (Parse.afterCommasRound item' more') := by
  refine acceptThen (by decide) (fun pos => ?_) (pure [])
  exact (items _ (by omega)).bind fun first _ => (mores _ (by omega)).bind fun rest _ => pure _

/-- Items after commas, by induction on how many of them may be read. -/
theorem afterCommas (items : ∀ left < n, Concurs left 0 item item') (count : Nat)
    : Concurs n 0 (Parse.afterCommas item count) (Parse.afterCommas item' count) := by
  induction count generalizing n with
  | zero => exact pure []
  | succ count ih =>
      exact afterCommasRound items fun left less => ih fun left' less' => items left' (by omega)

theorem separated (items : ∀ left ≤ n, Concurs left least item item')
    : Concurs n least (Parse.separated item) (Parse.separated item') := by
  refine (items n (Nat.le_refl n)).bind fun first _ => get fun stream short => ?_
  refine (afterCommas (fun left less => ?_) _).bind fun rest _ => ?_
  · exact (items left (by omega)).weaken (Nat.le_refl left) (Nat.zero_le _)
  · exact (pure _).weaken (Nat.le_refl _) (by omega)

end Repetition

-----------------------------------------------------------------------------------------
-- Types
-----------------------------------------------------------------------------------------

theorem moreSegmentsRound {more more' : Parse (List Token)}
    (mores : ∀ left < n, Concurs left 0 more more')
    : Concurs n 0 (Parse.moreSegmentsRound more) (Parse.moreSegmentsRound more') := by
  intro stream closed short
  rw [run_moreSegmentsRound, run_moreSegmentsRound]
  by_cases goesOn : stream.kind = .colonColon ∧ (stream.peek 1).kind = .identifier
  · rw [if_pos goesOn, if_pos goesOn]
    have colons := closed.advance (by rw [goesOn.1]; decide)
    have word := (colons.closed closed).advance (by
      rw [TokenStream.kind, TokenStream.current, TokenStream.peek_advance, goesOn.2]
      decide)
    have passes := colons.trans word
    have counted := passes.length
    simp only [List.length_append, List.length_singleton] at counted
    have rest : Concurs (n - 2) 0 (more >>= fun rest => Pure.pure (stream.peek 1 :: rest))
        (more' >>= fun rest => Pure.pure (stream.peek 1 :: rest)) :=
      (mores _ (by omega)).bind fun rest _ => pure _
    obtain ⟨same, moves⟩ := rest stream.advance.advance (passes.closed closed) (by omega)
    refine ⟨same, fun value after given => ?_⟩
    obtain ⟨used, passes', -⟩ := moves value after given
    exact ⟨_, passes.trans passes', Nat.zero_le _⟩
  · rw [if_neg goesOn, if_neg goesOn]
    exact pure [] stream closed short

theorem moreSegments (count : Nat)
    : Concurs n 0 (Parse.moreSegments count) (Parse.moreSegments count) := by
  induction count generalizing n with
  | zero => exact pure []
  | succ count ih => exact moreSegmentsRound fun left _ => ih

theorem qualifiedName : Concurs n 1 Parse.qualifiedName Parse.qualifiedName := by
  refine expectThen (by decide) fun first _ => get fun stream short => ?_
  exact (moreSegments _).bind fun rest _ => pure _

section Types

variable {nested nested' : Parse TypeExpr} (parts : ∀ left < n, Concurs left 1 nested nested')

include parts

theorem typeArgumentsWith
    : Concurs n 1 (Parse.typeArgumentsWith nested) (Parse.typeArgumentsWith nested') := by
  refine expectThen (by decide) fun _ pos => ?_
  refine (separated fun left less => parts left (by omega)).bind fun generics _ => ?_
  exact expectThen (by decide) fun _ _ => pure _

theorem plainTypeWith : Concurs n 1 (Parse.plainTypeWith nested) (Parse.plainTypeWith nested') := by
  refine kind fun shown _ => ?_
  split
  · refine here (get fun stream short => qualifiedName.bind fun names pos => ?_) _
    refine kind fun after _ => here ?_ _
    dsimp only
    split
    · refine (typeArgumentsWith fun left less => parts left (by omega)).bind fun generics _ => ?_
      exact spanFromThen fun _ => pure _
    · exact (pure _).bind fun generics _ => spanFromThen fun _ => pure _
  · exact .nextThen (by decide) fun token _ => pure _
  · exact (unmet _).here _

theorem typeExprWith : Concurs n 1 (Parse.typeExprWith nested) (Parse.typeExprWith nested') := by
  refine (plainTypeWith parts).bind fun type pos => kind fun shown _ => ?_
  split
  · next marked =>
      refine .nextThen (by rw [eq_of_beq marked]; decide) fun mark _ =>
        kind fun after _ => here ?_ _
      split
      · exact unmet _
      · exact pure _
  · exact (pure _).here _

end Types

theorem typeExprWithin (depth : Nat)
    : Concurs n 1 (Parse.typeExprWithin depth) (Parse.typeExprWithin depth) := by
  induction depth generalizing n with
  | zero => exact unexpected
  | succ depth ih => exact typeExprWith fun left _ => ih

theorem typeExpr : Concurs n 1 Parse.typeExpr Parse.typeExpr :=
  get fun _ _ => typeExprWithin _

theorem typeArguments : Concurs n 1 Parse.typeArguments Parse.typeArguments :=
  get fun _ _ => typeArgumentsWith fun _ _ => typeExprWithin _

-----------------------------------------------------------------------------------------
-- Expressions
-----------------------------------------------------------------------------------------

section Expressions

variable {nested nested' : Operand}
  (parts : ∀ left < n, ∀ power, Concurs left 1 (nested power) (nested' power))

include parts

theorem argumentsWith
    : Concurs n 1 (Parse.argumentsWith nested) (Parse.argumentsWith nested') := by
  refine expectThen (by decide) fun _ pos => kind fun shown _ => here ?_ _
  dsimp only
  split
  · exact (pure _).bind fun arguments _ => expectThen (by decide) fun _ _ => pure _
  · refine (separated fun left less => parts left (by omega) _).bind fun arguments _ => ?_
    exact expectThen (by decide) fun _ _ => pure _

theorem identifierWith
    : Concurs n 1 (Parse.identifierWith nested) (Parse.identifierWith nested') := by
  refine get fun stream short => qualifiedName.bind fun names pos => kind fun shown _ => here ?_ _
  have comparison {left : Nat}
      : Concurs left 0
          (do return Expr.id names (← Parse.spanFrom stream.current.span))
          (do return Expr.id names (← Parse.spanFrom stream.current.span)) :=
    spanFromThen fun _ => pure _
  dsimp only
  split
  · have generics {left : Nat} : Concurs left 1
        (do
          let generics ← Parse.typeArguments
          if (← Parse.kind) == .openParen then return generics else Parse.unexpected)
        (do
          let generics ← Parse.typeArguments
          if (← Parse.kind) == .openParen then return generics else Parse.unexpected) := by
      refine typeArguments.bind fun generics _ => kind fun shown _ => here ?_ _
      split
      · exact pure _
      · exact unexpected
    refine attemptThen generics (fun generics _ => ?_) comparison
    refine spanFromThen fun _ => ?_
    refine (argumentsWith fun left less => parts left (by omega)).bind fun arguments _ => ?_
    exact spanFromThen fun _ => pure _
  · exact comparison

theorem fieldInitWith : Concurs n 1 (Parse.fieldInitWith nested) (Parse.fieldInitWith nested') := by
  have valueAfter {left least : Nat} {wanted : TokenKind} (inner : wanted ≠ .endOfFile)
      (short : left ≤ n) (few : least ≤ 1)
      : Concurs left least
          (do
            let name ← Parse.expect .identifier
            let _ ← Parse.expect wanted
            return FieldInit.mk name (← nested .lowest))
          (do
            let name ← Parse.expect .identifier
            let _ ← Parse.expect wanted
            return FieldInit.mk name (← nested' .lowest)) := by
    refine weaken (expectThen (by decide) fun name _ => expectThen inner fun _ _ => ?_)
      (Nat.le_refl left) few
    exact (parts _ (by omega) .lowest).bind fun value _ => pure _
  exact acceptThen (by decide) (fun _ => valueAfter (by decide) (Nat.pred_le n) (by decide))
    (valueAfter (by decide) (Nat.le_refl n) (Nat.le_refl 1))

theorem bracesWith : Concurs n 1 (Parse.bracesWith nested) (Parse.bracesWith nested') := by
  refine expectThen (by decide) fun opening pos => get fun stream short => ?_
  split
  · refine (separated fun left less =>
      fieldInitWith fun left' less' => parts left' (by omega)).bind fun fields _ => ?_
    exact expectThen (by decide) fun _ _ => spanFromThen fun _ => pure _
  · dsimp only
    split
    · exact (pure _).bind fun values _ =>
        expectThen (by decide) fun _ _ => spanFromThen fun _ => pure _
    · refine (separated fun left less => parts left (by omega) _).bind fun values _ => ?_
      exact expectThen (by decide) fun _ _ => spanFromThen fun _ => pure _

/-- The token that an expression begins with is passed before any of its parts. -/
theorem primaryWith : Concurs n 1 (Parse.primaryWith nested) (Parse.primaryWith nested') := by
  have prefixed {shown : TokenKind} (inner : shown ≠ .endOfFile)
      : ConcursAt shown n 1
          (do
            let operator ← Parse.next
            let operand ← nested .unary
            return Expr.unary operator operand (operator.span.upTo operand.span))
          (do
            let operator ← Parse.next
            let operand ← nested' .unary
            return Expr.unary operator operand (operator.span.upTo operand.span)) :=
    .nextThen inner fun operator pos => (parts _ (by omega) _).bind fun operand _ => pure _
  refine kind fun shown _ => ?_
  split
  · exact .nextThen (by decide) fun token _ => numberLiteralThen fun value => pure _
  · exact .nextThen (by decide) fun token _ => numberLiteralThen fun value => pure _
  · exact .nextThen (by decide) fun token _ => pure _
  · exact .nextThen (by decide) fun token _ => pure _
  · exact .nextThen (by decide) fun token _ => pure _
  · exact (identifierWith parts).here _
  · exact prefixed (by decide)
  · exact prefixed (by decide)
  · exact prefixed (by decide)
  · exact prefixed (by decide)
  · refine .nextThen (by decide) fun _ pos => (parts _ (by omega) _).bind fun inner _ => ?_
    exact expectThen (by decide) fun _ _ => pure _
  · exact (bracesWith parts).here _
  · exact unexpected.here _

/-- What continues an expression begins with a token that is passed. -/
theorem continuationWith (left : Expr) (power : BindingPower) {shown : TokenKind}
    (inner : shown ≠ .endOfFile)
    : ConcursAt shown n 1 (Parse.continuationWith nested left power)
        (Parse.continuationWith nested' left power) := by
  refine .kind ?_
  split
  · refine .nextThen inner fun _ pos => (parts _ (by omega) _).bind fun whenTrue _ => ?_
    refine expectThen (by decide) fun _ _ => (parts _ (by omega) _).bind fun whenFalse _ => ?_
    exact pure _
  · refine here ?_ _
    split
    · exact (argumentsWith parts).bind fun arguments _ => spanFromThen fun _ => pure _
    · exact unmet _
  · refine .nextThen inner fun _ _ => expectThen (by decide) fun name _ => ?_
    refine kind fun shown _ => here ?_ _
    split
    · refine (argumentsWith fun left less => parts left (by omega)).bind fun arguments _ => ?_
      exact spanFromThen fun _ => pure _
    · exact spanFromThen fun _ => pure _
  · refine .nextThen inner fun operator pos => (parts _ (by omega) _).bind fun right _ => ?_
    exact pure _

theorem continueRound (power : BindingPower) {more more' : Expr → Parse Expr}
    (mores : ∀ left < n, ∀ expr, Concurs left 0 (more expr) (more' expr)) (left : Expr)
    : Concurs n 0 (Parse.continueRound nested power more left)
        (Parse.continueRound nested' power more' left) := by
  refine kind fun shown pos => ?_
  split
  · exact (pure _).here _
  · next binds =>
      split
      · have inner : shown ≠ .endOfFile := by
          rintro rfl
          exact nomatch binds
        have pos := pos inner
        exact (continuationWith parts left _ inner).bind fun longer _ => mores _ (by omega) longer
      · exact (pure _).here _

omit parts in
theorem continueWith
    (parts : ∀ left < n, ∀ power, Concurs left 1 (nested power) (nested' power))
    (power : BindingPower) (left : Expr) (count : Nat)
    : Concurs n 0 (Parse.continueWith nested power left count)
        (Parse.continueWith nested' power left count) := by
  induction count generalizing n left with
  | zero => exact pure _
  | succ count ih =>
      exact continueRound parts power
        (fun left less expr => ih (fun left' less' => parts left' (by omega)) expr) left

theorem exprWith (power : BindingPower)
    : Concurs n 1 (Parse.exprWith nested power) (Parse.exprWith nested' power) := by
  refine (primaryWith parts).bind fun left pos => get fun stream short => ?_
  exact continueWith (fun left less => parts left (by omega)) power left _

end Expressions

theorem exprWithin (depth : Nat) (power : BindingPower)
    : Concurs n 1 (Parse.exprWithin depth power) (Parse.exprWithin depth power) := by
  induction depth generalizing n power with
  | zero => exact unexpected
  | succ depth ih => exact exprWith (fun left _ => ih) power

theorem expr : Concurs n 1 Parse.expr Parse.expr := get fun _ _ => exprWithin _ _

end Concurs

end Parse

end BuildScript
