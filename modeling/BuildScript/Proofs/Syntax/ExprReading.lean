import BuildScript.Proofs.Syntax.OperandReading

/-! Expressions are read back from their spellings. An operand is read up to where it could be
continued, and is then continued by what comes after it; between parentheses nothing is left to
the precedence of operators.
-/

namespace BuildScript

variable {spelling : Spelling}

namespace Parse.Reads

variable {nested : Operand} {rest : List (TokenKind × String)}

-----------------------------------------------------------------------------------------
-- Continuations
-----------------------------------------------------------------------------------------

/-- Operators between operands bind, and not as tightly as calls and members do. -/
theorem infix_power {kind : TokenKind} (among : kind ∈ TokenKind.infixOperators)
    : ∃ power, kind.continuationPower? = some power ∧ .lowest < power ∧ power < .call := by
  have table : ∀ kind ∈ TokenKind.infixOperators,
      kind.continuationPower?.any fun power => .lowest < power ∧ power < .call := by
    decide
  have between := table kind among
  cases binds : kind.continuationPower? with
  | none =>
      rw [binds] at between
      exact nomatch between
  | some power =>
      rw [binds, Option.any_some, decide_eq_true_eq] at between
      exact ⟨power, rfl, between⟩

/-- The right-hand side of an operator continues its left-hand side. -/
theorem binaryThen {operator : Token} {lhs rhs left : Expr} {span : Span} {power : BindingPower}
    {contents : List (TokenKind × String)} (among : operator.kind ∈ TokenKind.infixOperators)
    (same : left.bare = lhs.bare)
    (right : Reads (nested (if operator.kind.isAssignment then .comma else power)) contents rest
      (fun read => read.bare = rhs.bare))
    : Reads (Parse.continuationWith nested left power) (operator.content :: contents) rest
        (fun read => read.bare = (Expr.binary operator lhs rhs span).bare) := by
  refine kind rfl ?_
  split
  · next other => exact absurd among (by rw [show operator.kind = _ from other]; decide)
  · next other => exact absurd among (by rw [show operator.kind = _ from other]; decide)
  · next other => exact absurd among (by rw [show operator.kind = _ from other]; decide)
  · refine nextThen operator.content fun token sameToken => ?_
    rw [show token.kind = operator.kind from congrArg Prod.fst sameToken]
    refine thenDone right fun read sameRight => pure ?_
    rw [Expr.bare, Expr.bare, same, sameRight, Token.bare_eq_of_content sameToken]

theorem binaryWith {operator : Token} {lhs rhs left : Expr} {span : Span} {power : BindingPower}
    (among : operator.kind ∈ TokenKind.infixOperators) (weak : power < .call)
    (same : left.bare = lhs.bare) (parts : OperandReader spelling nested [rhs])
    (closes : Closes rest)
    : Reads (Parse.continuationWith nested left power)
        (operator.content :: rhs.print spelling) rest
        (fun read => read.bare = (Expr.binary operator lhs rhs span).bare) := by
  refine binaryThen among same (parts rhs (List.mem_singleton_self _) _ ?_ rest closes)
  split
  · decide
  · exact weak

theorem ternaryWith {condition whenTrue whenFalse left : Expr} {span : Span} {power : BindingPower}
    (same : left.bare = condition.bare)
    (parts : OperandReader spelling nested [whenTrue, whenFalse])
    (closes : Closes rest)
    : Reads (Parse.continuationWith nested left power)
        (TokenKind.question.mark :: (whenTrue.print spelling
          ++ TokenKind.colon.mark :: whenFalse.print spelling)) rest
        (fun read => read.bare = (Expr.ternary condition whenTrue whenFalse span).bare) := by
  refine kind rfl (nextThen TokenKind.question.mark fun _ _ => ?_)
  refine bind (parts whenTrue (by simp) .lowest (by decide) _ ⟨_, _, rfl, by decide⟩)
    fun read sameTrue => expectThen TokenKind.colon.mark fun _ _ => ?_
  refine thenDone (parts whenFalse (by simp) .assignment (by decide) rest closes)
    fun read sameFalse => pure ?_
  rw [Expr.bare, Expr.bare, same, sameTrue, sameFalse]

theorem memberWith {object left : Expr} {name : Token} {span : Span} {power : BindingPower}
    (word : name.kind = .identifier) (same : left.bare = object.bare)
    (closed : Begins [.openParen] rest)
    : Reads (Parse.continuationWith nested left power) [TokenKind.dot.mark, name.content] rest
        (fun read => read.bare = (Expr.member object name span).bare) := by
  obtain ⟨shown, later, rfl, other⟩ := closed
  refine kind rfl (nextThen TokenKind.dot.mark fun _ _ => ?_)
  rw [← show name.content.1 = .identifier from word]
  refine expectThen name.content fun token sameName => kind rfl ?_
  rw [if_neg (by simpa using other)]
  refine spanFromThen fun _ => pure ?_
  rw [Expr.bare, Expr.bare, same, Token.bare_eq_of_content sameName]

theorem memberCallWith {object left : Expr} {name : Token} {arguments : List Expr} {span : Span}
    {power : BindingPower} (word : name.kind = .identifier) (same : left.bare = object.bare)
    (writable : ∀ expr ∈ arguments, expr.Writable spelling)
    (parts : OperandReader spelling nested arguments)
    : Reads (Parse.continuationWith nested left power)
        (TokenKind.dot.mark :: name.content :: TokenKind.openParen.mark
          :: (Token.separate (arguments.map (Expr.print spelling)) ++ [TokenKind.closeParen.mark]))
        rest (fun read => read.bare = (Expr.memberCall object name arguments span).bare) := by
  refine kind rfl (nextThen TokenKind.dot.mark fun _ _ => ?_)
  rw [← show name.content.1 = .identifier from word]
  refine expectThen name.content fun token sameName => kind rfl ?_
  rw [if_pos (by decide)]
  refine thenDone (argumentsWith writable parts) fun read sames => spanFromThen fun _ => pure ?_
  rw [Expr.bare, Expr.bare, same, Token.bare_eq_of_content sameName, Expr.bareAll_eq_map,
    Expr.bareAll_eq_map, sames]

/-- Arguments continue the name of a function. -/
theorem callWith {names : List Token} {left : Expr} {arguments : List Expr}
    {span calleeSpan : Span} {power : BindingPower}
    (same : left.bare = (Expr.id names span).bare)
    (writable : ∀ expr ∈ arguments, expr.Writable spelling)
    (parts : OperandReader spelling nested arguments)
    : Reads (Parse.continuationWith nested left power)
        (TokenKind.openParen.mark
          :: (Token.separate (arguments.map (Expr.print spelling)) ++ [TokenKind.closeParen.mark]))
        rest (fun read => read.bare =
          (Expr.call ⟨names, [], false, calleeSpan⟩ arguments span).bare) := by
  cases left with
  | id names' span' =>
      refine kind rfl (thenDone (argumentsWith writable parts) fun read sames => ?_)
      refine spanFromThen fun _ => pure ?_
      simp only [Expr.bare, Expr.id.injEq, and_true] at same
      simp only [Expr.bare, TypeExpr.bare, TypeExpr.bareAll, Expr.bareAll_eq_map, same, sames]
  | _ => cases same

/-- (Continues nested power expr contents rest post) says that an expression equal to `expr` up to
spans is continued by the given contents, which gives something for which `post` holds.
-/
def Continues (nested : Operand) (power : BindingPower) (expr : Expr)
    (contents rest : List (TokenKind × String)) (post : Expr → Prop)
    : Prop :=
  ∀ left : Expr, left.bare = expr.bare → ∀ count, contents.length + rest.length ≤ count →
    Reads (Parse.continueWith nested power left count) contents rest post

theorem Continues.stops {power : BindingPower} {expr : Expr} (closes : Closes rest)
    : Continues nested power expr [] rest (fun read => read.bare = expr.bare) := by
  intro left same count _
  obtain ⟨shown, later, rfl, among⟩ := closes
  have table : ∀ kind ∈ closers, kind.continuationPower? = none := by
    decide
  cases count with
  | zero => exact pure same
  | succ count =>
      refine kind rfl ?_
      rw [table _ among]
      exact pure same

/-- A continuation by an operator that binds tightly enough may itself be continued. -/
theorem Continues.more {power next : BindingPower} {expr longer : Expr}
    {shown : TokenKind × String} {taken contents : List (TokenKind × String)} {post : Expr → Prop}
    (binds : shown.1.continuationPower? = some next) (tighter : power < next)
    (reads : ∀ left : Expr, left.bare = expr.bare →
      Reads (Parse.continuationWith nested left next) (shown :: taken) (contents ++ rest)
        (fun read => read.bare = longer.bare))
    (continues : Continues nested power longer contents rest post)
    : Continues nested power expr (shown :: taken ++ contents) rest post := by
  intro left same count enough
  rw [List.length_append, List.length_cons] at enough
  obtain ⟨count, rfl⟩ := Nat.exists_eq_add_of_le' (show 1 ≤ count by omega)
  refine kind rfl ?_
  rw [binds]
  dsimp only
  rw [if_pos tighter]
  exact bind (reads left same) fun read same => continues read same count (by omega)

/-- A continuation before a closing mark is the only one. -/
theorem Continues.once {power next : BindingPower} {expr longer : Expr}
    {shown : TokenKind × String} {taken : List (TokenKind × String)}
    (binds : shown.1.continuationPower? = some next) (tighter : power < next) (closes : Closes rest)
    (reads : ∀ left : Expr, left.bare = expr.bare →
      Reads (Parse.continuationWith nested left next) (shown :: taken) rest
        (fun read => read.bare = longer.bare))
    : Continues nested power expr (shown :: taken) rest (fun read => read.bare = longer.bare) := by
  rw [← List.append_nil (shown :: taken)]
  exact Continues.more binds tighter reads (Continues.stops closes)

/-- An operand is read and then continued. -/
theorem exprWith {power : BindingPower} {expr : Expr} {primary contents : List (TokenKind × String)}
    {post : Expr → Prop}
    (reads : Reads (Parse.primaryWith nested) primary (contents ++ rest)
      (fun read => read.bare = expr.bare))
    (continues : Continues nested power expr contents rest post)
    : Reads (Parse.exprWith nested power) (primary ++ contents) rest post := by
  refine bind reads fun left same => get fun stream ahead => ?_
  have length := congrArg List.length ahead
  rw [List.length_map, List.length_append] at length
  exact continues left same _ (Nat.le_of_eq length.symm)

/-- What stands between parentheses is read for itself. -/
theorem grouping {contents : List (TokenKind × String)} {post : Expr → Prop}
    (reads : Reads (nested .lowest) contents (TokenKind.closeParen.mark :: rest) post)
    : Reads (Parse.primaryWith nested)
        (TokenKind.openParen.mark :: (contents ++ [TokenKind.closeParen.mark])) rest post := by
  refine kind rfl ?_
  refine nextThen TokenKind.openParen.mark fun _ _ => bind reads fun read holds => ?_
  exact expectThen TokenKind.closeParen.mark fun _ _ => pure holds

/-- A prefix operator is read with its operand. -/
theorem prefixThen {operator : Token} {operand : Expr} {span : Span}
    {contents : List (TokenKind × String)} (among : operator.kind ∈ TokenKind.prefixOperators)
    (inner : Reads (nested .unary) contents rest (fun read => read.bare = operand.bare))
    : Reads (Parse.primaryWith nested) (operator.content :: contents) rest
        (fun read => read.bare = (Expr.unary operator operand span).bare) := by
  have reads : Reads
      (do
        let operator ← Parse.next
        let operand ← nested .unary
        return Expr.unary operator operand (operator.span.upTo operand.span))
      (operator.content :: contents) rest
      (fun read => read.bare = (Expr.unary operator operand span).bare) := by
    refine nextThen operator.content fun token sameToken => ?_
    refine thenDone inner fun read same => pure ?_
    rw [Expr.bare, Expr.bare, same, Token.bare_eq_of_content sameToken]
  refine kind rfl ?_
  simp only [TokenKind.prefixOperators, List.mem_cons, List.not_mem_nil, or_false] at among
  rcases among with dash | not_ | plus | minus
  · rw [show operator.content.1 = .dash from dash]
    exact reads
  · rw [show operator.content.1 = .not from not_]
    exact reads
  · rw [show operator.content.1 = .plusPlus from plus]
    exact reads
  · rw [show operator.content.1 = .minusMinus from minus]
    exact reads

theorem prefixWith {operator : Token} {operand : Expr} {span : Span}
    (among : operator.kind ∈ TokenKind.prefixOperators)
    (parts : OperandReader spelling nested [operand]) (closes : Closes rest)
    : Reads (Parse.primaryWith nested) (operator.content :: operand.print spelling) rest
        (fun read => read.bare = (Expr.unary operator operand span).bare) :=
  prefixThen among (parts operand (List.mem_singleton_self _) .unary (by decide) rest closes)

/-- The number that a token spells is known by its text. -/
theorem numberLiteralThen {α β : Type} {read? : List Char → Option α} {kind : TokenKind}
    {text : String} {value : α} (number : read? text.toList = some value) {token : Token}
    (same : token.content = (kind, text)) {contents : List (TokenKind × String)} {post : β → Prop}
    {next : α → Parse β} (after : Reads (next value) contents rest post)
    : Reads (Parse.numberLiteral read? token >>= next) contents rest post := by
  rw [Parse.numberLiteral, show token.value = text from congrArg Prod.snd same, number]
  exact pureThen after

/-- Literals are read from their texts. -/
theorem literalWith {expr : Expr} (writable : expr.Writable spelling)
    (literal : expr matches .bool .. | .int .. | .double .. | .string ..)
    : Reads (Parse.primaryWith nested) (expr.print spelling) rest
        (fun read => read.bare = expr.bare) := by
  cases expr with
  | bool value span =>
      cases value
      all_goals
        refine kind rfl ?_
        exact nextThen _ fun _ _ => pure rfl
  | int value span =>
      refine kind rfl ?_
      exact nextThen _ fun token same =>
        numberLiteralThen (Decimal.readInt64?_writeInt64 writable) same (pure rfl)
  | double value span =>
      refine kind rfl ?_
      exact nextThen _ fun token same => numberLiteralThen writable same (pure rfl)
  | string value span =>
      refine kind rfl ?_
      refine nextThen _ fun token same => pure ?_
      rw [Expr.bare, Expr.bare, show token.value = value from congrArg Prod.snd same]
  | _ => exact absurd literal (by simp)

-----------------------------------------------------------------------------------------
-- Expressions
-----------------------------------------------------------------------------------------

/-- (ReadsOperands spelling depth) says that every expression whose spelling is no longer than
`depth` is read at that depth, and then continued.
-/
def ReadsOperands (spelling : Spelling) (depth : Nat) : Prop :=
  ∀ expr : Expr, expr.Writable spelling → (expr.print spelling).length ≤ depth →
    ∀ power, power < .call → ∀ contents rest post, EndsName (contents ++ rest) →
      Continues (exprWithin depth) power expr contents rest post →
      Reads (exprWithin (depth + 1) power) (expr.print spelling ++ contents) rest post

theorem ReadsOperands.operandReader {depth : Nat} (reads : ReadsOperands spelling depth)
    {exprs : List Expr} (writable : ∀ expr ∈ exprs, expr.Writable spelling)
    (short : ∀ expr ∈ exprs, (expr.print spelling).length ≤ depth)
    : OperandReader spelling (exprWithin (depth + 1)) exprs := by
  intro expr among power weak rest closes
  rw [← List.append_nil (expr.print spelling)]
  exact reads expr (writable expr among) (short expr among) power weak [] rest _ closes.endsName
    (Continues.stops closes)

/-- Between parentheses, an expression is read and continued once. -/
theorem ReadsOperands.continuedInParens {depth : Nat} (reads : ReadsOperands spelling depth)
    {expr longer : Expr} (writable : expr.Writable spelling)
    (short : (expr.print spelling).length ≤ depth) {shown : TokenKind × String}
    {taken : List (TokenKind × String)} {power : BindingPower}
    (binds : shown.1.continuationPower? = some power) (above : .lowest < power)
    (ends : EndsName (shown :: taken ++ TokenKind.closeParen.mark :: rest))
    (continuation : ∀ left : Expr, left.bare = expr.bare →
      Reads (Parse.continuationWith (exprWithin depth) left power) (shown :: taken)
        (TokenKind.closeParen.mark :: rest) (fun read => read.bare = longer.bare))
    : Reads (Parse.primaryWith (exprWithin (depth + 1)))
        (TokenKind.openParen.mark :: ((expr.print spelling ++ shown :: taken)
          ++ [TokenKind.closeParen.mark])) rest
        (fun read => read.bare = longer.bare) :=
  grouping (reads expr writable short .lowest (by decide) _ _ _ ends
    (Continues.once binds above ⟨_, _, rfl, by decide⟩ continuation))

/-- An operator after a name is no type argument of a call, with a spelling after it. -/
theorem endsName_operator {operator : Token} {rhs : Expr}
    (among : operator.kind ∈ TokenKind.infixOperators) (writable : rhs.Writable spelling)
    (rest : List (TokenKind × String))
    : EndsName (operator.content :: (rhs.print spelling ++ TokenKind.closeParen.mark :: rest)) := by
  refine ⟨⟨_, _, rfl, fun colons => ?_⟩, ?_⟩
  · exact absurd among (by rw [show operator.kind = _ from List.mem_singleton.mp colons]; decide)
  · rintro value later same
    rw [(List.cons.inj same).1]
    exact genericCallee_fails writable value rest

/-- Other marks continue neither a name nor the name of a callee. -/
theorem endsName_mark {kind : TokenKind} (other : kind ∉ [TokenKind.colonColon, .less])
    (later : List (TokenKind × String))
    : EndsName (kind.mark :: later) := by
  refine ⟨⟨_, _, rfl, fun colons => other ?_⟩, ?_⟩
  · exact (show [TokenKind.colonColon] ⊆ [TokenKind.colonColon, .less] by decide) colons
  · rintro value later' same
    have less : kind = .less := congrArg Prod.fst (List.cons.inj same).1
    exact absurd (by rw [less]; decide) other

/-- The value that a member is given has a shorter spelling than its initialiser. -/
theorem FieldInit.length_value_lt (spelling : Spelling) (field : FieldInit)
    : (field.value.print spelling).length < (field.print spelling).length := by
  obtain ⟨name, value⟩ := field
  rw [FieldInit.print]
  split
  · simp only [FieldInit.value, List.length_cons]
    omega
  · simp only [FieldInit.value, List.length_cons]
    omega

/-- What a spelling consists of is no longer than the spelling. -/
theorem length_item {p : Expr → List (TokenKind × String)} {exprs : List Expr} {expr : Expr}
    (among : expr ∈ exprs)
    : (p expr).length ≤ (Token.separate (exprs.map p)).length :=
  Token.length_le_separate (List.mem_map_of_mem among)

/-- Names are primary expressions. -/
theorem primaryName {names : List Token} {contents : List (TokenKind × String)} {post : Expr → Prop}
    (isName : Token.IsName names) (spelled : ∃ more, contents = Token.printNames names ++ more)
    (reads : Reads (Parse.identifierWith nested) contents rest post)
    : Reads (Parse.primaryWith nested) contents rest post := by
  obtain ⟨some_, words⟩ := isName
  obtain ⟨more, spelled⟩ := spelled
  cases names with
  | nil => exact absurd rfl some_
  | cons name names =>
      have begins : contents ++ rest = name.content :: (names.flatMap
          (fun name => [TokenKind.colonColon.mark, name.content]) ++ more ++ rest) := by
        rw [spelled]
        rfl
      refine kind begins ?_
      rw [show name.content.1 = .identifier from words name List.mem_cons_self]
      exact reads

/-- Expressions are read at any depth, by induction over the depth. -/
theorem readsOperands (depth : Nat) : ReadsOperands spelling depth := by
  induction depth using Nat.strongRecOn with
  | ind depth ih =>
  intro expr writable short power weak contents rest post ends continues
  -- What stands between parentheses or braces is read one level deeper, and its parts two.
  have parts {exprs : List Expr} (writable : ∀ expr ∈ exprs, expr.Writable spelling) {less : Nat}
      (below : less ≤ depth) (short : ∀ expr ∈ exprs, (expr.print spelling).length < less)
      : OperandReader spelling (exprWithin less) exprs := by
    intro expr among
    obtain ⟨less, rfl⟩ := Nat.exists_eq_add_of_le' (Nat.zero_lt_of_lt (short expr among))
    exact (ih less below).operandReader writable (fun expr among => Nat.le_of_lt_succ
      (short expr among)) expr among
  cases expr with
  | bool value span => exact exprWith (literalWith writable rfl) continues
  | int value span => exact exprWith (literalWith writable rfl) continues
  | double value span => exact exprWith (literalWith writable rfl) continues
  | string value span => exact exprWith (literalWith writable rfl) continues
  | id names span =>
      exact exprWith (primaryName writable ⟨[], (List.append_nil _).symm⟩
        (nameWith writable ends)) continues
  | binary operator lhs rhs span =>
      obtain ⟨among, writableLeft, writableRight⟩ := writable
      obtain ⟨next, binds, above, below⟩ := infix_power among
      have print : Expr.print spelling (.binary operator lhs rhs span) =
          TokenKind.openParen.mark :: ((lhs.print spelling
            ++ operator.content :: rhs.print spelling) ++ [TokenKind.closeParen.mark]) := by
        rw [Expr.print, List.append_assoc, List.cons_append]
      rw [print]
      obtain ⟨inner, rfl, lengthLeft, lengthRight⟩ : ∃ inner, depth = inner + 1 ∧
          (lhs.print spelling).length ≤ inner ∧ (rhs.print spelling).length < inner := by
        simp only [print, List.length_cons, List.length_append] at short
        exact ⟨depth - 1, by omega⟩
      have right := parts (List.forall_mem_singleton.mpr writableRight) (Nat.le_succ inner)
        (by simpa using lengthRight)
      exact exprWith ((ih inner (Nat.lt_succ_self inner)).continuedInParens writableLeft lengthLeft
        binds above (endsName_operator among writableRight _) fun left same =>
          binaryWith among below same right ⟨_, _, rfl, by decide⟩) continues
  | unary operator operand span =>
      obtain ⟨among, writableOperand⟩ := writable
      have print : Expr.print spelling (.unary operator operand span) =
          TokenKind.openParen.mark :: ((operator.content :: operand.print spelling)
            ++ [TokenKind.closeParen.mark]) := by
        rw [Expr.print, List.cons_append]
      rw [print]
      obtain ⟨inner, rfl, length⟩ : ∃ inner, depth = inner + 1 ∧
          (operand.print spelling).length < inner := by
        simp only [print, List.length_cons, List.length_append] at short
        exact ⟨depth - 1, by omega⟩
      have part := parts (List.forall_mem_singleton.mpr writableOperand) (Nat.le_succ inner)
        (by simpa using length)
      have closes : Closes (TokenKind.closeParen.mark :: (contents ++ rest)) :=
        ⟨_, _, rfl, by decide⟩
      have stops : Continues (exprWithin inner) .lowest (.unary operator operand span) [] _ _ :=
        Continues.stops closes
      have reads := exprWith (prefixWith among part closes) stops
      rw [List.append_nil] at reads
      exact exprWith (grouping reads) continues
  | ternary condition whenTrue whenFalse span =>
      obtain ⟨writableCondition, writableTrue, writableFalse⟩ := writable
      have print : Expr.print spelling (.ternary condition whenTrue whenFalse span) =
          TokenKind.openParen.mark :: ((condition.print spelling
            ++ TokenKind.question.mark :: (whenTrue.print spelling
              ++ TokenKind.colon.mark :: whenFalse.print spelling))
            ++ [TokenKind.closeParen.mark]) := by
        simp only [Expr.print, List.append_assoc, List.cons_append]
      rw [print]
      obtain ⟨inner, rfl, length, lengthTrue, lengthFalse⟩ : ∃ inner, depth = inner + 1 ∧
          (condition.print spelling).length ≤ inner ∧ (whenTrue.print spelling).length < inner ∧
          (whenFalse.print spelling).length < inner := by
        simp only [print, List.length_cons, List.length_append] at short
        exact ⟨depth - 1, by omega⟩
      have alternatives : OperandReader spelling (exprWithin inner) [whenTrue, whenFalse] := parts
        (by simpa using ⟨writableTrue, writableFalse⟩) (Nat.le_succ inner)
        (by simpa using ⟨lengthTrue, lengthFalse⟩)
      exact exprWith ((ih inner (Nat.lt_succ_self inner)).continuedInParens writableCondition length
        (by rfl) (by decide) (endsName_mark (by decide) _) fun left same =>
          ternaryWith same alternatives ⟨_, _, rfl, by decide⟩) continues
  | member object name span =>
      obtain ⟨word, writableObject⟩ := writable
      have print : Expr.print spelling (.member object name span) =
          TokenKind.openParen.mark :: ((object.print spelling
            ++ [TokenKind.dot.mark, name.content]) ++ [TokenKind.closeParen.mark]) := by
        simp only [Expr.print, List.append_assoc, List.cons_append, List.nil_append]
      rw [print]
      obtain ⟨inner, rfl, length⟩ : ∃ inner, depth = inner + 1 ∧
          (object.print spelling).length ≤ inner := by
        simp only [print, List.length_cons, List.length_append] at short
        exact ⟨depth - 1, by omega⟩
      exact exprWith ((ih inner (Nat.lt_succ_self inner)).continuedInParens writableObject length
        (by rfl) (by decide) (endsName_mark (by decide) _) fun left same =>
          memberWith word same ⟨_, _, rfl, by decide⟩) continues
  | call callee arguments span =>
      obtain ⟨value, isName, writableTypes, writableArguments⟩ := writable
      have given := parts (Expr.allWritable_iff.mp writableArguments) (Nat.le_refl depth)
        fun expr among => by
          have inside := length_item (p := Expr.print spelling) among
          rw [← Expr.printAll_eq_map] at inside
          simp only [Expr.print, List.length_append, List.length_cons] at short
          omega
      obtain ⟨names, generics, isReference, calleeSpan⟩ := callee
      obtain rfl : isReference = false := value
      cases generics with
      | nil =>
          -- The name is read first, and its arguments continue it.
          have print : Expr.print spelling (.call ⟨names, [], false, calleeSpan⟩ arguments span) =
              Token.printNames names ++ TokenKind.openParen.mark
                :: (Token.separate (arguments.map (Expr.print spelling))
                  ++ [TokenKind.closeParen.mark]) := by
            simp [Expr.print, TypeExpr.print, Expr.printAll_eq_map]
          rw [print, List.append_assoc]
          have called : Continues (exprWithin depth) power (.id names span) _ rest post :=
            Continues.more (by rfl) weak (fun left same =>
              callWith same (Expr.allWritable_iff.mp writableArguments) given) continues
          exact exprWith (primaryName isName ⟨[], (List.append_nil _).symm⟩
            (nameWith isName (endsName_mark (by decide) _))) called
      | cons type types =>
          refine exprWith (primaryName isName ?_ (genericCallWith rfl isName
            (List.cons_ne_nil _ _) (TypeExpr.allWritable_iff.mp writableTypes)
            (Expr.allWritable_iff.mp writableArguments) given)) continues
          rw [Expr.print, TypeExpr.print, List.append_assoc, List.append_assoc]
          exact ⟨_, rfl⟩
  | memberCall object name arguments span =>
      obtain ⟨word, writableObject, writableArguments⟩ := writable
      have print : Expr.print spelling (.memberCall object name arguments span) =
          TokenKind.openParen.mark :: ((object.print spelling
            ++ TokenKind.dot.mark :: name.content :: TokenKind.openParen.mark
              :: (Token.separate (arguments.map (Expr.print spelling))
                ++ [TokenKind.closeParen.mark])) ++ [TokenKind.closeParen.mark]) := by
        simp only [Expr.print, List.append_assoc, List.cons_append, List.nil_append,
          Expr.printAll_eq_map]
      rw [print]
      obtain ⟨inner, rfl, length, lengthAll⟩ : ∃ inner, depth = inner + 1 ∧
          (object.print spelling).length ≤ inner ∧
          (Token.separate (arguments.map (Expr.print spelling))).length < inner := by
        simp only [print, List.length_cons, List.length_append] at short
        exact ⟨depth - 1, by omega⟩
      have given := parts (Expr.allWritable_iff.mp writableArguments) (Nat.le_succ inner)
        fun expr among => Nat.lt_of_le_of_lt (length_item among) lengthAll
      exact exprWith ((ih inner (Nat.lt_succ_self inner)).continuedInParens writableObject length
        (by rfl) (by decide) (endsName_mark (by decide) _) fun left same =>
          memberCallWith word same (Expr.allWritable_iff.mp writableArguments)
            given) continues
  | list values span =>
      have writableValues := Expr.allWritable_iff.mp writable
      have given := parts writableValues (Nat.le_refl depth) fun expr among => by
        have inside := length_item (p := Expr.print spelling) among
        rw [← Expr.printAll_eq_map] at inside
        simp only [Expr.print, List.length_append, List.length_cons] at short
        omega
      refine exprWith (kind rfl ?_) continues
      exact listWith writableValues given
  | designated fields span =>
      obtain ⟨some_, all⟩ := writable
      have writableFields := FieldInit.allWritable_iff.mp all
      have given : OperandReader spelling (exprWithin depth) (fields.map FieldInit.value) := by
        refine parts (fun expr among => ?_) (Nat.le_refl depth) fun expr among => ?_
        · obtain ⟨⟨name, value⟩, here, rfl⟩ := List.mem_map.mp among
          exact (writableFields _ here).2
        · obtain ⟨field, here, rfl⟩ := List.mem_map.mp among
          have shorter := FieldInit.length_value_lt spelling field
          have inside := Token.length_le_separate
            (List.mem_map_of_mem (f := FieldInit.print spelling) here)
          rw [← FieldInit.printAll_eq_map] at inside
          simp only [Expr.print, List.length_append, List.length_cons] at short
          omega
      refine exprWith (kind rfl ?_) continues
      exact designatedWith some_ writableFields given

end Parse.Reads

/-- An expression is read back from its spelling: where the tokens ahead spell an expression and a
semicolon, that expression is read, up to spans, and the semicolon is shown next.
-/
theorem Expr.reading_restores_spelling {expr : Expr} (writable : expr.Writable spelling)
    {stream : TokenStream} {rest : List (TokenKind × String)}
    (ahead : stream.ahead.map Token.content =
      expr.print spelling ++ TokenKind.semicolon.mark :: rest)
    : ∃ read after, Parse.expr stream = .ok (read, after) ∧ read.bare = expr.bare ∧
        after.kind = .semicolon ∧ after.ahead = stream.ahead.drop (expr.print spelling).length := by
  have closes : Parse.Reads.Closes (TokenKind.semicolon.mark :: rest) := ⟨_, _, rfl, by decide⟩
  have length : (expr.print spelling).length ≤ stream.ahead.length := by
    rw [← List.length_map (f := Token.content), ahead, List.length_append]
    exact Nat.le_add_right _ _
  have reads := Parse.Reads.readsOperands stream.ahead.length expr writable length .lowest
    (by decide) [] _ _ closes.endsName (Parse.Reads.Continues.stops closes)
  rw [List.append_nil] at reads
  obtain ⟨read, after, given, same, left⟩ := reads stream ahead
  refine ⟨read, after, given, same, ?_, left⟩
  have ahead' : after.ahead.map Token.content = TokenKind.semicolon.mark :: rest := by
    rw [left, List.map_drop, ahead, List.drop_left]
  exact Parse.kind_current ahead'

/-- Witness: a comparison with a sum, whose left-hand side is a name before `<`. -/
theorem Expr.reading_restores_spelling_comparison
    : let token (kind : TokenKind) (text : String) : Token := ⟨kind, text, .unknown⟩
      let name (text : String) : Expr := .id [token .identifier text] .unknown
      let sum : Expr := .binary (token .plus "+") (name "b") (.int 1 .unknown) .unknown
      let stream : TokenStream := .ofTokens [token .openParen "(", token .identifier "a",
        token .less "<", token .openParen "(", token .identifier "b", token .plus "+",
        token .integer "1", token .closeParen ")", token .closeParen ")", token .semicolon ";"] ""
      ∃ read after, Parse.expr stream = .ok (read, after) ∧
        read.bare = (Expr.binary (token .less "<") (name "a") sum .unknown).bare ∧
        after.kind = .semicolon ∧ after.ahead = [token .semicolon ";"] := by
  intro token name sum stream
  have isName (text : String) : Token.IsName [token .identifier text] :=
    ⟨List.cons_ne_nil _ _, by simp [token]⟩
  have writable : (Expr.binary (token .less "<") (name "a") sum .unknown).Writable
      ⟨fun _ => "", fun _ => true⟩ :=
    ⟨by decide, isName "a", by decide, isName "b", show 0 ≤ (1 : Int64).toInt by decide⟩
  exact Expr.reading_restores_spelling writable (by rfl : _ = _ ++ TokenKind.semicolon.mark :: [])

end BuildScript
