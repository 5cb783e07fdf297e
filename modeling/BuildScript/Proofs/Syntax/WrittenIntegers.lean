import BuildScript.Proofs.Component.Grammar
import BuildScript.Proofs.Syntax.ExprReading
import BuildScript.Proofs.Syntax.Places
import BuildScript.Proofs.Syntax.ScriptDescent
import BuildScript.Proofs.Syntax.TypeSpelling

/-! Integers in scripts. An integer is written as a number, after a minus sign if it is negative.
Such a text is scanned as one or two tokens and read as a literal, or as the negation of one. The
least integer has no opposite, and what stands after its minus sign is no literal.
-/

namespace BuildScript

open Text

-----------------------------------------------------------------------------------------
-- Texts of integers
-----------------------------------------------------------------------------------------

/-- What begins a word is no digit. -/
theorem digit_of_wordStart {c : Char} (start : isWordStart c = true) : c.isDigit = false := by
  have code : c.val.toNat = c.toNat := rfl
  rw [Bool.eq_false_iff]
  intro digit
  delta isWordStart Char.isAlpha Char.isUpper Char.isLower at start
  delta Char.isDigit at digit
  simp only [Bool.or_eq_true, Bool.and_eq_true, decide_eq_true_eq, ge_iff_le, beq_iff_eq,
    UInt32.le_iff_toNat_le, Char.ext_iff, ← UInt32.toNat_inj, code, UInt32.reduceToNat,
    Char.reduceVal] at start digit
  omega

namespace Decimal

/-- Every integer but the least has an opposite. -/
theorem toInt_neg {value : Int64} (other : value ≠ Int64.minValue)
    : (-value).toInt = -value.toInt := by
  have least := Int64.minValue_le_toInt value
  have most := Int64.toInt_le value
  have isMin : Int64.minValue.toInt = -9223372036854775808 := by decide
  have isMax : Int64.maxValue.toInt = 9223372036854775807 := by decide
  have apart : value.toInt ≠ Int64.minValue.toInt := fun same => other (Int64.toInt_inj.mp same)
  rw [Int64.toInt_neg, Int.bmod_eq_of_le (by omega) (by omega)]

/-- The text of a negative integer is a minus sign and the text of its opposite. -/
theorem writeInt64_cases {value : Int64} (other : value ≠ Int64.minValue)
    : 0 ≤ value.toInt ∨ ∃ opposite : Int64, 0 ≤ opposite.toInt ∧ value = -opposite
        ∧ (writeInt64 value).toList = '-' :: (writeInt64 opposite).toList := by
  rcases same : value.toInt with n | n
  · exact .inl (Int.natCast_nonneg n)
  have opposite : (-value).toInt = ((n + 1 : Nat) : Int) := by
    rw [toInt_neg other, same]
    rfl
  refine .inr ⟨-value, ?_, Int64.neg_neg.symm, ?_⟩
  · rw [opposite]
    exact Int.natCast_nonneg _
  · rw [writeInt64, writeInt64, same, opposite]
    show ("-" ++ (n + 1).repr).toList = _
    rw [String.toList_append]
    rfl

theorem isNumeral_writeInt64 {value : Int64} (natural : 0 ≤ value.toInt)
    : IsNumeral (writeInt64 value).toList := by
  obtain ⟨n, same⟩ := Int.eq_ofNat_of_zero_le natural
  have text : (writeInt64 value).toList = Nat.toDigits 10 n := by
    rw [writeInt64, same]
    exact Nat.toList_repr
  rw [text]
  exact ⟨Nat.toDigits_ne_nil, fun c => isDigit_toDigits⟩

end Decimal

-----------------------------------------------------------------------------------------
-- Scripts as texts
-----------------------------------------------------------------------------------------

namespace Token

variable {rest : List Char} {contents : List (TokenKind × String)}

/-- A piece of text whose token is known where it stands. -/
theorem Spells.token (c : Char) (part : List Char) {kind : TokenKind} {value : String}
    (solid : isBlank c = false)
    (scanned : Lexeme.scan c (part ++ rest) = .ok (.token kind value part.length))
    (after : Spells rest contents)
    : Spells (c :: (part ++ rest)) ((kind, value) :: contents) := by
  refine Spells.piece solid scanned ?_
  show Spells ((part ++ rest).drop part.length) contents
  rw [List.drop_left]
  exact after

/-- Digits are scanned as one number up to what is neither a digit nor a point. -/
theorem Spells.numeral {digits : List Char} (isNumeral : Decimal.IsNumeral digits)
    (ends : ∀ d ∈ rest.head?, d.isDigit = false ∧ d ≠ '.') (after : Spells rest contents)
    : Spells (digits ++ rest) ((.integer, String.ofList digits) :: contents) := by
  obtain ⟨some_, all⟩ := isNumeral
  obtain ⟨c, part, rfl⟩ := List.exists_cons_of_ne_nil some_
  have digit : c.isDigit = true := all c List.mem_cons_self
  have noWord : isWordStart c = false := by
    cases start : isWordStart c with
    | false => rfl
    | true => exact absurd ((digit_of_wordStart start).symm.trans digit) Bool.false_ne_true
  have solid : isBlank c = false := by
    cases blank : isBlank c with
    | false => rfl
    | true => exact absurd ((digit_of_blank blank).symm.trans digit) Bool.false_ne_true
  have noFraction : Lexeme.fraction rest = [] := by
    unfold Lexeme.fraction
    split
    · next d more => exact absurd rfl (ends '.' rfl).2
    · rfl
  refine Spells.token c part solid ?_ after
  rw [Lexeme.scan, noWord, if_neg Bool.false_ne_true, if_pos digit,
    Lexeme.number_append (fun d among => all d (List.mem_cons_of_mem _ among))
      (fun d first => (ends d first).1), noFraction, List.append_nil]
  rfl

/-- What stands in a script before the value that it returns. -/
def opening : List (TokenKind × String) :=
  [(.identifier, "int"), (.identifier, "main"), TokenKind.openParen.mark,
    TokenKind.closeParen.mark, TokenKind.openCurly.mark, TokenKind.returnKeyword.mark]

/-- What stands in a script after the value that it returns. -/
def closing : List (TokenKind × String) := [TokenKind.semicolon.mark, TokenKind.closeCurly.mark]

theorem spells_opening (after : Spells rest contents)
    : Spells ("int main() \x7b return ".toList ++ rest) (opening ++ contents) := by
  refine Spells.token 'i' ['n', 't'] rfl rfl (.blank rfl ?_)
  refine Spells.token 'm' ['a', 'i', 'n'] rfl rfl ?_
  refine Spells.token '(' [] rfl rfl (Spells.token ')' [] rfl rfl (.blank rfl ?_))
  refine Spells.token '\x7b' [] rfl rfl (.blank rfl ?_)
  exact Spells.token 'r' ['e', 't', 'u', 'r', 'n'] rfl rfl (.blank rfl after)

theorem closing_ends : ∀ d ∈ "; \x7d".toList.head?, d.isDigit = false ∧ d ≠ '.' := by
  have first : "; \x7d".toList.head? = some ';' := by decide
  intro d among
  rw [first] at among
  cases among
  exact ⟨by decide, by decide⟩

theorem spells_closing : Spells "; \x7d".toList (closing ++ [endContent]) :=
  Spells.token ';' [] rfl rfl (.blank rfl (Spells.token '\x7d' [] rfl rfl .nil))

end Token

-----------------------------------------------------------------------------------------
-- Integers as expressions
-----------------------------------------------------------------------------------------

/-- (Writes value expr) says that an expression is the literal of an integer, or the negation of
the literal of its opposite.
-/
inductive Expr.Writes : Int64 → Expr → Prop
  | plain {value : Int64} {span : Span} : Writes value (.int value span)
  | negated {value : Int64} {operator : Token} {span whole : Span}
    (isMinus : operator.content = TokenKind.dash.mark)
    : Writes (-value) (.unary operator (.int value span) whole)

namespace Expr.Writes

variable {value : Int64} {expr : Expr}

theorem of_plain (same : expr.bare = (Expr.int value .unknown).bare) : Writes value expr := by
  cases expr with
  | int other span =>
      rw [Expr.bare, Expr.bare, Expr.int.injEq] at same
      rw [same.1]
      exact .plain
  | _ => cases same

/-- The token of a minus sign. -/
def minus : Token := ⟨.dash, "-", .unknown⟩

theorem of_negated
    (same : expr.bare = (Expr.unary minus (.int value .unknown) .unknown).bare)
    : Writes (-value) expr := by
  cases expr with
  | unary operator operand span =>
      rw [Expr.bare, Expr.bare, Expr.unary.injEq] at same
      obtain ⟨operators, operands, -⟩ := same
      cases operand with
      | int other span =>
          rw [Expr.bare, Expr.bare, Expr.int.injEq] at operands
          rw [← operands.1]
          exact .negated (congrArg Token.content operators)
      | _ => cases operands
  | _ => cases same

end Expr.Writes

-----------------------------------------------------------------------------------------
-- Scripts that return a value
-----------------------------------------------------------------------------------------

/-- (Returns post statement) says that a statement returns a value for which `post` holds. -/
inductive Stmt.Returns (post : Expr → Prop) : Stmt → Prop
  | mk {value : Expr} {span : Span} (holds : post value)
    : Returns post (.returnValue (some value) span)

/-- (Returns post block) says that a block does nothing else. -/
inductive Block.Returns (post : Expr → Prop) : Block → Prop
  | mk {stmt : Stmt} {span : Span} (returns : stmt.Returns post) : Returns post (.mk [stmt] span)

/-- (IsMain post statement) says that a statement is the function called `main`, which returns such
a value as an integer.
-/
inductive Stmt.IsMain (post : Expr → Prop) : Stmt → Prop
  | mk {type name : Token} {typeSpan span : Span} {body : Block}
    (isInt : type.content = (.identifier, "int")) (isMain : name.content = (.identifier, "main"))
    (returns : body.Returns post)
    : IsMain post (.function (.mk ⟨[type], [], false, typeSpan⟩ name [] body false span))

/-- (Returns post script) says that a script consists of such a function. -/
inductive ScriptUnit.Returns (post : Expr → Prop) : ScriptUnit → Prop
  | mk {main : Stmt} {span : Span} (isMain : main.IsMain post) : Returns post ⟨[main], span⟩

/-- There are more levels than there are tokens of a part that stands ahead. -/
theorem TokenStream.length_lt_depth {stream : TokenStream}
    {part rest : List (TokenKind × String)}
    (ahead : stream.ahead.map Token.content = part ++ rest)
    : part.length < stream.depth := by
  have length := congrArg List.length ahead
  rw [List.length_map, List.length_append] at length
  rw [depth]
  omega

namespace Parse.Reads

open TokenStream (length_lt_depth)

variable {rest contents : List (TokenKind × String)} {post : Expr → Prop}

/-- A value of a script, up to the semicolon: it begins with no semicolon, and its tokens are read
as an expression, wherever there are enough of them.
-/
structure IsValue (contents : List (TokenKind × String)) (post : Expr → Prop) : Prop where
  begins : ∃ shown later, contents = shown :: later ∧ shown.1 ≠ .semicolon
  reads : ∀ depth rest, 2 ≤ depth →
    Reads (Parse.exprWithin depth .lowest) contents (TokenKind.semicolon.mark :: rest) post

theorem digits_primary {nested : Operand} {value : Int64} (natural : 0 ≤ value.toInt)
    : Reads (Parse.primaryWith nested) [(.integer, Decimal.writeInt64 value)] rest
        (fun read => read.bare = (Expr.int value .unknown).bare) := by
  refine kind rfl ?_
  exact nextThen _ fun token same =>
    numberLiteralThen (Decimal.readInt64?_writeInt64 natural) same (pure rfl)

theorem digits_expr {nested : Operand} {value : Int64} (natural : 0 ≤ value.toInt)
    (closes : Closes rest) (power : BindingPower)
    : Reads (Parse.exprWith nested power) [(.integer, Decimal.writeInt64 value)] rest
        (fun read => read.bare = (Expr.int value .unknown).bare) :=
  exprWith (digits_primary natural) (.stops closes)

theorem negated_expr {value : Int64} (natural : 0 ≤ value.toInt) (closes : Closes rest)
    (depth : Nat) (power : BindingPower)
    : Reads (Parse.exprWith (Parse.exprWithin (depth + 1)) power)
        [TokenKind.dash.mark, (.integer, Decimal.writeInt64 value)] rest
        (fun read =>
          read.bare = (Expr.unary Expr.Writes.minus (.int value .unknown) .unknown).bare) := by
  have primary : Reads (Parse.primaryWith (Parse.exprWithin (depth + 1)))
      [TokenKind.dash.mark, (.integer, Decimal.writeInt64 value)] ([] ++ rest) (fun read =>
        read.bare = (Expr.unary Expr.Writes.minus (.int value .unknown) .unknown).bare) :=
    prefixThen (show Expr.Writes.minus.kind ∈ TokenKind.prefixOperators by decide)
      (digits_expr natural closes _)
  exact exprWith primary (.stops closes)

theorem returnStmt (isValue : IsValue contents post)
    : Reads Parse.returnStmt
        (TokenKind.returnKeyword.mark :: (contents ++ [TokenKind.semicolon.mark])) rest
        (Stmt.Returns post) := by
  obtain ⟨shown, later, rfl, other⟩ := isValue.begins
  refine nextThen TokenKind.returnKeyword.mark fun keyword _ => kind rfl ?_
  rw [if_neg (by simpa using other)]
  have value : Reads (some <$> Parse.expr) (shown :: later) (TokenKind.semicolon.mark :: rest)
      (fun value? => ∃ value, value? = some value ∧ post value) := by
    refine map (get fun stream ahead => isValue.reads _ _ ?_) fun value holds => ⟨value, rfl, holds⟩
    exact Nat.lt_of_le_of_lt (Nat.succ_pos later.length) (length_lt_depth ahead)
  refine bind value ?_
  rintro _ ⟨value, rfl, holds⟩
  exact expectThen TokenKind.semicolon.mark fun _ _ => spanFromThen fun span => pure (.mk holds)

theorem stmtWith_return {nested : Parse Stmt} (isValue : IsValue contents post)
    : Reads (Parse.stmtWith nested)
        (TokenKind.returnKeyword.mark :: (contents ++ [TokenKind.semicolon.mark])) rest
        (Stmt.Returns post) := by
  refine kind (show _ = TokenKind.returnKeyword.mark :: _ from rfl) ?_
  exact returnStmt isValue

/-- A block of one statement, which does not end where it begins. -/
theorem blockWith {nested : Parse Stmt} {shown : TokenKind × String}
    {later : List (TokenKind × String)} (inside : shown.1 ≠ .closeCurly ∧ shown.1 ≠ .endOfFile)
    (inner : Reads nested (shown :: later) (TokenKind.closeCurly.mark :: rest) (Stmt.Returns post))
    : Reads (Parse.blockWith nested)
        (TokenKind.openCurly.mark :: (shown :: later ++ [TokenKind.closeCurly.mark])) rest
        (Block.Returns post) := by
  have braced : Reads (Parse.braced nested)
      (TokenKind.openCurly.mark :: (shown :: later ++ [TokenKind.closeCurly.mark])) rest
      (fun stmts => ∃ stmt, stmts = [stmt] ∧ stmt.Returns post) := by
    refine expectThen TokenKind.openCurly.mark fun _ _ => get fun stream ahead => ?_
    obtain ⟨count, deep⟩ : ∃ count, stream.depth = count + 2 :=
      Nat.exists_eq_add_of_le' (Nat.lt_of_le_of_lt (Nat.succ_pos _) (length_lt_depth ahead))
    have closing : Reads (Parse.untilBrace nested (count + 1)) [TokenKind.closeCurly.mark] rest
        (fun stmts => stmts = []) := by
      refine kind (show _ = TokenKind.closeCurly.mark :: _ from rfl) ?_
      exact nextThen TokenKind.closeCurly.mark fun _ _ => pure rfl
    rw [deep, Parse.untilBrace]
    refine kind rfl ?_
    split
    · next same => exact absurd same inside.1
    · next same => exact absurd same inside.2
    · refine bind inner fun stmt returns => thenDone closing ?_
      rintro _ rfl
      exact pure ⟨stmt, rfl, returns⟩
  refine get fun stream _ => thenDone braced ?_
  rintro _ ⟨stmt, rfl, returns⟩
  exact spanFromThen fun span => pure (.mk returns)

theorem functionWith {nested : Parse Stmt} {type : TypeExpr} {name : Token}
    (inner : Reads (Parse.blockWith nested) contents rest (Block.Returns post))
    : Reads (Parse.functionWith nested type name)
        (TokenKind.openParen.mark :: TokenKind.closeParen.mark :: contents) rest
        (fun decl => ∃ body span, decl = .mk type name [] body false span ∧ body.Returns post) := by
  refine expectThen TokenKind.openParen.mark fun _ _ => kind rfl ?_
  refine pureThen (expectThen TokenKind.closeParen.mark fun _ _ => thenDone inner ?_)
  exact fun body returns => spanFromThen fun span => pure ⟨body, span, rfl, returns⟩

/-- A word before something that continues no type is a type. -/
theorem plainType {word : String} (closed : Begins typeMarks rest)
    : Reads Parse.typeExpr [(.identifier, word)] rest
        (fun type => ∃ name span,
          type = ⟨[name], [], false, span⟩ ∧ name.content = (.identifier, word)) := by
  let written : TypeExpr := ⟨[⟨.identifier, word, .unknown⟩], [], false, .unknown⟩
  have writable : written.Writable := by
    refine .inr ⟨⟨List.cons_ne_nil _ _, fun name among => ?_⟩, trivial⟩
    rw [List.mem_singleton.mp among]
  refine get fun stream ahead => ?_
  refine weaken (Reads.typeExprWithin writable (length_lt_depth ahead) closed) fun read same => ?_
  obtain ⟨names, generics, isReference, span⟩ := read
  rw [TypeExpr.bare, TypeExpr.bare, TypeExpr.mk.injEq] at same
  obtain ⟨sameNames, sameGenerics, plain, -⟩ := same
  obtain ⟨name, rfl, sameName⟩ := List.map_eq_singleton_iff.mp sameNames
  cases generics with
  | cons => cases sameGenerics
  | nil => exact ⟨name, span, by rw [plain], congrArg Token.content sameName⟩

theorem declarator {word name : String}
    : Reads Parse.declarator [(.identifier, word), (.identifier, name)] rest
        (fun found => ∃ type span, found.1 = ⟨[type], [], false, span⟩
          ∧ type.content = (.identifier, word) ∧ found.2.content = (.identifier, name)) := by
  have closed : Begins typeMarks ([(TokenKind.identifier, name)] ++ rest) :=
    ⟨_, _, rfl, show TokenKind.identifier ∉ typeMarks by decide⟩
  refine bind (plainType closed) ?_
  rintro _ ⟨type, span, rfl, isType⟩
  exact expectThen (.identifier, name) fun token isName => pure ⟨type, span, rfl, isType, isName⟩

theorem declarationWith? {nested : Parse Stmt}
    (inner : Reads (Parse.blockWith nested) contents rest (Block.Returns post))
    : Reads (Parse.declarationWith? nested)
        ((.identifier, "int") :: (.identifier, "main") :: TokenKind.openParen.mark
          :: TokenKind.closeParen.mark :: contents) rest
        (fun found? => ∃ stmt, found? = some stmt ∧ stmt.IsMain post) := by
  refine kind (show _ = (TokenKind.identifier, "int") :: _ from rfl) ?_
  refine attemptThen (show Reads Parse.declarator
    [(TokenKind.identifier, "int"), (TokenKind.identifier, "main")] _ _ from declarator) ?_
  rintro ⟨_, token⟩ ⟨type, span, rfl, isInt, isMain⟩
  refine kind (show _ = TokenKind.openParen.mark :: _ from rfl) ?_
  refine thenDone (functionWith inner) ?_
  rintro _ ⟨body, whole, rfl, returns⟩
  exact pure ⟨_, rfl, .mk isInt isMain returns⟩

theorem stmtWith_main {nested : Parse Stmt}
    (inner : Reads (Parse.blockWith nested) contents rest (Block.Returns post))
    : Reads (Parse.stmtWith nested)
        ((.identifier, "int") :: (.identifier, "main") :: TokenKind.openParen.mark
          :: TokenKind.closeParen.mark :: contents) rest (Stmt.IsMain post) := by
  refine kind (show _ = (TokenKind.identifier, "int") :: _ from rfl) ?_
  refine thenDone (declarationWith? inner) ?_
  rintro _ ⟨stmt, rfl, isMain⟩
  exact pure isMain

/-- What a script that returns a value consists of is read as its only function. -/
theorem stmt_main (isValue : IsValue contents post)
    : Reads Parse.stmt (Token.opening ++ (contents ++ Token.closing)) rest (Stmt.IsMain post) := by
  refine get fun stream ahead => ?_
  obtain ⟨count, deep⟩ : ∃ count, stream.depth = count + 2 :=
    Nat.exists_eq_add_of_le' (Nat.lt_of_le_of_lt (Nat.succ_pos _) (length_lt_depth ahead))
  have layout : Token.opening ++ (contents ++ Token.closing) =
      (.identifier, "int") :: (.identifier, "main") :: TokenKind.openParen.mark
        :: TokenKind.closeParen.mark :: TokenKind.openCurly.mark
        :: (TokenKind.returnKeyword.mark :: (contents ++ [TokenKind.semicolon.mark])
          ++ [TokenKind.closeCurly.mark]) := by
    rw [List.cons_append, List.append_assoc]
    rfl
  rw [deep, layout]
  exact stmtWith_main (blockWith (by decide) (stmtWith_return isValue))

end Parse.Reads

/-- A script that returns a value is read up to its end. -/
theorem Parse.scriptUnit_returns {contents : List (TokenKind × String)} {post : Expr → Prop}
    (isValue : Reads.IsValue contents post) {stream : TokenStream}
    (ended : stream.last.kind = .endOfFile)
    (ahead : stream.ahead.map Token.content = Token.opening ++ (contents ++ Token.closing))
    : ∃ scriptUnit after,
        Parse.scriptUnit stream = .ok (scriptUnit, after) ∧ scriptUnit.Returns post := by
  obtain ⟨main, after, given, isMain, left⟩ :=
    Reads.stmt_main isValue stream (by rw [ahead, List.append_nil])
  obtain ⟨-, moves⟩ := Concurs.stmt stream ended (Nat.le_refl _)
  obtain ⟨used, passes, -⟩ := moves _ _ given
  have nothing : after.ahead = [] := by
    rw [left, List.drop_eq_nil_of_le]
    rw [← ahead, List.length_map]
  have atEnd : after.kind = .endOfFile := by
    rw [TokenStream.kind, TokenStream.current, TokenStream.peek, nothing, passes.last]
    exact ended
  obtain ⟨count, deep⟩ : ∃ count, stream.depth = count + 2 :=
    Nat.exists_eq_add_of_le'
      (Nat.lt_of_le_of_lt (Nat.succ_pos _) (TokenStream.length_lt_depth ahead))
  have more : Parse.untilEnd (count + 1) after = .ok ([], after) := by
    rw [Parse.untilEnd, run_bind, run_kind]
    dsimp only
    rw [atEnd]
    rfl
  have inside : stream.kind = .identifier := kind_current ahead
  have all : Parse.untilEnd (count + 2) stream = .ok ([main], after) := by
    rw [Parse.untilEnd, run_bind, run_kind]
    dsimp only
    rw [inside, if_neg (by decide), run_bind, given]
    dsimp only
    rw [run_bind, more]
    rfl
  have whole : Parse.scriptUnit stream =
      .ok (⟨[main], ⟨stream.file, 0, after.previousEnd⟩⟩, after) := by
    rw [Parse.scriptUnit, run_bind, run_get]
    dsimp only
    rw [deep, run_bind, all]
    rfl
  exact ⟨_, after, whole, .mk isMain⟩

-----------------------------------------------------------------------------------------
-- Scripts that return an integer
-----------------------------------------------------------------------------------------

/-- The script whose `main` returns an integer that is written as its text. -/
def ScriptUnit.returning (value : Int64) : String :=
  "int main() \x7b return " ++ Decimal.writeInt64 value ++ "; \x7d"

/-- The text of an integer is scanned to what is read as the integer. -/
theorem Decimal.written {value : Int64} (other : value ≠ Int64.minValue)
    : ∃ contents, Parse.Reads.IsValue contents (Expr.Writes value)
        ∧ ∀ {rest : List Char} {more : List (TokenKind × String)},
          (∀ d ∈ rest.head?, d.isDigit = false ∧ d ≠ '.') → Token.Spells rest more →
          Token.Spells ((writeInt64 value).toList ++ rest) (contents ++ more) := by
  have closes (rest : List (TokenKind × String))
      : Parse.Reads.Closes (TokenKind.semicolon.mark :: rest) :=
    ⟨_, _, rfl, by decide⟩
  rcases writeInt64_cases other with natural | ⟨opposite, natural, rfl, text⟩
  · refine ⟨[(.integer, writeInt64 value)], ⟨⟨_, _, rfl, ?_⟩, ?_⟩, ?_⟩
    · show TokenKind.integer ≠ .semicolon
      decide
    · intro depth rest deep
      obtain ⟨depth, rfl⟩ := Nat.exists_eq_add_of_le' deep
      exact (Parse.Reads.digits_expr natural (closes rest) _).weaken fun _ => .of_plain
    · intro rest more ends after
      have spells := Token.Spells.numeral (isNumeral_writeInt64 natural) ends after
      rwa [String.ofList_toList] at spells
  · refine ⟨[TokenKind.dash.mark, (.integer, writeInt64 opposite)], ⟨?_, ?_⟩, ?_⟩
    · exact ⟨_, _, rfl, by decide⟩
    · intro depth rest deep
      obtain ⟨depth, rfl⟩ := Nat.exists_eq_add_of_le' deep
      exact (Parse.Reads.negated_expr natural (closes rest) _ _).weaken fun _ => .of_negated
    · intro rest more ends after
      have isNumeral := isNumeral_writeInt64 natural
      have spells := Token.Spells.numeral isNumeral ends after
      rw [String.ofList_toList] at spells
      rw [text]
      show Token.Spells ('-' :: ([] ++ ((writeInt64 opposite).toList ++ rest))) _
      refine Token.Spells.mark Token.isMark_dash (fun d first => ?_) spells
      obtain ⟨c, part, digits⟩ := List.exists_cons_of_ne_nil isNumeral.1
      rw [digits] at first
      cases first
      have digit : d.isDigit = true := isNumeral.2 d (by rw [digits]; exact List.mem_cons_self)
      intro among
      rcases List.mem_cons.mp among with rfl | among
      · exact absurd digit (by decide)
      · rw [List.mem_singleton.mp among] at digit
        exact absurd digit (by decide)

namespace ScriptUnit

/-- A script that returns an integer by its text is read as one that returns the integer. -/
theorem ofSource_returning {value : Int64} (other : value ≠ Int64.minValue) (file : String)
    : ∃ scriptUnit,
        ofSource (returning value) file = .ok scriptUnit
          ∧ scriptUnit.Returns (Expr.Writes value) := by
  obtain ⟨contents, isValue, spells⟩ := Decimal.written other
  have spelled : Token.Spells (returning value).toList
      (Token.opening ++ (contents ++ (Token.closing ++ [Token.endContent]))) := by
    have parts (before text after : String)
        : (before ++ text ++ after).toList = before.toList ++ (text.toList ++ after.toList) := by
      rw [String.toList_append, String.toList_append, List.append_assoc]
    have later := spells Token.closing_ends Token.spells_closing
    unfold returning
    rw [parts]
    exact Token.spells_opening later
  obtain ⟨tokens, scanned, same⟩ := Token.scanFrom_of_spells spelled file 0
  rw [← List.append_assoc contents, ← List.append_assoc] at same
  obtain ⟨inner, ending, rfl, ahead, ends⟩ := List.map_eq_append_iff.mp same
  obtain ⟨last, rfl, isLast⟩ := List.map_eq_singleton_iff.mp ends
  have ended : last.kind = .endOfFile := congrArg Prod.fst isLast
  have atEnd : (⟨inner, last, file, 0⟩ : TokenStream).last.kind = .endOfFile := ended
  obtain ⟨scriptUnit, after, read, returns⟩ := Parse.scriptUnit_returns isValue atEnd ahead
  have tokens : ofTokens (inner ++ [last]) file = .ok scriptUnit := by
    simp only [ofTokens, Parse.runOn, StateT.run, TokenStream.ofTokens_concat inner ended, read]
  refine ⟨scriptUnit, ?_, returns⟩
  rw [ofSource, Token.scan, scanned]
  exact tokens

/-- What stands in the script that returns the least integer. -/
def leastContents : List (TokenKind × String) :=
  Token.opening ++ (TokenKind.dash.mark :: (.integer, "9223372036854775808")
    :: (Token.closing ++ [Token.endContent]))

theorem spells_least : Token.Spells (returning Int64.minValue).toList leastContents := by
  have isNumeral : Decimal.IsNumeral "9223372036854775808".toList :=
    ⟨by decide, List.all_eq_true.mp (by decide)⟩
  have text : (returning Int64.minValue).toList = "int main() \x7b return ".toList
      ++ '-' :: ([] ++ ("9223372036854775808".toList ++ "; \x7d".toList)) := by
    decide
  have first : ("9223372036854775808".toList ++ "; \x7d".toList).head? = some '9' := by decide
  have apart : ∀ d ∈ ("9223372036854775808".toList ++ "; \x7d".toList).head?, d ∉ ['-', '='] := by
    intro d among
    rw [first] at among
    cases among
    decide
  have digits := Token.Spells.numeral isNumeral Token.closing_ends Token.spells_closing
  rw [text]
  exact Token.spells_opening (Token.Spells.mark Token.isMark_dash apart digits)

/-- Tokens of these contents. -/
def leastTokens : List Token :=
  leastContents.map fun content => ⟨content.1, content.2, .unknown⟩

theorem ofTokens_least
    : ofTokens leastTokens "" = .error ⟨.number "9223372036854775808", Span.unknown.position⟩ := by
  rfl

/-- The script that returns the least integer is refused where its digits stand, since these are no
literal without their sign.
-/
theorem ofSource_least (file : String)
    : ∃ position, ofSource (returning Int64.minValue) file =
        .error ⟨.number "9223372036854775808", position⟩ := by
  obtain ⟨tokens, scanned, same⟩ := Token.scanFrom_of_spells spells_least file 0
  have alike : EqualUpToPlaces (ofTokens tokens file) (ofTokens leastTokens "") := by
    refine ofTokens_of_contents ?_ file ""
    rw [Token.contents, same]
    decide +kernel
  rw [ofTokens_least] at alike
  rw [ofSource, Token.scan, scanned]
  show ∃ position, ofTokens tokens file = _
  cases outcome : ofTokens tokens file with
  | ok scriptUnit =>
      rw [outcome] at alike
      exact False.elim alike
  | error error =>
      rw [outcome] at alike
      obtain ⟨fault, position⟩ := error
      obtain rfl : fault = _ := alike
      exact ⟨position, rfl⟩

end ScriptUnit

end BuildScript
