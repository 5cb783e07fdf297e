import BuildScript.Proofs.Syntax.TypeReading
import BuildScript.Syntax.Parser.Expr
import Mathlib.Data.List.Basic

/-! The parts of expressions that begin with their own mark are read back from their spellings:
names, calls with type arguments, arguments and braces. A name before `<` is tried as the callee of
a constructor with type arguments, which fails on every spelling of a comparison.
-/

namespace BuildScript

-----------------------------------------------------------------------------------------
-- Literals
-----------------------------------------------------------------------------------------

namespace Decimal

theorem readDigitsFrom?_eq {digits : List Char} (all : ∀ c ∈ digits, c.isDigit) (seen : Nat)
    : readDigitsFrom? seen digits = some (Nat.ofDigitChars 10 digits seen) := by
  induction digits generalizing seen with
  | nil => rfl
  | cons c digits ih =>
      rw [readDigitsFrom?, if_pos (all c List.mem_cons_self),
        ih fun d member => all d (List.mem_cons_of_mem c member)]
      rfl

theorem isDigit_toDigits {n : Nat} {c : Char} (member : c ∈ Nat.toDigits 10 n) : c.isDigit :=
  Nat.isDigit_of_mem_toDigits (by decide) (by decide) member

/-- The digits of a number are read as that number. -/
theorem readNat?_toDigits (n : Nat) : readNat? (Nat.toDigits 10 n) = some n := by
  have value := readDigitsFrom?_eq (fun c => isDigit_toDigits (n := n)) 0
  rw [Nat.ofDigitChars_toDigits (by decide) (by decide)] at value
  rw [← value]
  cases digits : Nat.toDigits 10 n with
  | nil => exact absurd digits Nat.toDigits_ne_nil
  | cons c rest => rfl

/-- An integer that is not negative is read from its digits. -/
theorem readInt64?_writeInt64 {value : Int64} (natural : 0 ≤ value.toInt)
    : readInt64? (writeInt64 value).toList = some value := by
  obtain ⟨n, same⟩ := Int.eq_ofNat_of_zero_le natural
  have text : (writeInt64 value).toList = Nat.toDigits 10 n := by
    rw [writeInt64, same]
    exact Nat.toList_repr
  have unsigned : readInt64? (Nat.toDigits 10 n) =
      (readNat? (Nat.toDigits 10 n)).bind fun n => toInt64? n := by
    unfold readInt64?
    split
    · next digits =>
        have digit : '-'.isDigit := isDigit_toDigits (digits ▸ List.mem_cons_self)
        exact nomatch digit
    · next digits =>
        have digit : '+'.isDigit := isDigit_toDigits (digits ▸ List.mem_cons_self)
        exact nomatch digit
    · rfl
  rw [text, unsigned, readNat?_toDigits, Option.bind_some, toInt64?, ← same, if_pos,
    Int64.ofInt_toInt]
  exact ⟨Int64.minValue_le_toInt value, Int64.toInt_le value⟩

end Decimal

-----------------------------------------------------------------------------------------
-- Lists of expressions
-----------------------------------------------------------------------------------------

variable {spelling : Spelling}

theorem Expr.printAll_eq_map (exprs : List Expr)
    : printAll spelling exprs = exprs.map (print spelling) := by
  induction exprs with
  | nil => rfl
  | cons first rest ih => rw [printAll, ih, List.map_cons]

theorem FieldInit.printAll_eq_map (fields : List FieldInit)
    : printAll spelling fields = fields.map (print spelling) := by
  induction fields with
  | nil => rfl
  | cons first rest ih => rw [printAll, ih, List.map_cons]

theorem Expr.allWritable_iff {exprs : List Expr}
    : AllWritable spelling exprs ↔ ∀ expr ∈ exprs, expr.Writable spelling := by
  induction exprs with
  | nil => exact iff_of_true trivial fun expr member => nomatch member
  | cons first rest ih => rw [AllWritable, ih, List.forall_mem_cons]

theorem FieldInit.allWritable_iff {fields : List FieldInit}
    : AllWritable spelling fields ↔ ∀ field ∈ fields, field.Writable spelling := by
  induction fields with
  | nil => exact iff_of_true trivial fun field member => nomatch member
  | cons first rest ih => rw [AllWritable, ih, List.forall_mem_cons]

-----------------------------------------------------------------------------------------
-- How spellings begin
-----------------------------------------------------------------------------------------

/-- A name with type arguments begins with a word, and what comes next is no colon, unless a colon
comes after the name.
-/
theorem TypeExpr.print_begins {type : TypeExpr} (isName : Token.IsName type.names)
    (value : type.isReference = false) {rest : List (TokenKind × String)}
    (follows : Parse.Begins [.colon] rest)
    : ∃ word shown later, type.print ++ rest = word :: shown :: later ∧ word.1 = .identifier ∧
        shown.1 ≠ .colon := by
  obtain ⟨names, generics, isReference, span⟩ := type
  obtain ⟨some_, words⟩ := isName
  obtain rfl : isReference = false := value
  cases names with
  | nil => exact absurd rfl some_
  | cons name names =>
      refine ⟨name.content, ?_⟩
      have word : name.content.1 = .identifier := words name List.mem_cons_self
      cases names with
      | cons second names => exact ⟨_, _, rfl, word, by decide⟩
      | nil =>
          cases generics with
          | cons first generics => exact ⟨_, _, rfl, word, by decide⟩
          | nil =>
              obtain ⟨shown, later, rfl, other⟩ := follows
              refine ⟨shown, later, rfl, word, fun colon => other ?_⟩
              rw [colon]
              exact List.mem_singleton_self _

/-- The spelling of an expression is the name of a function or value, possibly with arguments, or
begins with what begins no name.
-/
theorem Expr.print_cases {expr : Expr} (writable : expr.Writable spelling)
    : (∃ (type : TypeExpr) (more : List (TokenKind × String)), type.Writable ∧
        Token.IsName type.names ∧ type.isReference = false ∧
        expr.print spelling = type.print ++ more ∧
        (more = [] ∨ ∃ later, more = TokenKind.openParen.mark :: later)) ∨
      Parse.Begins [.identifier, .autoKeyword, .dot, .closeParen, .closeCurly]
        (expr.print spelling) := by
  have marked {kind : TokenKind} (value : String) (later : List (TokenKind × String))
      (other : kind ∉ [TokenKind.identifier, .autoKeyword, .dot, .closeParen, .closeCurly])
      : Parse.Begins [.identifier, .autoKeyword, .dot, .closeParen, .closeCurly]
          ((kind, value) :: later) :=
    ⟨_, later, rfl, other⟩
  cases expr with
  | id names span =>
      have named : (⟨names, [], false, span⟩ : TypeExpr).print = Token.printNames names := by
        rw [TypeExpr.print, if_pos List.isEmpty_nil, if_neg Bool.false_ne_true, List.append_nil,
          List.append_nil]
      refine .inl
        ⟨⟨names, [], false, span⟩, [], .inr ⟨writable, trivial⟩, writable, rfl, ?_, .inl rfl⟩
      rw [named, List.append_nil, print]
  | call callee arguments span =>
      obtain ⟨value, isName, generics, -⟩ := writable
      refine .inl ⟨callee, TokenKind.openParen.mark :: (Token.separate (printAll spelling arguments)
        ++ [TokenKind.closeParen.mark]), ?_, isName, value, ?_, .inr ⟨_, rfl⟩⟩
      · obtain ⟨names, types, isReference, span⟩ := callee
        exact .inr ⟨isName, generics⟩
      · rw [print]
  | bool value span => cases value <;> exact .inr (marked _ _ (by decide))
  | _ => exact .inr (marked _ _ (by decide))

/-- No spelling of an expression begins with a mark that closes a list or names a member. -/
theorem Expr.print_begins {expr : Expr} (writable : expr.Writable spelling)
    : Parse.Begins [.dot, .closeParen, .closeCurly] (expr.print spelling) := by
  rcases print_cases writable with ⟨type, more, -, ⟨some_, words⟩, -, print, -⟩ | begins
  · obtain ⟨names, generics, isReference, span⟩ := type
    cases names with
    | nil => exact absurd rfl some_
    | cons name names =>
        have word : name.kind = .identifier := words name List.mem_cons_self
        refine ⟨name.content, _, print, ?_⟩
        show name.kind ∉ _
        rw [word]
        decide
  · exact begins.mono (by decide)

/-- A list of values is not taken for initialisers of members: it begins neither with a point nor
with a word and a colon.
-/
theorem Expr.print_noField {expr : Expr} (writable : expr.Writable spelling)
    {rest : List (TokenKind × String)} (follows : Parse.Begins [.colon] rest)
    {stream : TokenStream} (ahead : stream.ahead.map Token.content = expr.print spelling ++ rest)
    : (stream.kind == .dot || (stream.kind == .identifier && (stream.peek 1).kind == .colon)) =
        false := by
  have noPoint : stream.kind ≠ .dot := by
    obtain ⟨shown, later, print, other⟩ := print_begins writable
    rw [Parse.kind_current (ahead.trans (by rw [print]; rfl))]
    exact fun dot => other (by rw [dot]; decide)
  rw [beq_eq_false_iff_ne.mpr noPoint, Bool.false_or, Bool.and_eq_false_iff]
  rcases print_cases writable with ⟨type, more, -, isName, value, print, next⟩ | begins
  · have follows' : Parse.Begins [.colon] (more ++ rest) := by
      rcases next with rfl | ⟨later, rfl⟩
      · exact follows
      · exact ⟨_, _, rfl, by decide⟩
    obtain ⟨word, shown, later, print', -, other⟩ := TypeExpr.print_begins isName value follows'
    rw [print, List.append_assoc, print'] at ahead
    rw [Parse.kind_following ahead]
    exact .inr (beq_eq_false_iff_ne.mpr other)
  · obtain ⟨shown, later, print, other⟩ := begins
    rw [print] at ahead
    rw [Parse.kind_current ahead]
    exact .inl (beq_eq_false_iff_ne.mpr fun word => other (by rw [word]; decide))

namespace Parse

-----------------------------------------------------------------------------------------
-- What fails
-----------------------------------------------------------------------------------------

namespace Fails

variable {α β : Type} {contents : List (TokenKind × String)}

theorem first {reader : Parse α} {next : α → Parse β} (fails : Fails reader contents)
    : Fails (reader >>= next) contents := by
  intro stream ahead
  obtain ⟨error, failed⟩ := fails stream ahead
  exact ⟨error, by rw [run_bind, failed]⟩

theorem get {next : TokenStream → Parse α}
    (fails : ∀ stream : TokenStream, stream.ahead.map Token.content = contents →
      Fails (next stream) contents)
    : Fails (MonadState.get >>= next) contents :=
  fun stream ahead => fails stream ahead stream ahead

theorem kind {shown : TokenKind × String} {later : List (TokenKind × String)}
    {next : TokenKind → Parse α} (fails : Fails (next shown.1) (shown :: later))
    : Fails (Parse.kind >>= next) (shown :: later) := by
  intro stream ahead
  show ∃ error, next stream.kind stream = .error error
  rw [kind_current ahead]
  exact fails stream ahead

theorem unmet (expectation : Expectation) : Fails (Parse.unmet expectation : Parse α) contents :=
  fun _ _ => ⟨_, rfl⟩

theorem unexpected : Fails (Parse.unexpected : Parse α) contents := fun _ _ => ⟨_, rfl⟩

theorem after {reader : Parse α} {next : α → Parse β} {more : List (TokenKind × String)}
    {mid : α → Prop} (reads : Reads reader contents more mid)
    (fails : ∀ value, mid value → Fails (next value) more)
    : Fails (reader >>= next) (contents ++ more) := by
  intro stream ahead
  obtain ⟨value, last, given, holds, left⟩ := reads stream ahead
  have ahead' : last.ahead.map Token.content = more := by
    rw [left, List.map_drop, ahead, List.drop_left]
  obtain ⟨error, failed⟩ := fails value holds last ahead'
  exact ⟨error, by rw [run_bind, given]; exact failed⟩

/-- A token that is expected is missed where another one is shown. -/
theorem expect {wanted : TokenKind} (begins : Begins [wanted] contents)
    : Fails (Parse.expect wanted) contents := by
  obtain ⟨shown, later, rfl, other⟩ := begins
  intro stream ahead
  rw [run_expect, if_neg fun here => other (by
    rw [← kind_current ahead, here]
    exact List.mem_singleton_self wanted)]
  exact ⟨_, rfl⟩

/-- A type begins with a word, or is to be deduced. -/
theorem typeExprWithin (depth : Nat) (begins : Begins [.identifier, .autoKeyword] contents)
    : Fails (Parse.typeExprWithin depth) contents := by
  obtain ⟨shown, later, rfl, other⟩ := begins
  cases depth with
  | zero => exact unexpected
  | succ depth =>
      refine first (kind ?_)
      split
      · next word => exact absurd (by rw [word]; decide) other
      · next auto => exact absurd (by rw [auto]; decide) other
      · exact unmet _

end Fails

/-- The type arguments of a constructor that is called. -/
def genericCallee : Parse (List TypeExpr) := do
  let generics ← typeArguments
  if (← kind) == .openParen then return generics else unexpected

/-- Between `<` and a closing parenthesis the spelling of an expression is no type argument: a
name or the name of a callee is read as one, but neither a comma nor `>` comes next.
-/
theorem genericCallee_fails {expr : Expr} (writable : expr.Writable spelling) (value : String)
    (rest : List (TokenKind × String))
    : Fails genericCallee
        ((.less, value) :: (expr.print spelling ++ TokenKind.closeParen.mark :: rest)) := by
  refine Fails.first (Fails.get fun stream ahead => ?_)
  refine Fails.after (Reads.expect (.less, value)) fun _ _ => ?_
  have length : (expr.print spelling).length < stream.depth := by
    have tokens := congrArg List.length ahead
    rw [List.length_map, List.length_cons, List.length_append] at tokens
    rw [TokenStream.depth]
    omega
  rcases Expr.print_cases writable with ⟨type, more, typeWritable, -, -, print, next⟩ | begins
  · -- A type is read, but what comes next neither continues nor closes the type arguments.
    have closed : Begins (.comma :: .greater :: Reads.typeMarks)
        (more ++ TokenKind.closeParen.mark :: rest) := by
      rcases next with rfl | ⟨later, rfl⟩
      · exact ⟨_, _, rfl, by decide⟩
      · exact ⟨_, _, rfl, by decide⟩
    have deep : type.print.length < stream.depth := by
      rw [print, List.length_append] at length
      omega
    have reads := Reads.typeExprWithin typeWritable deep
      (closed.mono (List.subset_cons_of_subset _ (List.subset_cons_self _ _)))
    have argument : Reads (separated (typeExprWithin stream.depth)) type.print
        (more ++ TokenKind.closeParen.mark :: rest) (fun _ => True) := by
      refine Reads.thenDone reads fun _ _ => Reads.get fun later _ => ?_
      exact Reads.thenDone (Reads.noComma (closed.mono (by simp)) _) fun _ _ => Reads.pure trivial
    show Fails _ (expr.print spelling ++ TokenKind.closeParen.mark :: rest)
    rw [print, List.append_assoc]
    exact Fails.after argument fun _ _ => Fails.first (Fails.expect (closed.mono (by simp)))
  · obtain ⟨shown, later, print, other⟩ := begins
    show Fails _ (expr.print spelling ++ TokenKind.closeParen.mark :: rest)
    rw [print]
    refine Fails.first (Fails.first (Fails.typeExprWithin _ ⟨shown, _, rfl, fun word => other ?_⟩))
    exact (show [TokenKind.identifier, .autoKeyword] ⊆ _ by decide) word

namespace Reads

-----------------------------------------------------------------------------------------
-- Names and lists
-----------------------------------------------------------------------------------------

/-- What ends an operand that is not continued. -/
abbrev closers : List TokenKind := [.closeParen, .closeCurly, .comma, .colon, .semicolon]

/-- (Closes rest) says that an operand is not continued by what comes next. -/
def Closes (rest : List (TokenKind × String)) : Prop :=
  ∃ shown later, rest = shown :: later ∧ shown.1 ∈ closers

theorem Closes.begins {rest : List (TokenKind × String)} (closes : Closes rest)
    {avoided : List TokenKind} (apart : ∀ kind ∈ closers, kind ∉ avoided)
    : Begins avoided rest := by
  obtain ⟨shown, later, rfl, among⟩ := closes
  exact ⟨shown, later, rfl, apart _ among⟩

/-- (EndsName rest) says that a name is not continued by what comes next: neither by another
segment, nor by the type arguments of a constructor that is called.
-/
structure EndsName (rest : List (TokenKind × String)) : Prop where
  segment : Begins [.colonColon] rest
  generic : ∀ value later, rest = (.less, value) :: later → Fails genericCallee rest

theorem Closes.endsName {rest : List (TokenKind × String)} (closes : Closes rest)
    : EndsName rest := by
  refine ⟨closes.begins (by decide), ?_⟩
  rintro value later rfl
  obtain ⟨shown, later, same, among⟩ := closes
  obtain ⟨rfl, rfl⟩ := List.cons.inj same
  exact absurd among (show TokenKind.less ∉ closers by decide)

/-- (OperandReader nested spelling exprs) says that a reader of operands reads the given
expressions where they are not continued.
-/
def OperandReader (spelling : Spelling) (nested : Operand) (exprs : List Expr) : Prop :=
  ∀ expr ∈ exprs, ∀ power, power < .call → ∀ rest, Closes rest →
    Reads (nested power) (expr.print spelling) rest (fun read => read.bare = expr.bare)

variable {nested : Operand} {rest : List (TokenKind × String)}

theorem argumentsWith {exprs : List Expr} (writable : ∀ expr ∈ exprs, expr.Writable spelling)
    (parts : OperandReader spelling nested exprs)
    : Reads (Parse.argumentsWith nested)
        (TokenKind.openParen.mark :: (Token.separate (exprs.map (Expr.print spelling))
          ++ [TokenKind.closeParen.mark])) rest
        (fun read => read.map Expr.bare = exprs.map Expr.bare) := by
  refine expectThen TokenKind.openParen.mark fun _ _ => ?_
  cases exprs with
  | nil =>
      refine kind rfl ?_
      rw [if_pos (by decide)]
      exact pureThen (expectThen TokenKind.closeParen.mark fun _ _ => pure rfl)
  | cons first exprs =>
      obtain ⟨shown, later, print, other⟩ := Expr.print_begins (writable first List.mem_cons_self)
      obtain ⟨tail, begins⟩ : ∃ tail, Token.separate ((first :: exprs).map (Expr.print spelling))
          ++ [TokenKind.closeParen.mark] ++ rest = shown :: tail := by
        rw [List.map_cons, Token.separate, print]
        exact ⟨_, rfl⟩
      refine kind begins ?_
      rw [if_neg fun closes => other (by rw [eq_of_beq closes]; decide)]
      refine bind (separated (fun expr among => parts expr among .lowest (by decide))
        (fun more => ⟨_, _, rfl, by decide⟩) ⟨_, _, rfl, by decide⟩ ⟨_, _, rfl, by decide⟩)
        fun read same => ?_
      exact expectThen TokenKind.closeParen.mark fun _ _ => pure same

/-- Initialisers of members are read, with or without points. -/
theorem fieldInitWith {field : FieldInit} (writable : field.Writable spelling)
    (parts : OperandReader spelling nested [field.value]) (closes : Closes rest)
    : Reads (Parse.fieldInitWith nested) (field.print spelling) rest
        (fun read => read.bare = field.bare) := by
  obtain ⟨name, value⟩ := field
  have word : name.content.1 = .identifier := writable.1
  have reads := parts value (List.mem_singleton_self _) .lowest (by decide) rest closes
  rw [FieldInit.print]
  split
  · refine acceptThen TokenKind.dot.mark ?_
    rw [if_pos rfl, ← word]
    refine expectThen name.content fun token same => ?_
    refine expectThen TokenKind.assignment.mark fun _ _ => thenDone reads fun read same' => pure ?_
    rw [FieldInit.bare, FieldInit.bare, same', Token.bare_eq_of_content same]
  · refine refuseThen (rfl : _ = name.content :: _) (by rw [word]; decide) ?_
    rw [if_neg Bool.false_ne_true, ← word]
    refine expectThen name.content fun token same => ?_
    refine expectThen TokenKind.colon.mark fun _ _ => thenDone reads fun read same' => pure ?_
    rw [FieldInit.bare, FieldInit.bare, same', Token.bare_eq_of_content same]

theorem listWith {values : List Expr} {span : Span}
    (writable : ∀ expr ∈ values, expr.Writable spelling)
    (parts : OperandReader spelling nested values)
    : Reads (Parse.bracesWith nested) (Expr.print spelling (.list values span)) rest
        (fun read => read.bare = (Expr.list values span).bare) := by
  rw [Expr.print, Expr.printAll_eq_map]
  refine expectThen TokenKind.openCurly.mark fun opening _ => get fun stream ahead => ?_
  have closing {read : List Expr} (same : read.map Expr.bare = values.map Expr.bare)
      : Reads (do
            let _ ← Parse.expect .closeCurly
            return Expr.list read (← Parse.spanFrom opening.span))
          [TokenKind.closeCurly.mark] rest
          (fun read => read.bare = (Expr.list values span).bare) := by
    refine expectThen TokenKind.closeCurly.mark fun _ _ => spanFromThen fun _ => pure ?_
    rw [Expr.bare, Expr.bare, Expr.bareAll_eq_map, Expr.bareAll_eq_map, same]
  cases values with
  | nil =>
      have here : stream.kind = .closeCurly := kind_current ahead
      simp only [here]
      exact pureThen (closing rfl)
  | cons first values =>
      have writableFirst := writable first List.mem_cons_self
      rw [List.map_cons, Token.separate, List.append_assoc, List.append_assoc] at ahead
      have follows : Begins [.colon]
          (((values.map (Expr.print spelling)).flatMap fun item => TokenKind.comma.mark :: item)
            ++ ([TokenKind.closeCurly.mark] ++ rest)) := by
        cases values with
        | nil => exact ⟨_, _, rfl, by decide⟩
        | cons => exact ⟨_, _, rfl, by decide⟩
      obtain ⟨shown, later, print, other⟩ := Expr.print_begins writableFirst
      have noClose : (stream.kind == .closeCurly) = false := by
        rw [kind_current (ahead.trans (by rw [print]; rfl))]
        exact beq_eq_false_iff_ne.mpr fun closes => other (by rw [closes]; decide)
      rw [Expr.print_noField writableFirst follows ahead, if_neg Bool.false_ne_true, noClose,
        if_neg Bool.false_ne_true]
      exact bind (separated (fun expr among => parts expr among .lowest (by decide))
        (fun more => ⟨_, _, rfl, by decide⟩) ⟨_, _, rfl, by decide⟩ ⟨_, _, rfl, by decide⟩)
        fun read same => closing same

theorem designatedWith {fields : List FieldInit} {span : Span} (some_ : fields ≠ [])
    (writable : ∀ field ∈ fields, field.Writable spelling)
    (parts : OperandReader spelling nested (fields.map FieldInit.value))
    : Reads (Parse.bracesWith nested) (Expr.print spelling (.designated fields span)) rest
        (fun read => read.bare = (Expr.designated fields span).bare) := by
  cases fields with
  | nil => exact absurd rfl some_
  | cons first fields =>
  rw [Expr.print, FieldInit.printAll_eq_map]
  refine expectThen TokenKind.openCurly.mark fun opening _ => get fun stream ahead => ?_
  have begins : (stream.kind == .dot
      || (stream.kind == .identifier && (stream.peek 1).kind == .colon)) = true := by
    obtain ⟨name, value⟩ := first
    have word : name.kind = .identifier := (writable _ List.mem_cons_self).1
    rw [List.map_cons, Token.separate, FieldInit.print] at ahead
    by_cases dotted : spelling.dotted name
    · rw [if_pos dotted] at ahead
      rw [show stream.kind = .dot from kind_current ahead]
      rfl
    · rw [if_neg dotted] at ahead
      rw [show stream.kind = name.kind from kind_current ahead,
        show (stream.peek 1).kind = .colon from kind_following ahead, word]
      rfl
  rw [if_pos begins]
  have each : ∀ field ∈ first :: fields, ∀ more, Closes more →
      Reads (Parse.fieldInitWith nested) (field.print spelling) more
        (fun read => read.bare = field.bare) := by
    intro field among more closes
    refine fieldInitWith (writable field among) (fun expr here => ?_) closes
    rw [List.mem_singleton.mp here]
    exact parts field.value (List.mem_map_of_mem among)
  refine bind (separated each (fun more => ⟨_, _, rfl, by decide⟩) ⟨_, _, rfl, by decide⟩
    ⟨_, _, rfl, by decide⟩) fun read same => ?_
  refine expectThen TokenKind.closeCurly.mark fun _ _ => spanFromThen fun _ => pure ?_
  rw [Expr.bare, Expr.bare, FieldInit.bareAll_eq_map, FieldInit.bareAll_eq_map, same]

/-- A name is read as such where no type arguments of a call come next. -/
theorem nameWith {names : List Token} {span : Span} (isName : Token.IsName names)
    (ends : EndsName rest)
    : Reads (Parse.identifierWith nested) (Token.printNames names) rest
        (fun read => read.bare = (Expr.id names span).bare) := by
  refine get fun stream _ => ?_
  refine thenDone (qualifiedName isName ends.segment) fun read same => ?_
  have comparison (first : Span)
      : Reads (do return Expr.id read (← Parse.spanFrom first)) [] rest
          (fun read => read.bare = (Expr.id names span).bare) := by
    refine spanFromThen fun _ => pure ?_
    rw [Expr.bare, Expr.bare, same]
  obtain ⟨⟨shownKind, shownText⟩, later, here, -⟩ := ends.segment
  refine kind ((List.nil_append rest).trans here) ?_
  by_cases less : shownKind = .less
  · subst less
    rw [if_pos (beq_self_eq_true _)]
    exact attemptFails (ends.generic _ _ here) (comparison _)
  · rw [if_neg (by simpa using less)]
    exact comparison _

/-- Type arguments are those of a callee where a parenthesis comes next. -/
theorem genericCallee {types : List TypeExpr} (some_ : types ≠ [])
    (writable : ∀ type ∈ types, type.Writable) (later : List (TokenKind × String))
    : Reads Parse.genericCallee
        (TokenKind.less.mark :: (Token.separate (types.map TypeExpr.print)
          ++ [TokenKind.greater.mark])) (TokenKind.openParen.mark :: later)
        (fun read => read.map TypeExpr.bare = types.map TypeExpr.bare) := by
  refine thenDone
    (get fun stream ahead => typeArgumentsWith (fun type among more closed => ?_) some_)
    fun read same => kind rfl ?_
  · refine typeExprWithin (writable type among) ?_ closed
    have inside := Token.length_le_separate (List.mem_map_of_mem (f := TypeExpr.print) among)
    have tokens := congrArg List.length ahead
    rw [List.length_map, List.length_append, List.length_cons, List.length_append] at tokens
    rw [TokenStream.depth]
    omega
  · rw [if_pos (by decide)]
    exact pure same

/-- A constructor with type arguments is read with its arguments. -/
theorem genericCallWith {callee : TypeExpr} {arguments : List Expr} {span : Span}
    (value : callee.isReference = false) (isName : Token.IsName callee.names)
    (generic : callee.generics ≠ []) (types : ∀ type ∈ callee.generics, type.Writable)
    (writable : ∀ expr ∈ arguments, expr.Writable spelling)
    (parts : OperandReader spelling nested arguments)
    : Reads (Parse.identifierWith nested) (Expr.print spelling (.call callee arguments span)) rest
        (fun read => read.bare = (Expr.call callee arguments span).bare) := by
  obtain ⟨names, generics, isReference, calleeSpan⟩ := callee
  obtain rfl : isReference = false := value
  have some_ : generics.isEmpty = false := List.isEmpty_eq_false_iff.mpr generic
  have print : Expr.print spelling (.call ⟨names, generics, false, calleeSpan⟩ arguments span) =
      Token.printNames names ++ ((TokenKind.less.mark :: (Token.separate
        (generics.map TypeExpr.print) ++ [TokenKind.greater.mark])) ++ (TokenKind.openParen.mark
          :: (Token.separate (arguments.map (Expr.print spelling))
            ++ [TokenKind.closeParen.mark]))) := by
    rw [Expr.print, TypeExpr.print, if_neg (by rw [some_]; exact Bool.false_ne_true),
      if_neg Bool.false_ne_true, List.append_nil, List.append_assoc, TypeExpr.printAll_eq_map,
      Expr.printAll_eq_map]
  rw [print]
  refine get fun stream _ => ?_
  refine bind (qualifiedName isName ⟨_, _, rfl, by decide⟩) fun read same => kind rfl ?_
  rw [if_pos (by decide)]
  refine attemptThen (genericCallee generic types _) fun generics' sames => ?_
  refine spanFromThen fun _ => ?_
  refine thenDone (argumentsWith writable parts) fun arguments' same' =>
    spanFromThen fun _ => pure ?_
  simp only [Expr.bare, TypeExpr.bare, TypeExpr.bareAll_eq_map, Expr.bareAll_eq_map, same, sames,
    same']

end Reads

end Parse

end BuildScript
