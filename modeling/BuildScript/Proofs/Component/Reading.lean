import BuildScript.Proofs.Component.Grammar
import BuildScript.Proofs.Syntax.Reading
import BuildScript.Proofs.Syntax.ExprReading
import BuildScript.Proofs.Syntax.Places
import BuildScript.Proofs.Token.Coverage

/-! Declarative files are read by their grammar. What spells a component is read as that component,
whatever the spans of the tokens, and what is read from a scanned text is spelled by its tokens.
-/

namespace BuildScript

-----------------------------------------------------------------------------------------
-- Spellings are read
-----------------------------------------------------------------------------------------

/-- A value does not begin with the bracket that closes a list. -/
theorem ValueExpr.SpelledBy.begins {value : ValueExpr} {contents : List (TokenKind × String)}
    (spelled : value.SpelledBy contents)
    : ∃ shown later, contents = shown :: later ∧ shown.1 ≠ .closeBracket := by
  cases spelled with
  | @bool value _ _ =>
      refine ⟨_, _, rfl, ?_⟩
      cases value <;> simp
  | int _ => exact ⟨_, _, rfl, by simp⟩
  | double _ => exact ⟨_, _, rfl, by simp⟩
  | string => exact ⟨_, _, rfl, by simp⟩
  | nothing => exact ⟨_, _, rfl, by simp⟩
  | list _ _ => exact ⟨_, _, rfl, by simp⟩

namespace Parse.Reads

/-- (Values nested depth) says that a reader reads the values whose spelling is no longer than
`depth`.
-/
def Values (nested : Parse ValueExpr) (depth : Nat) : Prop :=
  ∀ (value : ValueExpr) contents, value.SpelledBy contents → contents.length ≤ depth →
    ∀ rest, Reads nested contents rest fun read => read.bare = value.bare

section

variable {nested : Parse ValueExpr} {depth : Nat} {rest : List (TokenKind × String)}

/-- The values of a list after its first are read up to the closing bracket, by induction on the
number of values that may be read.
-/
theorem moreValues (reads : Values nested depth) {closing : String} {count : Nat}
    {values : List ValueExpr} {contents : List (TokenKind × String)}
    (spelled : ValueExpr.MoreSpelledBy values contents) (short : contents.length ≤ depth)
    (enough : contents.length ≤ count)
    : Reads (Parse.moreValues nested count) contents ((.closeBracket, closing) :: rest)
        fun read => ValueExpr.bareAll read = ValueExpr.bareAll values := by
  induction count generalizing values contents with
  | zero =>
      obtain rfl := List.length_eq_zero_iff.mp (Nat.le_zero.mp enough)
      cases spelled
      exact pure rfl
  | succ count ih =>
      cases spelled with
      | done => exact refuseThen rfl (by simp) (pure rfl)
      | comma =>
          refine acceptThen (.comma, _) (kind rfl ?_)
          rw [if_pos (by simp)]
          exact pure rfl
      | @value mark value values next later spelled more =>
          simp only [List.length_cons, List.length_append] at short enough
          obtain ⟨shown, after, rfl, other⟩ := spelled.begins
          refine acceptThen (.comma, mark) (kind rfl ?_)
          rw [if_neg (by simpa using other)]
          refine bind (reads value _ spelled (by omega) _) fun first isFirst => ?_
          refine thenDone (ih more (by omega) (by omega)) fun others areOthers => pure ?_
          rw [ValueExpr.bareAll, ValueExpr.bareAll, isFirst, areOthers]

/-- Nothing is read of an empty list. -/
theorem noValues {closing : String}
    : Reads (listValuesWith nested) [] ((.closeBracket, closing) :: rest) (· = []) := by
  refine kind rfl ?_
  rw [if_pos (by simp)]
  exact pure rfl

/-- The values of any other list are read up to the closing bracket. -/
theorem listValues (reads : Values nested depth) {closing : String} {value : ValueExpr}
    {values : List ValueExpr} {first later : List (TokenKind × String)}
    (spelled : value.SpelledBy first) (more : ValueExpr.MoreSpelledBy values later)
    (short : first.length + later.length ≤ depth)
    : Reads (listValuesWith nested) (first ++ later) ((.closeBracket, closing) :: rest)
        fun read => ValueExpr.bareAll read = ValueExpr.bareAll (value :: values) := by
  obtain ⟨shown, after, rfl, other⟩ := spelled.begins
  refine kind rfl ?_
  rw [if_neg (by simpa using other)]
  refine bind (reads value _ spelled (by omega) _) fun head isHead => ?_
  refine get fun stream ahead => ?_
  have enough : later.length ≤ stream.ahead.length := by
    have counted := congrArg List.length ahead
    simp only [List.length_map, List.length_append] at counted
    omega
  refine thenDone (moreValues reads more (by omega) enough) fun others areOthers => pure ?_
  rw [ValueExpr.bareAll, ValueExpr.bareAll, isHead, areOthers]

/-- Values are read, by cases on how they are spelled. -/
theorem valueWith (reads : Values nested depth) : Values (Parse.valueWith nested) (depth + 1) := by
  intro value contents spelled short rest
  cases spelled with
  | @bool value text span =>
      refine nextThen _ fun token same => ?_
      rw [show token.kind = _ from congrArg Prod.fst same]
      cases value <;> exact pure rfl
  | @int value text span number =>
      refine nextThen _ fun token same => ?_
      rw [show token.kind = _ from congrArg Prod.fst same]
      exact numberLiteralThen number same (pure rfl)
  | @double value text span number =>
      refine nextThen _ fun token same => ?_
      rw [show token.kind = _ from congrArg Prod.fst same]
      exact numberLiteralThen number same (pure rfl)
  | @string value span =>
      refine nextThen _ fun token same => ?_
      rw [show token.kind = _ from congrArg Prod.fst same]
      refine pure ?_
      rw [show token.value = value from congrArg Prod.snd same]
      rfl
  | @nothing opening closing span =>
      refine nextThen (.openBracket, opening) fun token same => ?_
      rw [show token.kind = .openBracket from congrArg Prod.fst same]
      show Reads _ ([] ++ [(.closeBracket, closing)]) rest _
      refine bind noValues ?_
      rintro _ rfl
      exact expectThen (.closeBracket, closing) fun _ _ => spanFromThen fun _ => pure rfl
  | @list opening closing value values first later span spelled more =>
      simp only [List.length_cons, List.length_append] at short
      refine nextThen (.openBracket, opening) fun token same => ?_
      rw [show token.kind = .openBracket from congrArg Prod.fst same]
      refine bind (listValues reads spelled more (by omega)) fun read same => ?_
      refine expectThen (.closeBracket, closing) fun _ _ => spanFromThen fun _ => pure ?_
      rw [ValueExpr.bare, ValueExpr.bare, same]

end

theorem valueWithin (depth : Nat) : Values (Parse.valueWithin depth) depth := by
  induction depth with
  | zero =>
      intro value contents spelled short
      obtain ⟨shown, later, rfl, -⟩ := spelled.begins
      exact absurd short (by simp)
  | succ depth ih => exact valueWith ih

/-- A property is read up to its semicolon. -/
theorem property {decl : PropertyDecl} {sign : TokenKind} {mark ending : String}
    {value rest : List (TokenKind × String)} (word : decl.name.kind = .identifier)
    (assigns : sign = .assignment ∨ sign = .colon) (spelled : decl.value.SpelledBy value)
    : Reads Parse.property
        (decl.name.content :: (sign, mark) :: (value ++ [(.semicolon, ending)])) rest
        fun read => read.bare = decl.bare := by
  have valueRead : Reads Parse.value value ((.semicolon, ending) :: rest)
      fun read => read.bare = decl.value.bare := by
    refine get fun stream ahead => valueWithin _ _ _ spelled ?_ _
    have counted := congrArg List.length ahead
    simp only [List.length_map, List.length_append] at counted
    rw [TokenStream.depth]
    omega
  rw [show decl.name.content = (.identifier, decl.name.value) from congrArg (·, _) word]
  refine expectThen (.identifier, decl.name.value) fun name isName => kind rfl ?_
  rcases assigns with rfl | rfl
  all_goals
    refine nextThen _ fun _ _ => bind valueRead fun read same => ?_
    refine expectThen (.semicolon, ending) fun _ _ => spanFromThen fun span => pure ?_
    have named : name.bare = decl.name.bare :=
      Token.bare_eq_of_content (isName.trans (congrArg (·, _) word.symm))
    rw [PropertyDecl.bare, PropertyDecl.bare, same, named]

/-- Properties are read up to the closing brace, by induction on the number of properties that may
be read.
-/
theorem properties {decls : List PropertyDecl} {contents rest : List (TokenKind × String)}
    {closing : String} {count : Nat} (spelled : PropertyDecl.AllSpelledBy decls contents)
    (enough : contents.length ≤ count)
    : Reads (Parse.properties count) contents ((.closeCurly, closing) :: rest)
        fun read => read.map PropertyDecl.bare = decls.map PropertyDecl.bare := by
  induction count generalizing decls contents with
  | zero =>
      obtain rfl := List.length_eq_zero_iff.mp (Nat.le_zero.mp enough)
      cases spelled
      exact pure rfl
  | succ count ih =>
      cases spelled with
      | done =>
          refine kind rfl ?_
          rw [if_pos (by simp)]
          exact pure rfl
      | @property decl sign mark ending value decls later word assigns spelled more =>
          simp only [List.length_cons, List.length_append] at enough
          refine kind rfl ?_
          rw [if_neg (by simp [Token.content, word])]
          rw [show decl.name.content :: (sign, mark) :: (value ++ (.semicolon, ending) :: later) =
            decl.name.content :: (sign, mark) :: (value ++ [(.semicolon, ending)]) ++ later by simp]
          refine bind (property word assigns spelled) fun first isFirst => ?_
          refine thenDone (ih more (by omega)) fun others areOthers => pure ?_
          rw [List.map_cons, List.map_cons, isFirst, areOthers]

end Parse.Reads

-----------------------------------------------------------------------------------------
-- What is read is spelled
-----------------------------------------------------------------------------------------

namespace Parse.Consumes

section

variable {nested : Parse ValueExpr}

/-- The values that are read after commas are spelled by the tokens that are consumed. -/
theorem moreValues
    (reads : ∀ place, Consumes place nested fun used value =>
      value.SpelledBy (used.map Token.content))
    (count place : Nat)
    : Consumes place (Parse.moreValues nested count) fun used values =>
        ValueExpr.MoreSpelledBy values (used.map Token.content) := by
  induction count generalizing place with
  | zero => exact pure .done
  | succ count ih =>
      refine acceptThen (by decide) (fun token shown => ?_) (pure .done)
      have comma : token.content = (.comma, token.value) := congrArg (·, _) shown
      refine kind fun shown => ?_
      split
      · refine (pure ?_ : Consumes _ _ _).here shown
        rw [List.map_singleton, comma]
        exact .comma
      · refine (bind (reads _) fun used first spelled => ?_ : Consumes _ _ _).here shown
        refine bind (ih _) fun more values spelled' => pure ?_
        rw [List.map_cons, List.append_nil, List.map_append, comma]
        exact .value spelled spelled'

/-- The tokens between its brackets spell a list. -/
theorem listValues
    (reads : ∀ place, Consumes place nested fun used value =>
      value.SpelledBy (used.map Token.content))
    (place : Nat)
    : Consumes place (listValuesWith nested) fun used values => ∀ opening closing span,
        ValueExpr.SpelledBy (.list values span)
          ((.openBracket, opening) :: (used.map Token.content ++ [(.closeBracket, closing)])) := by
  refine kind fun shown => ?_
  split
  · exact (pure fun _ _ _ => .nothing : Consumes _ _ _).here shown
  · refine (bind (reads _) fun used first spelled => ?_ : Consumes _ _ _).here shown
    refine get fun stream => bind (moreValues reads _ _) fun more values spelled' => pure ?_
    intro opening closing span
    rw [List.append_nil, List.map_append]
    exact .list spelled spelled'

/-- A value is spelled by the tokens that are consumed, by cases on the first of them. -/
theorem valueWith
    (reads : ∀ place, Consumes place nested fun used value =>
      value.SpelledBy (used.map Token.content))
    (place : Nat)
    : Consumes place (Parse.valueWith nested) fun used value =>
        value.SpelledBy (used.map Token.content) := by
  refine nextThen (fun token inside => ?_) fun token ended => ⟨_, by rw [ended]⟩
  obtain ⟨shown, text, span⟩ := token
  dsimp only
  split
  · exact pure .bool
  · exact pure .bool
  · exact numberLiteralThen fun value number => pure (.int number)
  · exact numberLiteralThen fun value number => pure (.double number)
  · exact pure .string
  · refine bind (listValues reads _) fun used values spelled => ?_
    refine expectThen (by decide) fun closing shown => spanFromThen (pure ?_)
    rw [List.map_cons, List.map_append, List.map_singleton,
      show closing.content = (.closeBracket, closing.value) from congrArg (·, _) shown]
    exact spelled _ _ _
  · exact throw _

end

theorem valueWithin (depth : Nat)
    : ∀ place, Consumes place (Parse.valueWithin depth) fun used value =>
        value.SpelledBy (used.map Token.content) := by
  induction depth with
  | zero => exact fun place => unexpected
  | succ depth ih => exact valueWith ih

/-- A property is spelled by its name, a sign, its value and a semicolon. -/
theorem property (place : Nat)
    : Consumes place Parse.property fun used decl => ∀ decls rest,
        PropertyDecl.AllSpelledBy decls rest →
          PropertyDecl.AllSpelledBy (decl :: decls) (used.map Token.content ++ rest) := by
  refine expectThen (by decide) fun name word => kind fun sign => ?_
  split
  case h_3 => exact (unmet _).here _
  all_goals
    refine ConsumesAt.nextThen (by decide) fun mark isMark => ?_
    refine bind (get fun stream => valueWithin _ _) fun used value spelled => ?_
    refine expectThen (by decide) fun ending isEnding => spanFromThen (pure ?_)
    intro decls rest later
    have signed : mark.content = (_, mark.value) := congrArg (·, _) isMark
    have ended : ending.content = (.semicolon, ending.value) := congrArg (·, _) isEnding
    simp only [List.map_cons, List.map_append, List.map_nil, List.cons_append, List.append_assoc,
      List.nil_append, signed, ended]
    exact .property word (by simp) spelled later

/-- Properties are spelled one after the other, by induction on the number of properties that may be
read.
-/
theorem properties (count place : Nat)
    : Consumes place (Parse.properties count) fun used decls =>
        PropertyDecl.AllSpelledBy decls (used.map Token.content) := by
  induction count generalizing place with
  | zero => exact pure .done
  | succ count ih =>
      refine kind fun shown => ?_
      split
      · exact (pure .done : Consumes _ _ _).here shown
      · refine (bind (property _) fun used first spelled => ?_ : Consumes _ _ _).here shown
        refine bind (ih _) fun more others later => pure ?_
        rw [List.append_nil, List.map_append]
        exact spelled _ _ later

end Parse.Consumes

-----------------------------------------------------------------------------------------
-- Components
-----------------------------------------------------------------------------------------

namespace Parse

/-- The name and the properties of a component, up to its closing brace. -/
def componentBody : Parse (Token × List PropertyDecl) := do
  let name ← expect .identifier
  let _ ← expect .openCurly
  let properties ← properties (← get).depth
  let _ ← expect .closeCurly
  return (name, properties)

/-- The end of the file after the closing brace of a component. -/
def componentEnd (body : Token × List PropertyDecl) : Parse ComponentDecl := do
  if (← kind) == .endOfFile then return ⟨body.1, body.2, ← spanFrom body.1.span⟩
  else unmet .endAfterComponent

theorem component_eq : component = componentBody >>= componentEnd := by
  simp only [component, componentBody, bind_assoc, pure_bind]
  rfl

/-- A component ends where the file does. -/
theorem run_componentEnd (body : Token × List PropertyDecl) (stream : TokenStream)
    : componentEnd body stream =
        if stream.kind = .endOfFile then
          .ok (⟨body.1, body.2, { body.1.span with stop := stream.previousEnd }⟩, stream)
        else
          .error
            ⟨.unmet stream.current.value .endAfterComponent, stream.current.span.position⟩ := by
  show (if stream.kind == .endOfFile then _ else _ : Parse ComponentDecl) stream = _
  by_cases ended : stream.kind = .endOfFile
  · rw [if_pos (by simpa using ended), if_pos ended]
    rfl
  · rw [if_neg (by simpa using ended), if_neg ended]
    rfl

theorem Reads.componentBody {name : Token} {decls : List PropertyDecl} {opening closing : String}
    {contents : List (TokenKind × String)} (word : name.kind = .identifier)
    (spelled : PropertyDecl.AllSpelledBy decls contents)
    : Reads Parse.componentBody
        (name.content :: (.openCurly, opening) :: (contents ++ [(.closeCurly, closing)])) []
        fun read => read.1.bare = name.bare
          ∧ read.2.map PropertyDecl.bare = decls.map PropertyDecl.bare := by
  rw [show name.content = (.identifier, name.value) from congrArg (·, _) word]
  refine expectThen (.identifier, name.value) fun named isName => ?_
  refine expectThen (.openCurly, opening) fun _ _ => get fun stream ahead => ?_
  have enough : contents.length ≤ stream.depth := by
    have counted := congrArg List.length ahead
    simp only [List.length_map, List.length_append] at counted
    rw [TokenStream.depth]
    omega
  refine bind (properties spelled enough) fun read same => ?_
  refine expectThen (.closeCurly, closing) fun _ _ => pure ⟨?_, same⟩
  exact Token.bare_eq_of_content (isName.trans (congrArg (·, _) word.symm))

theorem Consumes.componentBody (place : Nat)
    : Consumes place Parse.componentBody fun used body => ∀ ending span,
        ComponentDecl.SpelledBy ⟨body.1, body.2, span⟩
          (used.map Token.content ++ [(.endOfFile, ending)]) := by
  refine expectThen (by decide) fun name word => expectThen (by decide) fun opening isOpening => ?_
  refine get fun stream => bind (properties _ _) fun used decls spelled => ?_
  refine expectThen (by decide) fun closing isClosing => pure ?_
  intro ending span
  have opened : opening.content = (.openCurly, opening.value) := congrArg (·, _) isOpening
  have closed : closing.content = (.closeCurly, closing.value) := congrArg (·, _) isClosing
  simp only [List.map_cons, List.map_append, List.map_nil, List.cons_append, List.append_assoc,
    List.nil_append, opened, closed]
  exact .mk word spelled

end Parse

namespace ComponentDecl

open Parse

/-- What spells a component is read as that component. -/
theorem read_of_spelledBy {decl : ComponentDecl} {tokens : List Token}
    (spelled : decl.SpelledBy (tokens.map Token.content)) (file : String)
    : ∃ read, ofTokens tokens file = .ok read ∧ read.bare = decl.bare := by
  generalize same : tokens.map Token.content = contents at spelled
  obtain ⟨word, spelled⟩ := spelled
  next opening closing ending properties =>
  have split_ : tokens.map Token.content =
      decl.name.content :: (.openCurly, opening) :: (properties ++ [(.closeCurly, closing)])
        ++ [(.endOfFile, ending)] := by
    simp [same]
  obtain ⟨before, after, rfl, front, back⟩ := List.map_eq_append_iff.mp split_
  obtain ⟨last, rfl, isLast⟩ := List.map_eq_singleton_iff.mp back
  have ended : last.kind = .endOfFile := congrArg Prod.fst isLast
  have closed : TokenStream.Closed ⟨before, last, file, 0⟩ := ended
  obtain ⟨body, middle, given, ⟨named, decls⟩, left⟩ :=
    Reads.componentBody word spelled ⟨before, last, file, 0⟩ (by rw [List.append_nil, front])
  obtain ⟨used, passes, -⟩ := Consumes.componentBody 0 _ closed rfl body middle given
  have nothing : middle.ahead = [] := by
    rw [left, List.drop_eq_nil_iff, ← front, List.length_map]
  have isEnd : middle.kind = .endOfFile := by
    rw [TokenStream.kind, TokenStream.current, TokenStream.peek_beyond (by simp [nothing]),
      passes.last]
    exact ended
  refine ⟨⟨body.1, body.2, { body.1.span with stop := middle.previousEnd }⟩, ?_, ?_⟩
  · rw [ofTokens, runOn, TokenStream.ofTokens_ended ended, StateT.run, component_eq,
      run_bind, given]
    dsimp only
    rw [run_componentEnd, if_pos isEnd]
  · rw [bare, bare, named, decls]

/-- What is read from a scanned text is spelled by its tokens. -/
theorem spelledBy_of_read {source file name : String} {tokens : List Token} {decl : ComponentDecl}
    (scanned : Token.scan source file = .ok tokens) (read : ofTokens tokens name = .ok decl)
    : decl.SpelledBy (tokens.map Token.content) := by
  obtain ⟨before, last, rfl, ended, inner⟩ := Token.scan_ended scanned
  have closed : TokenStream.Closed ⟨before, last, name, 0⟩ := ended
  rw [ofTokens, runOn, TokenStream.ofTokens_ended ended, StateT.run] at read
  cases outcome : component ⟨before, last, name, 0⟩ with
  | error error =>
      rw [outcome] at read
      cases read
  | ok result =>
      rw [outcome] at read
      obtain rfl := Except.ok.inj read
      rw [component_eq] at outcome
      obtain ⟨body, middle, given, finish⟩ := ok_of_run_bind outcome
      obtain ⟨used, passes, spelled⟩ := Consumes.componentBody 0 _ closed rfl body middle given
      rw [run_componentEnd] at finish
      split at finish
      · next isEnd =>
          obtain ⟨same, -⟩ := Prod.mk.inj (Except.ok.inj finish)
          have front : before = used ++ middle.ahead := passes.ahead
          -- Of the tokens of a text only the last one is an end of file.
          have nothing : middle.ahead = [] := by
            cases ahead : middle.ahead with
            | nil => rfl
            | cons token rest =>
                refine absurd ?_ (inner token ?_)
                · rw [TokenStream.kind, TokenStream.current, TokenStream.peek, ahead] at isEnd
                  exact isEnd
                · rw [front, ahead]
                  exact List.mem_append_right _ List.mem_cons_self
          rw [nothing, List.append_nil] at front
          rw [← same, List.map_append, List.map_singleton, front,
            show last.content = (.endOfFile, last.value) from congrArg (·, _) ended]
          exact spelled _ _
      · cases finish

/-- Declarative files are read by their grammar: the tokens of a text are read if and only if they
form a component, and then they spell what is read; whatever spells a component is read as that
component up to spans; and every component has a spelling whose names are words and whose fractions
have a text.
-/
theorem reading_matches_grammar
    : (∀ (source file name : String) (tokens : List Token),
        Token.scan source file = .ok tokens →
        ((∃ decl, ofTokens tokens name = .ok decl) ↔ IsComponent (tokens.map Token.content)) ∧
          ∀ decl, ofTokens tokens name = .ok decl → decl.SpelledBy (tokens.map Token.content)) ∧
      (∀ (decl : ComponentDecl) (tokens : List Token) (file : String),
        decl.SpelledBy (tokens.map Token.content) →
        ∃ read, ofTokens tokens file = .ok read ∧ read.bare = decl.bare) ∧
      ∀ decl : ComponentDecl, decl.Writable → ∃ contents, decl.SpelledBy contents := by
  refine ⟨fun source file name tokens scanned => ⟨⟨?_, ?_⟩, ?_⟩, ?_, ?_⟩
  · rintro ⟨decl, read⟩
    have numbers := (Token.spells_of_scanFrom _ scanned).numbers
    exact (spelledBy_of_read scanned read).isComponent numbers
  · intro isComponent
    have numbers := (Token.spells_of_scanFrom _ scanned).numbers
    obtain ⟨decl, spelled⟩ := isComponent.spells numbers
    obtain ⟨read, given, -⟩ := read_of_spelledBy spelled name
    exact ⟨read, given⟩
  · exact fun decl read => spelledBy_of_read scanned read
  · exact fun decl tokens file spelled => read_of_spelledBy spelled file
  · exact fun decl writable => writable.spells

/-- Witness: a component whose list ends with a comma. -/
theorem reading_matches_grammar_list
    : ∃ tokens, Token.scan "a\x7bb:[1,];\x7d" "f" = .ok tokens ∧
        let decl : ComponentDecl := ⟨⟨.identifier, "a", Span.unknown⟩,
          [⟨⟨.identifier, "b", Span.unknown⟩, .list [.int 1 Span.unknown] Span.unknown,
            Span.unknown⟩], Span.unknown⟩
        IsComponent (tokens.map Token.content) ∧
          (∃ read, ofTokens tokens "f" = .ok read ∧ read.bare = decl.bare) ∧
          ∃ contents, decl.SpelledBy contents := by
  obtain ⟨accepts, reads, spells⟩ := reading_matches_grammar
  have pieces : Token.Spells "a\x7bb:[1,];\x7d".toList
      [(.identifier, "a"), (.openCurly, "\x7b"), (.identifier, "b"), (.colon, ":"),
        (.openBracket, "["), (.integer, "1"), (.comma, ","), (.closeBracket, "]"),
        (.semicolon, ";"), (.closeCurly, "\x7d"), Token.endContent] := by
    have piece {c : Char} {rest : List Char} {kind : TokenKind} {text : String}
        {contents : List (TokenKind × String)} (after : Token.Spells rest contents)
        (scanned : Text.isBlank c = false ∧ Lexeme.scan c rest = .ok (.token kind text 0))
        : Token.Spells (c :: rest) ((kind, text) :: contents) :=
      .piece scanned.1 scanned.2 after
    refine piece (piece (piece (piece (piece (piece (piece (piece (piece (piece .nil ?_) ?_) ?_) ?_)
      ?_) ?_) ?_) ?_) ?_) ?_
    all_goals decide
  obtain ⟨tokens, scanned, same⟩ := Token.scanFrom_of_spells pieces "f" 0
  refine ⟨tokens, scanned, ?_⟩
  intro decl
  have list : ValueExpr.SpelledBy (.list [.int 1 Span.unknown] Span.unknown)
      ((.openBracket, "[") :: ([(.integer, "1")] ++ [(.comma, ",")] ++ [(.closeBracket, "]")])) :=
    .list (.int (by decide)) .comma
  have property : PropertyDecl.AllSpelledBy decl.properties
      ((.identifier, "b") :: (.colon, ":")
        :: ((.openBracket, "[") :: ([(.integer, "1")] ++ [(.comma, ",")] ++ [(.closeBracket, "]")])
          ++ (.semicolon, ";") :: [])) :=
    .property rfl (.inr rfl) list .done
  have spelled : decl.SpelledBy (tokens.map Token.content) := by
    rw [same]
    exact .mk rfl property
  have read := reads decl tokens "f" spelled
  refine ⟨(accepts _ "f" "f" tokens scanned).1.mp ⟨_, read.choose_spec.1⟩, read, spells decl ?_⟩
  refine ⟨rfl, List.forall_mem_singleton.mpr ⟨rfl, ?_⟩⟩
  exact ⟨trivial, trivial⟩

end ComponentDecl

end BuildScript
