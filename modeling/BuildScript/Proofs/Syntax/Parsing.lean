import BuildScript.Syntax.Parser.Stmt
import BuildScript.Syntax.Stmt
import BuildScript.Token.Lexer

/-! Scripts that can be written. The grammar admits only a declaration or an expression as the
start of a loop, and only words as the names of types and namespaces.

Qualified names tell their segments. Words have no colons, so that no two paths of words are
joined to the same name.

Scripts that are read are well formed. Identifiers are words from the scan of the text on, and
every reader hands on a stream whose identifiers are words.
-/

namespace BuildScript

/-- A word consists of letters, digits and underscores. -/
def isWord (text : String) : Bool := text.toList.all isWordPart

/-- What a loop may start with. Of these the checks accept all but the function. -/
def Stmt.isSimple : Stmt → Bool
  | .expression .. | .varDecl _ | .function _ => true
  | _ => false

mutual

/-- (wellFormed statement) requires loops to start with simple statements and names to be words,
in the statement and in all its parts.
-/
def Stmt.wellFormed : Stmt → Bool
  | .expression .. | .varDecl _ | .breakLoop _ | .returnValue .. | .importModule .. => true
  | .block body => body.wellFormed
  | .conditional branches none _ => Branch.allWellFormed branches
  | .conditional branches (some body) _ => Branch.allWellFormed branches && body.wellFormed
  | .whileLoop _ body _ => body.wellFormed
  | .forLoop initial? _ _ body _ => initial?.all Stmt.isSimple && body.wellFormed
  | .function decl => decl.wellFormed
  | .classDecl decl => decl.wellFormed
  | .enumDecl decl => isWord decl.name.value
  | .namespaceDecl names body _ =>
    names.all (fun name => isWord name.value) && Stmt.allWellFormed body

/-- (wellFormed block) requires it of every statement of a block. -/
def Block.wellFormed : Block → Bool
  | .mk body _ => Stmt.allWellFormed body

/-- (wellFormed function) requires it of the body of a function. -/
def FunctionDecl.wellFormed : FunctionDecl → Bool
  | .mk _ _ _ body _ _ => body.wellFormed

/-- (wellFormed class) requires it of the member functions and of the name of a class. -/
def ClassDecl.wellFormed : ClassDecl → Bool
  | .mk name _ members _ _ => isWord name.value && ClassMember.allWellFormed members

/-- (allWellFormed statements) requires it of several statements. -/
def Stmt.allWellFormed : List Stmt → Bool
  | [] => true
  | first :: rest => first.wellFormed && Stmt.allWellFormed rest

/-- (allWellFormed branches) requires it of the bodies of several branches. -/
def Branch.allWellFormed : List Branch → Bool
  | [] => true
  | .mk _ body :: rest => body.wellFormed && Branch.allWellFormed rest

/-- (allWellFormed members) requires it of the functions among several members. -/
def ClassMember.allWellFormed : List ClassMember → Bool
  | [] => true
  | .varDecl _ :: rest => ClassMember.allWellFormed rest
  | .function decl :: rest => decl.wellFormed && ClassMember.allWellFormed rest

end

-----------------------------------------------------------------------------------------
-- Qualified names
-----------------------------------------------------------------------------------------

/-- No colon is part of a word. -/
theorem ne_colon_of_isWordPart {c : Char} (part : isWordPart c = true) : c ≠ ':' := by
  rintro rfl
  exact absurd part (by decide)

/-- Two words that are followed by nothing or by a colon are the same if the texts are, by
induction over the words.
-/
theorem word_append_inj {first second rest others : List Char}
    (firstWord : first.all isWordPart = true) (secondWord : second.all isWordPart = true)
    (restStart : ∀ c, rest.head? = some c → c = ':')
    (othersStart : ∀ c, others.head? = some c → c = ':')
    (same : first ++ rest = second ++ others)
    : first = second ∧ rest = others := by
  induction first generalizing second with
  | nil =>
      cases second with
      | nil => exact ⟨rfl, same⟩
      | cons c second =>
          have start : rest.head? = some c := by
            rw [List.nil_append] at same
            rw [same]
            rfl
          simp only [List.all_cons, Bool.and_eq_true] at secondWord
          exact absurd (restStart c start) (ne_colon_of_isWordPart secondWord.1)
  | cons c first ih =>
      simp only [List.all_cons, Bool.and_eq_true] at firstWord
      cases second with
      | nil =>
          have start : others.head? = some c := by
            rw [List.nil_append] at same
            rw [← same]
            rfl
          exact absurd (othersStart c start) (ne_colon_of_isWordPart firstWord.1)
      | cons d second =>
          simp only [List.all_cons, Bool.and_eq_true] at secondWord
          simp only [List.cons_append, List.cons.injEq] at same
          obtain ⟨rfl, same⟩ := same
          obtain ⟨rfl, rests⟩ := ih firstWord.2 secondWord.2 same
          exact ⟨rfl, rests⟩

/-- The characters of a path after its first segment. -/
def afterSegment (path : List String) : List Char :=
  if path.isEmpty then [] else ':' :: ':' :: (TypeExpr.joinPath path).toList

theorem toList_joinPath_cons (name : String) (rest : List String)
    : (TypeExpr.joinPath (name :: rest)).toList = name.toList ++ afterSegment rest := by
  cases rest with
  | nil => simp [TypeExpr.joinPath, afterSegment]
  | cons second rest =>
      rw [TypeExpr.joinPath, String.intercalate_cons_of_ne_nil (by simp), afterSegment,
        if_neg (by simp)]
      simp [TypeExpr.joinPath]

theorem afterSegment_start (path : List String)
    : ∀ c, (afterSegment path).head? = some c → c = ':' := by
  intro c start
  unfold afterSegment at start
  split at start
  · exact nomatch start
  · cases start
    rfl

/-- Paths of words that are joined to the same name are the same, by induction over the first. -/
theorem joinPath_injective {first second : List String} (firstSome : first ≠ [])
    (secondSome : second ≠ []) (firstWords : ∀ name ∈ first, isWord name = true)
    (secondWords : ∀ name ∈ second, isWord name = true)
    (same : TypeExpr.joinPath first = TypeExpr.joinPath second)
    : first = second := by
  induction first generalizing second with
  | nil => exact absurd rfl firstSome
  | cons name rest ih =>
      cases second with
      | nil => exact absurd rfl secondSome
      | cons other others =>
          have chars := congrArg String.toList same
          rw [toList_joinPath_cons, toList_joinPath_cons] at chars
          obtain ⟨names, rests⟩ := word_append_inj (firstWords name (.head _))
            (secondWords other (.head _)) (afterSegment_start rest) (afterSegment_start others)
            chars
          have sameName : name = other := String.toList_injective names
          have firstRest : ∀ name ∈ rest, isWord name = true :=
            fun name among => firstWords name (.tail _ among)
          have secondRest : ∀ name ∈ others, isWord name = true :=
            fun name among => secondWords name (.tail _ among)
          subst sameName
          cases rest with
          | nil =>
              cases others with
              | nil => rfl
              | cons third fourth => exact nomatch rests
          | cons third fourth =>
              cases others with
              | nil => exact nomatch rests
              | cons fifth sixth =>
                  have joined : TypeExpr.joinPath (third :: fourth)
                      = TypeExpr.joinPath (fifth :: sixth) := by
                    simp only [afterSegment, List.isEmpty_cons, Bool.false_eq_true, if_false,
                      List.cons.injEq, true_and] at rests
                    exact String.toList_injective rests
                  rw [ih (by simp) (by simp) firstRest secondRest joined]

/-- A name that is joined from words consists of parts of words and colons, by induction over the
path.
-/
theorem joinPath_chars {path : List String} (words : ∀ name ∈ path, isWord name = true)
    : ∀ c ∈ (TypeExpr.joinPath path).toList, isWordPart c = true ∨ c = ':' := by
  induction path with
  | nil => simp [TypeExpr.joinPath]
  | cons name rest ih =>
      intro c among
      rw [toList_joinPath_cons] at among
      rcases List.mem_append.mp among with inName | after
      · exact .inl (List.all_eq_true.mp (words name (.head _)) c inName)
      · unfold afterSegment at after
        split at after
        · exact nomatch after
        · rcases List.mem_cons.mp after with rfl | after
          · exact .inr rfl
          · rcases List.mem_cons.mp after with rfl | after
            · exact .inr rfl
            · exact ih (fun name among => words name (.tail _ among)) c after

-----------------------------------------------------------------------------------------
-- Tokens
-----------------------------------------------------------------------------------------

/-- A token is sound when it is a word in case it is an identifier. -/
def Token.Sound (token : Token) : Prop := token.kind = .identifier → isWord token.value = true

theorem isWordPart_of_start {c : Char} (start : isWordStart c = true) : isWordPart c = true := by
  simp only [isWordStart, isWordPart, Char.isAlphanum, Bool.or_eq_true] at start ⊢
  exact start.imp_left .inl

/-- The piece of text that begins with a letter is a word. -/
theorem Lexeme.word_sound {c : Char} (start : isWordStart c = true) (rest : List Char)
    : isWord (String.ofList (c :: rest.takeWhile isWordPart)) = true := by
  simp only [isWord, String.toList_ofList, List.all_cons, Bool.and_eq_true]
  exact ⟨isWordPart_of_start start, List.all_takeWhile⟩

/-- No operator has the class of identifiers. -/
theorem Lexeme.operator?_kind {text : List Char} {lexeme : Lexeme}
    (found : Lexeme.operator? text = some lexeme)
    : ∃ kind value, lexeme.content? = some (kind, value) ∧ kind ≠ .identifier := by
  simp only [Lexeme.operator?, Option.map_eq_some_iff] at found
  obtain ⟨kind, search, rfl⟩ := found
  refine ⟨kind, kind.text, rfl, ?_⟩
  rintro rfl
  exact absurd (List.mem_of_find?_eq_some search) (by decide)

/-- No text that is read as an operator is an identifier. -/
theorem Lexeme.orOperator_not_identifier {text : List Char} {lexeme : Lexeme} {value : String}
    {other : SyntaxFault}
    (taken : (match Lexeme.operator? text with
      | some found => .ok found
      | none => .error other : Except SyntaxFault Lexeme) = .ok lexeme)
    : lexeme.content? ≠ some (.identifier, value) := by
  intro content
  split at taken
  · next found search =>
      cases taken
      obtain ⟨kind, text, same, different⟩ := Lexeme.operator?_kind search
      rw [content] at same
      cases same
      exact different rfl
  · cases taken

/-- A piece of text that is an identifier is a word, by cases on its first character. -/
theorem Lexeme.scan_sound {c : Char} {rest : List Char} {lexeme : Lexeme} {value : String}
    (scanned : Lexeme.scan c rest = .ok lexeme)
    (content : lexeme.content? = some (.identifier, value))
    : isWord value = true := by
  have fallback {other : SyntaxFault} :=
    @Lexeme.orOperator_not_identifier (c :: rest) lexeme value other
  unfold Lexeme.scan at scanned
  split at scanned
  · next start =>
      cases scanned
      simp only [Lexeme.word, Lexeme.token, Option.some.injEq, Prod.mk.injEq] at content
      rw [← content.2]
      exact Lexeme.word_sound start rest
  split at scanned
  · cases scanned
    simp only [Lexeme.number, Lexeme.token, Option.some.injEq, Prod.mk.injEq] at content
    split at content <;> cases content.1
  split at scanned
  · cases scanned
    cases content
  dsimp only at scanned
  split at scanned
  · split at scanned
    · cases scanned
      cases content
    · exact absurd content (fallback scanned)
  · cases scanned
    cases content
  · split at scanned
    · cases scanned
      cases content
    · cases scanned
  · exact absurd content (fallback scanned)

/-- The tokens of a text are sound, by induction over the text. -/
theorem Token.scanFrom_sound (file : String)
    : ∀ (offset : Nat) (text : List Char) {tokens : List Token},
        Token.scanFrom file offset text = .ok tokens → ∀ token ∈ tokens, token.Sound
  | offset, [], tokens, scanned => by
    rw [Token.scanFrom] at scanned
    cases scanned
    intro token member
    rw [List.mem_singleton.mp member]
    rintro ⟨⟩
  | offset, c :: rest, tokens, scanned => by
    rw [Token.scanFrom] at scanned
    split at scanned
    · cases scanned
    · next lexeme found =>
        dsimp only at scanned
        split at scanned
        · cases scanned
        · next following _ =>
            cases scanned
            exact scanFrom_sound file _ _ following
        · next following content =>
            cases scanned
            intro token member
            rcases List.mem_cons.mp member with rfl | member
            · intro identifier
              simp only at identifier
              subst identifier
              exact Lexeme.scan_sound found content
            · exact scanFrom_sound file _ _ following token member
termination_by _ text => text.length
decreasing_by
  all_goals
    simp only [List.length_drop, List.length_cons]
    omega

-----------------------------------------------------------------------------------------
-- Readers
-----------------------------------------------------------------------------------------

/-- A stream is sound when all its tokens are. -/
def TokenStream.Sound (stream : TokenStream) : Prop :=
  ∀ token ∈ stream.last :: stream.ahead, token.Sound

/-- The stream of sound tokens is sound, by cases on the last token. -/
theorem TokenStream.ofTokens_sound {tokens : List Token} (sound : ∀ token ∈ tokens, token.Sound)
    (file : String)
    : (TokenStream.ofTokens tokens file).Sound := by
  unfold TokenStream.ofTokens
  split
  · intro token member
    rw [List.mem_singleton.mp member]
    exact fun impossible => nomatch impossible
  · next last before reversed =>
      have same : tokens = before.reverse ++ [last] := by
        rw [← List.reverse_reverse tokens, reversed, List.reverse_cons]
      split
      · intro token member
        apply sound token
        rw [same]
        simpa [or_comm] using member
      · intro token member
        rcases List.mem_cons.mp member with rfl | member
        · exact fun impossible => nomatch impossible
        · exact sound token member

theorem TokenStream.Sound.advance {stream : TokenStream} (sound : stream.Sound)
    : stream.advance.Sound := by
  unfold TokenStream.advance
  split
  · exact sound
  · next token rest ahead =>
      intro other member
      apply sound other
      rw [ahead]
      rcases List.mem_cons.mp member with rfl | member
      · exact List.mem_cons_self
      · exact List.mem_cons_of_mem _ (List.mem_cons_of_mem _ member)

theorem TokenStream.Sound.current {stream : TokenStream} (sound : stream.Sound)
    : stream.current.Sound := by
  apply sound
  unfold TokenStream.current TokenStream.peek
  cases found : stream.ahead[0]? with
  | none => exact List.mem_cons_self
  | some token => exact List.mem_cons_of_mem _ (List.mem_of_getElem? found)

namespace Parse

variable {α β : Type}

/-- A reader yields what meets a condition when it does so on every sound stream, and hands on a
sound stream.
-/
def Yields (reader : Parse α) (met : α → Prop) : Prop :=
  ∀ stream, stream.Sound → ∀ value after, reader stream = .ok (value, after) →
    after.Sound ∧ met value

/-- A reader is sound when it hands on sound streams. -/
abbrev Sound (reader : Parse α) : Prop := reader.Yields fun _ => True

/-- A reader that gives what it does not read is sound. -/
theorem Sound.pure (value : α) : Sound (Pure.pure value) := by
  intro stream sound given after outcome
  cases outcome
  exact ⟨sound, trivial⟩

namespace Yields

variable {met : α → Prop} {then_ : β → Prop}

theorem pure {value : α} (holds : met value) : Yields (Pure.pure value) met := by
  intro stream sound given after outcome
  cases outcome
  exact ⟨sound, holds⟩

theorem bind {reader : Parse α} {next : α → Parse β} (first : reader.Yields met)
    (second : ∀ value, met value → (next value).Yields then_)
    : (reader >>= next).Yields then_ := by
  intro stream sound value after outcome
  have unfolded : (reader >>= next) stream =
      (reader stream).bind fun given => next given.1 given.2 := rfl
  rw [unfolded] at outcome
  cases started : reader stream with
  | error error =>
      rw [started] at outcome
      cases outcome
  | ok result =>
      obtain ⟨given, middle⟩ := result
      rw [started] at outcome
      obtain ⟨middleSound, holds⟩ := first stream sound given middle started
      exact second given holds middle middleSound value after outcome

theorem map {reader : Parse α} {change : α → β} (first : reader.Yields met)
    (implied : ∀ value, met value → then_ (change value))
    : (change <$> reader).Yields then_ := by
  rw [← bind_pure_comp]
  exact first.bind fun value holds => .pure (implied value holds)

theorem weaken {reader : Parse α} {weaker : α → Prop} (yields : reader.Yields met)
    (implied : ∀ value, met value → weaker value)
    : reader.Yields weaker := by
  intro stream sound value after outcome
  obtain ⟨afterSound, holds⟩ := yields stream sound value after outcome
  exact ⟨afterSound, implied value holds⟩

theorem get : Yields (MonadState.get : Parse TokenStream) TokenStream.Sound := by
  intro stream sound value after outcome
  cases outcome
  exact ⟨sound, sound⟩

theorem soundMap {reader : Parse α} (sound : reader.Sound) (change : α → β)
    : (change <$> reader).Sound :=
  sound.map fun _ _ => trivial

theorem throw (error : SyntaxError) : Yields (MonadExcept.throw error : Parse α) met :=
  fun _ _ _ _ outcome => nomatch outcome

theorem kind : Parse.kind.Sound := get.bind fun _ _ => .pure trivial

theorem next : Parse.next.Yields Token.Sound := by
  intro stream sound value after outcome
  cases outcome
  exact ⟨sound.advance, sound.current⟩

theorem unexpected : Yields (Parse.unexpected : Parse α) met := get.bind fun _ _ => throw _

theorem unmet (expectation : Expectation) : Yields (Parse.unmet expectation : Parse α) met :=
  get.bind fun _ _ => throw _

/-- An expected token is of the class that is expected. -/
theorem expect (wanted : TokenKind)
    : (Parse.expect wanted).Yields fun token => token.kind = wanted ∧ token.Sound := by
  intro stream sound value after outcome
  have unfolded : Parse.expect wanted stream =
      if stream.kind == wanted then Parse.next stream
      else (Parse.unmet (.token wanted) : Parse Token) stream := by
    show (if stream.kind == wanted then Parse.next else Parse.unmet (.token wanted)) stream = _
    split <;> rfl
  rw [unfolded] at outcome
  split at outcome
  · next same =>
      cases outcome
      exact ⟨sound.advance, eq_of_beq same, sound.current⟩
  · exact nomatch outcome

/-- An expected identifier is a word. -/
theorem expectWord
    : (Parse.expect .identifier).Yields fun token => isWord token.value = true :=
  (expect .identifier).weaken fun _ holds => holds.2 holds.1

theorem accept (wanted : TokenKind) : (Parse.accept wanted).Sound := by
  refine kind.bind fun _ _ => ?_
  split
  · exact next.bind fun _ _ => .pure trivial
  · exact .pure trivial

theorem spanFrom (first : Span) : (Parse.spanFrom first).Sound := get.bind fun _ _ => .pure trivial

/-- An attempt hands on the stream that it was given when it fails. -/
theorem attempt {reader : Parse α} (yields : reader.Yields met)
    : (Parse.attempt reader).Yields fun value? => ∀ value, value? = some value → met value := by
  intro stream sound value? after outcome
  unfold Parse.attempt at outcome
  split at outcome
  · next value _ read =>
      cases outcome
      obtain ⟨middleSound, holds⟩ := yields stream sound value after read
      refine ⟨middleSound, fun given same => ?_⟩
      cases same
      exact holds
  · cases outcome
    exact ⟨sound, fun value impossible => nomatch impossible⟩

end Yields

end Parse

end BuildScript
