import BuildScript.Proofs.Syntax.Descent
import BuildScript.Proofs.Syntax.ExprAgreement
import BuildScript.Proofs.Syntax.TypeReading
import BuildScript.Proofs.Syntax.Parsing
import BuildScript.Proofs.Token.Coverage
import BuildScript.Proofs.Token.Layout

/-! The canonical spelling of a type is scanned and read back as the type. A type that is read
consists of words among the tokens that are consumed, and words are scanned as they were before.
In the spelling no two marks stand together that are scanned as one operator.
-/

namespace BuildScript

open Text

-----------------------------------------------------------------------------------------
-- Scanned words
-----------------------------------------------------------------------------------------

/-- What is scanned is a word, a number, no token, a string or an operator. -/
theorem Lexeme.scan_cases {c : Char} {rest : List Char} {lexeme : Lexeme}
    (scanned : Lexeme.scan c rest = .ok lexeme)
    : isWordStart c = true ∧ lexeme = word c rest ∨ c.isDigit = true ∧ lexeme = number c rest ∨
        lexeme.content? = none ∨ (∃ text tail, lexeme = token .string text tail) ∨
        operator? (c :: rest) = some lexeme := by
  unfold Lexeme.scan at scanned
  split at scanned
  · next start => exact .inl ⟨start, (Except.ok.inj scanned).symm⟩
  split at scanned
  · next digit => exact .inr (.inl ⟨digit, (Except.ok.inj scanned).symm⟩)
  refine .inr (.inr ?_)
  split at scanned
  · obtain rfl := Except.ok.inj scanned
    exact .inl rfl
  -- Whatever else is tried first, an operator is taken in the end, or nothing.
  cases search : operator? (c :: rest) with
  | none =>
      simp only [search] at scanned
      split at scanned
      · split at scanned
        · obtain rfl := Except.ok.inj scanned
          exact .inr (.inl ⟨_, _, rfl⟩)
        · cases scanned
      · obtain rfl := Except.ok.inj scanned
        exact .inl rfl
      · split at scanned
        · obtain rfl := Except.ok.inj scanned
          exact .inl rfl
        · cases scanned
      · cases scanned
  | some found =>
      simp only [search] at scanned
      split at scanned
      · split at scanned
        · obtain rfl := Except.ok.inj scanned
          exact .inr (.inl ⟨_, _, rfl⟩)
        · obtain rfl := Except.ok.inj scanned
          exact .inr (.inr rfl)
      · obtain rfl := Except.ok.inj scanned
        exact .inl rfl
      · split at scanned
        · obtain rfl := Except.ok.inj scanned
          exact .inl rfl
        · cases scanned
      · obtain rfl := Except.ok.inj scanned
        exact .inr (.inr rfl)

namespace Token

/-- The classes of the words that a type may consist of. -/
abbrev typeWords : List TokenKind := [.identifier, .autoKeyword]

/-- (SpellsWord content) says that the text of a token is a word of the class of the token. -/
def SpellsWord (content : TokenKind × String) : Prop :=
  ∃ c part, content.2 = String.ofList (c :: part) ∧ isWordStart c = true ∧
    (∀ d ∈ part, isWordPart d = true) ∧ TokenKind.ofWord content.2 = content.1

/-- A token that may be part of a type is spelled by a word, by cases on how it was scanned. -/
theorem scan_spellsWord {c : Char} {rest : List Char} {lexeme : Lexeme}
    (scanned : Lexeme.scan c rest = .ok lexeme)
    : ∀ content ∈ lexeme.content?, content.1 ∈ typeWords → SpellsWord content := by
  intro content here isWord
  rcases Lexeme.scan_cases scanned with ⟨start, rfl⟩ | ⟨-, rfl⟩ | none_ | ⟨text, tail, rfl⟩ | search
  · cases here
    exact ⟨c, rest.takeWhile isWordPart, rfl, start, fun d among =>
      List.mem_takeWhile_imp among, rfl⟩
  · cases here
    dsimp only at isWord
    split at isWord <;> exact absurd isWord (by decide)
  · rw [none_] at here
    cases here
  · cases here
    exact absurd isWord (show TokenKind.string ∉ typeWords by decide)
  · have table : ∀ kind ∈ TokenKind.operators, kind ∉ typeWords := by
      decide
    obtain ⟨kind, found, rfl⟩ := Option.map_eq_some_iff.mp search
    cases here
    exact absurd isWord (table kind (List.mem_of_find?_eq_some found))

theorem Spells.words {text : List Char} {contents : List (TokenKind × String)}
    (spells : Spells text contents)
    : ∀ content ∈ contents, content.1 ∈ typeWords → SpellsWord content := by
  induction spells with
  | nil =>
      intro content among isWord
      rw [List.mem_singleton.mp among] at isWord
      exact absurd isWord (by decide)
  | blank _ _ ih => exact ih
  | piece _ scanned _ ih =>
      intro content among
      rcases List.mem_append.mp among with here | later
      · exact scan_spellsWord scanned content (Option.mem_toList.mp here)
      · exact ih content later

-----------------------------------------------------------------------------------------
-- Words and marks in a text
-----------------------------------------------------------------------------------------

variable {rest : List Char} {contents : List (TokenKind × String)}

/-- A word is scanned up to what is no part of one. -/
theorem Spells.word {content : TokenKind × String} (spelled : SpellsWord content)
    (ends : ∀ d ∈ rest.head?, isWordPart d = false) (after : Spells rest contents)
    : Spells (content.2.toList ++ rest) (content :: contents) := by
  obtain ⟨kind, value⟩ := content
  obtain ⟨c, part, rfl, start, parts, same⟩ := spelled
  have solid : isBlank c = false := by
    cases blank : isBlank c with
    | false => rfl
    | true => exact nomatch (wordStart_of_blank blank).symm.trans start
  have scanned : Lexeme.scan c (part ++ rest) =
      .ok (.token kind (String.ofList (c :: part)) part.length) := by
    rw [Lexeme.scan, if_pos start, Lexeme.word, Lexeme.takeWhile_append_stopped parts ends]
    exact congrArg (fun kind => Except.ok (Lexeme.token kind _ _)) same
  rw [String.toList_ofList]
  refine Spells.piece solid scanned ?_
  show Spells ((part ++ rest).drop part.length) contents
  rw [List.drop_left]
  exact after

/-- (IsMark kind c part longer) says that an operator is spelled `c :: part`, and that what comes
before it in the table begins otherwise, or with the operator and one of the characters `longer`.
-/
def IsMark (kind : TokenKind) (c : Char) (part longer : List Char) : Prop :=
  c ∈ ['<', '>', '&', ',', ':', '-'] ∧ kind ∈ TokenKind.operators ∧ kind.text.toList = c :: part ∧
    ∀ other ∈ TokenKind.operators.takeWhile (· != kind),
      other.text.toList.head? ≠ some c
        ∨ other.text.toList ∈ longer.map fun d => c :: (part ++ [d])

instance (kind : TokenKind) (c : Char) (part longer : List Char)
    : Decidable (IsMark kind c part longer) := by
  unfold IsMark
  infer_instance

/-- A mark is found where nothing longer stands. -/
theorem IsMark.operator? {kind : TokenKind} {c : Char} {part longer : List Char}
    (isMark : IsMark kind c part longer) (ends : ∀ d ∈ rest.head?, d ∉ longer)
    : Lexeme.operator? (c :: (part ++ rest)) = some (.token kind kind.text part.length) := by
  obtain ⟨-, listed, text, table⟩ := isMark
  obtain ⟨before, after, split_, first⟩ := List.eq_append_cons_of_mem listed
  have earlier : TokenKind.operators.takeWhile (· != kind) = before := by
    rw [split_, List.takeWhile_append_of_pos, List.takeWhile_cons_of_neg, List.append_nil]
    · simp
    · intro other among
      rw [bne_iff_ne]
      rintro rfl
      exact first among
  rw [earlier] at table
  rw [Lexeme.operator?, List.find?_eq_some_iff_append.mpr ⟨?_, _, _, split_, ?_⟩]
  · rw [Option.map_some, ← String.length_toList, text]
    rfl
  · rw [List.isPrefixOf_iff_prefix, text, ← List.cons_append]
    exact List.prefix_append _ _
  · intro other among
    rw [Bool.not_eq_true', Bool.eq_false_iff, ne_eq, List.isPrefixOf_iff_prefix]
    rintro ⟨more, same⟩
    have inTable : other ∈ TokenKind.operators := by
      rw [split_]
      exact List.mem_append_left _ among
    rcases table other among with different | goesOn
    · rcases Lexeme.operators_text inTable with ⟨e, text⟩ | ⟨e, f, text, -⟩
      · rw [text] at same different
        exact different (congrArg some (List.cons.inj same).1)
      · rw [text] at same different
        exact different (congrArg some (List.cons.inj same).1)
    · obtain ⟨d, among, longer_⟩ := List.mem_map.mp goesOn
      rw [← longer_, List.cons_append, List.append_assoc] at same
      have stands := List.append_cancel_left (List.cons.inj same).2
      exact ends d (by rw [← stands]; rfl) among

/-- A mark is scanned where nothing longer stands. -/
theorem Spells.mark {kind : TokenKind} {c : Char} {part longer : List Char}
    (isMark : IsMark kind c part longer) (ends : ∀ d ∈ rest.head?, d ∉ longer)
    (after : Spells rest contents)
    : Spells (c :: (part ++ rest)) (kind.mark :: contents) := by
  have plain : ∀ c ∈ ['<', '>', '&', ',', ':', '-'], isWordStart c = false ∧ c.isDigit = false ∧
      isBlank c = false ∧ c ≠ '"' ∧ c ≠ '/' := by
    simp only [List.forall_mem_cons, List.not_mem_nil, false_implies, implies_true]
    decide
  obtain ⟨noWord, noDigit, solid, noQuote, noSlash⟩ := plain c isMark.1
  have scanned : Lexeme.scan c (part ++ rest) = .ok (.token kind kind.text part.length) := by
    rw [Lexeme.scan, noWord, noDigit, solid, if_neg Bool.false_ne_true, if_neg Bool.false_ne_true,
      if_neg Bool.false_ne_true]
    dsimp only
    split
    · exact absurd rfl noQuote
    · exact absurd rfl noSlash
    · exact absurd rfl noSlash
    · rw [isMark.operator? ends]
  refine Spells.piece solid scanned ?_
  show Spells ((part ++ rest).drop part.length) contents
  rw [List.drop_left]
  exact after

theorem isMark_less : IsMark .less '<' [] ['='] := by decide

theorem isMark_greater : IsMark .greater '>' [] ['='] := by decide

theorem isMark_amp : IsMark .amp '&' [] ['&'] := by decide

theorem isMark_comma : IsMark .comma ',' [] [] := by decide

theorem isMark_dash : IsMark .dash '-' [] ['-', '='] := by decide

theorem isMark_colonColon : IsMark .colonColon ':' [':'] [] := by decide

/-- The segments of a name are scanned up to what is no part of a word, by induction over them. -/
theorem Spells.names {names : List Token} (some_ : names ≠ [])
    (words : ∀ name ∈ names, SpellsWord name.content)
    (ends : ∀ d ∈ rest.head?, isWordPart d = false) (after : Spells rest contents)
    : Spells ((TypeExpr.joinPath (names.map (·.value))).toList ++ rest)
        (printNames names ++ contents) := by
  induction names with
  | nil => exact absurd rfl some_
  | cons name names ih =>
      have here := words name List.mem_cons_self
      rw [List.map_cons, toList_joinPath_cons, List.append_assoc]
      cases names with
      | nil => exact Spells.word here ends after
      | cons second names =>
          have later := ih (List.cons_ne_nil _ _) fun name among =>
            words name (List.mem_cons_of_mem _ among)
          refine Spells.word here (fun d first => by cases first; rfl) ?_
          show Spells (':' :: ([':'] ++ _)) _
          exact Spells.mark isMark_colonColon (fun d _ => List.not_mem_nil) later

end Token

-----------------------------------------------------------------------------------------
-- Spelling
-----------------------------------------------------------------------------------------

mutual

/-- (words type) are the words that a type consists of, those of its arguments included. -/
def TypeExpr.words : TypeExpr → List Token
  | ⟨names, generics, _, _⟩ => names ++ TypeExpr.allWords generics

/-- (allWords types) are the words of several types. -/
def TypeExpr.allWords : List TypeExpr → List Token
  | [] => []
  | first :: rest => first.words ++ TypeExpr.allWords rest

end

theorem TypeExpr.allWords_eq_flatMap (types : List TypeExpr)
    : allWords types = types.flatMap words := by
  induction types with
  | nil => rfl
  | cons first rest ih => rw [allWords, ih, List.flatMap_cons]

namespace TypeExpr

open Token

/-- (EndsType rest) says that a text ends, or goes on behind a type argument. -/
def EndsType (rest : List Char) : Prop := ∀ d ∈ rest.head?, d = ',' ∨ d = '>'

theorem EndsType.other {rest : List Char} (ends : EndsType rest) {others : List Char}
    (comma : ',' ∉ others) (greater : '>' ∉ others)
    : ∀ d ∈ rest.head?, d ∉ others := by
  intro d first
  rcases ends d first with rfl | rfl
  · exact comma
  · exact greater

theorem toList_texts_cons (type : TypeExpr) (types : List TypeExpr)
    : (", ".intercalate (texts (type :: types))).toList =
        type.text.toList ++
          if types.isEmpty then [] else ',' :: ' ' :: (", ".intercalate (texts types)).toList := by
  cases types with
  | nil => simp [texts]
  | cons second types =>
      rw [texts, texts, String.intercalate_cons_of_ne_nil (List.cons_ne_nil _ _)]
      simp

theorem Writable.some_names {type : TypeExpr} (writable : type.Writable) : type.names ≠ [] := by
  obtain ⟨names, generics, isReference, span⟩ := type
  rcases writable with ⟨name, _, rfl, _⟩ | ⟨isName, _⟩
  · exact List.cons_ne_nil _ _
  · exact isName.1

/-- The spelling of a type begins with a letter. -/
theorem text_begins {type : TypeExpr} (writable : type.Writable)
    (words : ∀ word ∈ type.words, SpellsWord word.content)
    : ∃ c rest, type.text.toList = c :: rest ∧ isWordStart c = true := by
  have some_ := writable.some_names
  obtain ⟨names, generics, isReference, span⟩ := type
  cases names with
  | nil => exact absurd rfl some_
  | cons name names =>
      obtain ⟨c, part, value, start, -⟩ := words name List.mem_cons_self
      rw [text, List.map_cons, String.toList_append, String.toList_append, toList_joinPath_cons,
        show name.value = String.ofList (c :: part) from value, String.toList_ofList]
      exact ⟨c, _, rfl, start⟩

mutual

/-- A type is scanned word by word and mark by mark up to what ends it, by cases on its parts. -/
theorem spells_text (type : TypeExpr) {rest : List Char} {contents : List (TokenKind × String)}
    (writable : type.Writable) (words : ∀ word ∈ type.words, SpellsWord word.content)
    (ends : EndsType rest) (after : Spells rest contents)
    : Spells (type.text.toList ++ rest) (type.print ++ contents) := by
  obtain ⟨names, generics, isReference, span⟩ := type
  have parts := TypeExpr.allWritable_iff.mpr writable.generics
  have isName := writable.some_names
  rw [TypeExpr.words] at words
  rw [text, print, String.toList_append, String.toList_append, List.append_assoc,
    List.append_assoc, List.append_assoc, List.append_assoc]
  have noWord : ∀ d ∈ ['&', ',', '>'], isWordPart d = false := by
    simp only [List.forall_mem_cons, List.not_mem_nil, false_implies, implies_true]
    decide
  have noEquals : ∀ d ∈ ['&', ',', '>'], d ∉ ['='] := by
    simp only [List.forall_mem_cons, List.not_mem_nil, false_implies, implies_true]
    decide
  -- The mark of a reference, and what ends the type where there is none.
  have marked : Spells ((if isReference then "&" else "").toList ++ rest)
      ((if isReference then [TokenKind.amp.mark] else []) ++ contents) := by
    cases isReference with
    | false => exact after
    | true => exact Spells.mark isMark_amp (ends.other (by decide) (by decide)) after
  have begins : ∀ d ∈ ((if isReference then "&" else "").toList ++ rest).head?,
      d ∈ ['&', ',', '>'] := by
    intro d first
    cases isReference with
    | false => exact List.mem_cons_of_mem _ (by rcases ends d first with rfl | rfl <;> decide)
    | true => exact Option.some.inj first ▸ List.mem_cons_self
  have ownNames := fun name among => words name (List.mem_append_left _ among)
  cases generics with
  | nil => exact Spells.names isName ownNames (fun d first => noWord d (begins d first)) marked
  | cons first types =>
      have inner := fun word among => words word (List.mem_append_right _ among)
      have closed := Spells.mark isMark_greater (fun d first => noEquals d (begins d first)) marked
      have arguments := spells_texts (first :: types) (List.cons_ne_nil _ _) parts inner closed
      obtain ⟨c, more, shown, start⟩ := text_begins (parts.1) fun word among =>
        inner word (List.mem_append_left _ among)
      have opened := Spells.mark isMark_less (fun d here => by
        rw [toList_texts_cons, shown] at here
        obtain rfl := Option.some.inj here
        simp only [List.mem_singleton]
        rintro rfl
        exact absurd start (by decide)) arguments
      have shape : (if (first :: types).isEmpty then ""
          else "<" ++ ", ".intercalate (texts (first :: types)) ++ ">").toList =
          '<' :: ((", ".intercalate (texts (first :: types))).toList ++ ['>']) := by
        rw [if_neg (by simp), String.toList_append, String.toList_append]
        rfl
      rw [shape]
      simp only [List.isEmpty_cons, Bool.false_eq_true, if_false, List.cons_append,
        List.nil_append, List.append_assoc] at opened ⊢
      refine Spells.names isName ownNames (fun d first => ?_) opened
      exact Option.some.inj first ▸ rfl

/-- Type arguments are scanned one by one, up to the mark that closes them. -/
theorem spells_texts (types : List TypeExpr) {rest : List Char}
    {contents : List (TokenKind × String)} (some_ : types ≠ [])
    (writable : TypeExpr.AllWritable types)
    (words : ∀ word ∈ TypeExpr.allWords types, SpellsWord word.content)
    (after : Spells ('>' :: rest) contents)
    : Spells ((", ".intercalate (texts types)).toList ++ '>' :: rest)
        (separate (printAll types) ++ contents) := by
  cases types with
  | nil => exact absurd rfl some_
  | cons first types =>
      rw [TypeExpr.allWords] at words
      have here := fun word among => words word (List.mem_append_left _ among)
      rw [toList_texts_cons, List.append_assoc, printAll, separate, List.append_assoc]
      cases types with
      | nil =>
          refine spells_text first writable.1 here (fun d first => .inr ?_) after
          exact (Option.some.inj first).symm
      | cons second types =>
          have later := spells_texts (second :: types) (List.cons_ne_nil _ _) writable.2
            (fun word among => words word (List.mem_append_right _ among)) after
          have spaced : Spells (',' :: ' ' :: ((", ".intercalate (texts (second :: types))).toList
              ++ '>' :: rest)) _ :=
            Spells.mark isMark_comma (fun d _ => List.not_mem_nil) (.blank (by decide) later)
          have goesOn : EndsType (',' :: ' ' :: ((", ".intercalate (texts (second :: types))).toList
              ++ '>' :: rest)) :=
            fun d first => .inl (Option.some.inj first).symm
          have all := spells_text first writable.1 here goesOn spaced
          simpa only [separate, printAll, List.map_cons, List.flatMap_cons, List.isEmpty_cons,
            Bool.false_eq_true, if_false, List.cons_append, List.append_assoc] using all

end

end TypeExpr

-----------------------------------------------------------------------------------------
-- What is read
-----------------------------------------------------------------------------------------

namespace Parse

/-- (TypesRead nested) says that a reader of types gives types that can be written, and consumes
their words.
-/
def TypesRead (nested : Parse TypeExpr) : Prop :=
  ∀ place, Consumes place nested fun used type => type.Writable ∧ type.words ⊆ used

namespace Consumes

variable {place : Nat}

/-- Segments of a name are words, by induction over their number. -/
theorem moreSegments (place count : Nat)
    : Consumes place (Parse.moreSegments count) fun used names =>
        (∀ name ∈ names, name.kind = .identifier) ∧ names ⊆ used := by
  induction count generalizing place with
  | zero => exact pure ⟨List.forall_mem_nil _, List.nil_subset _⟩
  | succ count ih =>
      rintro stream closed rfl names after outcome
      rw [run_moreSegments] at outcome
      split at outcome
      · next goesOn =>
          have colons := closed.advance (by rw [goesOn.1]; decide)
          have shown : stream.advance.current = stream.peek 1 := TokenStream.peek_advance stream 0
          have word := (colons.closed closed).advance (by
            rw [TokenStream.kind, shown, goesOn.2]
            decide)
          rw [shown] at word
          have moved := colons.trans word
          obtain ⟨rest, middle, more, done⟩ := ok_of_run_bind outcome
          obtain ⟨rfl, rfl⟩ := Prod.mk.inj (Except.ok.inj done)
          obtain ⟨used, passes, words, among⟩ :=
            ih _ _ (moved.closed closed) rfl rest middle more
          refine ⟨_, moved.trans passes, List.forall_mem_cons.mpr ⟨goesOn.2, words⟩, ?_⟩
          simp only [List.cons_append, List.nil_append]
          exact fun name here => List.mem_cons_of_mem _ (List.cons_subset_cons _ among here)
      · obtain ⟨rfl, rfl⟩ := Prod.mk.inj (Except.ok.inj outcome)
        exact ⟨[], .refl stream, List.forall_mem_nil _, List.nil_subset _⟩

theorem qualifiedName
    : Consumes place Parse.qualifiedName fun used names => Token.IsName names ∧ names ⊆ used := by
  refine expectThen (by decide) fun first word => get fun stream => ?_
  refine (moreSegments _ _).bind fun used names read => pure ?_
  rw [List.append_nil]
  exact ⟨⟨List.cons_ne_nil _ _, List.forall_mem_cons.mpr ⟨word, read.1⟩⟩,
    List.cons_subset_cons _ read.2⟩

section Types

variable {nested : Parse TypeExpr} (parts : TypesRead nested)

include parts

theorem moreTypes (place count : Nat)
    : Consumes place (Parse.afterCommas nested count) fun used types =>
        TypeExpr.AllWritable types ∧ TypeExpr.allWords types ⊆ used := by
  induction count generalizing place with
  | zero => exact pure ⟨trivial, List.nil_subset _⟩
  | succ count ih =>
      refine acceptThen (by decide) (fun comma _ => ?_) (pure ⟨trivial, List.nil_subset _⟩)
      refine (parts _).bind fun used type first => (ih _).bind fun used' types rest => pure ?_
      rw [List.append_nil]
      refine ⟨⟨first.1, rest.1⟩, List.subset_cons_of_subset _ ?_⟩
      exact List.append_subset.mpr ⟨List.subset_append_of_subset_left _ first.2,
        List.subset_append_of_subset_right _ rest.2⟩

theorem typeArgumentsWith
    : Consumes place (Parse.typeArgumentsWith nested) fun used types =>
        TypeExpr.AllWritable types ∧ TypeExpr.allWords types ⊆ used := by
  have separated (place : Nat) : Consumes place (Parse.separated nested) fun used types =>
      TypeExpr.AllWritable types ∧ TypeExpr.allWords types ⊆ used := by
    refine (parts place).bind fun used type first => get fun stream => ?_
    refine (moreTypes parts _ _).bind fun used' types rest => pure ?_
    rw [List.append_nil]
    exact ⟨⟨first.1, rest.1⟩, List.append_subset.mpr
      ⟨List.subset_append_of_subset_left _ first.2, List.subset_append_of_subset_right _ rest.2⟩⟩
  refine expectThen (by decide) fun opening _ => (separated _).bind fun used types read => ?_
  refine expectThen (by decide) fun closing _ => pure ⟨read.1, ?_⟩
  exact List.subset_cons_of_subset _ (List.subset_append_of_subset_left _ read.2)

theorem plainTypeWith : TypesRead (Parse.plainTypeWith nested) := by
  intro place
  refine kind fun shown => ?_
  split
  · refine here (get fun stream => qualifiedName.bind fun used names name => ?_) _
    refine kind fun after => here ?_ _
    dsimp only
    split
    · refine (typeArgumentsWith parts).bind fun used' types generics => spanFromThen (pure ?_)
      rw [List.append_nil]
      refine ⟨.inr ⟨name.1, generics.1⟩, List.append_subset.mpr ⟨?_, ?_⟩⟩
      · exact List.subset_append_of_subset_left _ name.2
      · exact List.subset_append_of_subset_right _ generics.2
    · rw [pure_bind]
      refine spanFromThen (pure ⟨.inr ⟨name.1, trivial⟩, ?_⟩)
      rw [TypeExpr.words, TypeExpr.allWords, List.append_nil, List.append_nil]
      exact name.2
  · exact .nextThen (by decide) fun token auto =>
      pure ⟨.inl ⟨token, auto, rfl, rfl⟩, List.Subset.refl _⟩
  · exact (unmet _).here _

theorem typeExprWith : TypesRead (Parse.typeExprWith nested) := by
  intro place
  refine (plainTypeWith parts place).bind fun used type read => kind fun shown => ?_
  split
  · next marked =>
      refine .nextThen (by rw [eq_of_beq marked]; decide) fun mark _ => kind fun after => here ?_ _
      split
      · exact unmet _
      · obtain ⟨names, generics, isReference, span⟩ := type
        exact pure ⟨read.1, List.subset_append_of_subset_left _ read.2⟩
  · exact (pure ⟨read.1, List.subset_append_of_subset_left _ read.2⟩ : Consumes _ _ _).here _

end Types

/-- A type that is read could be written, and consists of tokens that are consumed, by induction
over the depth.
-/
theorem typeExprWithin (depth : Nat) : TypesRead (Parse.typeExprWithin depth) := by
  induction depth with
  | zero => exact fun _ => unexpected
  | succ depth ih => exact typeExprWith ih

theorem typeExpr : TypesRead Parse.typeExpr := fun _ => get fun _ => typeExprWithin _ _

end Consumes

end Parse

-----------------------------------------------------------------------------------------
-- Reading the spelling of a type
-----------------------------------------------------------------------------------------

/-- The stream of tokens up to an end of file shows the end of file in its place. -/
theorem TokenStream.ofTokens_concat (tokens : List Token) {last : Token}
    (ended : last.kind = .endOfFile) (file : String)
    : TokenStream.ofTokens (tokens ++ [last]) file = ⟨tokens, last, file, 0⟩ := by
  rw [ofTokens, List.reverse_append, List.reverse_singleton, List.singleton_append]
  dsimp only
  rw [if_pos (beq_iff_eq.mpr ended), List.reverse_reverse]

/-- The words of a type are names or ask to deduce it. -/
theorem TypeExpr.Writable.words_kind
    : ∀ type : TypeExpr, type.Writable → ∀ word ∈ type.words, word.kind ∈ Token.typeWords
  | ⟨names, generics, isReference, span⟩, writable => by
    have parts := writable.generics
    rw [words, allWords_eq_flatMap]
    refine List.forall_mem_append.mpr ⟨?_, fun word among => ?_⟩
    · rcases writable with ⟨name, auto, rfl, -⟩ | ⟨isName, -⟩
      · rw [List.forall_mem_singleton, auto]
        decide
      · intro name among
        rw [isName.2 name among]
        decide
    · obtain ⟨part, here, inPart⟩ := List.mem_flatMap.mp among
      exact words_kind part (parts part here) word inPart
termination_by type => type.print.length
decreasing_by exact Parse.length_print_lt here

/-- (Inner contents) says that none of some tokens is an end of file. -/
def Token.Inner (contents : List (TokenKind × String)) : Prop :=
  ∀ content ∈ contents, content.1 ≠ .endOfFile

theorem Token.Inner.append {contents more : List (TokenKind × String)} (first : Inner contents)
    (last : Inner more)
    : Inner (contents ++ more) :=
  List.forall_mem_append.mpr ⟨first, last⟩

theorem Token.Inner.cons {content : TokenKind × String} {contents : List (TokenKind × String)}
    (first : content.1 ≠ .endOfFile) (later : Inner contents)
    : Inner (content :: contents) :=
  List.forall_mem_cons.mpr ⟨first, later⟩

theorem Token.Inner.nil : Inner [] := List.forall_mem_nil _

theorem Token.inner_printNames {names : List Token}
    (words : ∀ name ∈ names, name.kind ≠ .endOfFile)
    : Inner (printNames names) := by
  cases names with
  | nil => exact .nil
  | cons name names =>
      refine .cons (words name List.mem_cons_self) fun content among => ?_
      obtain ⟨segment, here, inPair⟩ := List.mem_flatMap.mp among
      rcases List.mem_pair.mp inPair with rfl | rfl
      · exact nofun
      · exact words segment (List.mem_cons_of_mem _ here)

theorem Token.inner_separate {items : List (List (TokenKind × String))}
    (each : ∀ item ∈ items, Inner item)
    : Inner (separate items) := by
  cases items with
  | nil => exact .nil
  | cons item items =>
      refine .append (each item List.mem_cons_self) fun content among => ?_
      obtain ⟨other, here, inItem⟩ := List.mem_flatMap.mp among
      exact Inner.cons (show TokenKind.comma ≠ .endOfFile by decide)
        (each other (List.mem_cons_of_mem _ here)) content inItem

/-- The spelling of a type contains no end of file, by induction over its arguments. -/
theorem TypeExpr.Writable.inner : ∀ type : TypeExpr, type.Writable → Token.Inner type.print
  | ⟨names, generics, isReference, span⟩, writable => by
    have parts := writable.generics
    have words : ∀ name ∈ names, name.kind ≠ .endOfFile := by
      rcases writable with ⟨name, auto, rfl, -⟩ | ⟨isName, -⟩
      · rw [List.forall_mem_singleton, auto]
        exact nofun
      · intro name among
        rw [isName.2 name among]
        exact nofun
    rw [print]
    refine .append (.append (Token.inner_printNames words) ?_) ?_
    · split
      · exact .nil
      · refine .cons nofun (.append (Token.inner_separate ?_) (.cons nofun .nil))
        rw [printAll_eq_map, List.forall_mem_map]
        exact fun part among => inner part (parts part among)
    · split
      · exact .cons nofun .nil
      · exact .nil
termination_by type => type.print.length
decreasing_by exact Parse.length_print_lt among

/-- A type is read where the file ends with it, as where an end of file is one more token. -/
theorem Parse.typeExpr_reads {type : TypeExpr} (writable : type.Writable) {tokens : List Token}
    {last : Token} (ended : last.kind = .endOfFile)
    (spelled : tokens.map Token.content = type.print)
    (file : String) (previousEnd : Nat)
    : ∃ read after, Parse.typeExpr ⟨tokens, last, file, previousEnd⟩ = .ok (read, after) ∧
        read.bare = type.bare ∧ after.ahead = [] := by
  let longer : TokenStream := ⟨tokens ++ [last], last, file, previousEnd⟩
  let stream : TokenStream := ⟨tokens, last, file, previousEnd⟩
  have alike : TokenStream.Alike tokens.length longer stream := by
    refine ⟨⟨tokens.length, Nat.le_refl _, ?_, fun k within => ?_⟩, ended, ended⟩
    · simpa [longer, TokenStream.peek] using ended
    · rcases Nat.lt_or_eq_of_le within with inside | rfl
      · simp [longer, stream, TokenStream.peek, List.getElem?_append_left inside]
      · simp [longer, stream, TokenStream.peek]
  have shown : longer.ahead.map Token.content = type.print ++ [last.content] := by
    rw [List.map_append, spelled]
    rfl
  have deep : type.print.length < longer.depth := by
    rw [← spelled, List.length_map]
    simp only [longer, TokenStream.depth, List.length_append]
    omega
  have closed : Parse.Begins Parse.Reads.typeMarks [last.content] :=
    ⟨_, _, rfl, by
      rw [Token.content, ended]
      exact (by decide : TokenKind.endOfFile ∉ Parse.Reads.typeMarks)⟩
  obtain ⟨first, middle, given, same, left⟩ :=
    Parse.Reads.typeExprWithin writable deep closed longer shown
  have agrees := Parse.Agrees.typeExpr longer stream alike
  rw [show Parse.typeExpr longer = .ok (first, middle) from given] at agrees
  cases outcome : Parse.typeExpr stream with
  | error error =>
      rw [outcome] at agrees
      exact False.elim agrees
  | ok result =>
      obtain ⟨read, after⟩ := result
      rw [outcome] at agrees
      refine ⟨read, after, rfl, agrees.1.symm.trans same, ?_⟩
      -- All tokens before the end of the file are consumed, since that is shown afterwards.
      have ends : after.kind = .endOfFile := by
        rw [← agrees.2.kind, TokenStream.kind, TokenStream.current, TokenStream.peek,
          left, ← spelled]
        simpa [longer] using ended
      obtain ⟨-, moves⟩ := Parse.Concurs.typeExpr stream ended (Nat.le_refl _)
      obtain ⟨used, passes, -⟩ := moves read after outcome
      cases ahead : after.ahead with
      | nil => rfl
      | cons token rest =>
          have among : token ∈ tokens := by
            rw [show tokens = used ++ after.ahead from passes.ahead, ahead]
            exact List.mem_append_right _ List.mem_cons_self
          rw [TokenStream.kind, TokenStream.current, TokenStream.peek, ahead] at ends
          refine absurd ends (TypeExpr.Writable.inner type writable token.content ?_)
          rw [← spelled]
          exact List.mem_map_of_mem among

/-- The spelling of a type that is read anywhere in a text is read as that type, up to spans, and
nothing but the end of file is left.
-/
theorem TypeExpr.spelling_restores_type {source file : String} {tokens : List Token}
    {stream after : TokenStream} {type : TypeExpr} (scanned : Token.scan source file = .ok tokens)
    (inside : ∀ token ∈ stream.ahead, token ∈ tokens) (closed : stream.Closed)
    (read : Parse.typeExpr stream = .ok (type, after)) (file' : String)
    : ∃ spelling again rest, Token.scan type.text file' = .ok spelling ∧
        Parse.typeExpr (TokenStream.ofTokens spelling file') = .ok (again, rest) ∧
        again.bare = type.bare ∧ rest.ahead = [] ∧ rest.kind = .endOfFile := by
  obtain ⟨used, passes, writable, among⟩ := Parse.Consumes.typeExpr _ stream closed rfl _ _ read
  have words : ∀ word ∈ type.words, Token.SpellsWord word.content := by
    intro word here
    have listed : word ∈ tokens := by
      refine inside word ?_
      rw [passes.ahead]
      exact List.mem_append_left _ (among here)
    exact (Token.spells_of_scanFrom _ scanned).words _ (List.mem_map_of_mem listed)
      (TypeExpr.Writable.words_kind type writable word here)
  have ends : TypeExpr.EndsType [] := nofun
  have spells := TypeExpr.spells_text type writable words ends .nil
  rw [List.append_nil] at spells
  obtain ⟨spelling, again, contents⟩ := Token.scanFrom_of_spells spells file' 0
  obtain ⟨inner, ends, rfl, spelled, ended⟩ := List.map_eq_append_iff.mp contents
  obtain ⟨last, rfl, isEnd⟩ := List.map_eq_singleton_iff.mp ended
  have ended : last.kind = .endOfFile := congrArg Prod.fst isEnd
  obtain ⟨read', rest, given, same, done⟩ := Parse.typeExpr_reads writable ended spelled file' 0
  refine ⟨inner ++ [last], read', rest, again, ?_, same, done, ?_⟩
  · rw [TokenStream.ofTokens_concat inner ended]
    exact given
  · obtain ⟨used, passes, -⟩ := (Parse.Concurs.typeExpr ⟨inner, last, file', 0⟩ ended
      (Nat.le_refl _)).2 _ _ given
    rw [TokenStream.kind, TokenStream.current, TokenStream.peek, done]
    exact (congrArg Token.kind passes.last).trans ended

/-- Whether a source begins with a type whose canonical spelling is `text`. -/
def TypeExpr.beginsWith (source text : String) : Bool :=
  match Token.scan source "" with
  | .ok tokens =>
    match Parse.typeExpr (TokenStream.ofTokens tokens "") with
    | .ok (type, _) => type.text == text
    | .error _ => false
  | .error _ => false

/-- Witness: references and lists of qualified names and of what is to be deduced, behind which a
name and more follow.
-/
theorem TypeExpr.spelling_restores_type_nested
    : ∃ (tokens spelling : List Token) (type again : TypeExpr) (after rest : TokenStream),
        Token.scan "list<map::list<a::b&>/**/,auto >& name = 1" "" = .ok tokens ∧
        Parse.typeExpr (TokenStream.ofTokens tokens "") = .ok (type, after) ∧
        type.text = "list<map::list<a::b&>, auto>&" ∧
        Token.scan type.text "" = .ok spelling ∧
        Parse.typeExpr (TokenStream.ofTokens spelling "") = .ok (again, rest) ∧
        again.bare = type.bare ∧ rest.ahead = [] ∧ rest.kind = .endOfFile := by
  have begins : TypeExpr.beginsWith "list<map::list<a::b&>/**/,auto >& name = 1"
      "list<map::list<a::b&>, auto>&" = true := by
    decide +kernel
  unfold TypeExpr.beginsWith at begins
  split at begins
  · next tokens scanned =>
      split at begins
      · next type after read =>
          obtain ⟨inner, last, rfl, ended, -⟩ := Token.scan_ended scanned
          obtain ⟨spelling, again, rest, reads⟩ :=
            TypeExpr.spelling_restores_type scanned
              (fun token among => by
                rw [TokenStream.ofTokens_concat inner ended] at among
                exact List.mem_append_left _ among)
              (by rw [TokenStream.Closed, TokenStream.ofTokens_concat inner ended]; exact ended)
              read ""
          exact ⟨_, spelling, type, again, after, rest, scanned, read, eq_of_beq begins, reads⟩
      · cases begins
  · cases begins

end BuildScript
