import BuildScript.Proofs.Text.Sizes
import BuildScript.Proofs.Token.Layout

/-! Tokens cover the text. Every piece of a text is a token that is spelled there, or white space
or a comment. So the spans of the tokens stand one after the other with nothing but layout between
them, and where the scan of a text fails, what comes before is scanned. In a text of 4 GiB or more
the tokens stand where they would without wrapping, but their offsets are kept in 32 bits.
-/

namespace BuildScript

open Text

-----------------------------------------------------------------------------------------
-- What a piece is
-----------------------------------------------------------------------------------------

/-- (SpelledAs kind value slice) says that a piece of text spells a token of that class and value.
A string stands between quotes and may contain escapes, and any other token is the piece itself.
-/
def Token.SpelledAs (kind : TokenKind) (value : String) (slice : List Char) : Prop :=
  if kind = .string then
    ∃ raw, slice = '"' :: (raw ++ ['"']) ∧ value = String.ofList (unescape raw)
  else value = String.ofList slice

/-- (LineComment text) says that a text is a comment that begins with two slashes. -/
def LineComment (text : List Char) : Prop := ∃ body, text = '/' :: '/' :: body ∧ '\n' ∉ body

/-- (ClosedComment text) says that a text is a comment between `/*` and `*/`, which closes it where
it first occurs.
-/
def ClosedComment (text : List Char) : Prop :=
  ∃ body, text = '/' :: '*' :: (body ++ ['*', '/']) ∧ ¬ ['*', '/'] <:+: body ++ ['*']

namespace Lexeme

/-- The characters of a run are the first ones of the text. -/
theorem take_length_takeWhile (p : Char → Bool) (text : List Char)
    : text.take (text.takeWhile p).length = text.takeWhile p :=
  (List.prefix_iff_eq_take.mp (List.takeWhile_prefix p)).symm

/-- A run is followed by what is no part of it. -/
theorem drop_length_takeWhile (p : Char → Bool) (text : List Char)
    : ∀ d ∈ (text.drop (text.takeWhile p).length).head?, p d = false := by
  have split_ : text.takeWhile p ++ text.drop (text.takeWhile p).length = text := by
    nth_rewrite 1 [← take_length_takeWhile p text]
    exact List.take_append_drop _ _
  exact (takeWhile_covers (by rw [split_])).2

theorem ofWord_kind (word : String)
    : TokenKind.ofWord word ≠ .endOfFile ∧ TokenKind.ofWord word ≠ .string := by
  have table : ∀ kind ∈ TokenKind.keywords, kind ≠ .endOfFile ∧ kind ≠ .string := by
    decide
  rw [TokenKind.ofWord]
  cases found : TokenKind.keywords.find? (·.text == word) with
  | none => decide
  | some kind => exact table kind (List.mem_of_find?_eq_some found)

theorem fraction_prefix (text : List Char) : fraction text <+: text := by
  rcases fraction_eq text with ⟨d, digits, rest, rfl, digit, all, stops⟩ | ⟨none_, -⟩
  · rw [fraction_append digit all stops]
    exact List.prefix_append _ _
  · rw [none_]
    exact List.nil_prefix

/-- The digits of a number, its point and the digits after it come first in the text. -/
theorem number_prefix (rest : List Char)
    : rest.takeWhile Char.isDigit ++ fraction (rest.dropWhile Char.isDigit) <+: rest := by
  obtain ⟨after, more⟩ := fraction_prefix (rest.dropWhile Char.isDigit)
  refine ⟨after, ?_⟩
  rw [List.append_assoc, more, List.takeWhile_append_dropWhile]

/-- The last character of a string literal is its closing quote. -/
theorem take_stringTail {text : List Char} {n : Nat} (tail : stringTail? text = some n)
    : text.take n = text.take (n - 1) ++ ['"'] := by
  induction text using stringTail?.induct generalizing n with
  | case1 => cases tail
  | case2 after =>
      obtain rfl := Option.some.inj tail
      rfl
  | case3 c after newline =>
      rw [stringTail?, if_pos newline] at tail
      cases tail
  | case4 c after newline ih =>
      rw [stringTail?, if_neg newline, Option.map_eq_some_iff] at tail
      obtain ⟨m, inner, rfl⟩ := tail
      have closes := ih inner
      cases m with
      | zero => exact absurd closes (by simp)
      | succ m => simpa using closes
  | case5 => cases tail
  | case6 c after inner noEscape noEnd ih =>
      have plain : c ≠ '\\' := by
        rintro rfl
        cases after with
        | nil => exact noEnd rfl rfl
        | cons d after => exact noEscape d after rfl rfl
      rw [stringTail?_plain inner plain, Option.map_eq_some_iff] at tail
      obtain ⟨m, more, rfl⟩ := tail
      have closes := ih more
      cases m with
      | zero => exact absurd closes (by simp)
      | succ m => simpa using closes

/-- A block comment is closed at its end and not before. -/
theorem take_commentTail {text : List Char} {n : Nat} (tail : commentTail? text = some n)
    : ∃ body, text.take n = body ++ ['*', '/'] ∧ ¬ ['*', '/'] <:+: body ++ ['*'] := by
  induction text using commentTail?.induct generalizing n with
  | case1 after =>
      obtain rfl := Option.some.inj tail
      exact ⟨[], rfl, by decide⟩
  | case2 => cases tail
  | case3 c after noMark ih =>
      rw [commentTail?, Option.map_eq_some_iff] at tail
      · obtain ⟨m, more, rfl⟩ := tail
        obtain ⟨body, closes, first⟩ := ih more
        refine ⟨c :: body, by rw [List.take_succ_cons, closes, List.cons_append], ?_⟩
        rw [List.cons_append, List.infix_cons_iff]
        rintro (here | later)
        · -- The comment would be closed here already.
          obtain ⟨star, slash⟩ := List.cons_prefix_cons.mp here
          cases body with
          | nil => exact absurd slash (by decide)
          | cons d body =>
              obtain ⟨rfl, -⟩ := List.cons_prefix_cons.mp slash
              cases after with
              | nil => cases more
              | cons e after =>
                  have begins := congrArg List.head? closes
                  cases m with
                  | zero => cases begins
                  | succ m =>
                      obtain rfl := Option.some.inj begins
                      exact noMark after star.symm rfl
        · exact first later
      · exact noMark

/-- What a piece is that begins with `c` and has `part` after it, where `after` comes next. -/
inductive Piece (c : Char) (part after : List Char) : Option (TokenKind × String) → Prop
  | token {kind : TokenKind} {value : String} (inner : kind ≠ .endOfFile)
    (spelled : Token.SpelledAs kind value (c :: part)) : Piece c part after (some (kind, value))
  | blanks (all : ∀ d ∈ c :: part, isBlank d) : Piece c part after none
  | line (comment : LineComment (c :: part)) (ends : ∀ d ∈ after.head?, d = '\n')
    : Piece c part after none
  | block (comment : ClosedComment (c :: part)) : Piece c part after none

theorem word_piece (c : Char) (rest : List Char)
    : let lexeme := word c rest
      lexeme.tail ≤ rest.length
        ∧ Piece c (rest.take lexeme.tail) (rest.drop lexeme.tail) lexeme.content? := by
  refine ⟨(List.takeWhile_prefix _).length_le, ?_⟩
  have whole := take_length_takeWhile isWordPart rest
  obtain ⟨inner, plain⟩ := ofWord_kind (String.ofList (c :: rest.takeWhile isWordPart))
  refine .token inner ?_
  rw [Token.SpelledAs, if_neg plain, show rest.take (word c rest).tail = _ from whole]

theorem number_piece (c : Char) (rest : List Char)
    : let lexeme := number c rest
      lexeme.tail ≤ rest.length
        ∧ Piece c (rest.take lexeme.tail) (rest.drop lexeme.tail) lexeme.content? := by
  have first := number_prefix rest
  have length : (number c rest).tail = (rest.takeWhile Char.isDigit
      ++ fraction (rest.dropWhile Char.isDigit)).length := List.length_append.symm
  refine ⟨length ▸ first.length_le, .token ?_ ?_⟩
  · split <;> decide
  · have plain (part : List Char)
        : (if part.isEmpty then TokenKind.integer else .double) ≠ .string := by
      split <;> decide
    rw [Token.SpelledAs, if_neg (plain _), length, ← List.prefix_iff_eq_take.mp first]
    rfl

/-- An operator is spelled by its characters. -/
theorem operator_piece {c : Char} {rest : List Char} {lexeme : Lexeme}
    (found : operator? (c :: rest) = some lexeme)
    : lexeme.tail ≤ rest.length
        ∧ Piece c (rest.take lexeme.tail) (rest.drop lexeme.tail) lexeme.content? := by
  obtain ⟨kind, search, rfl⟩ := Option.map_eq_some_iff.mp found
  have table : ∀ kind ∈ TokenKind.operators,
      kind ≠ .endOfFile ∧ kind ≠ .string ∧ 0 < kind.text.length := by
    decide
  obtain ⟨inner, plain, pos⟩ := table kind (List.mem_of_find?_eq_some search)
  have fits := List.isPrefixOf_iff_prefix.mp (List.find?_eq_some_iff_append.mp search).1
  have length : kind.text.toList.length = kind.text.length - 1 + 1 := by
    rw [String.length_toList]
    omega
  have spelled := List.prefix_iff_eq_take.mp fits
  rw [length, List.take_succ_cons] at spelled
  refine ⟨?_, .token inner ?_⟩
  · have le := fits.length_le
    rw [length, List.length_cons] at le
    exact Nat.le_of_succ_le_succ le
  · rw [Token.SpelledAs, if_neg plain]
    exact (String.ofList_toList).symm.trans (congrArg String.ofList spelled)

/-- A piece is a token that is spelled there, a run of blanks, or a comment. -/
theorem scan_piece {c : Char} {rest : List Char} {lexeme : Lexeme}
    (scanned : scan c rest = .ok lexeme)
    : lexeme.tail ≤ rest.length
        ∧ Piece c (rest.take lexeme.tail) (rest.drop lexeme.tail) lexeme.content? := by
  unfold scan at scanned
  split at scanned
  · obtain rfl := Except.ok.inj scanned
    exact word_piece c rest
  split at scanned
  · obtain rfl := Except.ok.inj scanned
    exact number_piece c rest
  split at scanned
  · next blank =>
      obtain rfl := Except.ok.inj scanned
      refine ⟨(List.takeWhile_prefix _).length_le, .blanks ?_⟩
      show ∀ d ∈ c :: rest.take (rest.takeWhile isBlank).length, isBlank d
      rw [take_length_takeWhile]
      intro d member
      rcases List.mem_cons.mp member with rfl | later
      · exact blank
      · exact List.mem_takeWhile_imp later
  dsimp only at scanned
  split at scanned
  · split at scanned
    · next tail literal =>
        obtain rfl := Except.ok.inj scanned
        refine ⟨(stringTail?_append literal []).1, .token (by decide) ?_⟩
        rw [Token.SpelledAs, if_pos rfl]
        exact ⟨_, congrArg ('"' :: ·) (take_stringTail literal), rfl⟩
    · rw [operator?_quote] at scanned
      cases scanned
  · next after _ _ _ =>
      obtain rfl := Except.ok.inj scanned
      have line := take_length_takeWhile (· != '\n') after
      refine ⟨Nat.succ_le_succ (List.takeWhile_prefix _).length_le,
        .line ⟨after.takeWhile (· != '\n'), ?_, ?_⟩ ?_⟩
      · exact congrArg (fun text => '/' :: '/' :: text) line
      · intro newline
        exact absurd (List.mem_takeWhile_imp newline) (by decide)
      · intro d first
        have stopped := drop_length_takeWhile (· != '\n') after d first
        simpa using stopped
  · split at scanned
    · next after _ tail comment =>
        obtain rfl := Except.ok.inj scanned
        obtain ⟨body, closes, first⟩ := take_commentTail comment
        refine ⟨Nat.succ_le_succ (commentTail?_append comment []).1, .block ⟨body, ?_, first⟩⟩
        exact congrArg (fun text => '/' :: '*' :: text) closes
    · cases scanned
  · split at scanned
    · next found =>
        obtain rfl := Except.ok.inj scanned
        exact operator_piece found
    · cases scanned

end Lexeme

-----------------------------------------------------------------------------------------
-- What a text is made of, and the offsets that are kept
-----------------------------------------------------------------------------------------

/-- (slice? text start stop) are the characters between two byte offsets, if characters begin there
and they come in this order.
-/
def Text.slice? (text : List Char) (start stop : Nat) : Option (List Char) :=
  if start ≤ stop then
    (splitAtByte? start text).bind fun parts =>
      (splitAtByte? (stop - start) parts.2).map (·.1)
  else none

theorem Text.slice?_append (before slice after : List Char)
    : slice? (before ++ slice ++ after) (byteLength before) (byteLength (before ++ slice)) =
        some slice := by
  rw [slice?, byteLength_append, if_pos (Nat.le_add_right _ _), List.append_assoc,
    splitAtByte?_append, Option.bind_some, Nat.add_sub_cancel_left, splitAtByte?_append,
    Option.map_some]

theorem Text.slice?_nothing (before after : List Char)
    : slice? (before ++ after) (byteLength before) (byteLength before) = some [] := by
  have nothing := slice?_append before [] after
  rw [List.append_nil] at nothing
  exact nothing

namespace Token

/-- (Gap last text) says that a text consists of white space and comments. A line comment goes on
up to a newline, or to the end of the file if this is the last gap.
-/
inductive Gap (last : Prop) : List Char → Prop
  | nil : Gap last []
  | blank {c rest} (blank : isBlank c) (more : Gap last rest) : Gap last (c :: rest)
  | line {comment rest} (isComment : LineComment comment)
    (ends : rest.head? = some '\n' ∨ rest = [] ∧ last) (more : Gap last rest)
    : Gap last (comment ++ rest)
  | block {comment rest} (isComment : ClosedComment comment) (more : Gap last rest)
    : Gap last (comment ++ rest)

theorem Gap.blanks {last : Prop} {run rest : List Char} (all : ∀ c ∈ run, isBlank c)
    (more : Gap last rest)
    : Gap last (run ++ rest) := by
  induction run with
  | nil => exact more
  | cons c run ih =>
      exact .blank (all c List.mem_cons_self)
        (ih fun d member => all d (List.mem_cons_of_mem c member))

/-- (GapsFrom text offset tokens) says that there are only gaps in a text between a byte offset and
the first token, and between each token and the next one.
-/
def GapsFrom (text : List Char) : Nat → List Token → Prop
  | _, [] => True
  | offset, token :: rest =>
    offset ≤ token.span.start
      ∧ (∃ gap, slice? text offset token.span.start = some gap ∧ Gap (rest = []) gap)
      ∧ GapsFrom text token.span.stop rest

/-- (Covered text file tokens) says that tokens cover a text: all but the last are spelled by what
stands at their spans, the last one is the end of the file, and only gaps are between them.
-/
structure Covered (text : List Char) (file : String) (tokens : List Token) : Prop where
  ended : tokens.getLast? = some (endOfFile ⟨file, byteLength text⟩)
  spelled : ∀ token ∈ tokens.dropLast, token.kind ≠ .endOfFile ∧ token.span.file = file
    ∧ token.span.start < token.span.stop
    ∧ ∃ slice, slice? text token.span.start token.span.stop = some slice
      ∧ SpelledAs token.kind token.value slice
  separated : GapsFrom text 0 tokens

/-- A token with the offsets of its span as they are kept. -/
def kept (token : Token) : Token :=
  { token with span := .ofBytes token.span.file token.span.start token.span.stop }

/-- Offsets that fit are kept as they are. -/
theorem kept_of_fits {token : Token} (start : token.span.start < offsetCount)
    (stop : token.span.stop < offsetCount)
    : token.kept = token := by
  rw [kept, Span.ofBytes, Nat.mod_eq_of_lt start, Nat.mod_eq_of_lt stop]

-----------------------------------------------------------------------------------------
-- Tokens in a text
-----------------------------------------------------------------------------------------

/-- (Tiled file before rest tokens) says that what is left of a text after `before` is laid out in
pieces, and that the tokens are those among them.
-/
inductive Tiled (file : String) : List Char → List Char → List Token → Prop
  | done {before} : Tiled file before [] [endOfFile ⟨file, byteLength before⟩]
  | skip {before c part rest tokens} (piece : Lexeme.Piece c part rest none)
    (more : Tiled file (before ++ c :: part) rest tokens)
    : Tiled file before (c :: part ++ rest) tokens
  | token {before c part rest kind value tokens} (solid : isBlank c = false)
    (piece : Lexeme.Piece c part rest (some (kind, value)))
    (more : Tiled file (before ++ c :: part) rest tokens)
    : Tiled file before (c :: part ++ rest)
        (⟨kind, value, ⟨file, byteLength before, byteLength (before ++ c :: part)⟩⟩ :: tokens)

/-- What is scanned is laid out in pieces, and the tokens are those with their offsets as they are
kept, by induction over the length of the text.
-/
theorem tiled_of_scanFrom {file : String} (text : List Char) {before : List Char}
    {tokens : List Token} (scanned : scanFrom file (byteLength before) text = .ok tokens)
    : ∃ placed, Tiled file before text placed ∧ tokens = placed.map kept := by
  induction length : text.length using Nat.strongRecOn generalizing text before tokens with
  | ind _ ih =>
      subst length
      cases text with
      | nil =>
          rw [scanFrom] at scanned
          obtain rfl := Except.ok.inj scanned
          exact ⟨_, .done, rfl⟩
      | cons c rest =>
          cases first : Lexeme.scan c rest with
          | error fault =>
              rw [scanFrom, first] at scanned
              cases scanned
          | ok lexeme =>
              obtain ⟨-, piece⟩ := Lexeme.scan_piece first
              have shorter : (rest.drop lexeme.tail).length < (c :: rest).length := by
                rw [List.length_drop, List.length_cons]
                omega
              rw [scanFrom_piece first, ← byteLength_append] at scanned
              cases after : scanFrom file (byteLength (before ++ c :: rest.take lexeme.tail))
                  (rest.drop lexeme.tail) with
              | error error =>
                  rw [after] at scanned
                  cases scanned
              | ok later =>
                  rw [after] at scanned
                  obtain rfl := Except.ok.inj scanned
                  obtain ⟨placed, more, rfl⟩ := ih _ shorter _ after rfl
                  rw [show c :: rest = c :: rest.take lexeme.tail ++ rest.drop lexeme.tail by
                    rw [List.cons_append, List.take_append_drop]]
                  cases content : lexeme.content? with
                  | none => exact ⟨placed, .skip (content ▸ piece) more, rfl⟩
                  | some content' =>
                      refine ⟨_ :: placed, .token ?_ (content ▸ piece) more, rfl⟩
                      -- A blank would begin a piece that is no token.
                      cases blank : isBlank c with
                      | false => rfl
                      | true =>
                          rw [scan_blank blank] at first
                          obtain rfl := Except.ok.inj first
                          cases content

namespace Tiled

variable {file : String} {before rest : List Char} {tokens : List Token}

/-- The first token has a gap before it, which takes up a blank that comes first. -/
theorem first (tiled : Tiled file before rest tokens)
    : ∃ gap after token later, rest = gap ++ after ∧ tokens = token :: later
        ∧ token.span.start = byteLength (before ++ gap) ∧ Gap (later = []) gap
        ∧ (rest = [] → later = []) ∧ ∀ b, isBlank b → rest.head? = some b → gap.head? = some b := by
  induction tiled with
  | done =>
      exact ⟨[], [], _, [], rfl, rfl, by rw [List.append_nil]; rfl, .nil, fun _ => rfl, by simp⟩
  | token solid piece more =>
      refine ⟨[], _, _, _, rfl, rfl, by rw [List.append_nil], .nil, by simp, ?_⟩
      rintro b blank ⟨⟩
      exact nomatch solid.symm.trans blank
  | @skip before c part rest tokens piece more ih =>
      obtain ⟨gap, after, token, later, rfl, rfl, starts, isGap, last, blanks⟩ := ih
      refine ⟨c :: part ++ gap, after, token, later, (List.append_assoc ..).symm, rfl, ?_, ?_,
        by simp, fun b _ begins => begins⟩
      · rw [starts, List.append_assoc]
      cases piece with
      | blanks all => exact .blanks all isGap
      | block comment => exact .block comment isGap
      | line comment ends =>
          refine .line comment ?_ isGap
          -- The newline that ends the comment is in the gap, since no token begins with it.
          cases next : (gap ++ after).head? with
          | none =>
              have nothing := List.head?_eq_none_iff.mp next
              exact .inr ⟨(List.append_eq_nil_iff.mp nothing).1, last nothing⟩
          | some d =>
              obtain rfl := ends d next
              exact .inl (blanks _ (by decide) next)

theorem gaps (tiled : Tiled file before rest tokens)
    : GapsFrom (before ++ rest) (byteLength before) tokens := by
  have whole := tiled
  induction tiled with
  | done => exact ⟨Nat.le_refl _, ⟨[], slice?_nothing _ [], .nil⟩, trivial⟩
  | @token before c part rest kind value tokens solid piece more ih =>
      have later := ih more
      rw [List.append_assoc] at later
      exact ⟨Nat.le_refl _, ⟨[], slice?_nothing _ _, .nil⟩, later⟩
  | @skip before c part rest tokens piece more ih =>
      obtain ⟨gap, after, token, later, same, rfl, starts, isGap, -, -⟩ := whole.first
      have between := ih more
      rw [List.append_assoc] at between
      refine ⟨?_, ⟨gap, ?_, isGap⟩, between.2.2⟩
      · rw [starts, byteLength_append]
        exact Nat.le_add_right _ _
      · rw [same, starts, ← List.append_assoc]
        exact slice?_append before gap after

theorem spelled (tiled : Tiled file before rest tokens)
    : ∀ token ∈ tokens.dropLast, token.kind ≠ .endOfFile ∧ token.span.file = file
        ∧ token.span.start < token.span.stop
        ∧ ∃ slice, slice? (before ++ rest) token.span.start token.span.stop = some slice
          ∧ SpelledAs token.kind token.value slice := by
  induction tiled with
  | done => exact fun token member => nomatch member
  | skip piece more ih =>
      rw [List.append_assoc] at ih
      exact ih
  | @token before c part rest kind value tokens solid piece more ih =>
      obtain ⟨-, -, next, later, -, rfl, -⟩ := more.first
      rw [List.append_assoc] at ih
      intro token member
      rcases List.mem_cons.mp member with rfl | member
      · cases piece with
        | token inner spells =>
            refine ⟨inner, rfl, ?_, c :: part, ?_, spells⟩
            · have pos := c.utf8Size_pos
              show byteLength before < byteLength (before ++ c :: part)
              rw [byteLength_append, byteLength_cons]
              omega
            · rw [← List.append_assoc]
              exact slice?_append before (c :: part) rest
      · exact ih token member

theorem ended (tiled : Tiled file before rest tokens)
    : tokens.getLast? = some (endOfFile ⟨file, byteLength (before ++ rest)⟩) := by
  induction tiled with
  | done => rw [List.append_nil]; rfl
  | skip piece more ih =>
      rw [List.append_assoc] at ih
      exact ih
  | token solid piece more ih =>
      obtain ⟨-, -, next, later, -, rfl, -⟩ := more.first
      rw [List.append_assoc] at ih
      exact ih

theorem covered {text : List Char} (tiled : Tiled file [] text tokens) : Covered text file tokens :=
  ⟨tiled.ended, tiled.spelled, tiled.gaps⟩

/-- In a text whose offsets fit, the tokens have the offsets that are kept. -/
theorem kept (tiled : Tiled file before rest tokens)
    (fits : byteLength (before ++ rest) < offsetCount)
    : tokens.map Token.kept = tokens := by
  induction tiled with
  | done =>
      rw [List.append_nil] at fits
      exact congrArg (· :: []) (kept_of_fits fits fits)
  | skip piece more ih =>
      rw [List.append_assoc] at ih
      exact ih fits
  | @token before c part rest kind value tokens solid piece more ih =>
      rw [List.append_assoc] at ih
      rw [List.map_cons, ih fits]
      have stop : byteLength (before ++ c :: part) < offsetCount := by
        rw [← List.append_assoc, byteLength_append] at fits
        omega
      have start : byteLength before < offsetCount := by
        rw [byteLength_append] at fits
        omega
      exact congrArg (· :: tokens) (kept_of_fits start stop)

end Tiled

-----------------------------------------------------------------------------------------
-- Where the scan fails
-----------------------------------------------------------------------------------------

/-- Where the scan of a text fails, what comes before is blanks and other pieces, by induction over
the length of the text.
-/
theorem spells_before_error {file : String} (text : List Char) {offset : Nat} {error : SyntaxError}
    (failed : scanFrom file offset text = .error error)
    : ∃ before after contents, text = before ++ after
        ∧ error.position = .ofByte file (offset + byteLength before) ∧ Spells before contents := by
  induction length : text.length using Nat.strongRecOn generalizing text offset with
  | ind _ ih =>
      subst length
      cases text with
      | nil =>
          rw [scanFrom] at failed
          cases failed
      | cons c rest =>
          cases blank : isBlank c with
          | true =>
              rw [scanFrom_blank blank] at failed
              obtain ⟨before, after, contents, rfl, place, spells⟩ :=
                ih _ (Nat.lt_succ_self _) rest failed rfl
              refine ⟨c :: before, after, contents, rfl, ?_, .blank blank spells⟩
              rw [place, byteLength_cons, byteLength_cons, byteLength_nil, Nat.add_zero,
                Nat.add_assoc]
          | false =>
              cases first : Lexeme.scan c rest with
              | error fault =>
                  rw [scanFrom, first] at failed
                  obtain rfl := Except.error.inj failed
                  exact ⟨[], _, _, rfl, rfl, .nil⟩
              | ok lexeme =>
                  obtain ⟨short, -⟩ := Lexeme.scan_piece first
                  have shorter : (rest.drop lexeme.tail).length < (c :: rest).length := by
                    rw [List.length_drop, List.length_cons]
                    omega
                  rw [scanFrom_piece first] at failed
                  cases later : scanFrom file (offset + byteLength (c :: rest.take lexeme.tail))
                      (rest.drop lexeme.tail) with
                  | ok tokens =>
                      rw [later] at failed
                      cases failed
                  | error error' =>
                      rw [later] at failed
                      obtain rfl := Except.error.inj failed
                      obtain ⟨before, after, contents, split_, place, spells⟩ :=
                        ih _ shorter _ later rfl
                      obtain ⟨part, rfl, covers⟩ : ∃ part, rest = part ++ (before ++ after)
                          ∧ lexeme.tail = part.length :=
                        ⟨rest.take lexeme.tail, by rw [← split_, List.take_append_drop],
                          (List.length_take_of_le short).symm⟩
                      -- The piece ends no later than the text does now.
                      have again := Lexeme.scan_of_follows blank first covers
                        (.cut before after) fun _ _ => by cases before <;> simp
                      rw [covers, List.take_left] at place
                      refine ⟨c :: part ++ before, after, lexeme.content?.toList ++ contents,
                        ?_, ?_, .piece blank again ?_⟩
                      · rw [List.cons_append, List.cons_append, List.append_assoc]
                      · rw [place, byteLength_append, Nat.add_assoc]
                      · rw [covers, show (part.append before).drop part.length = before from
                          List.drop_left]
                        exact spells

/-- The tokens that a text is scanned to are those that cover it, with their offsets as they are
kept, and the same ones if the offsets fit.
-/
theorem scan_covered {source file : String} {tokens : List Token}
    (scanned : scan source file = .ok tokens)
    : ∃ placed, Covered source.toList file placed ∧ tokens = placed.map kept
        ∧ (source.utf8ByteSize < offsetCount → tokens = placed) := by
  obtain ⟨placed, tiled, rfl⟩ : ∃ placed, Tiled file [] source.toList placed
      ∧ tokens = placed.map kept :=
    tiled_of_scanFrom source.toList scanned
  refine ⟨placed, tiled.covered, rfl, fun fits => tiled.kept ?_⟩
  rw [List.nil_append, byteLength_toList]
  exact fits

/-- The tokens of a text end with the only end of file among them. -/
theorem scan_ended {source file : String} {tokens : List Token}
    (scanned : scan source file = .ok tokens)
    : ∃ before last, tokens = before ++ [last] ∧ last.kind = .endOfFile
        ∧ ∀ token ∈ before, token.kind ≠ .endOfFile := by
  obtain ⟨placed, covered, rfl, -⟩ := scan_covered scanned
  refine ⟨placed.dropLast.map kept, kept (endOfFile ⟨file, byteLength source.toList⟩), ?_, rfl,
    fun token among => ?_⟩
  · rw [← List.map_singleton, ← List.map_append, List.dropLast_append_getLast? _ covered.ended]
  · obtain ⟨inner, listed, rfl⟩ := List.mem_map.mp among
    exact (covered.spelled inner listed).1

/-- The scan of any text comes to an end. Either it gives the tokens that cover the text, or it
fails behind a part of the text that is scanned by itself. Offsets that do not fit are wrapped.
-/
theorem scan_covers (source file : String)
    : match scan source file with
      | .ok tokens => ∃ placed, Covered source.toList file placed ∧ tokens = placed.map kept
          ∧ (source.utf8ByteSize < offsetCount → tokens = placed)
      | .error error => ∃ before after, source.toList = before ++ after
          ∧ error.position = .ofByte file (byteLength before)
          ∧ (source.utf8ByteSize < offsetCount → error.position.offset = byteLength before)
          ∧ ∃ tokens, scan (String.ofList before) file = .ok tokens := by
  cases scanned : scan source file with
  | ok tokens => exact scan_covered scanned
  | error error =>
      obtain ⟨before, after, contents, split_, place, spells⟩ :=
        spells_before_error source.toList scanned
      rw [Nat.zero_add] at place
      obtain ⟨tokens, again, -⟩ := scanFrom_of_spells spells file 0
      refine ⟨before, after, split_, place, fun fits => ?_, tokens, ?_⟩
      · rw [← byteLength_toList, split_, byteLength_append] at fits
        rw [place]
        exact Nat.mod_eq_of_lt (Nat.lt_of_le_of_lt (Nat.le_add_right _ _) fits)
      · rw [scan, String.toList_ofList, again]

/-- The end of the file has a value, but no characters. -/
theorem scan_endOfFile_unspelled
    : ∃ tokens token, scan "" unnamedFile = .ok tokens ∧ token ∈ tokens ∧ token.kind ≠ .string
        ∧ slice? [] token.span.start token.span.stop = some []
        ∧ token.value ≠ String.ofList [] :=
  ⟨[endOfFile ⟨unnamedFile, 0⟩], _, by rw [scan, String.toList_empty, scanFrom]; rfl,
    List.mem_singleton_self _, by decide, rfl, by decide⟩

end Token

end BuildScript
