import BuildScript.Proofs.Text.Sizes
import BuildScript.Proofs.Token.Layout
import Mathlib.Data.List.Forall2

/-! Literals of strings. A text is written between quotes character by character, each as itself, by
a short escape or by its code in hexadecimal digits. Such a literal is scanned as one token, which
stands for the text, whichever way each character is written.
-/

namespace BuildScript.Token

open Text

-----------------------------------------------------------------------------------------
-- How characters are written
-----------------------------------------------------------------------------------------

/-- The letters of the short escapes, each with the character that it stands for. -/
def shortEscapes : List (Char × Char) :=
  [('n', '\n'), ('t', '\t'), ('r', '\r'), ('\\', '\\'), ('"', '"'), ('0', '\x00')]

/-- (HexDigit d value) says that `d` is the hexadecimal digit of a value, in either case. -/
def HexDigit (d : Char) (value : Nat) : Prop :=
  value < 16 ∧ (d = value.digitChar ∨ d = value.digitChar.toUpper)

/-- (WrittenAs c piece) says that a character is written as a piece of a literal. After `\x` come
exactly two digits.
-/
inductive WrittenAs (c : Char) : List Char → Prop
  | itself (noQuote : c ≠ '"') (noEscape : c ≠ '\\') : WrittenAs c [c]
  | short {letter} (listed : (letter, c) ∈ shortEscapes) : WrittenAs c ['\\', letter]
  | hex {a b high low} (first : HexDigit a high) (second : HexDigit b low)
    (code : c.toNat = 16 * high + low)
    : WrittenAs c ['\\', 'x', a, b]

/-- (Literal text literal) says that a text is written as a literal between quotes. How it is
written is chosen for each of its characters.
-/
def Literal (text literal : String) : Prop :=
  ∃ pieces, List.Forall₂ WrittenAs text.toList pieces
    ∧ literal.toList = '"' :: (pieces.flatten ++ ['"'])

theorem HexDigit.hexValue {d : Char} {value : Nat} (digit : HexDigit d value)
    : hexValue? d = some value := by
  have table : ∀ value < 16,
      hexValue? value.digitChar = some value ∧ hexValue? value.digitChar.toUpper = some value := by
    decide
  obtain ⟨small, rfl | rfl⟩ := digit
  · exact (table value small).1
  · exact (table value small).2

/-- A short escape is read as what it stands for, and `\x` is none of them. -/
theorem shortEscape_of_listed {letter c : Char} (listed : (letter, c) ∈ shortEscapes)
    : shortEscape? letter = some c ∧ letter ≠ 'x' ∧ letter ≠ '\n' := by
  have table : ∀ escape ∈ shortEscapes,
      shortEscape? escape.1 = some escape.2 ∧ escape.1 ≠ 'x' ∧ escape.1 ≠ '\n' := by
    decide
  exact table (letter, c) listed

namespace WrittenAs

variable {c : Char} {piece : List Char}

/-- Every character can be written. -/
theorem exists_piece (c : Char) : ∃ piece, WrittenAs c piece := by
  by_cases quote : c = '"'
  · subst quote
    exact ⟨_, .short (by decide : ('"', '"') ∈ shortEscapes)⟩
  by_cases escape : c = '\\'
  · subst escape
    exact ⟨_, .short (by decide : ('\\', '\\') ∈ shortEscapes)⟩
  exact ⟨_, .itself quote escape⟩

/-- No quote that is part of a character ends the literal. -/
theorem stringTail (written : WrittenAs c piece) (rest : List Char)
    : Lexeme.stringTail? (piece ++ rest) = (Lexeme.stringTail? rest).map (· + piece.length) := by
  cases written with
  | itself noQuote noEscape => exact Lexeme.stringTail?_plain noQuote noEscape rest
  | short listed =>
      obtain ⟨-, -, noBreak⟩ := shortEscape_of_listed listed
      simp [Lexeme.stringTail?, noBreak]
  | @hex a b high low first second code =>
      have digit {d : Char} {value : Nat} (digit : HexDigit d value) : d ≠ '"' ∧ d ≠ '\\' := by
        have value := digit.hexValue
        constructor <;> rintro rfl <;> cases value
      obtain ⟨quoteA, escapeA⟩ := digit first
      obtain ⟨quoteB, escapeB⟩ := digit second
      have digits : Lexeme.stringTail? (a :: b :: rest) =
          (Lexeme.stringTail? rest).map (· + 2) := by
        rw [Lexeme.stringTail?_plain quoteA escapeA, Lexeme.stringTail?_plain quoteB escapeB,
          Option.map_map]
        rfl
      show Lexeme.stringTail? ('\\' :: 'x' :: a :: b :: rest) = _
      rw [Lexeme.stringTail?, if_neg (by decide), digits, Option.map_map]
      rfl

/-- A character is read back, however it is written and whatever comes next. -/
theorem unescape (written : WrittenAs c piece) (rest : List Char)
    : Token.unescape (piece ++ rest) = c :: Token.unescape rest := by
  cases written with
  | itself noQuote noEscape =>
      simp [Token.unescape, noEscape]
  | @short letter listed =>
      obtain ⟨escape, noHex, -⟩ := shortEscape_of_listed listed
      simp [Token.unescape, noHex, escape]
  | @hex a b high low first second code =>
      have same : Char.ofNat (16 * high + low) = c := by
        rw [← code, Char.ofNat_toNat]
      simp [Token.unescape, first.hexValue, second.hexValue, same]

end WrittenAs

-----------------------------------------------------------------------------------------
-- How literals are scanned
-----------------------------------------------------------------------------------------

section

variable {chars : List Char} {pieces : List (List Char)}

/-- A literal goes on up to its closing quote, by induction over the characters. -/
theorem stringTail_pieces (written : List.Forall₂ WrittenAs chars pieces)
    : Lexeme.stringTail? (pieces.flatten ++ ['"']) = some (pieces.flatten.length + 1) := by
  induction written with
  | nil => rfl
  | @cons c piece chars pieces first _ ih =>
      rw [List.flatten_cons, List.append_assoc, first.stringTail, ih, Option.map_some,
        List.length_append]
      congr 1
      omega

theorem unescape_pieces (written : List.Forall₂ WrittenAs chars pieces)
    : unescape pieces.flatten = chars := by
  induction written with
  | nil => rfl
  | cons first _ ih => rw [List.flatten_cons, first.unescape, ih]

theorem scan_pieces (written : List.Forall₂ WrittenAs chars pieces)
    : Lexeme.scan '"' (pieces.flatten ++ ['"']) =
        .ok (.token .string (String.ofList chars) (pieces.flatten.length + 1)) := by
  rw [Lexeme.scan, if_neg (by decide), if_neg (by decide), if_neg (by decide)]
  simp only [stringTail_pieces written, Nat.add_sub_cancel, List.take_left,
    unescape_pieces written]

end

theorem exists_literal (text : String) : ∃ literal, Literal text literal := by
  suffices written : ∃ pieces, List.Forall₂ WrittenAs text.toList pieces by
    obtain ⟨pieces, written⟩ := written
    exact ⟨String.ofList ('"' :: (pieces.flatten ++ ['"'])), pieces, written, String.toList_ofList⟩
  induction text.toList with
  | nil => exact ⟨[], .nil⟩
  | cons c chars ih =>
      obtain ⟨piece, first⟩ := WrittenAs.exists_piece c
      obtain ⟨pieces, rest⟩ := ih
      exact ⟨piece :: pieces, .cons first rest⟩

/-- However it is written, a literal is one token, with its offsets as they are kept. -/
theorem scan_literal {text literal : String} (written : Literal text literal) (file : String)
    : scan literal file = .ok
        [⟨.string, text, .ofBytes file 0 literal.utf8ByteSize⟩,
          endOfFile (.ofByte file literal.utf8ByteSize)] := by
  obtain ⟨pieces, written, spelled⟩ := written
  have whole : (pieces.flatten ++ ['"']).take (pieces.flatten.length + 1) =
      pieces.flatten ++ ['"'] := by
    apply List.take_of_length_le
    rw [List.length_append, List.length_singleton]
  have size : byteLength ('"' :: (pieces.flatten ++ ['"'])) = literal.utf8ByteSize := by
    rw [← spelled, byteLength_toList]
  rw [scan, spelled, scanFrom_piece (scan_pieces written)]
  simp only [Lexeme.token, whole, size, Nat.zero_add, String.ofList_toList]
  rw [List.drop_of_length_le (by simp), scanFrom]
  rfl

/-- Every text has a literal, and however it is written, its literal is one token, which has the
text as its value and covers the literal from quote to quote, with its offsets as they are kept.
-/
theorem literal_restores_text (text : String)
    : (∃ literal, Literal text literal) ∧
      ∀ literal file, Literal text literal →
        scan literal file = .ok
            [⟨.string, text, .ofBytes file 0 literal.utf8ByteSize⟩,
              endOfFile (.ofByte file literal.utf8ByteSize)]
          ∧ (literal.utf8ByteSize < offsetCount →
            scan literal file = .ok
              [⟨.string, text, ⟨file, 0, literal.utf8ByteSize⟩⟩,
                endOfFile ⟨file, literal.utf8ByteSize⟩]) := by
  refine ⟨exists_literal text, fun literal file written => ?_⟩
  have scanned := scan_literal written file
  refine ⟨scanned, fun fits => ?_⟩
  rw [Span.ofBytes, Position.ofByte, Nat.mod_eq_of_lt fits, Nat.zero_mod] at scanned
  exact scanned

/-- Witness: a control character is written by its code before a letter that is a digit, and a
letter with an accent as itself.
-/
theorem literal_restores_text_mixed
    : Literal "\x01fé\"" "\"\\x01fé\\\"\"" ∧
      scan "\"\\x01fé\\\"\"" "a" = .ok
        [⟨.string, "\x01fé\"", ⟨"a", 0, 11⟩⟩, endOfFile ⟨"a", 11⟩] := by
  have code : WrittenAs '\x01' ['\\', 'x', '0', '1'] :=
    .hex (⟨by decide, .inl rfl⟩ : HexDigit '0' 0) (⟨by decide, .inl rfl⟩ : HexDigit '1' 1)
      (by decide)
  have letter : WrittenAs 'f' ['f'] := .itself (by decide) (by decide)
  have accent : WrittenAs 'é' ['é'] := .itself (by decide) (by decide)
  have quote : WrittenAs '"' ['\\', '"'] := .short (by decide)
  have literal : Literal "\x01fé\"" "\"\\x01fé\\\"\"" :=
    ⟨_, .cons code (.cons letter (.cons accent (.cons quote .nil))), by decide⟩
  refine ⟨literal, ?_⟩
  exact ((literal_restores_text "\x01fé\"").2 _ "a" literal).2 (by decide)

/-- A literal in which every character is a letter `a`. -/
theorem literal_letters (count : Nat)
    : Literal (String.ofList (List.replicate count 'a'))
        (String.ofList ('"' :: (List.replicate count 'a' ++ ['"']))) := by
  refine ⟨List.replicate count ['a'], ?_, ?_⟩
  · rw [String.toList_ofList]
    induction count with
    | zero => exact .nil
    | succ count ih => exact .cons (.itself (by decide) (by decide)) ih
  · rw [String.toList_ofList, List.flatten_replicate_singleton]

/-- It is not so that the token of a literal always covers it. The end of one that takes 4 GiB is
kept as an offset before it.
-/
theorem not_literal_restores_text
    : ¬ ∀ text literal file, Literal text literal →
        scan literal file = .ok
          [⟨.string, text, ⟨file, 0, literal.utf8ByteSize⟩⟩,
            endOfFile ⟨file, literal.utf8ByteSize⟩] := by
  intro covers
  have written := literal_letters offsetCount
  have same := (scan_literal written "a").symm.trans (covers _ _ "a" written)
  simp only [Except.ok.injEq, List.cons.injEq, Token.mk.injEq, Span.ofBytes, Span.mk.injEq,
    utf8ByteSize_ofList] at same
  have wrapped := same.1.2.2.2.2
  have large := length_le_byteLength ('"' :: (List.replicate offsetCount 'a' ++ ['"']))
  rw [List.length_cons, List.length_append, List.length_replicate] at large
  have kept := Nat.mod_lt (byteLength ('"' :: (List.replicate offsetCount 'a' ++ ['"'])))
    (show 0 < offsetCount by decide)
  omega

end BuildScript.Token
