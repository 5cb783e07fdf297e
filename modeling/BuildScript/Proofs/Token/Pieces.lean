import BuildScript.Token.Lexer
import Mathlib.Data.List.Basic
import Mathlib.Data.List.TakeWhile

/-! A piece of a text is scanned with little regard for what follows it: at most the two next
characters have a part in where it ends. Where a piece stays as it is and a blank comes directly
after it, or after one more character, it is scanned as before, and also where the text ends there.
-/

namespace BuildScript

open Text

-----------------------------------------------------------------------------------------
-- Characters, and what follows a piece
-----------------------------------------------------------------------------------------

/-- White space is no part of a word. -/
theorem wordPart_of_blank {c : Char} (blank : isBlank c) : isWordPart c = false := by
  have code : c.val.toNat = c.toNat := rfl
  rw [Bool.eq_false_iff]
  intro part
  delta isWordPart Char.isAlphanum Char.isAlpha Char.isUpper Char.isLower Char.isDigit at part
  simp only [Bool.or_eq_true, Bool.and_eq_true, decide_eq_true_eq, ge_iff_le, beq_iff_eq,
    UInt32.le_iff_toNat_le, Char.ext_iff, ← UInt32.toNat_inj, code, UInt32.reduceToNat,
    Char.reduceVal] at part
  simp only [isBlank, Bool.or_eq_true, Bool.and_eq_true, decide_eq_true_eq, beq_iff_eq] at blank
  omega

/-- White space begins no word. -/
theorem wordStart_of_blank {c : Char} (blank : isBlank c) : isWordStart c = false := by
  have part := wordPart_of_blank blank
  simp only [isWordPart, Char.isAlphanum, Bool.or_eq_false_iff] at part
  simp only [isWordStart, part.1.1, part.2, Bool.or_self]

/-- White space is no digit. -/
theorem digit_of_blank {c : Char} (blank : isBlank c) : c.isDigit = false := by
  have part := wordPart_of_blank blank
  simp only [isWordPart, Char.isAlphanum, Bool.or_eq_false_iff] at part
  exact part.1.2

namespace Lexeme

/-- (Follows old new) says that what follows a piece begins as before, or has a blank in place of
its first or second character, or ends before one of these.
-/
inductive Follows : List Char → List Char → Prop
  | same {d e : Char} {old new : List Char} : Follows (d :: e :: old) (d :: e :: new)
  | all {rest : List Char} : Follows rest rest
  | blank {b : Char} {old new : List Char} (blank : isBlank b) : Follows old (b :: new)
  | blankNext {d b : Char} {old new : List Char} (blank : isBlank b)
    : Follows (d :: old) (d :: b :: new)
  | ended {old : List Char} : Follows old []
  | endedNext {d : Char} {old : List Char} : Follows (d :: old) [d]

/-- What follows begins with the same character, or with a blank, or there is nothing. -/
theorem Follows.head {old new : List Char} (follows : Follows old new)
    : new.head? = old.head? ∨ (∃ b, isBlank b ∧ new.head? = some b) ∨ new = [] := by
  cases follows with
  | same => exact .inl rfl
  | all => exact .inl rfl
  | blank blank => exact .inr (.inl ⟨_, blank, rfl⟩)
  | blankNext => exact .inl rfl
  | ended => exact .inr (.inr rfl)
  | endedNext => exact .inl rfl

/-- A text that ends early follows as it did up to there. -/
theorem Follows.cut (before after : List Char) : Follows (before ++ after) before := by
  rcases before with _ | ⟨d, _ | ⟨e, before⟩⟩
  · exact .ended
  · exact .endedNext
  · exact .same

/-- What stops a run of characters before still stops it, if blanks do. -/
theorem Follows.stops {old new : List Char} (follows : Follows old new) {p : Char → Bool}
    (blanks : ∀ b, isBlank b → p b = false) (stops : ∀ d ∈ old.head?, p d = false)
    : ∀ d ∈ new.head?, p d = false := by
  intro d first
  rcases follows.head with same | ⟨b, blank, here⟩ | rfl
  · exact stops d (same ▸ first)
  · rw [here, Option.mem_some_iff] at first
    exact first ▸ blanks b blank
  · exact nomatch first

-----------------------------------------------------------------------------------------
-- Runs of characters, words and numbers
-----------------------------------------------------------------------------------------

section Runs

variable {p : Char → Bool} {part rest : List Char}

theorem takeWhile_stopped (stops : ∀ d ∈ rest.head?, p d = false) : rest.takeWhile p = [] := by
  cases rest with
  | nil => rfl
  | cons d rest => rw [List.takeWhile_cons, stops d rfl, if_neg Bool.false_ne_true]

/-- A run is all of a part that is followed by what stops it. -/
theorem takeWhile_append_stopped (all : ∀ d ∈ part, p d) (stops : ∀ d ∈ rest.head?, p d = false)
    : (part ++ rest).takeWhile p = part := by
  rw [List.takeWhile_append_of_pos all, takeWhile_stopped stops, List.append_nil]

/-- A run that is as long as a part is that part, and it ends there. -/
theorem takeWhile_covers (covers : ((part ++ rest).takeWhile p).length = part.length)
    : (∀ d ∈ part, p d) ∧ ∀ d ∈ rest.head?, p d = false := by
  have run : (part ++ rest).takeWhile p = part :=
    (List.prefix_of_prefix_length_le (List.takeWhile_prefix p) (List.prefix_append part rest)
      covers.le).eq_of_length covers
  have all : ∀ d ∈ part, p d := fun d member => List.mem_takeWhile_imp (run ▸ member)
  refine ⟨all, fun d first => ?_⟩
  rw [List.takeWhile_append_of_pos all] at run
  have ended := List.append_right_eq_self.mp run
  cases rest with
  | nil => exact nomatch first
  | cons e rest =>
      obtain rfl := Option.some.inj first
      cases continues : p e with
      | false => rfl
      | true =>
          rw [List.takeWhile_cons, continues, if_pos rfl] at ended
          exact nomatch ended

end Runs

variable {c : Char} {part old new : List Char}

theorem word_of_follows (covers : (word c (part ++ old)).tail = part.length)
    (follows : Follows old new)
    : word c (part ++ new) = word c (part ++ old) := by
  obtain ⟨all, stops⟩ := takeWhile_covers (p := isWordPart) covers
  have stops' := follows.stops (fun _ => wordPart_of_blank) stops
  simp only [word, takeWhile_append_stopped all stops, takeWhile_append_stopped all stops']

/-- What comes after a fraction has no part in it, unless it goes on with a digit. -/
theorem fraction_append {d : Char} {digits rest : List Char} (digit : d.isDigit)
    (all : ∀ e ∈ digits, e.isDigit) (stops : ∀ e ∈ rest.head?, e.isDigit = false)
    : fraction ('.' :: d :: digits ++ rest) = '.' :: d :: digits := by
  simp only [fraction, List.cons_append, digit, if_pos, takeWhile_append_stopped all stops]

/-- A fraction is a point and digits, or nothing. -/
theorem fraction_eq (text : List Char)
    : (∃ d digits rest, text = '.' :: d :: digits ++ rest ∧ d.isDigit ∧ (∀ e ∈ digits, e.isDigit) ∧
        ∀ e ∈ rest.head?, e.isDigit = false) ∨
      (fraction text = [] ∧ ∀ d rest, text = '.' :: d :: rest → d.isDigit = false) := by
  unfold fraction
  split
  · next d rest =>
      split
      · next digit =>
          left
          have covers : ((rest.takeWhile Char.isDigit ++ rest.dropWhile Char.isDigit).takeWhile
              Char.isDigit).length = (rest.takeWhile Char.isDigit).length := by
            rw [List.takeWhile_append_dropWhile]
          obtain ⟨all, stops⟩ := takeWhile_covers covers
          refine ⟨d, rest.takeWhile Char.isDigit, rest.dropWhile Char.isDigit, ?_,
            digit, all, stops⟩
          rw [List.cons_append, List.cons_append, List.takeWhile_append_dropWhile]
      · next other =>
          refine .inr ⟨rfl, fun e rest' same => ?_⟩
          obtain ⟨rfl, rfl⟩ := List.cons.inj (List.cons.inj same).2
          exact Bool.eq_false_iff.mpr other
  · next other => exact .inr ⟨rfl, fun d rest same => absurd same (other d rest)⟩

/-- The number that is read from digits and what comes after them. -/
theorem number_append {whole after : List Char} (all : ∀ d ∈ whole, d.isDigit)
    (stops : ∀ d ∈ after.head?, d.isDigit = false)
    : number c (whole ++ after) =
        token (if (fraction after).isEmpty then .integer else .double)
          (String.ofList (c :: whole ++ fraction after))
          (whole.length + (fraction after).length) := by
  have digits := takeWhile_append_stopped all stops
  have dropped : (whole ++ after).dropWhile Char.isDigit = after := by
    have both := List.takeWhile_append_dropWhile (p := Char.isDigit) (l := whole ++ after)
    rw [digits] at both
    exact List.append_cancel_left both
  simp only [number, digits, dropped]

theorem number_of_follows (covers : (number c (part ++ old)).tail = part.length)
    (follows : Follows old new)
    : number c (part ++ new) = number c (part ++ old) := by
  -- The digits before the point, and what comes after them.
  obtain ⟨whole, after, split_, all, stops⟩ : ∃ whole after : List Char,
      part ++ old = whole ++ after ∧ (∀ d ∈ whole, d.isDigit) ∧
        ∀ d ∈ after.head?, d.isDigit = false := by
    have both := List.takeWhile_append_dropWhile (p := Char.isDigit) (l := part ++ old)
    refine ⟨_, _, both.symm, takeWhile_covers ?_⟩
    rw [both]
  rw [split_, number_append all stops] at covers
  have length : whole.length + (fraction after).length = part.length := covers
  rcases fraction_eq after with ⟨d, ds, rest, rfl, digit, more, ends⟩ | ⟨none_, noPoint⟩
  · -- The part is all of the digits, the point and the digits after it.
    rw [fraction_append digit more ends] at length
    obtain ⟨rfl, rfl⟩ : part = whole ++ '.' :: d :: ds ∧ old = rest := by
      refine List.append_inj (split_.trans ?_) (by simpa using length.symm)
      rw [List.append_assoc]
    have ends' := follows.stops (fun _ => digit_of_blank) ends
    have pointed (after : List Char)
        : ∀ e ∈ ('.' :: d :: ds ++ after).head?, e.isDigit = false := by
      rintro e ⟨⟩
      rfl
    rw [List.append_assoc, List.append_assoc, number_append all (pointed new),
      number_append all (pointed old), fraction_append digit more ends,
      fraction_append digit more ends']
  · -- The part is all of the digits, and no point and digit come after it.
    rw [none_, List.length_nil, Nat.add_zero] at length
    obtain ⟨rfl, rfl⟩ := List.append_inj split_ length.symm
    have stops' := follows.stops (fun _ => digit_of_blank) stops
    have none' : fraction new = [] := by
      rcases fraction_eq new with ⟨d, ds, rest, rfl, digit, _⟩ | ⟨none', _⟩
      · cases follows with
        | same => exact absurd digit (Bool.eq_false_iff.mp (noPoint d _ rfl))
        | all => exact absurd digit (Bool.eq_false_iff.mp (noPoint d _ rfl))
        | blank blank => exact nomatch (show isBlank '.' = false from rfl).symm.trans blank
        | blankNext blank => exact absurd digit (Bool.eq_false_iff.mp (digit_of_blank blank))
      · exact none'
    rw [number_append all stops, number_append all stops', none_, none']

-----------------------------------------------------------------------------------------
-- Strings and comments
-----------------------------------------------------------------------------------------

/-- A character that neither ends a string literal nor escapes the next one is passed over. -/
theorem stringTail?_plain {c : Char} (inner : c ≠ '"') (plain : c ≠ '\\') (rest : List Char)
    : stringTail? (c :: rest) = (stringTail? rest).map (· + 1) := by
  rw [stringTail?]
  · exact inner
  · exact fun _ _ escape _ => plain escape
  · exact fun escape _ => plain escape

/-- A string literal ends at its closing quote, whatever follows. -/
theorem stringTail?_append {text : List Char} {n : Nat} (tail : stringTail? text = some n)
    (rest : List Char)
    : n ≤ text.length ∧ stringTail? (text.take n ++ rest) = some n := by
  induction text using stringTail?.induct generalizing n with
  | case1 => exact nomatch tail
  | case2 after =>
      obtain rfl := Option.some.inj tail
      exact ⟨Nat.succ_le_succ (Nat.zero_le _), rfl⟩
  | case3 c after newline =>
      rw [stringTail?, if_pos newline] at tail
      exact nomatch tail
  | case4 c after newline ih =>
      rw [stringTail?, if_neg newline, Option.map_eq_some_iff] at tail
      obtain ⟨m, inner, rfl⟩ := tail
      obtain ⟨le, same⟩ := ih inner
      refine ⟨Nat.add_le_add_right le 2, ?_⟩
      rw [List.take_succ_cons, List.take_succ_cons, List.cons_append, List.cons_append, stringTail?,
        if_neg newline, same, Option.map_some]
  | case5 => exact nomatch tail
  | case6 c after inner noEscape noEnd ih =>
      have plain : c ≠ '\\' := by
        rintro rfl
        cases after with
        | nil => exact noEnd rfl rfl
        | cons d after => exact noEscape d after rfl rfl
      rw [stringTail?_plain inner plain, Option.map_eq_some_iff] at tail
      obtain ⟨m, more, rfl⟩ := tail
      obtain ⟨le, same⟩ := ih more
      refine ⟨Nat.succ_le_succ le, ?_⟩
      rw [List.take_succ_cons, List.cons_append, stringTail?_plain inner plain, same,
        Option.map_some]

/-- The closing mark of a block comment takes some characters. -/
theorem commentTail?_ne_zero (text : List Char) : commentTail? text ≠ some 0 := by
  unfold commentTail?
  split
  · exact fun none_ => nomatch none_
  · exact fun none_ => nomatch none_
  · rw [ne_eq, Option.map_eq_some_iff]
    rintro ⟨m, -, impossible⟩
    exact nomatch impossible

/-- A block comment ends at its closing mark, whatever follows. -/
theorem commentTail?_append {text : List Char} {n : Nat} (tail : commentTail? text = some n)
    (rest : List Char)
    : n ≤ text.length ∧ commentTail? (text.take n ++ rest) = some n := by
  induction text using commentTail?.induct generalizing n with
  | case1 after =>
      obtain rfl := Option.some.inj tail
      exact ⟨Nat.succ_le_succ (Nat.succ_le_succ (Nat.zero_le _)), rfl⟩
  | case2 => exact nomatch tail
  | case3 c after noMark ih =>
      rw [commentTail?, Option.map_eq_some_iff] at tail
      · obtain ⟨m, more, rfl⟩ := tail
        obtain ⟨le, same⟩ := ih more
        refine ⟨Nat.succ_le_succ le, ?_⟩
        rw [List.take_succ_cons, List.cons_append, commentTail?, same, Option.map_some]
        intro after' star starts
        -- The mark would have ended the comment before, since more of the comment is needed.
        cases after with
        | nil => exact nomatch more
        | cons d after =>
            rcases m with _ | m
            · exact commentTail?_ne_zero _ more
            · rw [List.take_succ_cons, List.cons_append] at starts
              exact noMark after star (by rw [(List.cons.inj starts).1])
      · exact noMark

-----------------------------------------------------------------------------------------
-- Operators and pieces
-----------------------------------------------------------------------------------------

/-- Every operator has one or two characters, of which the second is not blank. -/
theorem operators_text {kind : TokenKind} (member : kind ∈ TokenKind.operators)
    : (∃ d, kind.text.toList = [d]) ∨ ∃ d e, kind.text.toList = [d, e] ∧ isBlank e = false := by
  have table : ∀ kind ∈ TokenKind.operators,
      (kind.text.toList.length = 1 ∨ kind.text.toList.length = 2) ∧
        (kind.text.toList.drop 1).any isBlank = false := by
    decide
  obtain ⟨length, solid⟩ := table kind member
  rcases length with one | two
  · exact .inl (List.length_eq_one_iff.mp one)
  · obtain ⟨d, e, text⟩ := List.length_eq_two.mp two
    rw [text] at solid
    rw [List.drop_one, List.tail_cons, List.any_cons, List.any_nil, Bool.or_false] at solid
    exact .inr ⟨d, e, text, solid⟩

/-- No operator begins with a quote. -/
theorem operator?_quote (rest : List Char) : operator? ('"' :: rest) = none := by
  have table : ∀ kind ∈ TokenKind.operators, kind.text.toList.head? ≠ some '"' := by
    decide
  rw [operator?, List.find?_eq_none.mpr, Option.map_none]
  intro kind member
  rw [List.isPrefixOf_iff_prefix]
  rintro ⟨after, fits⟩
  refine table kind member ?_
  rcases operators_text member with ⟨d, text⟩ | ⟨d, e, text, -⟩
  · rw [text] at fits ⊢
    rw [(List.cons.inj fits).1, List.head?_cons]
  · rw [text] at fits ⊢
    rw [(List.cons.inj fits).1, List.head?_cons]

/-- An operator that does not fit at the beginning of a text still does not fit if what follows
the text begins as before or with a blank.
-/
theorem operator_of_follows {kind : TokenKind} (member : kind ∈ TokenKind.operators)
    (fits : kind.text.toList <+: c :: part ++ new) (follows : Follows old new)
    : kind.text.toList <+: c :: part ++ old := by
  rcases operators_text member with ⟨d, text⟩ | ⟨d, e, text, solid⟩
  · rw [text, List.cons_append, List.cons_prefix_cons] at fits ⊢
    exact ⟨fits.1, List.nil_prefix⟩
  · rw [text, List.cons_append, List.cons_prefix_cons] at fits ⊢
    refine ⟨fits.1, ?_⟩
    cases part with
    | cons p part =>
        have same := fits.2
        rw [List.cons_append, List.cons_prefix_cons] at same ⊢
        exact ⟨same.1, List.nil_prefix⟩
    | nil =>
        have first : new.head? = some e := by
          obtain ⟨rest, here⟩ := fits.2
          rw [← List.nil_append new, ← here]
          rfl
        rcases follows.head with same | ⟨b, blank, here⟩ | rfl
        · rw [first] at same
          obtain ⟨rest, rfl⟩ := List.head?_eq_some_iff.mp same.symm
          exact ⟨rest, rfl⟩
        · obtain rfl := Option.some.inj (first.symm.trans here)
          exact nomatch solid.symm.trans blank
        · exact nomatch first

/-- An operator that is all of a part is still found there. -/
theorem operator?_of_follows {lexeme : Lexeme} (found : operator? (c :: part ++ old) = some lexeme)
    (covers : lexeme.tail = part.length) (follows : Follows old new)
    : operator? (c :: part ++ new) = some lexeme := by
  obtain ⟨kind, first, rfl⟩ := Option.map_eq_some_iff.mp found
  obtain ⟨fits, before, after, operators, others⟩ := List.find?_eq_some_iff_append.mp first
  have member : kind ∈ TokenKind.operators := by
    rw [operators]
    exact List.mem_append_right _ List.mem_cons_self
  -- The operator is all of the part, since it is as long.
  have length : kind.text.toList.length = (c :: part).length := by
    have tail : kind.text.length - 1 = part.length := covers
    rw [← String.length_toList] at tail
    rcases operators_text member with ⟨d, text⟩ | ⟨d, e, text, -⟩
    · rw [text] at tail ⊢
      exact congrArg (· + 1) tail
    · rw [text] at tail ⊢
      exact congrArg (· + 1) tail
  have text : kind.text.toList = c :: part :=
    (List.prefix_of_prefix_length_le (List.isPrefixOf_iff_prefix.mp fits)
      (List.prefix_append (c :: part) old) length.le).eq_of_length length
  rw [operator?, List.find?_eq_some_iff_append.mpr ⟨?_, before, after, operators, ?_⟩]
  · rfl
  · rw [List.isPrefixOf_iff_prefix, text]
    exact List.prefix_append _ _
  · intro other earlier
    have refused := others other earlier
    rw [Bool.not_eq_true', Bool.eq_false_iff, ne_eq, List.isPrefixOf_iff_prefix] at refused ⊢
    refine fun fits => refused (operator_of_follows ?_ fits follows)
    rw [operators]
    exact List.mem_append_left _ earlier

/-- A piece that is not blank is scanned as before, if it is not a line comment that something
new is put behind.
-/
theorem scan_of_follows {lexeme : Lexeme} (solid : isBlank c = false)
    (scanned : scan c (part ++ old) = .ok lexeme) (covers : lexeme.tail = part.length)
    (follows : Follows old new)
    (closed : c = '/' → part.head? = some '/' → new.head? = old.head? ∨ new = [])
    : scan c (part ++ new) = .ok lexeme := by
  unfold scan at scanned ⊢
  split
  · next start =>
      rw [if_pos start] at scanned
      obtain rfl := Except.ok.inj scanned
      rw [word_of_follows covers follows]
  next noWord =>
  rw [if_neg noWord] at scanned
  split
  · next digit =>
      rw [if_pos digit] at scanned
      obtain rfl := Except.ok.inj scanned
      rw [number_of_follows covers follows]
  next noDigit =>
  rw [if_neg noDigit, if_neg (by rw [solid]; exact Bool.false_ne_true)] at scanned
  rw [if_neg (by rw [solid]; exact Bool.false_ne_true)]
  dsimp only at scanned ⊢
  split at scanned
  · split at scanned
    · -- The literal ends with the part.
      next tail literal =>
        obtain rfl := Except.ok.inj scanned
        obtain rfl : tail = part.length := covers
        obtain ⟨-, same⟩ := stringTail?_append literal new
        rw [List.take_left] at same
        simp only [same, List.take_append_of_le_length (Nat.sub_le part.length 1)]
    · -- A quote that no literal begins with is no token.
      rw [operator?_quote] at scanned
      cases scanned
  · -- The comment goes on up to the same newline, or the end of the text.
    next after starts =>
      obtain rfl := Except.ok.inj scanned
      have length : (after.takeWhile (· != '\n')).length + 1 = part.length := covers
      cases part with
      | nil => exact absurd length (Nat.succ_ne_zero _)
      | cons d part =>
          obtain ⟨rfl, rfl⟩ := List.cons.inj starts
          obtain ⟨all, stops⟩ := takeWhile_covers (Nat.succ.inj length)
          have stops : ∀ d ∈ new.head?, (d != '\n') = false := by
            rcases closed rfl rfl with same | rfl
            · rw [same]
              exact stops
            · exact fun d none_ => nomatch none_
          show Except.ok (ignored (((part ++ new).takeWhile _).length + 1)) = _
          rw [takeWhile_append_stopped all stops, Nat.succ.inj length]
  · split at scanned
    · -- The comment ends with the part.
      next after starts _ tail comment =>
        obtain rfl := Except.ok.inj scanned
        have length : tail + 1 = part.length := covers
        cases part with
        | nil => exact absurd length (Nat.succ_ne_zero _)
        | cons d part =>
            obtain ⟨rfl, rfl⟩ := List.cons.inj starts
            obtain rfl := Nat.succ.inj length
            obtain ⟨-, same⟩ := commentTail?_append comment new
            rw [show (part.append old).take part.length = part from List.take_left] at same
            simp only [List.cons_append, same]
    · cases scanned
  · -- An operator is scanned, and after a slash comes no other mark of a comment than before.
    next noQuote noLine noBlock =>
      split at scanned
      · next found =>
          obtain rfl := Except.ok.inj scanned
          have same := operator?_of_follows found covers follows
          have inside (d : Char) (solid : isBlank d = false) (begins : (part ++ new).head? = some d)
              : (part ++ old).head? = some d := by
            cases part with
            | cons p part => exact begins
            | nil =>
                rcases follows.head with same | ⟨b, blank, here⟩ | rfl
                · exact same.symm.trans begins
                · obtain rfl := Option.some.inj (here.symm.trans begins)
                  exact absurd (solid.symm.trans blank) Bool.false_ne_true
                · exact nomatch begins
          split
          · exact absurd rfl noQuote
          · next after starts =>
              obtain ⟨rest, before⟩ := List.head?_eq_some_iff.mp
                (inside '/' rfl (by rw [starts]; rfl))
              exact absurd before (noLine rest rfl)
          · next after starts =>
              obtain ⟨rest, before⟩ := List.head?_eq_some_iff.mp
                (inside '*' rfl (by rw [starts]; rfl))
              exact absurd before (noBlock rest rfl)
          · rw [← List.cons_append, same]
      · cases scanned

end Lexeme

end BuildScript
