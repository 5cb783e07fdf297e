import BuildScript.Diagnostic.Render
import BuildScript.Proofs.Text.LinePlaces

/-! Arrows below lines. An arrow stands as many characters behind its bar as there are bytes in the
shown line before the place that it is meant for. So it is below that place exactly if no character
before it takes more than one byte.
-/

namespace BuildScript

-----------------------------------------------------------------------------------------
-- Places in lines
-----------------------------------------------------------------------------------------

namespace Text

/-- The parts of a text around an offset between two characters that is not in the indentation of
its line: the lines before, the indentation, the characters that are passed, and the rest.
-/
structure LinePoint (text : String) (offset : Nat) where
  earlier : List Char
  indentation : List Char
  passed : List Char
  rest : List Char
  joined : text.toList = earlier ++ (indentation ++ (passed ++ rest))
  place : byteLength earlier + byteLength (indentation ++ passed) = offset
  begins : earlier = [] ∨ ∃ lines, earlier = lines ++ ['\n']
  indents : ∀ c ∈ indentation, Diagnostic.isIndent c = true
  unbroken : '\n' ∉ passed
  unindented : ∀ c, (passed ++ rest).head? = some c → Diagnostic.isIndent c = false

variable {first : List Char} {text : String} {offset : Nat}

theorem firstLine_append (unbroken : '\n' ∉ first) (rest : List Char)
    : firstLine (first ++ rest) = first ++ firstLine rest := by
  induction first with
  | nil => rfl
  | cons c first ih =>
      simp only [List.mem_cons, not_or] at unbroken
      simp [firstLine, Ne.symm unbroken.1, ih unbroken.2]

theorem count_lineFeed (chars : List Char) : (encoded chars).count lineFeed = chars.count '\n' := by
  induction chars with
  | nil => rfl
  | cons c rest ih =>
      by_cases breaks : c = '\n'
      · subst breaks
        simp [encodeChar_lineFeed, ih]
      · have clean : lineFeed ∉ String.utf8EncodeChar c := mt lineFeed_mem_encodeChar.mp breaks
        simp [List.count_eq_zero_of_not_mem clean, ih, breaks]

/-- Characters of one byte are counted like bytes. -/
theorem byteLength_eq_length_iff (chars : List Char)
    : byteLength chars = chars.length ↔ ∀ c ∈ chars, c.toNat < 0x80 := by
  induction chars with
  | nil => simp
  | cons c rest ih =>
      have most := length_le_byteLength rest
      have positive := c.utf8Size_pos
      rw [List.forall_mem_cons, ← ih, ← utf8Size_eq_one_iff, byteLength_cons, List.length_cons]
      omega

namespace LinePoint

/-- The number of the line. -/
def number (point : LinePoint text offset) : Nat := point.earlier.count '\n' + 1

/-- The line without its indentation and the white space at its end. -/
def shown (point : LinePoint text offset) : List Char :=
  trimEnd (firstLine (point.passed ++ point.rest))

theorem indentation_unbroken (point : LinePoint text offset) : '\n' ∉ point.indentation := by
  intro among
  have indents := point.indents '\n' among
  simp [Diagnostic.isIndent] at indents

/-- Indentation is made of characters of one byte. -/
theorem byteLength_indentation (point : LinePoint text offset)
    : byteLength point.indentation = point.indentation.length := by
  refine (byteLength_eq_length_iff _).mpr fun c among => ?_
  have indents := point.indents c among
  simp only [Diagnostic.isIndent, Bool.or_eq_true, beq_iff_eq] at indents
  rcases indents with rfl | rfl <;> decide

/-- The place of the offset is in the line behind the lines before. -/
theorem placeOf?_eq (point : LinePoint text offset)
    : placeOf? text offset = some ⟨point.number,
        String.ofList (point.indentation ++ firstLine (point.passed ++ point.rest)),
        byteLength (point.indentation ++ point.passed)⟩ := by
  let line := point.indentation ++ (point.passed ++ point.rest)
  let column := byteLength (point.indentation ++ point.passed)
  have unbroken : '\n' ∉ point.indentation ++ point.passed := by
    simp [point.indentation_unbroken, point.unbroken]
  have clean := lineFeed_not_mem_take unbroken (Nat.le_refl _) point.rest
  rw [List.append_assoc] at clean
  have inside : column ≤ byteLength line := by
    simp only [column, line, byteLength_append]
    omega
  have here (number : Nat) := LinePlace.Marks.here clean inside number
  have expected : LinePlace.Marks ⟨point.number, String.ofList (firstLine line), column⟩
      (encoded text.toList) 1 (byteLength point.earlier + column) := by
    rw [point.joined, number]
    rcases point.begins with first | ⟨lines, behind⟩
    · simpa [first, line, column] using here 1
    · have size : byteLength point.earlier = (encoded lines).length + 1 := by
        simp [behind, show '\n'.utf8Size = 1 by decide]
      have counted : (lines ++ ['\n']).count '\n' + 1 = 1 + (encoded lines).count lineFeed + 1 := by
        rw [count_lineFeed, List.count_append, List.count_singleton_self, Nat.add_comm 1]
      have parted : encoded (lines ++ ['\n'] ++ line) = encoded lines ++ lineFeed :: encoded line :=
        by simp [encodeChar_lineFeed]
      rw [size, Nat.add_assoc, Nat.add_comm 1 column, behind, counted, parted]
      exact LinePlace.Marks.afterBreak (here _)
  have within : byteLength point.earlier + column ≤ byteLength text.toList := by
    rw [point.joined, byteLength_append]
    exact Nat.add_le_add_left inside _
  rw [point.place] at expected within
  obtain ⟨place, found, marks⟩ :=
    placeFrom?_marks [] List.not_mem_nil within 1
  simp only [List.nil_append, byteLength_nil, Nat.zero_add] at found marks
  rw [placeOf?, found, marks.unique expected]
  simp only [line, column, firstLine_append point.indentation_unbroken]

end LinePoint

end Text

-----------------------------------------------------------------------------------------
-- Arrows
-----------------------------------------------------------------------------------------

namespace Diagnostic

/-- (Shows output number line column) says that an output ends with a line behind its number and a
bar, and with an arrow below it that stands so many characters behind a bar below that one.
-/
def Shows (output : String) (number : Nat) (line : List Char) (column : Nat) : Prop :=
  ∃ heading,
    output.toList =
      heading
        ++ ('\n' :: (toString number).toList ++ [' ', '|', ' '] ++ line)
        ++ ('\n' :: List.replicate ((toString number).toList.length + 1) ' ' ++ ['|', ' ']
          ++ List.replicate column '-' ++ ['^', '\n'])

variable {output text : String} {number column other : Nat} {line : List Char}

/-- An output shows one arrow. -/
theorem Shows.unique (shows_ : Shows output number line column)
    (showsToo : Shows output number line other)
    : column = other := by
  have arrow {column : Nat} (shows_ : Shows output number line column)
      : ((output.toList.reverse.drop 2).takeWhile (· == '-')).length = column := by
    obtain ⟨heading, same⟩ := shows_
    simp [same, List.takeWhile_append_of_pos]
  exact (arrow shows_).symm.trans (arrow showsToo)

theorem takeWhile_isIndent (point : Text.LinePoint text column)
    : (point.indentation ++ Text.firstLine (point.passed ++ point.rest)).takeWhile isIndent =
        point.indentation := by
  rw [List.takeWhile_append_of_pos point.indents]
  have unindented := point.unindented
  cases same : point.passed ++ point.rest with
  | nil => simp [Text.firstLine]
  | cons c rest =>
      have visible : isIndent c = false := unindented c (by rw [same]; rfl)
      by_cases breaks : c = '\n'
      · simp [Text.firstLine, breaks, isIndent]
      · simp [Text.firstLine, breaks, visible]

/-- The arrow stands as many characters behind its bar as there are bytes in the shown line before
the place.
-/
theorem render_shows (diagnostic : Diagnostic) (point : Text.LinePoint text diagnostic.span.start)
    : Shows (diagnostic.render text) point.number point.shown
        (Text.byteLength point.passed) := by
  have column : Text.byteLength (point.indentation ++ point.passed) - point.indentation.length =
      Text.byteLength point.passed := by
    rw [Text.byteLength_append, point.byteLength_indentation, Nat.add_sub_cancel_left]
  refine ⟨(diagnostic.header ++ padLeft ' ' ((toString point.number).length + 2) '|').toList, ?_⟩
  rw [render, point.placeOf?_eq]
  simp only [excerpt, String.toList_ofList, takeWhile_isIndent point, column, padLeft,
    Text.LinePoint.shown, List.drop_left, String.toList_append, ← String.length_toList]
  simp

/-- The arrow of a message about a place behind the indentation of its line stands as many
characters behind its bar as there are bytes in the shown line before the place. So it is below the
place, as many characters behind its bar as the place is behind the one of the line, if and only if
all characters before the place are of one byte.
-/
theorem arrow_below_place_iff (diagnostic : Diagnostic)
    (point : Text.LinePoint text diagnostic.span.start)
    : Shows (diagnostic.render text) point.number point.shown (Text.byteLength point.passed)
      ∧ (Shows (diagnostic.render text) point.number point.shown point.passed.length ↔
        ∀ c ∈ point.passed, c.toNat < 0x80) := by
  have shows_ := render_shows diagnostic point
  refine ⟨shows_, ?_⟩
  rw [← Text.byteLength_eq_length_iff]
  constructor
  · intro below
    exact shows_.unique below
  · intro same
    exact same ▸ shows_

/-- The place behind a character of two bytes. -/
def accentPoint : Text.LinePoint "é;" 2 where
  earlier := []
  indentation := []
  passed := ['é']
  rest := [';']
  joined := rfl
  place := by decide
  begins := .inl rfl
  indents _ absent := absurd absent List.not_mem_nil
  unbroken := by decide
  unindented := by simp [isIndent]

/-- Behind a character of two bytes the arrow is not below the place that it is meant for. -/
theorem arrow_beside_place
    : ¬ Shows ((⟨.error, "unexpected token", ⟨"f", 2, 3⟩⟩ : Diagnostic).render "é;")
        accentPoint.number accentPoint.shown accentPoint.passed.length := by
  intro below
  have bytes := render_shows ⟨.error, "unexpected token", ⟨"f", 2, 3⟩⟩ accentPoint
  exact absurd (bytes.unique below) (by decide)

end Diagnostic

end BuildScript
