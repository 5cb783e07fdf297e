import BuildScript.Proofs.Text.Sizes
import BuildScript.Text.Lines

/-! The places of bytes in the lines of a text. A place tells how many line breaks are before an
offset, how far the last of them is away, and the line up to the next one. This holds at every
offset, also behind the last line break, at the end of a text and inside a character.
-/

namespace BuildScript.Text

-----------------------------------------------------------------------------------------
-- Bytes
-----------------------------------------------------------------------------------------

/-- The byte that breaks lines. -/
def lineFeed : UInt8 := 0x0A

/-- The bytes of a text, in order. -/
def byteList (text : String) : List UInt8 := text.toByteArray.data.toList

/-- The bytes of some characters, in order. -/
def encoded (chars : List Char) : List UInt8 := chars.flatMap String.utf8EncodeChar

/-- (sinceBreak bytes position) is how many bytes there are before a position since the last line
break, or since the beginning.
-/
def sinceBreak (bytes : List UInt8) (position : Nat) : Nat :=
  ((bytes.take position).reverse.takeWhile (· != lineFeed)).length

/-- The bytes up to and including the first line break, or all of them. -/
def throughBreak (bytes : List UInt8) : List UInt8 := bytes.take (bytes.idxOf lineFeed + 1)

variable {first rest passed chars : List Char} {c : Char} {bytes before after : List UInt8}
  {number position : Nat}

theorem byteList_ofList (chars : List Char) : byteList (String.ofList chars) = encoded chars := by
  simp [byteList, encoded, String.toByteArray_ofList, List.utf8Encode, List.data_toByteArray]

theorem byteList_eq (text : String) : byteList text = encoded text.toList := by
  rw [← byteList_ofList, String.ofList_toList]

@[simp] theorem encoded_append (first rest : List Char)
    : encoded (first ++ rest) = encoded first ++ encoded rest :=
  List.flatMap_append

@[simp] theorem encoded_cons (c : Char) (rest : List Char)
    : encoded (c :: rest) = String.utf8EncodeChar c ++ encoded rest :=
  List.flatMap_cons

theorem encodeChar_lineFeed : String.utf8EncodeChar '\n' = [lineFeed] := rfl

@[simp] theorem length_encoded (chars : List Char) : (encoded chars).length = byteLength chars := by
  induction chars with
  | nil => rfl
  | cons c rest ih => simp [ih, String.length_utf8EncodeChar]

/-- The bytes of longer characters are all above those of ASCII. -/
theorem lineFeed_mem_encodeChar : lineFeed ∈ String.utf8EncodeChar c ↔ c = '\n' := by
  constructor
  · intro among
    have value : c.val.toNat = 10 := by
      simp only [String.utf8EncodeChar, lineFeed] at among
      repeat' split at among
      all_goals
        simp only [List.mem_cons, List.not_mem_nil, or_false, ← UInt8.toNat_inj,
          UInt8.toNat_ofNat', UInt8.toNat_ofNat] at among
        omega
    exact Char.toNat_inj.mp value
  · rintro rfl
    decide

theorem lineFeed_mem_encoded : lineFeed ∈ encoded chars ↔ '\n' ∈ chars := by
  simp only [encoded, List.mem_flatMap, lineFeed_mem_encodeChar, exists_eq_right]

-----------------------------------------------------------------------------------------
-- Line breaks
-----------------------------------------------------------------------------------------

/-- What is at most as long as characters without a line break has none. -/
theorem lineFeed_not_mem_take (clean : '\n' ∉ first) (inside : position ≤ byteLength first)
    (rest : List Char)
    : lineFeed ∉ (encoded (first ++ rest)).take position := by
  intro among
  rw [encoded_append, List.take_append_of_le_length (by simpa using inside)] at among
  exact clean (lineFeed_mem_encoded.mp (List.mem_of_mem_take among))

theorem sinceBreak_le (bytes : List UInt8) (position : Nat)
    : sinceBreak bytes position ≤ position := by
  have most := ((bytes.take position).reverse.takeWhile_sublist (· != lineFeed)).length_le
  simp only [List.length_reverse, List.length_take] at most
  exact Nat.le_trans most (Nat.min_le_left ..)

theorem sinceBreak_of_clean (clean : lineFeed ∉ bytes.take position)
    (inside : position ≤ bytes.length)
    : sinceBreak bytes position = position := by
  have every : ∀ byte ∈ (bytes.take position).reverse, (byte != lineFeed) = true := by
    intro byte among
    simp only [List.mem_reverse] at among
    simpa using fun same : byte = lineFeed => clean (same ▸ among)
  have whole : ((bytes.take position).reverse ++ []).takeWhile (· != lineFeed) = _ :=
    List.takeWhile_append_of_pos every
  simp only [List.append_nil, List.takeWhile_nil] at whole
  simp [sinceBreak, whole, inside]

/-- Only the last line break counts. -/
theorem sinceBreak_append (before after : List UInt8) (position : Nat)
    : sinceBreak (before ++ lineFeed :: after) (before.length + (position + 1)) =
        sinceBreak after position := by
  simp only [sinceBreak, List.take_length_add_append, List.take_succ_cons, List.reverse_append,
    List.reverse_cons, List.append_assoc, List.takeWhile_append, List.singleton_append,
    List.takeWhile_cons, bne_self_eq_false]
  split <;> simp_all

theorem throughBreak_append (clean : lineFeed ∉ before) (after : List UInt8)
    : throughBreak (before ++ after) = before ++ throughBreak after := by
  simp only [throughBreak, List.idxOf_append, if_neg clean]
  rw [Nat.add_comm _ before.length, Nat.add_assoc, List.take_length_add_append]

/-- The first line consists of the bytes through the first line break, by induction over the
characters.
-/
theorem encoded_firstLine (chars : List Char)
    : encoded (firstLine chars) = throughBreak (encoded chars) := by
  induction chars with
  | nil => rfl
  | cons c rest ih =>
      by_cases breaks : c = '\n'
      · subst breaks
        rfl
      · have clean : lineFeed ∉ String.utf8EncodeChar c := mt lineFeed_mem_encodeChar.mp breaks
        simp only [firstLine, beq_iff_eq, if_neg breaks, encoded_cons, throughBreak_append clean,
          ih]

-----------------------------------------------------------------------------------------
-- Places
-----------------------------------------------------------------------------------------

/-- (Marks place bytes number position) says that a place is the one of a position in the line of
some bytes, the first of which is in the line of a number.
-/
structure LinePlace.Marks (place : LinePlace) (bytes : List UInt8) (number position : Nat)
    : Prop where
  number : place.number = number + (bytes.take position).count lineFeed
  offset : place.offset = sinceBreak bytes position
  line
    : byteList place.line = throughBreak (bytes.drop (position - sinceBreak bytes position))

/-- Without a line break before it, a place is in the first line. -/
theorem LinePlace.Marks.here (clean : lineFeed ∉ (encoded chars).take position)
    (inside : position ≤ byteLength chars) (number : Nat)
    : Marks ⟨number, String.ofList (firstLine chars), position⟩ (encoded chars) number
        position := by
  have since := sinceBreak_of_clean clean (by simpa using inside)
  refine ⟨?_, since.symm, ?_⟩
  · simp [List.count_eq_zero_of_not_mem clean]
  · simp [since, byteList_ofList, encoded_firstLine]

/-- A place behind a line break is one among the bytes behind it. -/
theorem LinePlace.Marks.afterBreak {place : LinePlace}
    (marks : place.Marks after (number + before.count lineFeed + 1) position)
    : place.Marks (before ++ lineFeed :: after) number (before.length + (position + 1)) := by
  have since := sinceBreak_append before after position
  have bounded := sinceBreak_le after position
  have rest : before.length + (position + 1) - sinceBreak after position =
      before.length + (position - sinceBreak after position + 1) := by
    omega
  refine ⟨?_, by rw [since, marks.offset], ?_⟩
  · rw [marks.number, List.take_length_add_append, List.take_succ_cons, List.count_append,
      List.count_cons_self]
    omega
  · simp [since, rest, List.drop_length_add_append, marks.line]

/-- There is at most one place of a position. -/
theorem LinePlace.Marks.unique {place other : LinePlace} (marks : place.Marks bytes number position)
    (marksToo : other.Marks bytes number position)
    : place = other := by
  obtain ⟨_, line, _⟩ := place
  obtain ⟨_, lineToo, _⟩ := other
  obtain ⟨rfl, rfl, consists⟩ := marks
  obtain ⟨rfl, rfl, consistsToo⟩ := marksToo
  have same : line.toByteArray.data.toList = lineToo.toByteArray.data.toList :=
    consists.trans consistsToo.symm
  simp only [Array.toList_inj, ← ByteArray.ext_iff, String.toByteArray_inj] at same
  rw [same]

/-- Every offset up to the end has a place, by induction over the characters behind those that the
current line begins with.
-/
theorem placeFrom?_marks (passed : List Char) (clean : '\n' ∉ passed)
    (inside : position ≤ byteLength rest) (number : Nat)
    : ∃ place, placeFrom? number (passed ++ rest) (byteLength passed) position rest = some place
        ∧ place.Marks (encoded (passed ++ rest)) number (byteLength passed + position) := by
  induction rest generalizing passed position number with
  | nil =>
      obtain rfl := Nat.le_zero.mp inside
      exact ⟨_, rfl, .here (lineFeed_not_mem_take clean (Nat.le_refl _) []) (by simp) number⟩
  | cons c rest ih =>
      cases position with
      | zero =>
          exact ⟨_, rfl, .here (lineFeed_not_mem_take clean (Nat.le_refl _) _) (by simp) number⟩
      | succ position =>
          simp only [byteLength_cons] at inside
          by_cases breaks : c = '\n'
          · subst breaks
            have size : '\n'.utf8Size = 1 := by decide
            obtain ⟨place, found, marks⟩ :=
              ih [] List.not_mem_nil (show position ≤ byteLength rest by omega) (number + 1)
            refine ⟨place, by simpa [placeFrom?] using found, ?_⟩
            have none : (encoded passed).count lineFeed = 0 :=
              List.count_eq_zero_of_not_mem (mt lineFeed_mem_encoded.mp clean)
            have later : place.Marks (encoded rest)
                (number + (encoded passed).count lineFeed + 1) position := by
              simpa [none] using marks
            simpa [encodeChar_lineFeed] using later.afterBreak
          · have clean : '\n' ∉ passed ++ [c] := by simp [clean, Ne.symm breaks]
            by_cases fits : c.utf8Size ≤ position + 1
            · obtain ⟨place, found, marks⟩ :=
                ih (passed ++ [c]) clean
                  (show position + 1 - c.utf8Size ≤ byteLength rest by omega) number
              have size : byteLength passed + c.utf8Size + (position + 1 - c.utf8Size) =
                  byteLength passed + (position + 1) := by
                omega
              simp only [List.append_assoc, List.singleton_append, byteLength_append,
                byteLength_cons, byteLength_nil, Nat.add_zero, size] at found marks
              exact ⟨place, by simpa [placeFrom?, breaks, fits] using found, marks⟩
            · -- The offset is inside this character, which is in the current line.
              have short : byteLength passed + (position + 1) ≤ byteLength (passed ++ [c]) := by
                simp only [byteLength_append, byteLength_cons, byteLength_nil]
                omega
              have clean := lineFeed_not_mem_take clean short rest
              simp only [List.append_assoc, List.singleton_append] at clean
              refine ⟨_, by simp [placeFrom?, breaks, fits], .here clean ?_ number⟩
              simp only [byteLength_append, byteLength_cons]
              omega

theorem placeFrom?_beyond (beyond : byteLength rest < position) (number : Nat) (line : List Char)
    (offset : Nat)
    : placeFrom? number line offset position rest = none := by
  induction rest generalizing number line offset position with
  | nil =>
      cases position with
      | zero => exact absurd beyond (Nat.not_lt_zero _)
      | succ position => rfl
  | cons c rest ih =>
      simp only [byteLength_cons] at beyond
      have positive := c.utf8Size_pos
      cases position with
      | zero => exact absurd beyond (Nat.not_lt_zero _)
      | succ position =>
          have fits : c.utf8Size ≤ position + 1 := by omega
          by_cases breaks : c = '\n'
          · simpa [placeFrom?, breaks] using ih (by omega) (number + 1) rest 0
          · simpa [placeFrom?, breaks, fits] using ih (by omega) number line (offset + c.utf8Size)

/-- Every offset of a text, the one at its end included, has a place. Its number is one more than
the number of line breaks before it, its distance from the beginning of the line is that from the
end of the last of these line breaks, or from the beginning of the text, and its line consists of
all from there up to and including the next line break, or to the end of the text. Beyond the end
there are no places.
-/
theorem placeOf?_exact (text : String) (position : Nat)
    : (position ≤ text.utf8ByteSize →
        ∃ line,
          placeOf? text position =
            some ⟨1 + ((byteList text).take position).count lineFeed, line,
              sinceBreak (byteList text) position⟩
          ∧ byteList line =
            throughBreak ((byteList text).drop (position - sinceBreak (byteList text) position)))
      ∧ (text.utf8ByteSize < position → placeOf? text position = none) := by
  rw [byteList_eq, ← byteLength_toList]
  constructor
  · intro inside
    obtain ⟨⟨number, line, offset⟩, found, marks⟩ :=
      placeFrom?_marks [] List.not_mem_nil inside 1
    simp only [List.nil_append, byteLength_nil, Nat.zero_add] at found marks
    obtain ⟨rfl, rfl, consists⟩ := marks
    exact ⟨line, found, consists⟩
  · intro beyond
    exact placeFrom?_beyond beyond 1 text.toList 0

/-- The end of a text without a line break at its end is in the last line. -/
theorem placeOf?_exact_end
    : 4 ≤ "é\nb".utf8ByteSize
      ∧ (∃ line, placeOf? "é\nb" 4 = some ⟨2, line, 1⟩ ∧ byteList line = [0x62])
      ∧ "é\nb".utf8ByteSize < 5
      ∧ placeOf? "é\nb" 5 = none := by
  have inside : 4 ≤ "é\nb".utf8ByteSize := by decide
  have beyond : "é\nb".utf8ByteSize < 5 := by decide
  refine ⟨inside, ?_, beyond, (placeOf?_exact "é\nb" 5).2 beyond⟩
  have bytes : byteList "é\nb" = [0xC3, 0xA9, 0x0A, 0x62] := by decide
  simpa [bytes, sinceBreak, throughBreak, lineFeed] using (placeOf?_exact "é\nb" 4).1 inside

end BuildScript.Text
