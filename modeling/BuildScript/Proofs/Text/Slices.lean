import BuildScript.Proofs.Text.Sizes

/-! The bytes of changed texts. A text can be cut at the offsets that do not part its characters,
and a change at such offsets keeps the bytes before and after them. All places that are found in a
text are such offsets. A text that is too short for a size is padded by characters in turn, so that
it has the size exactly if a character ends there.
-/

namespace BuildScript.Text

/-- (Boundary text offset) says that an offset is in a text and does not part a character. -/
def Boundary (text : String) (offset : Int) : Prop :=
  0 ≤ offset ∧ (String.Pos.Raw.mk offset.toNat).IsValid text

instance (text : String) (offset : Int) : Decidable (Boundary text offset) :=
  inferInstanceAs (Decidable (_ ∧ _))

/-- (bytes text first last) are the bytes of a text from one offset to another one. -/
def bytes (text : String) (first last : Int) : ByteArray :=
  text.toByteArray.extract first.toNat last.toNat

variable {text : String} {offset count : Int} {before range after : List Char}

-----------------------------------------------------------------------------------------
-- Cuts
-----------------------------------------------------------------------------------------

/-- An offset is a boundary where a text can be put together from characters before and after it. -/
theorem boundary_iff
    : Boundary text offset ↔
        ∃ before after, text.toList = before ++ after ∧ (byteLength before : Int) = offset := by
  rw [Boundary, String.Pos.Raw.isValid_iff_exists_append]
  constructor
  · rintro ⟨nonnegative, before, after, rfl, place⟩
    have size : offset.toNat = before.utf8ByteSize := congrArg String.Pos.Raw.byteIdx place
    refine ⟨before.toList, after.toList, String.toList_append, ?_⟩
    rw [byteLength_toList]
    omega
  · rintro ⟨before, after, joined, rfl⟩
    refine ⟨Int.natCast_nonneg _, String.ofList before, String.ofList after, ?_, ?_⟩
    · rw [← String.ofList_append, ← joined, String.ofList_toList]
    · rw [Int.toNat_natCast, ← utf8ByteSize_ofList]
      rfl

/-- A text is cut behind a part of it and some more bytes as the rest is cut behind these, by
induction over the part.
-/
theorem splitAtByte?_append_add (first rest : List Char) (offset : Nat)
    : splitAtByte? (byteLength first + offset) (first ++ rest) =
        (splitAtByte? offset rest).map fun parts => (first ++ parts.1, parts.2) := by
  induction first with
  | nil => simp
  | cons c first ih =>
      have positive := c.utf8Size_pos
      obtain ⟨n, total⟩ : ∃ n, c.utf8Size + byteLength first + offset = n + 1 :=
        ⟨_, (Nat.succ_pred (by omega)).symm⟩
      have remaining : n + 1 - c.utf8Size = byteLength first + offset := by omega
      have fits : c.utf8Size ≤ n + 1 := by omega
      rw [byteLength_cons, total, List.cons_append, splitAtByte?_succ_cons, if_pos fits, remaining,
        ih, Option.map_map]
      rfl

theorem cut_natCast (chars : List Char) (offset : Nat)
    : cut chars offset = (splitAtByte? offset chars).elim (.error (offset : Int)) .ok := by
  rw [cut, if_neg (Int.not_lt.mpr (Int.natCast_nonneg offset)), Int.toNat_natCast]
  cases splitAtByte? offset chars <;> rfl

theorem cut_append (before after : List Char)
    : cut (before ++ after) (byteLength before) = .ok (before, after) := by
  rw [cut_natCast, splitAtByte?_append]
  rfl

theorem append_of_cut {chars : List Char} (parted : cut chars offset = .ok (before, after))
    : chars = before ++ after ∧ (byteLength before : Int) = offset := by
  unfold cut at parted
  split at parted
  · cases parted
  · split at parted
    · next parts found =>
      cases parted
      obtain ⟨joined, size⟩ := append_of_splitAtByte? found
      exact ⟨joined.symm, by omega⟩
    · cases parted

theorem cut_boundary (boundary : Boundary text offset)
    : ∃ before after, cut text.toList offset = .ok (before, after) := by
  obtain ⟨before, after, joined, rfl⟩ := boundary_iff.mp boundary
  exact ⟨before, after, joined ▸ cut_append before after⟩

/-- A text cannot be cut at other offsets. -/
theorem cut_inside (inside : ¬Boundary text offset)
    : cut text.toList offset = .error offset := by
  cases parted : cut text.toList offset with
  | ok parts => exact absurd (boundary_iff.mpr ⟨_, _, append_of_cut parted⟩) inside
  | error place =>
      unfold cut at parted
      split at parted
      · exact parted ▸ rfl
      · split at parted <;> cases parted
        rfl

-----------------------------------------------------------------------------------------
-- Ranges
-----------------------------------------------------------------------------------------

theorem Boundary.le_size (boundary : Boundary text offset) : offset ≤ text.utf8ByteSize := by
  obtain ⟨before, after, joined, rfl⟩ := boundary_iff.mp boundary
  rw [← byteLength_toList, joined, byteLength_append]
  omega

theorem offset_le_rangeEnd (begins : Boundary text offset) (count : Int)
    : offset ≤ rangeEnd text offset count := by
  have inside := begins.le_size
  rw [rangeEnd]
  omega

/-- A range that begins at a boundary is cut out as the text is cut at its end. -/
theorem cutRange_cases (begins : Boundary text offset) (count : Int)
    : (∃ before range after, cutRange text offset count = .ok (before, range, after)
          ∧ cut text.toList offset = .ok (before, range ++ after)
          ∧ cut text.toList (rangeEnd text offset count) = .ok (before ++ range, after))
        ∨ cutRange text offset count = .error (rangeEnd text offset count)
          ∧ cut text.toList (rangeEnd text offset count) =
            .error (rangeEnd text offset count) := by
  obtain ⟨before, rest, parted⟩ := cut_boundary begins
  obtain ⟨joined, size⟩ := append_of_cut parted
  have behind := offset_le_rangeEnd begins count
  obtain ⟨length, far⟩ : ∃ length : Nat, rangeEnd text offset count - offset = length :=
    ⟨(rangeEnd text offset count - offset).toNat, by omega⟩
  have place : rangeEnd text offset count = (byteLength before + length : Nat) := by omega
  have whole : cut text.toList (rangeEnd text offset count) =
      ((splitAtByte? length rest).map fun parts => (before ++ parts.1, parts.2)).elim
        (.error (rangeEnd text offset count)) .ok := by
    rw [joined, place, cut_natCast, splitAtByte?_append_add]
  have ranged : cutRange text offset count =
      ((cut rest (rangeEnd text offset count - offset)).mapError fun _ =>
        rangeEnd text offset count).bind fun parts => .ok (before, parts.1, parts.2) := by
    rw [cutRange, parted]
    rfl
  rw [far, cut_natCast] at ranged
  cases found : splitAtByte? length rest with
  | none =>
      rw [found] at ranged whole
      exact .inr ⟨ranged, whole⟩
  | some parts =>
      rw [found] at ranged whole
      refine .inl ⟨before, parts.1, parts.2, ranged, ?_, whole⟩
      rw [parted, (append_of_splitAtByte? found).1]

/-- A range is cut out where it begins and ends at boundaries. -/
theorem cutRange_boundaries (begins : Boundary text offset)
    (ends : Boundary text (rangeEnd text offset count))
    : ∃ before range after, cutRange text offset count = .ok (before, range, after)
        ∧ text.toList = before ++ range ++ after
        ∧ (byteLength before : Int) = offset
        ∧ (byteLength (before ++ range) : Int) = rangeEnd text offset count := by
  obtain ⟨before, range, after, ranged, first, second⟩ | ⟨-, failed⟩ := cutRange_cases begins count
  · have begun := append_of_cut first
    have ended := append_of_cut second
    exact ⟨before, range, after, ranged, ended.1, begun.2, ended.2⟩
  · obtain ⟨first, last, parted⟩ := cut_boundary ends
    cases failed.symm.trans parted

/-- The first end of a range that is no boundary is told. -/
theorem cutRange_inside
    (inside : ¬(Boundary text offset ∧ Boundary text (rangeEnd text offset count)))
    : cutRange text offset count =
        .error (if Boundary text offset then rangeEnd text offset count else offset) := by
  split
  · next begins =>
    have ends : ¬Boundary text (rangeEnd text offset count) := fun ends => inside ⟨begins, ends⟩
    obtain ⟨before, range, after, -, -, parted⟩ | ⟨failed, -⟩ := cutRange_cases begins count
    · cases (cut_inside ends).symm.trans parted
    · exact failed
  · next unplaced =>
    rw [cutRange, cut_inside unplaced]
    rfl

-----------------------------------------------------------------------------------------
-- Bytes
-----------------------------------------------------------------------------------------

/-- The bytes of a part of a text are those between its ends. -/
theorem bytes_part (joined : text.toList = before ++ range ++ after)
    : bytes text (byteLength before) (byteLength (before ++ range)) =
        (String.ofList range).toByteArray := by
  have size (chars : List Char) : byteLength chars = (String.ofList chars).toByteArray.size :=
    (utf8ByteSize_ofList chars).symm
  have whole : text.toByteArray = (String.ofList before).toByteArray ++
      ((String.ofList range).toByteArray ++ (String.ofList after).toByteArray) := by
    rw [← String.ofList_toList (s := text), joined, String.ofList_append, String.ofList_append,
      String.toByteArray_append, String.toByteArray_append, ByteArray.append_assoc]
  rw [bytes, Int.toNat_natCast, Int.toNat_natCast, byteLength_append, size before,
    size range, whole]
  exact (ByteArray.extract_append_size_add (i := 0)).trans (ByteArray.extract_append_eq_left rfl)

theorem bytes_before (joined : text.toList = before ++ after)
    : bytes text 0 (byteLength before) = (String.ofList before).toByteArray :=
  @bytes_part text [] before after joined

theorem bytes_after (joined : text.toList = before ++ after)
    : bytes text (byteLength before) text.utf8ByteSize = (String.ofList after).toByteArray := by
  have part := bytes_part (joined.trans (List.append_nil _).symm)
  rwa [← joined, byteLength_toList] at part

/-- A range consists of the bytes between its ends. -/
theorem substring_bytes (begins : Boundary text offset)
    (ends : Boundary text (rangeEnd text offset count))
    : ∃ result, substring text offset count = .ok result
        ∧ result.toByteArray = bytes text offset (rangeEnd text offset count) := by
  obtain ⟨before, range, after, ranged, joined, begun, ended⟩ := cutRange_boundaries begins ends
  refine ⟨String.ofList range, ?_, ?_⟩
  · rw [substring, ranged]
    rfl
  · rw [← ended, ← begun]
    exact (bytes_part joined).symm

/-- A replaced range leaves the bytes before and after it. -/
theorem replace_bytes (begins : Boundary text offset)
    (ends : Boundary text (rangeEnd text offset count)) (replacement : String)
    : ∃ result, replace text offset count replacement = .ok result
        ∧ result.toByteArray = bytes text 0 offset ++ replacement.toByteArray
          ++ bytes text (rangeEnd text offset count) text.utf8ByteSize := by
  obtain ⟨before, range, after, ranged, joined, begun, ended⟩ := cutRange_boundaries begins ends
  refine ⟨String.ofList before ++ replacement ++ String.ofList after, ?_, ?_⟩
  · rw [replace, ranged]
    rfl
  · rw [← ended, ← begun, bytes_before (joined.trans (List.append_assoc ..)), bytes_after joined,
      String.toByteArray_append, String.toByteArray_append]

theorem erase_bytes (begins : Boundary text offset)
    (ends : Boundary text (rangeEnd text offset count))
    : ∃ result, erase text offset count = .ok result
        ∧ result.toByteArray = bytes text 0 offset
          ++ bytes text (rangeEnd text offset count) text.utf8ByteSize := by
  obtain ⟨result, replaced, consists⟩ := replace_bytes begins ends ""
  rw [String.toByteArray_empty, ByteArray.append_empty] at consists
  exact ⟨result, replaced, consists⟩

/-- What is inserted is between the bytes before and after its place. -/
theorem insert_bytes (boundary : Boundary text offset) (inserted : String)
    : ∃ result, insert text offset inserted = .ok result
        ∧ result.toByteArray = bytes text 0 offset ++ inserted.toByteArray
          ++ bytes text offset text.utf8ByteSize := by
  obtain ⟨before, after, parted⟩ := cut_boundary boundary
  obtain ⟨joined, size⟩ := append_of_cut parted
  refine ⟨String.ofList before ++ inserted ++ String.ofList after, ?_, ?_⟩
  · rw [insert, parted]
    rfl
  · rw [← size, bytes_before joined, bytes_after joined, String.toByteArray_append,
      String.toByteArray_append]

theorem begin_of_cutRange (ranged : cutRange text offset count = .ok (before, range, after))
    : (byteLength before : Int) = offset := by
  obtain ⟨⟨begun, rest⟩, first, ranged⟩ := ok_of_bind ranged
  obtain ⟨⟨middle, ending⟩, second, ranged⟩ := ok_of_bind ranged
  cases ranged
  exact (append_of_cut first).2

/-- Inserting a text where a range was erased is replacing the range. -/
theorem insert_erased {erased : String} (outcome : erase text offset count = .ok erased)
    (replacement : String)
    : insert erased offset replacement = replace text offset count replacement := by
  obtain ⟨⟨before, range, after⟩, ranged, outcome⟩ := ok_of_bind outcome
  cases outcome
  rw [replace, ranged, String.append_empty, ← String.ofList_append, insert, String.toList_ofList,
    ← begin_of_cutRange ranged, cut_append]
  rfl

theorem insert_inside (inside : ¬Boundary text offset) (inserted : String)
    : insert text offset inserted = .error offset := by
  rw [insert, cut_inside inside]
  rfl

theorem substring_error {position : Int} (failed : cutRange text offset count = .error position)
    : substring text offset count = .error position := by
  rw [substring, failed]
  rfl

theorem replace_error {position : Int} (failed : cutRange text offset count = .error position)
    (replacement : String)
    : replace text offset count replacement = .error position := by
  rw [replace, failed]
  rfl

-----------------------------------------------------------------------------------------
-- Places
-----------------------------------------------------------------------------------------

theorem boundary_size (text : String) : Boundary text text.utf8ByteSize :=
  boundary_iff.mpr ⟨text.toList, [], (List.append_nil _).symm,
    congrArg Int.ofNat (byteLength_toList text)⟩

/-- (Place chars offset place) says that a place does not part a character, where some characters
begin at an offset.
-/
def Place (chars : List Char) (offset place : Nat) : Prop :=
  ∃ before after, chars = before ++ after ∧ place = offset + byteLength before

variable {chars : List Char} {place start : Nat}

theorem Place.here : Place chars start start :=
  ⟨[], chars, rfl, rfl⟩

theorem Place.later {c : Char} {rest : List Char} (found : Place rest (start + c.utf8Size) place)
    : Place (c :: rest) start place := by
  obtain ⟨before, after, rfl, rfl⟩ := found
  exact ⟨c :: before, after, rfl, by rw [byteLength_cons, Nat.add_assoc]⟩

/-- A place in the part of a text that begins at a boundary is a boundary. -/
theorem Place.boundary (found : Place after start place) (joined : text.toList = before ++ after)
    (begins : byteLength before = start)
    : Boundary text place := by
  obtain ⟨passed, rest, rfl, rfl⟩ := found
  refine boundary_iff.mpr ⟨before ++ passed, rest, ?_, ?_⟩
  · rw [joined, List.append_assoc]
  · rw [byteLength_append, begins]

/-- What is searched for from the front is found at a place, by induction over the characters. -/
theorem place_of_findFrom? {needle : List Char} (found : findFrom? needle start chars = some place)
    : Place chars start place := by
  induction chars generalizing start with
  | nil =>
      rw [findFrom?] at found
      split at found
      · cases found
        exact .here
      · cases found
  | cons c rest ih =>
      rw [findFrom?] at found
      split at found
      · cases found
        exact .here
      · exact (ih found).later

theorem place_of_findNotOfFrom? {set : List Char}
    (found : findNotOfFrom? set start chars = some place)
    : Place chars start place := by
  induction chars generalizing start with
  | nil => cases found
  | cons c rest ih =>
      rw [findNotOfFrom?] at found
      split at found
      · exact (ih found).later
      · cases found
        exact .here

/-- What is searched for from the back is found at a place unless it was found before, by induction
over the characters.
-/
theorem place_of_findLastFrom? {needle : List Char} {found? : Option Nat}
    (found : findLastFrom? needle start found? chars = some place)
    : found? = some place ∨ Place chars start place := by
  induction chars generalizing start found? with
  | nil =>
      rw [findLastFrom?] at found
      split at found
      · cases found
        exact .inr .here
      · exact .inl found
  | cons c rest ih =>
      rw [findLastFrom?] at found
      rcases ih found with earlier | later
      · split at earlier
        · cases earlier
          exact .inr .here
        · exact .inl earlier
      · exact .inr later.later

theorem place_of_findLastNotOfFrom? {set : List Char} {found? : Option Nat}
    (found : findLastNotOfFrom? set start found? chars = some place)
    : found? = some place ∨ Place chars start place := by
  induction chars generalizing start found? with
  | nil => exact .inl found
  | cons c rest ih =>
      rw [findLastNotOfFrom?] at found
      rcases ih found with earlier | later
      · split at earlier
        · exact .inl earlier
        · cases earlier
          exact .inr .here
      · exact .inr later.later

/-- What is searched for from a boundary on is found at a boundary. -/
theorem boundary_of_cut (parted : cut text.toList offset = .ok (before, after))
    (found : Place after offset.toNat place)
    : Boundary text place := by
  obtain ⟨joined, size⟩ := append_of_cut parted
  exact found.boundary joined (by omega)

theorem boundary_of_find {needle : String} (found : find text offset needle = .ok (some place))
    : Boundary text place := by
  obtain ⟨⟨before, after⟩, parted, found⟩ := ok_of_bind found
  exact boundary_of_cut parted (place_of_findFrom? (Except.ok.inj found))

theorem boundary_of_findNotOf {set : String}
    (found : findNotOf text offset set = .ok (some place))
    : Boundary text place := by
  obtain ⟨⟨before, after⟩, parted, found⟩ := ok_of_bind found
  exact boundary_of_cut parted (place_of_findNotOfFrom? (Except.ok.inj found))

theorem boundary_of_findLast {needle : String} (found : findLast? needle text = some place)
    : Boundary text place :=
  ((place_of_findLastFrom? found).resolve_left (Option.some_ne_none place).symm).boundary
    (List.nil_append _).symm rfl

theorem boundary_of_findLastNotOf {set : String} (found : findLastNotOf? set text = some place)
    : Boundary text place :=
  ((place_of_findLastNotOfFrom? found).resolve_left (Option.some_ne_none place).symm).boundary
    (List.nil_append _).symm rfl

-----------------------------------------------------------------------------------------
-- Characters in turn
-----------------------------------------------------------------------------------------

/-- (turns fill pending count) are the first characters of some that are followed by a text which is
repeated without end.
-/
def turns (fill pending : List Char) (count : Nat) : List Char :=
  (pending ++ (List.replicate count fill).flatten).take count

theorem length_repetition {fill : List Char} (filled : fill ≠ []) (count : Nat)
    : count ≤ (List.replicate count fill).flatten.length := by
  have positive : 0 < fill.length := List.length_pos_iff.mpr filled
  rw [List.length_flatten, List.map_replicate, List.sum_replicate_nat]
  exact Nat.le_mul_of_pos_right count positive

/-- There are as many characters as are asked for. -/
theorem length_turns {fill : List Char} (filled : fill ≠ []) (pending : List Char) (count : Nat)
    : (turns fill pending count).length = count := by
  have enough := length_repetition filled count
  rw [turns, List.length_take, List.length_append]
  omega

theorem byteLength_of_narrow {chars : List Char} (narrow : ∀ c ∈ chars, c.utf8Size = 1)
    : byteLength chars = chars.length := by
  induction chars with
  | nil => rfl
  | cons c rest ih =>
      rw [byteLength_cons, narrow c (.head rest), ih fun other among =>
        narrow other (.tail c among), List.length_cons, Nat.add_comm]

/-- There is always a next character. -/
theorem exists_next {fill : List Char} (filled : fill ≠ []) (pending : List Char)
    : ∃ c rest, (if pending.isEmpty then fill else pending) = c :: rest := by
  refine List.exists_cons_of_ne_nil ?_
  split
  · exact filled
  · next some => simpa using some

/-- What is pending is taken first, and the text begins anew when nothing is. -/
theorem turns_succ {fill pending rest : List Char} {c : Char} (filled : fill ≠ [])
    (next : (if pending.isEmpty then fill else pending) = c :: rest) (count : Nat)
    : turns fill pending (count + 1) = c :: turns fill rest count := by
  cases pending with
  | nil =>
      obtain rfl : fill = c :: rest := next
      rw [turns, turns, List.nil_append, List.replicate_succ, List.flatten_cons, List.cons_append,
        List.take_succ_cons]
  | cons first pending =>
      obtain ⟨rfl, rfl⟩ := List.cons.inj next
      have enough : count ≤ (pending ++ (List.replicate count fill).flatten).length := by
        rw [List.length_append]
        exact Nat.le_add_left_of_le (length_repetition filled count)
      rw [turns, turns, List.cons_append, List.take_succ_cons, List.replicate_succ',
        List.flatten_append, List.flatten_singleton, ← List.append_assoc,
        List.take_append_of_le_length enough]

-----------------------------------------------------------------------------------------
-- Padding
-----------------------------------------------------------------------------------------

/-- (Fills fill pending size text padded) says that a text is padded by characters in turn until it
has some size, and not any longer.
-/
def Fills (fill pending : List Char) (size : Nat) (text padded : String) : Prop :=
  ∃ count, padded = text ++ String.ofList (turns fill pending count)
    ∧ size ≤ text.utf8ByteSize + byteLength (turns fill pending count)
    ∧ ∀ fewer < count, text.utf8ByteSize + byteLength (turns fill pending fewer) < size

theorem Fills.reached {fill pending : List Char} {size : Nat} (long : size ≤ text.utf8ByteSize)
    : Fills fill pending size text text := by
  refine ⟨0, ?_, Nat.le_add_right_of_le long, by simp⟩
  rw [turns, List.take_zero, String.ofList_nil, String.append_empty]

/-- A character is added to a text that is too short, and then others are. -/
theorem Fills.push {fill pending rest : List Char} {c : Char} {size : Nat} {padded : String}
    (filled : fill ≠ []) (next : (if pending.isEmpty then fill else pending) = c :: rest)
    (short : text.utf8ByteSize < size) (fills : Fills fill rest size (text.push c) padded)
    : Fills fill pending size text padded := by
  obtain ⟨count, rfl, enough, minimal⟩ := fills
  have taken (count : Nat)
      : text.utf8ByteSize + byteLength (turns fill pending (count + 1)) =
          (text.push c).utf8ByteSize + byteLength (turns fill rest count) := by
    rw [turns_succ filled next, byteLength_cons, String.utf8ByteSize_push, Nat.add_assoc]
  refine ⟨count + 1, ?_, taken count ▸ enough, fun fewer less => ?_⟩
  · rw [turns_succ filled next, String.ofList_cons, ← String.append_singleton, String.append_assoc]
  · cases fewer with
    | zero =>
        rw [turns, List.take_zero]
        exact short
    | succ fewer =>
        rw [taken]
        exact minimal fewer (Nat.lt_of_succ_lt_succ less)

/-- Padding adds characters until the size is reached, by induction on the characters that may still
be added.
-/
theorem padWith_fills {fill : List Char} (filled : fill ≠ []) (pending : List Char)
    {size : Nat} (missing : Nat) (enough : size ≤ text.utf8ByteSize + missing)
    : Fills fill pending size text (padWith fill size missing pending text) := by
  induction missing generalizing pending text with
  | zero => exact .reached enough
  | succ missing ih =>
      rw [padWith]
      split
      · next long => exact .reached long
      · next short =>
        obtain ⟨c, rest, next⟩ := exists_next filled pending
        have positive := c.utf8Size_pos
        rw [next]
        refine .push filled next (Nat.lt_of_not_le short) (ih rest ?_)
        rw [String.utf8ByteSize_push]
        omega

/-- More characters take at least as many bytes, by induction over the fewer ones. -/
theorem byteLength_turns_mono {fill : List Char} (filled : fill ≠ []) (pending : List Char)
    {fewer more : Nat} (atMost : fewer ≤ more)
    : byteLength (turns fill pending fewer) ≤ byteLength (turns fill pending more) := by
  induction fewer generalizing pending more with
  | zero =>
      rw [turns, List.take_zero]
      exact Nat.zero_le _
  | succ fewer ih =>
      obtain ⟨more, rfl⟩ := Nat.exists_eq_add_one_of_ne_zero (Nat.ne_zero_of_lt atMost)
      obtain ⟨c, rest, next⟩ := exists_next filled pending
      rw [turns_succ filled next, turns_succ filled next, byteLength_cons, byteLength_cons]
      exact Nat.add_le_add_left (ih rest (Nat.le_of_succ_le_succ atMost)) _

namespace Fills

variable {fill : List Char} {size : Nat} {padded : String}

theorem le_size {pending : List Char} (fills : Fills fill pending size text padded)
    : size ≤ padded.utf8ByteSize := by
  obtain ⟨count, rfl, enough, -⟩ := fills
  rwa [String.utf8ByteSize_append, utf8ByteSize_ofList]

/-- A text that is padded stays at the beginning. -/
theorem bytes_eq {pending : List Char} (fills : Fills fill pending size text padded)
    : bytes padded 0 text.utf8ByteSize = bytes text 0 text.utf8ByteSize := by
  obtain ⟨count, rfl, -, -⟩ := fills
  rw [← byteLength_toList text, bytes_before String.toList_append,
    bytes_before (List.append_nil text.toList).symm]

/-- The size is reached exactly if it is the end of a character. -/
theorem size_eq_iff (filled : fill ≠ []) {pending : List Char}
    (fills : Fills fill pending size text padded)
    : padded.utf8ByteSize = size ↔
        ∃ count, text.utf8ByteSize + byteLength (turns fill pending count) = size := by
  obtain ⟨count, rfl, enough, minimal⟩ := fills
  rw [String.utf8ByteSize_append, utf8ByteSize_ofList]
  refine ⟨fun exact => ⟨count, exact⟩, fun ⟨other, ends⟩ => ?_⟩
  have first : count ≤ other :=
    Nat.le_of_not_lt fun before => Nat.ne_of_lt (minimal other before) ends
  have atMost := byteLength_turns_mono filled pending first
  omega

/-- Characters of one byte reach every size. -/
theorem size_eq_of_narrow (filled : fill ≠ []) (narrow : ∀ c ∈ fill, c.utf8Size = 1)
    (short : text.utf8ByteSize ≤ size) (fills : Fills fill [] size text padded)
    : padded.utf8ByteSize = size := by
  refine (fills.size_eq_iff filled).mpr ⟨size - text.utf8ByteSize, ?_⟩
  have all : ∀ c ∈ turns fill [] (size - text.utf8ByteSize), c.utf8Size = 1 := by
    intro c among
    obtain ⟨chars, copy, inside⟩ := List.mem_flatten.mp (List.mem_of_mem_take among)
    exact narrow c ((List.mem_replicate.mp copy).2 ▸ inside)
  rw [byteLength_of_narrow all, length_turns filled]
  omega

end Fills

-----------------------------------------------------------------------------------------
-- Sizes
-----------------------------------------------------------------------------------------

/-- A text is cut to a size that does not part a character. -/
theorem resize_cut {size : Nat} (long : size ≤ text.utf8ByteSize) (boundary : Boundary text size)
    (fill : String)
    : ∃ result, resize text size fill = .ok result
        ∧ result.toByteArray = bytes text 0 size
        ∧ result.utf8ByteSize = size := by
  obtain ⟨before, after, parted⟩ := cut_boundary boundary
  obtain ⟨joined, ends⟩ := append_of_cut parted
  refine ⟨String.ofList before, ?_, ?_, ?_⟩
  · rw [resize, if_pos long, parted]
    rfl
  · rw [← ends, bytes_before joined]
  · rw [utf8ByteSize_ofList]
    omega

theorem resize_inside {size : Nat} (long : size ≤ text.utf8ByteSize)
    (inside : ¬Boundary text size) (fill : String)
    : resize text size fill = .error (size : Int) := by
  rw [resize, if_pos long, cut_inside inside]
  rfl

/-- A text that is too short is filled. -/
theorem resize_fills {size : Nat} (short : text.utf8ByteSize < size) {fill : String}
    (filled : fill.toList ≠ [])
    : ∃ result, resize text size fill = .ok result ∧ Fills fill.toList [] size text result := by
  refine ⟨_, ?_, padWith_fills filled [] (size - text.utf8ByteSize) (by omega)⟩
  rw [resize, if_neg (Nat.not_le.mpr short)]
  rfl

end BuildScript.Text
