import BuildScript.Text.Case
import BuildScript.Text.Edit

/-! How many bytes a changed text has. A cut loses none, and what is put into a text adds its own.
Padding adds whole characters, so that it may go past the size that is asked for, by less than one
of them. A change of case may take up to three times the bytes.
-/

namespace BuildScript.Text

-----------------------------------------------------------------------------------------
-- Characters and texts
-----------------------------------------------------------------------------------------

theorem utf8ByteSize_ofList (chars : List Char)
    : (String.ofList chars).utf8ByteSize = byteLength chars := by
  induction chars with
  | nil => rfl
  | cons c rest ih =>
      rw [String.ofList_cons, String.utf8ByteSize_append, String.utf8ByteSize_singleton, ih,
        byteLength_cons]

theorem byteLength_toList (text : String) : byteLength text.toList = text.utf8ByteSize := by
  rw [← utf8ByteSize_ofList, String.ofList_toList]

theorem length_le_byteLength (chars : List Char) : chars.length ≤ byteLength chars := by
  induction chars with
  | nil => exact Nat.le_refl 0
  | cons c rest ih =>
      have positive := c.utf8Size_pos
      simp only [List.length_cons, byteLength_cons]
      omega

/-- The characters of one byte are those of ASCII. -/
theorem utf8Size_eq_one_iff (c : Char) : c.utf8Size = 1 ↔ c.toNat < 0x80 := by
  rw [Char.utf8Size_eq_one_iff, UInt32.le_iff_toNat_le]
  exact Nat.lt_succ_iff.symm

theorem two_le_utf8Size {c : Char} (beyond : 0x80 ≤ c.toNat) : 2 ≤ c.utf8Size := by
  have several : c.utf8Size ≠ 1 := fun one =>
    Nat.not_lt.mpr beyond ((utf8Size_eq_one_iff c).mp one)
  have positive := c.utf8Size_pos
  omega

-----------------------------------------------------------------------------------------
-- Cuts
-----------------------------------------------------------------------------------------

/-- A computation that can fail comes to its end when both of its steps do. -/
theorem ok_of_bind {ε α β : Type} {first : Except ε α} {next : α → Except ε β} {result : β}
    (outcome : first >>= next = .ok result)
    : ∃ value, first = .ok value ∧ next value = .ok result := by
  cases first with
  | error place => cases outcome
  | ok value => exact ⟨value, rfl, outcome⟩

theorem ok_of_mapError {α : Type} {change : Int → Int} {first : Except Int α} {result : α}
    (outcome : first.mapError change = .ok result)
    : first = .ok result := by
  cases first with
  | error place => cases outcome
  | ok value => exact outcome

theorem byteLength_cut {text before after : List Char} {offset : Int}
    (parted : cut text offset = .ok (before, after))
    : byteLength before = offset.toNat
      ∧ byteLength before + byteLength after = byteLength text := by
  unfold cut at parted
  split at parted
  · cases parted
  · split at parted
    · next parts found =>
      cases parted
      obtain ⟨joined, size⟩ := append_of_splitAtByte? found
      exact ⟨size, by rw [← byteLength_append, joined]⟩
    · cases parted

theorem byteLength_cutRange {text : String} {offset count : Int} {before range after : List Char}
    (parted : cutRange text offset count = .ok (before, range, after))
    : byteLength before + byteLength range + byteLength after = text.utf8ByteSize := by
  obtain ⟨⟨begun, rest⟩, first, parted⟩ := ok_of_bind parted
  obtain ⟨⟨middle, ending⟩, second, parted⟩ := ok_of_bind parted
  cases parted
  have whole := (byteLength_cut first).2
  have parts := (byteLength_cut (ok_of_mapError second)).2
  rw [byteLength_toList] at whole
  omega

variable {text result : String} {offset count : Int}

/-- A range of a text is not longer than the text. -/
theorem size_substring (taken : substring text offset count = .ok result)
    : result.utf8ByteSize ≤ text.utf8ByteSize := by
  obtain ⟨⟨before, range, after⟩, parted, taken⟩ := ok_of_bind taken
  cases taken
  have sizes := byteLength_cutRange parted
  rw [utf8ByteSize_ofList]
  omega

/-- A replaced range takes its bytes away, and the replacement adds its own. -/
theorem size_replace {replacement : String}
    (replaced : replace text offset count replacement = .ok result)
    : result.utf8ByteSize ≤ text.utf8ByteSize + replacement.utf8ByteSize := by
  obtain ⟨⟨before, range, after⟩, parted, replaced⟩ := ok_of_bind replaced
  cases replaced
  have sizes := byteLength_cutRange parted
  rw [String.utf8ByteSize_append, String.utf8ByteSize_append, utf8ByteSize_ofList,
    utf8ByteSize_ofList]
  omega

theorem size_erase (erased : erase text offset count = .ok result)
    : result.utf8ByteSize ≤ text.utf8ByteSize :=
  size_replace erased

theorem size_insert {inserted : String} (grown : insert text offset inserted = .ok result)
    : result.utf8ByteSize = text.utf8ByteSize + inserted.utf8ByteSize := by
  obtain ⟨⟨before, after⟩, parted, grown⟩ := ok_of_bind grown
  cases grown
  have sizes := (byteLength_cut parted).2
  rw [byteLength_toList] at sizes
  rw [String.utf8ByteSize_append, String.utf8ByteSize_append, utf8ByteSize_ofList,
    utf8ByteSize_ofList]
  omega

-----------------------------------------------------------------------------------------
-- Repetition and padding
-----------------------------------------------------------------------------------------

theorem size_repeatAfter (text before : String) (count : Nat)
    : (repeatAfter text before count).utf8ByteSize
      = before.utf8ByteSize + count * text.utf8ByteSize := by
  induction count generalizing before with
  | zero => rw [repeatAfter, Nat.zero_mul, Nat.add_zero]
  | succ count ih =>
      rw [repeatAfter, ih, String.utf8ByteSize_append, Nat.succ_mul]
      omega

theorem size_repeated (text : String) (count : Nat)
    : (repeated text count).utf8ByteSize = count * text.utf8ByteSize := by
  rw [repeated, size_repeatAfter, String.utf8ByteSize_empty, Nat.zero_add]

/-- A text is padded as long as it is too short, so that its last character goes past the size by
less than its own bytes. The induction is on the characters that may still be added.
-/
theorem size_padWith {fill : List Char} {size width : Nat}
    (narrow : ∀ c ∈ fill, c.utf8Size ≤ width + 1) (missing : Nat) (pending : List Char)
    (pendingNarrow : ∀ c ∈ pending, c.utf8Size ≤ width + 1) (text : String)
    (short : text.utf8ByteSize ≤ size + width)
    : (padWith fill size missing pending text).utf8ByteSize ≤ size + width := by
  induction missing generalizing pending text with
  | zero => exact short
  | succ missing ih =>
      rw [padWith]
      split
      · exact short
      · next tooShort =>
        have turn : ∀ c ∈ if pending.isEmpty then fill else pending, c.utf8Size ≤ width + 1 := by
          split
          · exact narrow
          · exact pendingNarrow
        split
        · exact short
        · next c rest filled =>
          rw [filled] at turn
          refine ih rest (fun other among => turn other (.tail _ among)) _ ?_
          have added := turn c (.head _)
          rw [String.utf8ByteSize_push]
          omega

/-- A text that is cut or filled to a size goes past it by less than a character of the filling. -/
theorem size_resize {size width : Nat} {fill : String}
    (narrow : ∀ c ∈ fill.toList, c.utf8Size ≤ width + 1)
    (resized : resize text size fill = .ok result)
    : result.utf8ByteSize ≤ size + width := by
  unfold resize at resized
  split at resized
  · obtain ⟨⟨before, after⟩, parted, resized⟩ := ok_of_bind resized
    cases resized
    have sizes := (byteLength_cut parted).1
    rw [utf8ByteSize_ofList]
    omega
  · cases resized
    exact size_padWith narrow _ [] (fun _ none => nomatch none) text (by omega)

-----------------------------------------------------------------------------------------
-- Upper and lower case
-----------------------------------------------------------------------------------------

/-- A run keeps to ASCII unless it is all outside of it. -/
def CaseRun.KeepsAscii (run : CaseRun) : Prop :=
  0x80 ≤ run.first ∨ run.target + (run.last - run.first) < 0x80

instance (run : CaseRun) : Decidable run.KeepsAscii := inferInstanceAs (Decidable (_ ∨ _))

/-- One character in place of another one takes at most twice its bytes, where ASCII characters
stay such.
-/
theorem utf8Size_image {runs : List CaseRun} (keep : ∀ run ∈ runs, run.KeepsAscii) (c : Char)
    : (((runs.findSome? (·.image? c.toNat)).map Char.ofNat).getD c).utf8Size
      ≤ 2 * c.utf8Size := by
  have positive := c.utf8Size_pos
  cases found : runs.findSome? (·.image? c.toNat) with
  | none =>
      rw [Option.map_none, Option.getD_none]
      omega
  | some image =>
      rw [Option.map_some, Option.getD_some]
      obtain ⟨run, among, covered⟩ := List.exists_of_findSome?_eq_some found
      simp only [CaseRun.image?, Bool.and_eq_true, decide_eq_true_eq, Option.ite_none_right_eq_some,
        Option.some.injEq] at covered
      obtain ⟨⟨⟨afterFirst, beforeLast⟩, -⟩, rfl⟩ := covered
      rcases keep run among with beyond | within
      · have wide := two_le_utf8Size (Nat.le_trans beyond afterFirst)
        have atMost := (Char.ofNat (run.target + (c.toNat - run.first))).utf8Size_le_four
        omega
      · have small : run.target + (c.toNat - run.first) < 0x80 := by omega
        have ascii : (Char.ofNat (run.target + (c.toNat - run.first))).utf8Size = 1 := by
          rw [utf8Size_eq_one_iff, Char.ofNat, dif_pos (.inl (by omega))]
          exact small
        omega

theorem lowerRuns_keepsAscii : ∀ run ∈ lowerRuns, run.KeepsAscii := by decide +kernel

theorem upperRuns_keepsAscii : ∀ run ∈ upperRuns, run.KeepsAscii := by decide +kernel

/-- What is more than one letter in upper case is no ASCII letter, and takes six bytes at most. -/
theorem upperExpansions_size : ∀ entry ∈ upperExpansions,
    0x80 ≤ entry.1 ∧ byteLength (entry.2.map Char.ofNat) ≤ 6 := by
  decide +kernel

theorem byteLength_lowerCase (c : Char) : byteLength (lowerCase c) ≤ 2 * c.utf8Size := by
  unfold lowerCase
  split
  · next dotted =>
    have wide := @two_le_utf8Size c (by rw [beq_iff_eq.mp dotted]; decide)
    calc byteLength ['i', Char.ofNat 0x307] = 3 := by decide
      _ ≤ 2 * c.utf8Size := by omega
  · rw [byteLength_cons, byteLength_nil, Nat.add_zero]
    exact utf8Size_image lowerRuns_keepsAscii c

theorem byteLength_upperCase (c : Char) : byteLength (upperCase c) ≤ 3 * c.utf8Size := by
  unfold upperCase
  split
  · next points found =>
    obtain ⟨before, after, table, -⟩ := List.lookup_eq_some_iff.mp found
    have listed : (c.toNat, points) ∈ upperExpansions := by
      rw [table]
      exact List.mem_append_right _ (.head _)
    obtain ⟨beyond, small⟩ := upperExpansions_size (c.toNat, points) listed
    dsimp only at small
    have wide := two_le_utf8Size beyond
    omega
  · have image := utf8Size_image upperRuns_keepsAscii c
    rw [byteLength_cons, byteLength_nil, Nat.add_zero]
    omega

/-- Lower case takes at most twice the bytes, by induction over the characters. -/
theorem byteLength_lowerAfter (before text : List Char)
    : byteLength (lowerAfter before text) ≤ 2 * byteLength text := by
  induction text generalizing before with
  | nil => exact Nat.le_refl _
  | cons c rest ih =>
      have lowered : byteLength
          (if c.toNat == 0x3A3 then
            if startsWithCased before && !startsWithCased rest then [Char.ofNat 0x3C2]
            else [Char.ofNat 0x3C3]
          else lowerCase c) ≤ 2 * c.utf8Size := by
        split
        · have positive := c.utf8Size_pos
          split <;> exact Nat.le_trans (by decide : _ ≤ 2 * 1) (Nat.mul_le_mul_left 2 positive)
        · exact byteLength_lowerCase c
      have later := ih (c :: before)
      rw [lowerAfter, byteLength_append, byteLength_cons]
      omega

theorem size_toLower (text : String) : (toLower text).utf8ByteSize ≤ 2 * text.utf8ByteSize := by
  rw [toLower, utf8ByteSize_ofList, ← byteLength_toList text]
  exact byteLength_lowerAfter [] text.toList

/-- Upper case takes at most three times the bytes, by induction over the characters. -/
theorem size_toUpper (text : String) : (toUpper text).utf8ByteSize ≤ 3 * text.utf8ByteSize := by
  rw [toUpper, utf8ByteSize_ofList, ← byteLength_toList text]
  induction text.toList with
  | nil => exact Nat.le_refl _
  | cons c rest ih =>
      have raised := byteLength_upperCase c
      rw [List.flatMap_cons, byteLength_append, byteLength_cons]
      omega

end BuildScript.Text
