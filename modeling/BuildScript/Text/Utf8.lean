/-! Byte offsets into a sequence of characters. Main statement: a cut at a byte offset gives
back the sequence, and its first part has that many bytes.
-/

namespace BuildScript.Text

/-- The number of bytes of the UTF-8 encoding. -/
def byteLength : List Char → Nat
  | [] => 0
  | c :: rest => c.utf8Size + byteLength rest

/-- Cuts a sequence after its first `offset` bytes, where `before`, last character first, stands
in front of it.
-/
def splitAtByteFrom? (before : List Char) : Nat → List Char → Option (List Char × List Char)
  | 0, text => some (before.reverse, text)
  | _ + 1, [] => none
  | offset + 1, c :: rest =>
    if c.utf8Size ≤ offset + 1 then
      splitAtByteFrom? (c :: before) (offset + 1 - c.utf8Size) rest
    else none

/-- Cuts a sequence after its first `offset` bytes. There is no such cut inside a character
or past the end.
-/
def splitAtByte? (offset : Nat) (text : List Char) : Option (List Char × List Char) :=
  splitAtByteFrom? [] offset text

@[simp] theorem byteLength_nil : byteLength [] = 0 := rfl

@[simp] theorem byteLength_cons (c : Char) (rest : List Char)
    : byteLength (c :: rest) = c.utf8Size + byteLength rest := rfl

@[simp] theorem byteLength_append (first last : List Char)
    : byteLength (first ++ last) = byteLength first + byteLength last := by
  induction first with
  | nil => simp
  | cons c rest ih => simp [ih, Nat.add_assoc]

theorem splitAtByteFrom?_eq_map (before : List Char) (offset : Nat) (text : List Char)
    : splitAtByteFrom? before offset text
      = (splitAtByte? offset text).map fun parts => (before.reverse ++ parts.1, parts.2) := by
  unfold splitAtByte?
  induction text generalizing before offset with
  | nil => cases offset <;> simp [splitAtByteFrom?]
  | cons c rest ih =>
    cases offset with
    | zero => simp [splitAtByteFrom?]
    | succ offset =>
      simp only [splitAtByteFrom?]
      split
      · rw [ih (c :: before), ih [c]]
        simp [Function.comp_def]
      · rfl

@[simp] theorem splitAtByte?_zero (text : List Char) : splitAtByte? 0 text = some ([], text) := by
  simp [splitAtByte?, splitAtByteFrom?]

@[simp] theorem splitAtByte?_succ_nil (offset : Nat) : splitAtByte? (offset + 1) [] = none := rfl

theorem splitAtByte?_succ_cons (offset : Nat) (c : Char) (rest : List Char)
    : splitAtByte? (offset + 1) (c :: rest)
      = if c.utf8Size ≤ offset + 1 then
          (splitAtByte? (offset + 1 - c.utf8Size) rest).map fun parts => (c :: parts.1, parts.2)
        else none := by
  simp only [splitAtByte?, splitAtByteFrom?]
  split
  · rw [splitAtByteFrom?_eq_map]
    rfl
  · rfl

theorem append_of_splitAtByte? {offset : Nat} {text first last : List Char}
    (h : splitAtByte? offset text = some (first, last))
    : first ++ last = text ∧ byteLength first = offset := by
  induction text generalizing offset first with
  | nil => cases offset <;> simp_all
  | cons c rest ih =>
    cases offset with
    | zero =>
      simp only [splitAtByte?_zero, Option.some.injEq, Prod.mk.injEq] at h
      obtain ⟨rfl, rfl⟩ := h
      simp
    | succ offset =>
      rw [splitAtByte?_succ_cons] at h
      split at h
      · next fits =>
        simp only [Option.map_eq_some_iff, Prod.mk.injEq, Prod.exists] at h
        obtain ⟨first', last', found, rfl, rfl⟩ := h
        obtain ⟨rfl, size⟩ := ih found
        simp only [List.cons_append, byteLength_cons, size, true_and]
        omega
      · cases h

theorem splitAtByte?_append (first last : List Char)
    : splitAtByte? (byteLength first) (first ++ last) = some (first, last) := by
  induction first with
  | nil => simp
  | cons c rest ih =>
    have pos := c.utf8Size_pos
    obtain ⟨n, hn⟩ : ∃ n, c.utf8Size + byteLength rest = n + 1 :=
      ⟨_, (Nat.succ_pred (by omega)).symm⟩
    have remaining : n + 1 - c.utf8Size = byteLength rest := by omega
    have fits : c.utf8Size ≤ n + 1 := by omega
    simp [hn, splitAtByte?_succ_cons, fits, remaining, ih]

end BuildScript.Text
