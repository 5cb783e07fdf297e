import BuildScript.Proofs.Syntax.Bare
import BuildScript.Proofs.Token.Pieces

/-! White space and comments between tokens are no part of what a text spells. A text is read as a
sequence of blanks and other pieces; where the scanner stands between two of them, more blanks and
block comments may be put in.
-/

namespace BuildScript

open Text

namespace Token

/-- The class and value of the token that ends every scanned text. -/
def endContent : TokenKind × String := (.endOfFile, "EOF")

-----------------------------------------------------------------------------------------
-- What a text spells
-----------------------------------------------------------------------------------------

/-- (Spells text contents) says that a text consists of blanks and other pieces, and what these
contribute to the tokens.
-/
inductive Spells : List Char → List (TokenKind × String) → Prop
  | nil : Spells [] [endContent]
  | blank {c rest contents} (blank : isBlank c) (after : Spells rest contents)
    : Spells (c :: rest) contents
  | piece {c rest lexeme contents} (solid : isBlank c = false)
    (scanned : Lexeme.scan c rest = .ok lexeme) (after : Spells (rest.drop lexeme.tail) contents)
    : Spells (c :: rest) (lexeme.content?.toList ++ contents)

/-- A blank begins a run of blanks, which is ignored. -/
theorem scan_blank {c : Char} (blank : isBlank c) (rest : List Char)
    : Lexeme.scan c rest = .ok (.ignored (rest.takeWhile isBlank).length) := by
  rw [Lexeme.scan, wordStart_of_blank blank, digit_of_blank blank, if_neg Bool.false_ne_true,
    if_neg Bool.false_ne_true, if_pos blank]

/-- The tokens of a text are those of its first piece, and those of the rest. -/
theorem scanFrom_piece {c : Char} {rest : List Char} {lexeme : Lexeme}
    (scanned : Lexeme.scan c rest = .ok lexeme) (file : String) (offset : Nat)
    : scanFrom file offset (c :: rest) =
        (scanFrom file (offset + byteLength (c :: rest.take lexeme.tail))
          (rest.drop lexeme.tail)).map
          (lexeme.content?.toList.map (fun content => ⟨content.1, content.2,
            .ofBytes file offset (offset + byteLength (c :: rest.take lexeme.tail))⟩) ++ ·) := by
  rw [scanFrom, scanned]
  dsimp only
  split
  · next failed => rw [failed]; rfl
  · next rest_ none_ => rw [rest_, none_]; rfl
  · next rest_ some_ => rw [rest_, some_]; rfl

/-- A piece that is no token is passed over. -/
theorem scanFrom_ignored {c : Char} {rest : List Char} {tail : Nat}
    (scanned : Lexeme.scan c rest = .ok (.ignored tail)) (file : String) (offset : Nat)
    : scanFrom file offset (c :: rest) =
        scanFrom file (offset + byteLength (c :: rest.take tail)) (rest.drop tail) := by
  rw [scanFrom_piece scanned]
  show Except.map id
    (scanFrom file (offset + byteLength (c :: rest.take tail)) (rest.drop tail)) = _
  cases scanFrom file (offset + byteLength (c :: rest.take tail)) (rest.drop tail) <;> rfl

/-- A blank is passed over, whether or not more of them follow. -/
theorem scanFrom_blank {c : Char} (blank : isBlank c) (file : String) (offset : Nat)
    (rest : List Char)
    : scanFrom file offset (c :: rest) = scanFrom file (offset + byteLength [c]) rest := by
  rw [scanFrom_ignored (scan_blank blank rest)]
  cases rest with
  | nil => rfl
  | cons d rest =>
      cases next : isBlank d with
      | false =>
          rw [List.takeWhile_cons, next, if_neg Bool.false_ne_true]
          rfl
      | true =>
          rw [List.takeWhile_cons, if_pos next, scanFrom_ignored (scan_blank next rest)]
          simp only [List.length_cons, List.take_succ_cons, List.drop_succ_cons, byteLength_cons,
            byteLength_nil, Nat.add_assoc, Nat.add_zero]

/-- A text of spaces and more is scanned like what comes after them, but for where that stands. -/
theorem scan_behindSpaces (count : Nat) (text : List Char) (file : String)
    : scan (String.ofList (List.replicate count ' ' ++ text)) file = scanFrom file count text := by
  have behind (offset : Nat)
      : scanFrom file offset (List.replicate count ' ' ++ text)
        = scanFrom file (offset + count) text := by
    induction count generalizing offset with
    | zero => rfl
    | succ count ih =>
        rw [List.replicate_succ, List.cons_append, scanFrom_blank (by decide), ih,
          Nat.add_assoc, Nat.add_comm count]
        rfl
  rw [scan, String.toList_ofList, behind, Nat.zero_add]

/-- What is scanned is spelled, by induction over the length of the text. -/
theorem spells_of_scanFrom {file : String} (text : List Char) {offset : Nat} {tokens : List Token}
    (scanned : scanFrom file offset text = .ok tokens)
    : Spells text (tokens.map content) := by
  induction length : text.length using Nat.strongRecOn generalizing text offset tokens with
  | ind _ ih =>
      subst length
      cases text with
      | nil =>
          rw [scanFrom] at scanned
          obtain rfl := Except.ok.inj scanned
          exact .nil
      | cons c rest =>
          cases blank : isBlank c with
          | true =>
              rw [scanFrom_blank blank] at scanned
              exact .blank blank (ih _ (Nat.lt_succ_self _) rest scanned rfl)
          | false =>
              cases piece : Lexeme.scan c rest with
              | error fault =>
                  rw [scanFrom, piece] at scanned
                  cases scanned
              | ok lexeme =>
                  rw [scanFrom_piece piece] at scanned
                  have shorter : (rest.drop lexeme.tail).length < (c :: rest).length := by
                    rw [List.length_drop, List.length_cons]
                    omega
                  cases after : scanFrom file (offset + byteLength (c :: rest.take lexeme.tail))
                      (rest.drop lexeme.tail) with
                  | error error =>
                      rw [after] at scanned
                      cases scanned
                  | ok later =>
                      rw [after] at scanned
                      obtain rfl := Except.ok.inj scanned
                      rw [List.map_append, List.map_map]
                      have own : lexeme.content?.toList.map id = lexeme.content?.toList :=
                        List.map_id _
                      exact own.symm ▸ Spells.piece blank piece (ih _ shorter _ after rfl)

/-- What is spelled is scanned, in whatever file and wherever it begins. -/
theorem scanFrom_of_spells {text : List Char} {contents : List (TokenKind × String)}
    (spells : Spells text contents) (file : String) (offset : Nat)
    : ∃ tokens, scanFrom file offset text = .ok tokens ∧ tokens.map content = contents := by
  induction spells generalizing offset with
  | nil => exact ⟨_, by rw [scanFrom], rfl⟩
  | blank blank _ ih =>
      rw [scanFrom_blank blank]
      exact ih _
  | piece solid piece _ ih =>
      rw [scanFrom_piece piece]
      obtain ⟨tokens, scanned, same⟩ := ih _
      rw [scanned]
      refine ⟨_, rfl, ?_⟩
      rw [List.map_append, List.map_map, same]
      exact congrArg (· ++ _) (List.map_id _)

-----------------------------------------------------------------------------------------
-- Layout
-----------------------------------------------------------------------------------------

/-- (Boundary before after) says that the scanner stands between two pieces of a text when it has
read `before`, be they tokens, comments or single blanks. A line comment goes on up to a newline,
so that there is no boundary directly behind it.
-/
inductive Boundary : List Char → List Char → Prop
  | here {after} : Boundary [] after
  | blank {c before after} (blank : isBlank c) (later : Boundary before after)
    : Boundary (c :: before) after
  | piece {c part before after lexeme} (solid : isBlank c = false)
    (scanned : Lexeme.scan c (part ++ before ++ after) = .ok lexeme)
    (covers : lexeme.tail = part.length)
    (closed : c = '/' → part.head? = some '/' → before ≠ [])
    (later : Boundary before after)
    : Boundary (c :: part ++ before) after

/-- (BlockComment text) says that a text is one comment between `/*` and the first `*/` after it. -/
def BlockComment (text : List Char) : Prop :=
  ∃ body, text = '/' :: '*' :: body ∧ Lexeme.commentTail? body = some body.length

/-- (Layout text) says that a text consists of white space, or of a block comment between white
space, of which some comes before the comment.
-/
def Layout (text : List Char) : Prop :=
  (∀ c ∈ text, isBlank c) ∨
    ∃ blanks comment more, text = blanks ++ comment ++ more ∧ blanks ≠ [] ∧
      (∀ c ∈ blanks, isBlank c) ∧ BlockComment comment ∧ ∀ c ∈ more, isBlank c

theorem Spells.blanks {blanks text : List Char} {contents : List (TokenKind × String)}
    (all : ∀ c ∈ blanks, isBlank c) (spells : Spells text contents)
    : Spells (blanks ++ text) contents := by
  induction blanks with
  | nil => exact spells
  | cons c blanks ih =>
      exact .blank (all c List.mem_cons_self)
        (ih fun d member => all d (List.mem_cons_of_mem c member))

theorem Spells.blockComment {comment text : List Char} {contents : List (TokenKind × String)}
    (isComment : BlockComment comment) (spells : Spells text contents)
    : Spells (comment ++ text) contents := by
  obtain ⟨body, rfl, closes⟩ := isComment
  obtain ⟨-, same⟩ := Lexeme.commentTail?_append closes text
  rw [List.take_length] at same
  have scanned : Lexeme.scan '/' ('*' :: (body ++ text)) = .ok (.ignored (body.length + 1)) := by
    rw [Lexeme.scan, if_neg (by decide), if_neg (by decide), if_neg (by decide)]
    simp only [same]
  refine Spells.piece rfl scanned ?_
  show Spells ((body ++ text).drop body.length) contents
  rw [List.drop_left]
  exact spells

/-- Layout before a text is no part of what it spells. -/
theorem Spells.layout {inserted text : List Char} {contents : List (TokenKind × String)}
    (isLayout : Layout inserted) (spells : Spells text contents)
    : Spells (inserted ++ text) contents := by
  rcases isLayout with all | ⟨blanks, comment, more, rfl, -, before, isComment, after⟩
  · exact spells.blanks all
  · rw [List.append_assoc, List.append_assoc]
    exact ((spells.blanks after).blockComment isComment).blanks before

/-- Layout begins with a blank, if with anything. -/
theorem Layout.head {inserted : List Char} (isLayout : Layout inserted)
    : inserted = [] ∨ ∃ b rest, inserted = b :: rest ∧ isBlank b := by
  rcases isLayout with all | ⟨blanks, comment, more, rfl, some_, before, -, -⟩
  · cases inserted with
    | nil => exact .inl rfl
    | cons b rest => exact .inr ⟨b, rest, rfl, all b List.mem_cons_self⟩
  · cases blanks with
    | nil => exact absurd rfl some_
    | cons b rest => exact .inr ⟨b, _, rfl, before b List.mem_cons_self⟩

/-- What follows a piece begins as before with layout put in later, or with the layout. -/
theorem Layout.follows {inserted : List Char} (isLayout : Layout inserted)
    (before after : List Char)
    : Lexeme.Follows (before ++ after) (before ++ inserted ++ after) := by
  rcases isLayout.head with rfl | ⟨b, rest, rfl, blank⟩
  · rw [List.append_nil]
    exact .all
  · rcases before with _ | ⟨d, _ | ⟨e, before⟩⟩
    · exact .blank blank
    · exact .blankNext blank
    · exact .same

/-- Layout at a boundary is no part of what the text spells, by induction over the pieces before
it.
-/
theorem Boundary.spells {before after inserted : List Char} {contents : List (TokenKind × String)}
    (boundary : Boundary before after) (isLayout : Layout inserted)
    (spells : Spells (before ++ after) contents)
    : Spells (before ++ inserted ++ after) contents := by
  induction boundary generalizing contents with
  | here => exact spells.layout isLayout
  | blank blank later ih =>
      cases spells with
      | blank _ rest => exact .blank blank (ih rest)
      | piece solid _ _ => exact nomatch solid.symm.trans blank
  | @piece c part before after lexeme solid scanned covers closed later ih =>
      rw [List.cons_append, List.cons_append] at spells
      cases spells with
      | blank blank _ => exact nomatch solid.symm.trans blank
      | piece _ scanned' rest =>
          rw [List.append_assoc] at scanned
          rw [List.append_assoc] at scanned' rest
          obtain rfl := Except.ok.inj (scanned.symm.trans scanned')
          rw [covers, List.drop_left] at rest
          have again := Lexeme.scan_of_follows solid scanned covers (isLayout.follows before after)
            fun slash line => by
              -- Something comes before the layout, so that the comment ends where it did.
              cases before with
              | nil => exact absurd rfl (closed slash line)
              | cons d before => exact .inl rfl
          rw [List.append_assoc, List.cons_append, List.cons_append, List.append_assoc,
            ← List.append_assoc before]
          refine .piece solid again ?_
          rw [covers, List.drop_left]
          exact ih rest

end Token

end BuildScript
