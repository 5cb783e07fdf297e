import BuildScript.Proofs.Syntax.Outline
import BuildScript.Proofs.Syntax.Places
import BuildScript.Proofs.Token.Coverage

/-! Where syntax is placed. The tokens of a text stand one after the other, and a reader that begins
where the last token ended gives what is placed between there and where its own last token ends.
Types and expressions are placed by induction over their depth.
-/

namespace BuildScript

-----------------------------------------------------------------------------------------
-- Tokens that stand in a text
-----------------------------------------------------------------------------------------

namespace Token

/-- (Follows file place token) says that a token stands in a text at or behind a place. -/
structure Follows (file : String) (place : Nat) (token : Token) : Prop where
  text : token.span.file = file
  after : place ≤ token.span.start
  solid : token.span.start < token.span.stop

/-- (Lined file size place tokens) says that tokens stand one after the other in a text of the given
size, from a place on.
-/
def Lined (file : String) (size : Nat) : Nat → List Token → Prop
  | place, [] => place ≤ size
  | place, token :: rest => token.Follows file place ∧ Lined file size token.span.stop rest

variable {file : String} {size place : Nat}

namespace Follows

variable {token : Token}

theorem le (follows : token.Follows file place) : place ≤ token.span.stop :=
  Nat.le_trans follows.after (Nat.le_of_lt follows.solid)

theorem named (follows : token.Follows file place)
    : Outline.Fills file place token.span.stop [token] [] :=
  ⟨follows.le, List.forall_mem_singleton.mpr ⟨follows.text, follows.after, Nat.le_refl _⟩, trivial⟩

/-- A token begins its own span. -/
theorem own (follows : token.Follows file place) : token.Follows file token.span.start :=
  ⟨follows.text, Nat.le_refl _, follows.solid⟩

/-- A node that is a token by itself stands where the token does. -/
theorem within (follows : token.Follows file place) {names : List Token}
    (fills : Outline.Fills file token.span.start token.span.stop names [])
    : (Outline.node token.span names []).Within file place token.span.stop :=
  fills.within follows.text follows.after (Nat.le_refl _)

end Follows

theorem Lined.bound {tokens : List Token} (lined : Lined file size place tokens)
    : place ≤ size := by
  induction tokens generalizing place with
  | nil => exact lined
  | cons token rest ih => exact Nat.le_trans lined.1.le (ih lined.2)

/-- The tokens before the last one of those that cover a text stand one after the other. -/
theorem lined_of_gaps {text : List Char} {before : List Token} {last : Token}
    (gaps : GapsFrom text place (before ++ [last]))
    (spelled : ∀ token ∈ before, token.span.file = file ∧ token.span.start < token.span.stop)
    : Lined file last.span.start place before := by
  induction before generalizing place with
  | nil => exact gaps.1
  | cons token rest ih =>
      obtain ⟨text, solid⟩ := spelled token (.head rest)
      refine ⟨⟨text, gaps.1, solid⟩, ih gaps.2.2 fun later among => ?_⟩
      exact spelled later (.tail token among)

end Token

/-- (Laid file size stream) says that a stream reads tokens that stand one after the other in a text
of the given size, up to its end.
-/
structure TokenStream.Laid (file : String) (size : Nat) (stream : TokenStream) : Prop where
  closed : stream.Closed
  lined : Token.Lined file size stream.previousEnd stream.ahead

/-- The tokens that a text is scanned to are laid out in it, unless it is so large that offsets
wrap.
-/
theorem TokenStream.ofTokens_laid {source file : String} {tokens : List Token}
    (fits : source.utf8ByteSize < offsetCount) (scanned : Token.scan source file = .ok tokens)
    : (ofTokens tokens file).Laid file source.utf8ByteSize
        ∧ (ofTokens tokens file).previousEnd = 0 ∧ (ofTokens tokens file).file = file := by
  obtain ⟨before, last, rfl, ended, -⟩ := Token.scan_ended scanned
  obtain ⟨_, covered, -, same⟩ := Token.scan_covered scanned
  rw [← same fits] at covered
  obtain rfl : last = Token.endOfFile ⟨file, Text.byteLength source.toList⟩ := by
    simpa using covered.ended
  rw [ofTokens_ended ended]
  refine ⟨⟨ended, ?_⟩, rfl, rfl⟩
  rw [← Text.byteLength_toList]
  refine Token.lined_of_gaps covered.separated fun token among => ?_
  obtain ⟨-, text, solid, -⟩ := covered.spelled token (by simpa using among)
  exact ⟨text, solid⟩

/-- Before the end of the file the current token stands behind the last one. -/
theorem TokenStream.Laid.advance {file : String} {size : Nat} {stream : TokenStream}
    (laid : stream.Laid file size) (inside : stream.kind ≠ .endOfFile)
    : stream.current.Follows file stream.previousEnd ∧ stream.advance.Laid file size
        ∧ stream.advance.previousEnd = stream.current.span.stop := by
  have passes := laid.closed.advance inside
  have lined := laid.lined
  rw [passes.ahead, List.singleton_append] at lined
  refine ⟨lined.1, ⟨passes.closed laid.closed, ?_⟩, passes.previousEnd⟩
  rw [passes.previousEnd]
  exact lined.2

namespace Parse

variable {α β : Type} {file : String} {size : Nat}

/-- (Reaches file size place reader post) says that a reader that succeeds on a laid out stream,
after a token that ended at `place`, leaves such a stream, and that `post` holds for where the last
token ended then and for the value.
-/
def Reaches (file : String) (size place : Nat) (reader : Parse α) (post : Nat → α → Prop) : Prop :=
  ∀ stream : TokenStream, stream.Laid file size → stream.previousEnd = place →
    ∀ value after, reader stream = .ok (value, after) →
      after.Laid file size ∧ post after.previousEnd value

/-- (ReachesAt file size shown place reader post) says it of streams that show a token of class
`shown`.
-/
def ReachesAt (file : String) (size : Nat) (shown : TokenKind) (place : Nat) (reader : Parse α)
    (post : Nat → α → Prop)
    : Prop :=
  ∀ stream : TokenStream, stream.Laid file size → stream.previousEnd = place → stream.kind = shown →
    ∀ value after, reader stream = .ok (value, after) →
      after.Laid file size ∧ post after.previousEnd value

-----------------------------------------------------------------------------------------
-- Rules
-----------------------------------------------------------------------------------------

namespace ReachesAt

variable {shown : TokenKind} {place : Nat} {reader : Parse α} {mid : Nat → α → Prop}
  {post : Nat → β → Prop}

/-- The second of two readers goes on from where the first one ends. -/
theorem bind {next : α → Parse β} (first : ReachesAt file size shown place reader mid)
    (rest : ∀ middle value, mid middle value → Reaches file size middle (next value) post)
    : ReachesAt file size shown place (reader >>= next) post := by
  intro stream laid behind here result after outcome
  obtain ⟨value, middle, start, later⟩ := ok_of_run_bind outcome
  obtain ⟨laid', known⟩ := first stream laid behind here value middle start
  exact rest _ value known middle laid' rfl result after later

/-- The class that is shown may be looked at again. -/
theorem kind {next : TokenKind → Parse α}
    (rest : ReachesAt file size shown place (next shown) mid)
    : ReachesAt file size shown place (Parse.kind >>= next) mid := by
  rintro stream laid behind rfl value after outcome
  exact rest stream laid behind rfl value after outcome

/-- A token that is shown stands behind the last one. -/
theorem nextThen {rest : Token → Parse β} (inner : shown ≠ .endOfFile)
    (after : ∀ token, token.Follows file place →
      Reaches file size token.span.stop (rest token) post)
    : ReachesAt file size shown place (Parse.next >>= rest) post := by
  rintro stream laid rfl rfl result last outcome
  obtain ⟨follows, laid', ends⟩ := laid.advance inner
  exact after _ follows stream.advance laid' ends result last outcome

end ReachesAt

/-- What is reached on any token is reached on one of a given class. -/
theorem Reaches.here {place : Nat} {reader : Parse α} {mid : Nat → α → Prop}
    (reaches : Reaches file size place reader mid) (shown : TokenKind)
    : ReachesAt file size shown place reader mid :=
  fun stream laid behind _ => reaches stream laid behind

theorem Reaches.pure {place : Nat} {value : α} {mid : Nat → α → Prop} (holds : mid place value)
    : Reaches file size place (Pure.pure value) mid := by
  rintro stream laid rfl given after outcome
  obtain ⟨rfl, rfl⟩ := Prod.mk.inj (Except.ok.inj outcome)
  exact ⟨laid, holds⟩

theorem ReachesAt.map {shown : TokenKind} {place : Nat} {reader : Parse α} {mid : Nat → α → Prop}
    {post : Nat → β → Prop} {change : α → β} (reads : ReachesAt file size shown place reader mid)
    (kept : ∀ stop value, mid stop value → post stop (change value))
    : ReachesAt file size shown place (change <$> reader) post := by
  rw [← bind_pure_comp]
  exact reads.bind fun stop value known => .pure (kept stop value known)

namespace Reaches

variable {place : Nat} {reader : Parse α} {mid : Nat → α → Prop} {post : Nat → β → Prop}

theorem bind {next : α → Parse β} (first : Reaches file size place reader mid)
    (rest : ∀ middle value, mid middle value → Reaches file size middle (next value) post)
    : Reaches file size place (reader >>= next) post :=
  fun stream laid behind => (first.here stream.kind).bind rest stream laid behind rfl

theorem map {change : α → β} (reads : Reaches file size place reader mid)
    (kept : ∀ stop value, mid stop value → post stop (change value))
    : Reaches file size place (change <$> reader) post :=
  fun stream laid behind => (reads.here stream.kind).map kept stream laid behind rfl

theorem unexpected : Reaches file size place (Parse.unexpected : Parse α) mid :=
  fun _ _ _ _ _ outcome => nomatch outcome

theorem unmet (expectation : Expectation)
    : Reaches file size place (Parse.unmet expectation : Parse α) mid :=
  fun _ _ _ _ _ outcome => nomatch outcome

/-- Readers may look at the stream first. -/
theorem look {next : TokenStream → Parse α}
    (rest : ∀ stream : TokenStream, ReachesAt file size stream.kind place (next stream) mid)
    : Reaches file size place (MonadState.get >>= next) mid :=
  fun stream laid behind => rest stream stream laid behind rfl

theorem get {next : TokenStream → Parse α}
    (rest : ∀ stream, Reaches file size place (next stream) mid)
    : Reaches file size place (MonadState.get >>= next) mid :=
  look fun stream => (rest stream).here stream.kind

/-- Readers may look at the class of the current token first. -/
theorem kind {next : TokenKind → Parse α}
    (rest : ∀ shown, ReachesAt file size shown place (next shown) mid)
    : Reaches file size place (Parse.kind >>= next) mid :=
  fun stream laid behind => rest stream.kind stream laid behind rfl

/-- A token that is expected stands behind the last one. -/
theorem expect {wanted : TokenKind} (inner : wanted ≠ .endOfFile)
    : Reaches file size place (Parse.expect wanted)
        fun stop token => token.Follows file place ∧ token.span.stop = stop := by
  rintro stream laid rfl value after outcome
  rw [run_expect] at outcome
  split at outcome
  · next shown =>
      obtain ⟨rfl, rfl⟩ := Prod.mk.inj (Except.ok.inj outcome)
      obtain ⟨follows, laid', ends⟩ := laid.advance (by rw [shown]; exact inner)
      exact ⟨laid', follows, ends.symm⟩
  · cases outcome

theorem expectThen {wanted : TokenKind} {rest : Token → Parse β} (inner : wanted ≠ .endOfFile)
    (after : ∀ token, token.Follows file place →
      Reaches file size token.span.stop (rest token) post)
    : Reaches file size place (Parse.expect wanted >>= rest) post := by
  refine (expect inner).bind ?_
  rintro _ token ⟨follows, rfl⟩
  exact after token follows

/-- A reader may take the token that it begins with from the stream. -/
theorem lookThen (wanted : TokenKind) {first : Token → Parse α} {next : TokenStream → α → Parse β}
    (inner : wanted ≠ .endOfFile)
    (after : ∀ stream : TokenStream, stream.current.Follows file place →
      Reaches file size stream.current.span.stop (first stream.current >>= next stream) post)
    : Reaches file size place
        (MonadState.get >>= fun stream => (Parse.expect wanted >>= first) >>= next stream)
        post := by
  rintro stream laid rfl result last outcome
  have begun : ((Parse.expect wanted >>= first) >>= next stream) stream = .ok (result, last) :=
    outcome
  rw [bind_assoc, run_bind, run_expect] at begun
  by_cases shown : stream.kind = wanted
  · rw [if_pos shown] at begun
    obtain ⟨follows, laid', ends⟩ := laid.advance (by rw [shown]; exact inner)
    exact after stream follows stream.advance laid' ends result last begun
  · rw [if_neg shown] at begun
    cases begun

/-- A token that is accepted stands behind the last one, and otherwise nothing is passed. -/
theorem acceptThen {wanted : TokenKind} {rest : Bool → Parse β} (inner : wanted ≠ .endOfFile)
    (accepted : ∀ token : Token, token.Follows file place →
      Reaches file size token.span.stop (rest true) post)
    (refused : Reaches file size place (rest false) post)
    : Reaches file size place (Parse.accept wanted >>= rest) post := by
  rintro stream laid rfl result last outcome
  rw [run_bind, run_accept] at outcome
  by_cases shown : stream.kind = wanted
  · rw [if_pos shown] at outcome
    obtain ⟨follows, laid', ends⟩ := laid.advance (by rw [shown]; exact inner)
    exact accepted _ follows stream.advance laid' ends result last outcome
  · rw [if_neg shown] at outcome
    exact refused stream laid rfl result last outcome

/-- A span goes up to where the last token ended. -/
theorem spanFromThen {first : Span} {next : Span → Parse β}
    (rest : Reaches file size place (next { first with stop := place }) post)
    : Reaches file size place (Parse.spanFrom first >>= next) post := by
  rintro stream laid rfl value after outcome
  exact rest stream laid rfl value after outcome

theorem numberLiteralThen {read? : List Char → Option α} {token : Token} {next : α → Parse β}
    (rest : ∀ value, Reaches file size place (next value) post)
    : Reaches file size place (Parse.numberLiteral read? token >>= next) post := by
  unfold Parse.numberLiteral
  split
  · next value _ =>
      rw [pure_bind]
      exact rest value
  · exact fun _ _ _ _ _ outcome => nomatch outcome

/-- An attempt goes on from where the reader ends, or from where it began if that fails. -/
theorem attemptThen {next : Option α → Parse β} (reads : Reaches file size place reader mid)
    (read : ∀ middle value, mid middle value → Reaches file size middle (next (some value)) post)
    (failed : Reaches file size place (next none) post)
    : Reaches file size place (Parse.attempt reader >>= next) post := by
  rintro stream laid rfl result last outcome
  rw [run_bind, run_attempt] at outcome
  cases given : reader stream with
  | error error =>
      rw [given] at outcome
      exact failed stream laid rfl result last outcome
  | ok found =>
      rw [given] at outcome
      obtain ⟨laid', known⟩ := reads stream laid rfl found.1 found.2 given
      exact read _ _ known found.2 laid' rfl result last outcome

-----------------------------------------------------------------------------------------
-- Repetition
-----------------------------------------------------------------------------------------

section Repetition

variable {item : Parse α} {names : α → List Token} {parts : α → List Outline}

/-- Items after commas fill what they are read from, by induction on how many may be read. -/
theorem afterCommas
    (items : ∀ place, Reaches file size place item fun stop value =>
      Outline.Fills file place stop (names value) (parts value))
    (place count : Nat)
    : Reaches file size place (Parse.afterCommas item count) fun stop values =>
        Outline.Fills file place stop (values.flatMap names) (values.flatMap parts) := by
  induction count generalizing place with
  | zero => exact pure (.nil (Nat.le_refl place))
  | succ count ih =>
      refine acceptThen (by decide) (fun comma follows => ?_) (pure (.nil (Nat.le_refl place)))
      refine (items _).bind fun middle first filled => (ih middle).bind fun stop rest more => ?_
      exact pure ((filled.append more).mono follows.le (Nat.le_refl stop))

theorem separated
    (items : ∀ place, Reaches file size place item fun stop value =>
      Outline.Fills file place stop (names value) (parts value))
    (place : Nat)
    : Reaches file size place (Parse.separated item) fun stop values =>
        Outline.Fills file place stop (values.flatMap names) (values.flatMap parts) := by
  refine (items place).bind fun middle first filled => get fun stream => ?_
  exact (afterCommas items middle _).bind fun stop rest more => pure (filled.append more)

variable {outline : α → Outline}

/-- Nodes between commas. -/
theorem separatedParts
    (items : ∀ place, Reaches file size place item fun stop value =>
      (outline value).Within file place stop)
    (place : Nat)
    : Reaches file size place (Parse.separated item) fun stop values =>
        Outline.Fills file place stop [] (values.map outline) := by
  intro stream laid behind values after outcome
  have items' (place : Nat)
      : Reaches file size place item fun stop value =>
          Outline.Fills file place stop [] [outline value] := by
    intro stream laid behind value after outcome
    obtain ⟨laid', within⟩ := items place stream laid behind value after outcome
    exact ⟨laid', .part within⟩
  obtain ⟨laid', filled⟩ := separated items' place stream laid behind values after outcome
  exact ⟨laid', filled.ofParts⟩

end Repetition

-----------------------------------------------------------------------------------------
-- Types
-----------------------------------------------------------------------------------------

theorem moreSegments (place count : Nat)
    : Reaches file size place (Parse.moreSegments count) fun stop names =>
        Outline.Fills file place stop names [] := by
  induction count generalizing place with
  | zero => exact pure (.nil (Nat.le_refl place))
  | succ count ih =>
      rintro stream laid rfl names after outcome
      rw [run_moreSegments] at outcome
      by_cases goesOn : stream.kind = .colonColon ∧ (stream.peek 1).kind = .identifier
      · rw [if_pos goesOn] at outcome
        obtain ⟨colons, laid₁, ends₁⟩ := laid.advance (by rw [goesOn.1]; decide)
        have shown : stream.advance.current = stream.peek 1 := TokenStream.peek_advance stream 0
        obtain ⟨word, laid₂, ends₂⟩ := laid₁.advance (by
          rw [TokenStream.kind, shown, goesOn.2]
          decide)
        rw [shown] at word ends₂
        rw [ends₁] at word
        have later : Reaches file size (stream.peek 1).span.stop
            (Parse.moreSegments count >>= fun rest => Pure.pure (stream.peek 1 :: rest))
            fun stop names => Outline.Fills file stream.previousEnd stop names [] :=
          (ih _).bind fun stop rest more =>
            pure ((word.named.append more).mono colons.le (Nat.le_refl stop))
        exact later stream.advance.advance laid₂ ends₂ names after outcome
      · rw [if_neg goesOn] at outcome
        obtain ⟨rfl, rfl⟩ := Prod.mk.inj (Except.ok.inj outcome)
        exact ⟨laid, .nil (Nat.le_refl _)⟩

/-- The segments of a qualified name after its first one. -/
theorem segmentsAfter {first : Token} {place : Nat} (begins : first.Follows file place)
    : Reaches file size first.span.stop
        (do
          let rest ← Parse.moreSegments (← MonadState.get).ahead.length
          return first :: rest)
        fun stop names => Outline.Fills file first.span.start stop names [] := by
  exact get fun stream => (moreSegments _ _).bind fun stop rest more =>
    pure (begins.own.named.append more)

section Types

variable {nested : Parse TypeExpr}
  (parts : ∀ place, Reaches file size place nested fun stop type =>
    type.outline.Within file place stop)

include parts

theorem typeArgumentsWith (place : Nat)
    : Reaches file size place (Parse.typeArgumentsWith nested) fun stop types =>
        Outline.Fills file place stop [] (TypeExpr.outlines types) := by
  refine expectThen (by decide) fun opening begins => ?_
  refine (separatedParts parts _).bind fun middle types filled => ?_
  refine expectThen (by decide) fun closing ends => pure ?_
  rw [TypeExpr.outlines_eq_map]
  exact filled.mono begins.le ends.le

theorem plainTypeWith (place : Nat)
    : Reaches file size place (Parse.plainTypeWith nested) fun stop type =>
        type.outline.Within file place stop := by
  refine kind fun shown => ?_
  split
  · refine here (lookThen .identifier (by decide) fun stream begins => ?_) _
    refine (segmentsAfter begins).bind fun middle names named => kind fun after => here ?_ _
    dsimp only
    split
    · refine (typeArgumentsWith parts middle).bind fun stop generics filled => spanFromThen ?_
      exact pure ((named.andParts filled).within begins.text begins.after (Nat.le_refl stop))
    · rw [pure_bind]
      exact spanFromThen (pure (named.within begins.text begins.after (Nat.le_refl middle)))
  · exact .nextThen (by decide) fun token begins => pure (begins.within begins.own.named)
  · exact (unmet _).here _

theorem typeExprWith (place : Nat)
    : Reaches file size place (Parse.typeExprWith nested) fun stop type =>
        type.outline.Within file place stop := by
  refine (plainTypeWith parts place).bind fun middle type within => kind fun shown => ?_
  split
  · next marked =>
      refine .nextThen (by rw [eq_of_beq marked]; decide) fun mark follows => ?_
      refine kind fun after => here ?_ _
      split
      · exact unmet _
      · refine pure ?_
        obtain ⟨names, generics, isReference, span⟩ := type
        have above : span.stop ≤ mark.span.stop := Nat.le_trans within.before follows.le
        have fills := within.placed.fills.mono (Nat.le_refl _) above
        exact fills.within within.placed.text within.after (Nat.le_refl _)
  · refine here (pure ?_) _
    exact within

end Types

theorem typeExprWithin (place depth : Nat)
    : Reaches file size place (Parse.typeExprWithin depth) fun stop type =>
        type.outline.Within file place stop := by
  induction depth generalizing place with
  | zero => exact unexpected
  | succ depth ih => exact typeExprWith ih place

theorem typeExpr (place : Nat)
    : Reaches file size place Parse.typeExpr fun stop type => type.outline.Within file place stop :=
  get fun _ => typeExprWithin place _

theorem typeArguments (place : Nat)
    : Reaches file size place Parse.typeArguments fun stop types =>
        Outline.Fills file place stop [] (TypeExpr.outlines types) :=
  get fun _ => typeArgumentsWith (fun place => typeExprWithin place _) place

-----------------------------------------------------------------------------------------
-- Expressions
-----------------------------------------------------------------------------------------

section Expressions

variable {nested : Operand}
  (parts : ∀ place power, Reaches file size place (nested power) fun stop expr =>
    expr.outline.Within file place stop)

include parts

theorem argumentsWith (place : Nat)
    : Reaches file size place (Parse.argumentsWith nested) fun stop arguments =>
        Outline.Fills file place stop [] (Expr.outlines arguments) := by
  refine expectThen (by decide) fun opening begins => kind fun shown => here ?_ _
  dsimp only
  split
  · rw [pure_bind]
    exact expectThen (by decide) fun closing ends => pure (.nil (Nat.le_trans begins.le ends.le))
  · refine (separatedParts (fun place => parts place _) _).bind fun middle arguments filled => ?_
    refine expectThen (by decide) fun closing ends => pure ?_
    rw [Expr.outlines_eq_map]
    exact filled.mono begins.le ends.le

theorem identifierWith (place : Nat)
    : Reaches file size place (Parse.identifierWith nested) fun stop expr =>
        expr.outline.Within file place stop := by
  refine lookThen .identifier (by decide) fun stream begins => ?_
  refine (segmentsAfter begins).bind fun middle names named => kind fun shown => here ?_ _
  have comparison
      : Reaches file size middle
          (do return Expr.id names (← Parse.spanFrom stream.current.span))
          fun stop expr => expr.outline.Within file place stop :=
    spanFromThen (pure (named.within begins.text begins.after (Nat.le_refl middle)))
  dsimp only
  split
  · have generics
        : Reaches file size middle
            (do
              let generics ← Parse.typeArguments
              if (← Parse.kind) == .openParen then return generics else Parse.unexpected)
            fun stop generics =>
              Outline.Fills file middle stop [] (TypeExpr.outlines generics) := by
      refine (typeArguments middle).bind fun stop generics filled => kind fun shown => here ?_ _
      split
      · exact pure filled
      · exact unexpected
    refine attemptThen generics (fun called generics filled => spanFromThen ?_) comparison
    refine (argumentsWith parts called).bind fun stop arguments given => spanFromThen (pure ?_)
    have callee
        : Outline.Within file stream.current.span.start called
            (TypeExpr.outline
              ⟨names, generics, false, { stream.current.span with stop := called }⟩) :=
      (named.andParts filled).within begins.text (Nat.le_refl _) (Nat.le_refl called)
    exact ((Outline.Fills.part callee).append given).within begins.text begins.after
      (Nat.le_refl stop)
  · exact comparison

theorem fieldInitWith (place : Nat)
    : Reaches file size place (Parse.fieldInitWith nested) fun stop field =>
        Outline.Fills file place stop [field.name] [field.value.outline] := by
  have valueAfter {begun : Nat} (behind : place ≤ begun) {wanted : TokenKind}
      (inner : wanted ≠ .endOfFile)
      : Reaches file size begun
          (do
            let name ← Parse.expect .identifier
            let _ ← Parse.expect wanted
            return FieldInit.mk name (← nested .lowest))
          fun stop field => Outline.Fills file place stop [field.name] [field.value.outline] := by
    refine expectThen (by decide) fun name follows => expectThen inner fun sign later => ?_
    refine (parts _ .lowest).bind fun stop value within => pure ?_
    have given := (Outline.Fills.part within).mono later.le (Nat.le_refl stop)
    exact (follows.named.append given).mono behind (Nat.le_refl stop)
  exact acceptThen (by decide) (fun dot follows => valueAfter follows.le (by decide))
    (valueAfter (Nat.le_refl place) (by decide))

theorem bracesWith (place : Nat)
    : Reaches file size place (Parse.bracesWith nested) fun stop expr =>
        expr.outline.Within file place stop := by
  refine expectThen (by decide) fun opening begins => get fun stream => ?_
  have solid := begins.own.le
  split
  · refine (separated (fieldInitWith parts) _).bind fun middle fields filled => ?_
    refine expectThen (by decide) fun closing ends => spanFromThen (pure ?_)
    rw [← List.map_eq_flatMap, ← List.map_eq_flatMap, ← FieldInit.outlines_eq_map] at filled
    exact (filled.mono solid ends.le).within begins.text begins.after (Nat.le_refl _)
  · dsimp only
    split
    · rw [pure_bind]
      refine expectThen (by decide) fun closing ends => spanFromThen (pure ?_)
      exact (Outline.Fills.nil (Nat.le_trans solid ends.le)).within begins.text begins.after
        (Nat.le_refl _)
    · refine (separatedParts (fun place => parts place _) _).bind fun middle values filled => ?_
      refine expectThen (by decide) fun closing ends => spanFromThen (pure ?_)
      rw [← Expr.outlines_eq_map] at filled
      exact (filled.mono solid ends.le).within begins.text begins.after (Nat.le_refl _)

theorem primaryWith (place : Nat)
    : Reaches file size place (Parse.primaryWith nested) fun stop expr =>
        expr.outline.Within file place stop := by
  have prefixed {shown : TokenKind} (inner : shown ≠ .endOfFile)
      : ReachesAt file size shown place
          (do
            let operator ← Parse.next
            let operand ← nested .unary
            return Expr.unary operator operand (operator.span.upTo operand.span))
          fun stop expr => expr.outline.Within file place stop := by
    refine .nextThen inner fun operator begins => ?_
    refine (parts _ .unary).bind fun stop operand within => pure ?_
    obtain ⟨-, -, before⟩ := within.known (Outline.span_expr operand)
    exact (begins.own.named.append (.closing within (Outline.span_expr operand))).within begins.text
      begins.after before
  refine kind fun shown => ?_
  split
  · exact .nextThen (by decide) fun token begins => numberLiteralThen fun value =>
      pure (begins.within (.nil begins.own.le))
  · exact .nextThen (by decide) fun token begins => numberLiteralThen fun value =>
      pure (begins.within (.nil begins.own.le))
  · exact .nextThen (by decide) fun token begins => pure (begins.within (.nil begins.own.le))
  · exact .nextThen (by decide) fun token begins => pure (begins.within (.nil begins.own.le))
  · exact .nextThen (by decide) fun token begins => pure (begins.within (.nil begins.own.le))
  · exact (identifierWith parts place).here _
  · exact prefixed (by decide)
  · exact prefixed (by decide)
  · exact prefixed (by decide)
  · exact prefixed (by decide)
  · refine .nextThen (by decide) fun opening begins => ?_
    refine (parts _ .lowest).bind fun middle inner within => ?_
    exact expectThen (by decide) fun closing ends => pure (within.mono begins.le ends.le)
  · exact (bracesWith parts place).here _
  · exact unexpected.here _

/-- What continues an expression begins with it and goes on from where it was read to. -/
theorem continuationWith {left : Expr} {lower place : Nat}
    (known : left.outline.Within file lower place) (power : BindingPower) {shown : TokenKind}
    (inner : shown ≠ .endOfFile)
    : ReachesAt file size shown place (Parse.continuationWith nested left power)
        fun stop expr => expr.outline.Within file lower stop := by
  obtain ⟨text, after, -⟩ := known.known (Outline.span_expr left)
  have begun := Outline.Fills.opening known (Outline.span_expr left)
  refine .kind ?_
  split
  · refine .nextThen inner fun question first => ?_
    refine (parts _ .lowest).bind fun middle whenTrue within => ?_
    refine expectThen (by decide) fun colon last => ?_
    refine (parts _ .assignment).bind fun stop whenFalse within' => pure ?_
    obtain ⟨-, -, before⟩ := within'.known (Outline.span_expr whenFalse)
    have chosen := (Outline.Fills.part within).mono first.le last.le
    have otherwise := Outline.Fills.closing within' (Outline.span_expr whenFalse)
    exact ((begun.append chosen).append otherwise).within text after before
  · refine here ?_ _
    split
    · next names span =>
        refine (argumentsWith parts place).bind fun stop arguments given => spanFromThen (pure ?_)
        exact (begun.append given).within text after (Nat.le_refl stop)
    · exact unmet _
  · refine .nextThen inner fun dot first => expectThen (by decide) fun name follows => ?_
    have named := begun.append (follows.named.mono first.le (Nat.le_refl _))
    refine kind fun shown => here ?_ _
    split
    · refine (argumentsWith parts _).bind fun stop arguments given => spanFromThen (pure ?_)
      exact (named.andParts given).within text after (Nat.le_refl stop)
    · exact spanFromThen (pure (named.within text after (Nat.le_refl _)))
  · refine .nextThen inner fun operator follows => ?_
    refine (parts _ _).bind fun stop right within => pure ?_
    obtain ⟨-, -, before⟩ := within.known (Outline.span_expr right)
    have operand := Outline.Fills.closing within (Outline.span_expr right)
    exact ((begun.append follows.named).append operand).within text after before

/-- An expression that is continued, by induction on how many times it may be. -/
theorem continueWith (power : BindingPower) {left : Expr} {lower place : Nat}
    (known : left.outline.Within file lower place) (count : Nat)
    : Reaches file size place (Parse.continueWith nested power left count)
        fun stop expr => expr.outline.Within file lower stop := by
  induction count generalizing left place with
  | zero => exact pure known
  | succ count ih =>
      refine kind fun shown => ?_
      split
      · refine here (pure ?_) _
        exact known
      · next binds =>
          split
          · have inner : shown ≠ .endOfFile := by
              rintro rfl
              exact nomatch binds
            exact (continuationWith parts known _ inner).bind fun middle longer within => ih within
          · refine here (pure ?_) _
            exact known

theorem exprWith (place : Nat) (power : BindingPower)
    : Reaches file size place (Parse.exprWith nested power) fun stop expr =>
        expr.outline.Within file place stop := by
  refine (primaryWith parts place).bind fun middle left known => get fun stream => ?_
  exact continueWith parts power known _

end Expressions

theorem exprWithin (place depth : Nat) (power : BindingPower)
    : Reaches file size place (Parse.exprWithin depth power) fun stop expr =>
        expr.outline.Within file place stop := by
  induction depth generalizing place power with
  | zero => exact unexpected
  | succ depth ih => exact exprWith ih place power

theorem expr (place : Nat)
    : Reaches file size place Parse.expr fun stop expr => expr.outline.Within file place stop :=
  get fun _ => exprWithin place _ _

end Reaches

end Parse

end BuildScript
