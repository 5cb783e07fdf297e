import BuildScript.Syntax.TokenStream

/-! What the basic readers do to a token stream.

What readers consume. A reader that succeeds on a stream has moved it on over some tokens, and
something is known of these tokens and of the value that is read. Where the tokens end, the stream
keeps account of for the spans of what is read.
-/

namespace BuildScript

namespace TokenStream

@[simp] theorem advance_last (stream : TokenStream) : stream.advance.last = stream.last := by
  unfold advance
  split <;> rfl

/-- What is shown after a token is what was shown one place further. -/
theorem peek_advance (stream : TokenStream) (n : Nat)
    : stream.advance.peek n = stream.peek (n + 1) := by
  unfold advance
  cases ahead : stream.ahead with
  | nil => simp [peek, ahead]
  | cons token rest => simp [peek, ahead]

/-- Past the tokens ahead the last one is shown. -/
theorem peek_beyond {stream : TokenStream} {n : Nat} (beyond : stream.ahead.length ≤ n)
    : stream.peek n = stream.last := by
  simp [peek, List.getElem?_eq_none beyond]

end TokenStream

namespace Parse

variable {α β : Type}

/-- The second of two readers reads on from where the first one ends, unless that fails. -/
theorem run_bind (reader : Parse α) (after : α → Parse β) (stream : TokenStream)
    : (reader >>= after) stream =
        match reader stream with
        | .ok (value, middle) => after value middle
        | .error error => .error error := by
  show (reader stream).bind (fun given => after given.1 given.2) = _
  cases reader stream <;> rfl

theorem run_get (stream : TokenStream)
    : (get : Parse TokenStream) stream = .ok (stream, stream) :=
  rfl

theorem run_kind (stream : TokenStream) : kind stream = .ok (stream.kind, stream) := rfl

theorem run_next (stream : TokenStream) : next stream = .ok (stream.current, stream.advance) := rfl

theorem run_unexpected (stream : TokenStream)
    : (unexpected : Parse α) stream =
        .error ⟨.unexpected stream.current.value, stream.current.span.position⟩ :=
  rfl

theorem run_unmet (expectation : Expectation) (stream : TokenStream)
    : (unmet expectation : Parse α) stream =
        .error ⟨.unmet stream.current.value expectation, stream.current.span.position⟩ :=
  rfl

theorem run_expect (wanted : TokenKind) (stream : TokenStream)
    : expect wanted stream =
        if stream.kind = wanted then .ok (stream.current, stream.advance)
        else .error
          ⟨.unmet stream.current.value (.token wanted), stream.current.span.position⟩ := by
  show (if stream.kind == wanted then next else unmet (.token wanted)) stream = _
  by_cases here : stream.kind = wanted
  · rw [if_pos (beq_iff_eq.mpr here), if_pos here, run_next]
  · rw [if_neg (by simpa using here), if_neg here, run_unmet]

theorem run_accept (wanted : TokenKind) (stream : TokenStream)
    : accept wanted stream =
        if stream.kind = wanted then .ok (true, stream.advance) else .ok (false, stream) := by
  show (if stream.kind == wanted then _ else _ : Parse Bool) stream = _
  by_cases here : stream.kind = wanted
  · rw [if_pos (beq_iff_eq.mpr here), if_pos here]
    rfl
  · rw [if_neg (by simpa using here), if_neg here]
    rfl

theorem run_attempt (reader : Parse α) (stream : TokenStream)
    : attempt reader stream =
        match reader stream with
        | .ok (value, after) => .ok (some value, after)
        | .error _ => .ok (none, stream) :=
  rfl

/-- (moreSegmentsRound more) is what `moreSegments` does before it calls itself as `more`. -/
def moreSegmentsRound (more : Parse (List Token)) : Parse (List Token) := do
  let stream ← get
  if stream.kind == .colonColon && (stream.peek 1).kind == .identifier then
    let _ ← next
    let segment ← next
    let rest ← more
    return segment :: rest
  else return []

/-- A qualified name goes on where two colons and a word are shown. -/
theorem run_moreSegmentsRound (more : Parse (List Token)) (stream : TokenStream)
    : moreSegmentsRound more stream =
        if stream.kind = .colonColon ∧ (stream.peek 1).kind = .identifier then
          (more >>= fun rest => pure (stream.peek 1 :: rest)) stream.advance.advance
        else .ok ([], stream) := by
  show (if stream.kind == .colonColon && (stream.peek 1).kind == .identifier then _ else _
    : Parse (List Token)) stream = _
  by_cases goesOn : stream.kind = .colonColon ∧ (stream.peek 1).kind = .identifier
  · rw [if_pos (by simpa using goesOn), if_pos goesOn, run_bind, run_next]
    show (next >>= _) stream.advance = _
    rw [run_bind, run_next, show stream.advance.current = stream.peek 1 from
      TokenStream.peek_advance stream 0]
  · rw [if_neg (by simpa using goesOn), if_neg goesOn]
    rfl

theorem run_moreSegments (count : Nat) (stream : TokenStream)
    : moreSegments (count + 1) stream =
        if stream.kind = .colonColon ∧ (stream.peek 1).kind = .identifier then
          (moreSegments count >>= fun rest => pure (stream.peek 1 :: rest)) stream.advance.advance
        else .ok ([], stream) :=
  run_moreSegmentsRound (moreSegments count) stream

end Parse

-----------------------------------------------------------------------------------------
-- Consumption
-----------------------------------------------------------------------------------------

/-- (endAfter place tokens) is where the last of some tokens ends, or `place` where there are none.
-/
def Token.endAfter (place : Nat) (tokens : List Token) : Nat :=
  tokens.foldl (fun _ token => token.span.stop) place

@[simp] theorem Token.endAfter_nil (place : Nat) : endAfter place [] = place := rfl

@[simp] theorem Token.endAfter_cons (place : Nat) (token : Token) (rest : List Token)
    : endAfter place (token :: rest) = endAfter token.span.stop rest := rfl

@[simp] theorem Token.endAfter_append (place : Nat) (first last : List Token)
    : endAfter place (first ++ last) = endAfter (endAfter place first) last :=
  List.foldl_append

namespace TokenStream

/-- (Closed stream) says that a stream ends with an end of file. -/
def Closed (stream : TokenStream) : Prop := stream.last.kind = .endOfFile

/-- (Passes used before after) says that a stream has moved on over the tokens `used`. -/
structure Passes (used : List Token) (before after : TokenStream) : Prop where
  ahead : before.ahead = used ++ after.ahead
  last : after.last = before.last
  file : after.file = before.file
  previousEnd : after.previousEnd = Token.endAfter before.previousEnd used

theorem Passes.refl (stream : TokenStream) : stream.Passes [] stream := ⟨rfl, rfl, rfl, rfl⟩

theorem Passes.trans {used more : List Token} {first second third : TokenStream}
    (start : first.Passes used second) (later : second.Passes more third)
    : first.Passes (used ++ more) third := by
  refine ⟨?_, later.last.trans start.last, later.file.trans start.file, ?_⟩
  · rw [start.ahead, later.ahead, List.append_assoc]
  · rw [later.previousEnd, start.previousEnd, Token.endAfter_append]

theorem Passes.closed {used : List Token} {before after : TokenStream}
    (passes : before.Passes used after) (closed : before.Closed)
    : after.Closed := by
  rw [Closed, passes.last]
  exact closed

/-- The first token that is passed was the current one. -/
theorem Passes.head {used : List Token} {before after : TokenStream}
    (passes : before.Passes used after)
    : ∀ token ∈ used.head?, token = before.current := by
  intro token first
  obtain ⟨rest, rfl⟩ := List.head?_eq_some_iff.mp first
  rw [current, peek, passes.ahead]
  rfl

/-- Before the end of the file the current token is ahead, and is passed. -/
theorem Closed.advance {stream : TokenStream} (closed : stream.Closed)
    (inside : stream.kind ≠ .endOfFile)
    : stream.Passes [stream.current] stream.advance := by
  unfold TokenStream.advance
  cases ahead : stream.ahead with
  | nil =>
      refine absurd ?_ inside
      rw [kind, current, peek_beyond (by simp [ahead])]
      exact closed
  | cons token rest =>
      have here : stream.current = token := by
        rw [current, peek, ahead]
        rfl
      rw [here]
      exact ⟨ahead, rfl, rfl, rfl⟩

end TokenStream

namespace Parse

variable {α β : Type}

/-- (Consumes place reader post) says that a reader that succeeds, on a closed stream whose last
token ended at `place`, moves on over some tokens, for which `post` holds together with the value.
-/
def Consumes (place : Nat) (reader : Parse α) (post : List Token → α → Prop) : Prop :=
  ∀ stream : TokenStream, stream.Closed → stream.previousEnd = place →
    ∀ value after, reader stream = .ok (value, after) →
      ∃ used, stream.Passes used after ∧ post used value

/-- (ConsumesAt shown place reader post) says it of streams that show a token of class `shown`. -/
def ConsumesAt (shown : TokenKind) (place : Nat) (reader : Parse α) (post : List Token → α → Prop)
    : Prop :=
  ∀ stream : TokenStream, stream.Closed → stream.previousEnd = place → stream.kind = shown →
    ∀ value after, reader stream = .ok (value, after) →
      ∃ used, stream.Passes used after ∧ post used value

/-- A computation of two readers succeeds when both of them do. -/
theorem ok_of_run_bind {reader : Parse α} {next : α → Parse β} {stream after : TokenStream}
    {result : β} (outcome : (reader >>= next) stream = .ok (result, after))
    : ∃ value middle,
        reader stream = .ok (value, middle) ∧ next value middle = .ok (result, after) := by
  rw [run_bind] at outcome
  cases start : reader stream with
  | error error =>
      rw [start] at outcome
      cases outcome
  | ok read =>
      rw [start] at outcome
      exact ⟨read.1, read.2, rfl, outcome⟩

namespace ConsumesAt

variable {shown : TokenKind} {place : Nat} {mid : List Token → α → Prop}

theorem bind {post : List Token → β → Prop} {reader : Parse α} {next : α → Parse β}
    (first : ConsumesAt shown place reader mid)
    (rest : ∀ used value, mid used value →
      Consumes (Token.endAfter place used) (next value) fun more result =>
        post (used ++ more) result)
    : ConsumesAt shown place (reader >>= next) post := by
  rintro stream closed rfl here result after outcome
  obtain ⟨value, middle, start, later⟩ := ok_of_run_bind outcome
  obtain ⟨used, passes, known⟩ := first stream closed rfl here value middle start
  obtain ⟨more, passes', holds⟩ :=
    rest used value known middle (passes.closed closed) passes.previousEnd result after later
  exact ⟨used ++ more, passes.trans passes', holds⟩

/-- A token that is shown is consumed. -/
theorem next (inner : shown ≠ .endOfFile)
    : ConsumesAt shown place Parse.next fun used token => used = [token] ∧ token.kind = shown := by
  rintro stream closed - rfl value after outcome
  obtain ⟨rfl, rfl⟩ := Prod.mk.inj (Except.ok.inj outcome)
  exact ⟨_, closed.advance inner, rfl, rfl⟩

theorem nextThen {post : List Token → α → Prop} {rest : Token → Parse α}
    (inner : shown ≠ .endOfFile)
    (after : ∀ token, token.kind = shown →
      Consumes token.span.stop (rest token) fun more result => post (token :: more) result)
    : ConsumesAt shown place (Parse.next >>= rest) post := by
  refine (next inner).bind ?_
  rintro _ token ⟨rfl, kind⟩
  exact after token kind

end ConsumesAt

namespace Consumes

variable {place : Nat} {reader : Parse α} {mid post : List Token → α → Prop}

/-- A reader that consumes something on any token does so on one of a given class. -/
theorem here (reads : Consumes place reader post) (shown : TokenKind)
    : ConsumesAt shown place reader post :=
  fun stream closed place _ => reads stream closed place

theorem weaken (reads : Consumes place reader mid)
    (weaker : ∀ used value, mid used value → post used value)
    : Consumes place reader post := by
  intro stream closed here value after outcome
  obtain ⟨used, passes, known⟩ := reads stream closed here value after outcome
  exact ⟨used, passes, weaker used value known⟩

theorem pure {value : α} (holds : post [] value) : Consumes place (Pure.pure value) post := by
  intro stream _ _ given after outcome
  obtain ⟨rfl, rfl⟩ := Prod.mk.inj (Except.ok.inj outcome)
  exact ⟨[], .refl stream, holds⟩

/-- The second of two readers goes on where the tokens of the first one end. -/
theorem bind {post : List Token → β → Prop} {next : α → Parse β} (first : Consumes place reader mid)
    (rest : ∀ used value, mid used value →
      Consumes (Token.endAfter place used) (next value) fun more result =>
        post (used ++ more) result)
    : Consumes place (reader >>= next) post :=
  fun stream closed place => (first.here stream.kind).bind rest stream closed place rfl

theorem throw (error : SyntaxError) : Consumes place (MonadExcept.throw error : Parse α) post :=
  fun _ _ _ _ _ outcome => nomatch outcome

theorem unexpected : Consumes place (Parse.unexpected : Parse α) post :=
  fun _ _ _ _ _ outcome => nomatch outcome

theorem unmet (expectation : Expectation)
    : Consumes place (Parse.unmet expectation : Parse α) post :=
  fun _ _ _ _ _ outcome => nomatch outcome

/-- Readers may look at the stream first. The first token that they consume is the current one. -/
theorem look {next : TokenStream → Parse α}
    (rest : ∀ stream : TokenStream, Consumes place (next stream) fun used value =>
      (∀ token ∈ used.head?, token = stream.current) → post used value)
    : Consumes place (MonadState.get >>= next) post := by
  intro stream closed here value after outcome
  obtain ⟨used, passes, holds⟩ := rest stream stream closed here value after outcome
  exact ⟨used, passes, holds passes.head⟩

/-- Readers may take the number of tokens ahead as a bound. -/
theorem get {next : TokenStream → Parse α} (rest : ∀ stream, Consumes place (next stream) post)
    : Consumes place (MonadState.get >>= next) post :=
  look fun stream => (rest stream).weaken fun _ _ holds _ => holds

/-- Readers may look at the class of the current token first. -/
theorem kind {next : TokenKind → Parse α}
    (rest : ∀ shown, ConsumesAt shown place (next shown) post)
    : Consumes place (Parse.kind >>= next) post := by
  intro stream closed here value after outcome
  exact rest stream.kind stream closed here rfl value after outcome

/-- A token of any class is consumed where the reader goes on to fail at an end of file. -/
theorem nextThen {post : List Token → β → Prop} {rest : Token → Parse β}
    (after : ∀ token, token.kind ≠ .endOfFile →
      Consumes token.span.stop (rest token) fun more result => post (token :: more) result)
    (ended : ∀ token, token.kind = .endOfFile → ∃ error, rest token = MonadExcept.throw error)
    : Consumes place (Parse.next >>= rest) post := by
  intro stream closed here result last outcome
  by_cases inside : stream.kind = .endOfFile
  · obtain ⟨error, failed⟩ := ended stream.current inside
    rw [run_bind, run_next] at outcome
    dsimp only at outcome
    rw [failed] at outcome
    cases outcome
  · refine ConsumesAt.nextThen inside (fun token same => after token ?_) stream closed here rfl
      result last outcome
    rw [same]
    exact inside

/-- A token that is expected is consumed. -/
theorem expect {wanted : TokenKind} (inner : wanted ≠ .endOfFile)
    : Consumes place (Parse.expect wanted)
        fun used token => used = [token] ∧ token.kind = wanted := by
  intro stream closed here value after outcome
  rw [run_expect] at outcome
  split at outcome
  · next shown =>
      obtain ⟨rfl, rfl⟩ := Prod.mk.inj (Except.ok.inj outcome)
      refine ⟨_, closed.advance ?_, rfl, shown⟩
      rw [shown]
      exact inner
  · cases outcome

theorem expectThen {post : List Token → β → Prop} {wanted : TokenKind} {rest : Token → Parse β}
    (inner : wanted ≠ .endOfFile)
    (after : ∀ token, token.kind = wanted →
      Consumes token.span.stop (rest token) fun more result => post (token :: more) result)
    : Consumes place (Parse.expect wanted >>= rest) post := by
  refine (expect inner).bind ?_
  rintro _ token ⟨rfl, kind⟩
  exact after token kind

/-- A token that is accepted is consumed, and otherwise nothing is. -/
theorem acceptThen {post : List Token → β → Prop} {wanted : TokenKind} {rest : Bool → Parse β}
    (inner : wanted ≠ .endOfFile)
    (accepted : ∀ token, token.kind = wanted →
      Consumes token.span.stop (rest true) fun more result => post (token :: more) result)
    (refused : Consumes place (rest false) post)
    : Consumes place (Parse.accept wanted >>= rest) post := by
  rintro stream closed rfl result after outcome
  rw [run_bind, run_accept] at outcome
  by_cases shown : stream.kind = wanted
  · rw [if_pos shown] at outcome
    have passes := closed.advance (by rw [shown]; exact inner)
    obtain ⟨more, passes', holds⟩ :=
      accepted stream.current shown stream.advance (passes.closed closed) passes.previousEnd result
        after outcome
    exact ⟨stream.current :: more, passes.trans passes', holds⟩
  · rw [if_neg shown] at outcome
    exact refused stream closed rfl result after outcome

/-- A span goes up to where the last token ended. -/
theorem spanFromThen {first : Span} {next : Span → Parse α}
    (rest : Consumes place (next { first with stop := place }) post)
    : Consumes place (Parse.spanFrom first >>= next) post := by
  rintro stream closed rfl value after outcome
  exact rest stream closed rfl value after outcome

/-- The number that a token spells is known by its text. -/
theorem numberLiteralThen {read? : List Char → Option α} {token : Token}
    {post : List Token → β → Prop} {next : α → Parse β}
    (rest : ∀ value, read? token.value.toList = some value → Consumes place (next value) post)
    : Consumes place (Parse.numberLiteral read? token >>= next) post := by
  unfold Parse.numberLiteral
  split
  · next value number =>
      rw [pure_bind]
      exact rest value number
  · exact fun _ _ _ _ _ outcome => nomatch outcome

end Consumes

end Parse

end BuildScript
