import BuildScript.Proofs.Syntax.Bare
import BuildScript.Proofs.Syntax.Reading
import BuildScript.Syntax.Parser.Expr

/-! Readers take no account of places. Two token streams look alike when they show the same
classes and values up to the end of the file, be their spans what they may. On streams that look
alike every reader gives results that are equal up to spans, or fails for the same cause. The two
runs may have different bounds for the depth of what they read, if both are beyond the number of
tokens before the end of the file.
-/

namespace BuildScript

-----------------------------------------------------------------------------------------
-- Streams
-----------------------------------------------------------------------------------------

namespace TokenStream

/-- (Alike n first second) says that two streams show the same classes and values up to the end
of the file, and no more than `n` tokens before it. What comes after an end of file does not
matter.
-/
structure Alike (n : Nat) (first second : TokenStream) : Prop where
  shown : ∃ stop ≤ n, (first.peek stop).kind = .endOfFile ∧
    ∀ k ≤ stop, (first.peek k).bare = (second.peek k).bare
  firstLast : first.last.kind = .endOfFile
  secondLast : second.last.kind = .endOfFile

namespace Alike

variable {n m : Nat} {first second : TokenStream}

theorem mono (alike : Alike n first second) (le : n ≤ m) : Alike m first second := by
  obtain ⟨stop, within, ended, same⟩ := alike.shown
  exact ⟨⟨stop, Nat.le_trans within le, ended, same⟩, alike.firstLast, alike.secondLast⟩

theorem current (alike : Alike n first second) : first.current.bare = second.current.bare := by
  obtain ⟨stop, _, _, same⟩ := alike.shown
  exact same 0 (Nat.zero_le stop)

theorem kind (alike : Alike n first second) : first.kind = second.kind :=
  Token.kind_of_bare alike.current

/-- Before the end of the file the token after the current one is the same, too. -/
theorem following (alike : Alike n first second) (inside : first.kind ≠ .endOfFile)
    : (first.peek 1).bare = (second.peek 1).bare := by
  obtain ⟨stop, _, ended, same⟩ := alike.shown
  rcases stop with _ | stop
  · exact absurd ended inside
  · exact same 1 (Nat.succ_le_succ (Nat.zero_le stop))

/-- Streams that look alike begin with the same two classes, if with any. -/
theorem begins (alike : Alike n first second) {wanted : TokenKind} (inner : wanted ≠ .endOfFile)
    (next : TokenKind)
    : (first.kind == wanted && (first.peek 1).kind == next) =
        (second.kind == wanted && (second.peek 1).kind == next) := by
  rw [← alike.kind]
  by_cases here : first.kind = wanted
  · rw [Token.kind_of_bare (alike.following (by rw [here]; exact inner))]
  · rw [beq_eq_false_iff_ne.mpr here, Bool.false_and, Bool.false_and]

/-- Where something is shown, there is a token before the end of the file. -/
theorem pos (alike : Alike n first second) (inside : first.kind ≠ .endOfFile) : 0 < n := by
  obtain ⟨stop, within, ended, _⟩ := alike.shown
  rcases stop with _ | stop
  · exact absurd ended inside
  · omega

/-- Where no token is left before the end of the file, it is shown in both streams. -/
theorem ended (alike : Alike 0 first second)
    : first.kind = .endOfFile ∧ second.kind = .endOfFile := by
  obtain ⟨stop, within, ended, _⟩ := alike.shown
  obtain rfl := Nat.le_zero.mp within
  exact ⟨ended, alike.kind ▸ ended⟩

theorem advance (alike : Alike n first second) (inside : first.kind ≠ .endOfFile)
    : Alike (n - 1) first.advance second.advance := by
  obtain ⟨stop, within, ended, same⟩ := alike.shown
  rcases stop with _ | stop
  · exact absurd ended inside
  refine ⟨⟨stop, by omega, ?_, fun k le => ?_⟩, ?_, ?_⟩
  · rw [peek_advance]
    exact ended
  · rw [peek_advance, peek_advance]
    exact same (k + 1) (Nat.succ_le_succ le)
  · rw [advance_last]
    exact alike.firstLast
  · rw [advance_last]
    exact alike.secondLast

/-- No more tokens are shown before the end of the file than there are ahead in either stream. -/
theorem bounded (alike : Alike n first second)
    : ∃ k, k ≤ n ∧ k ≤ first.ahead.length ∧ k ≤ second.ahead.length ∧ Alike k first second := by
  obtain ⟨stop, within, ended, same⟩ := alike.shown
  refine ⟨min stop (min first.ahead.length second.ahead.length), by omega, by omega, by omega,
    ⟨_, Nat.le_refl _, ?_, fun k le => same k (by omega)⟩, alike.firstLast, alike.secondLast⟩
  by_cases early : stop ≤ min first.ahead.length second.ahead.length
  · rw [Nat.min_eq_left early]
    exact ended
  rw [Nat.min_eq_right (by omega)]
  rcases Nat.le_total first.ahead.length second.ahead.length with le | le
  · rw [Nat.min_eq_left le, peek_beyond (Nat.le_refl _)]
    exact alike.firstLast
  · rw [Nat.min_eq_right le, Token.kind_of_bare (same _ (by omega)), peek_beyond (Nat.le_refl _)]
    exact alike.secondLast

end Alike

end TokenStream

-----------------------------------------------------------------------------------------
-- Readers
-----------------------------------------------------------------------------------------

namespace Parse

variable {α β γ δ : Type}

/-- (Agree bare n first second) says that two outcomes are both values with one bare form, and
streams that look alike, or both errors with one cause.
-/
def Agree (bare : α → γ) (n : Nat)
    : Except SyntaxError (α × TokenStream) → Except SyntaxError (α × TokenStream) → Prop
  | .ok (first, firstAfter), .ok (second, secondAfter) =>
    bare first = bare second ∧ firstAfter.Alike n secondAfter
  | .error first, .error second => first.fault = second.fault
  | _, _ => False

/-- (Agrees bare n m first second) says that two readers agree on streams that look alike, where
no more than `n` tokens are left before and no more than `m` afterwards.
-/
def Agrees (bare : α → γ) (n m : Nat) (first second : Parse α) : Prop :=
  ∀ firstStream secondStream, TokenStream.Alike n firstStream secondStream →
    Agree bare m (first firstStream) (second secondStream)

/-- (AgreesAt kind bare n m first second) says that two readers agree on streams that look alike
and show a token of class `kind`.
-/
def AgreesAt (kind : TokenKind) (bare : α → γ) (n m : Nat) (first second : Parse α) : Prop :=
  ∀ firstStream secondStream, TokenStream.Alike n firstStream secondStream →
    firstStream.kind = kind → Agree bare m (first firstStream) (second secondStream)

namespace Agree

variable {bare : α → γ} {n m : Nat} {first second : Parse α} {s t : TokenStream}

theorem mono (agree : Agree bare n (first s) (second t)) (le : n ≤ m)
    : Agree bare m (first s) (second t) := by
  revert agree
  cases first s with
  | error e =>
      cases second t with
      | error f => exact id
      | ok b => exact id
  | ok a =>
      cases second t with
      | error f => exact id
      | ok b => exact fun ⟨same, alike⟩ => ⟨same, alike.mono le⟩

/-- Readers that agree go on to agree if what follows does. -/
theorem bind {bare' : β → δ} {next next' : α → Parse β} (start : Agree bare n (first s) (second t))
    (rest : ∀ a b, bare a = bare b → ∀ s t, TokenStream.Alike n s t →
      Agree bare' m (next a s) (next' b t))
    : Agree bare' m ((first >>= next) s) ((second >>= next') t) := by
  rw [run_bind, run_bind]
  revert start
  cases first s with
  | error e =>
      cases second t with
      | error f => exact id
      | ok b => exact fun impossible => nomatch impossible
  | ok a =>
      cases second t with
      | error f => exact fun impossible => nomatch impossible
      | ok b => exact fun ⟨same, alike⟩ => rest a.1 b.1 same a.2 b.2 alike

end Agree

namespace Agrees

variable {bare : α → γ} {n m k : Nat} {first second : Parse α}

theorem pure {a b : α} (same : bare a = bare b) : Agrees bare n n (Pure.pure a) (Pure.pure b) :=
  fun _ _ alike => ⟨same, alike⟩

/-- Where no items are read, none are read in either stream. -/
theorem nothing (bare : α → γ)
    : Agrees (List.map bare) n n (Pure.pure []) (Pure.pure []) :=
  pure rfl

/-- Fewer tokens may be left before, and more afterwards. -/
theorem weaken (agrees : Agrees bare n m first second) {n' m' : Nat} (before : n' ≤ n)
    (after : m ≤ m')
    : Agrees bare n' m' first second :=
  fun s t alike => (agrees s t (alike.mono before)).mono after

theorem bind {bare' : β → δ} {next next' : α → Parse β} (start : Agrees bare n m first second)
    (rest : ∀ a b, bare a = bare b → Agrees bare' m k (next a) (next' b))
    : Agrees bare' n k (first >>= next) (second >>= next') :=
  fun s t alike => (start s t alike).bind rest

/-- Readers that agree everywhere agree on a token of any class. -/
theorem here (agrees : Agrees bare n m first second) (kind : TokenKind)
    : AgreesAt kind bare n m first second :=
  fun s t alike _ => agrees s t alike

theorem map {bare' : β → δ} {change change' : α → β} (start : Agrees bare n m first second)
    (kept : ∀ a b, bare a = bare b → bare' (change a) = bare' (change' b))
    : Agrees bare' n m (change <$> first) (change' <$> second) := by
  rw [← bind_pure_comp, ← bind_pure_comp]
  exact start.bind fun a b same => .pure (kept a b same)

/-- Readers that consume nothing at the end of the file. -/
theorem atEnd {a b : α} {m : Nat}
    (firstGives : ∀ s : TokenStream, s.kind = .endOfFile → first s = .ok (a, s))
    (secondGives : ∀ t : TokenStream, t.kind = .endOfFile → second t = .ok (b, t))
    (same : bare a = bare b)
    : Agrees bare 0 m first second := by
  intro s t alike
  rw [firstGives s alike.ended.1, secondGives t alike.ended.2]
  exact ⟨same, alike.mono (Nat.zero_le m)⟩

/-- Readers may look at the streams first, and take the number of tokens ahead as a bound. -/
theorem get {next next' : TokenStream → Parse α}
    (rest : ∀ s t, TokenStream.Alike n s t → ∀ k ≤ n, k ≤ s.ahead.length → k ≤ t.ahead.length →
      Agrees bare k m (next s) (next' t))
    : Agrees bare n m (MonadState.get >>= next) (MonadState.get >>= next') := by
  intro s t alike
  obtain ⟨k, le, first_, second_, alike'⟩ := alike.bounded
  exact rest s t alike k le first_ second_ s t alike'

/-- Readers may look at the streams, of which the current class is then known. -/
theorem look {next next' : TokenStream → Parse α}
    (rest : ∀ s t, TokenStream.Alike n s t → AgreesAt s.kind bare n m (next s) (next' t))
    : Agrees bare n m (MonadState.get >>= next) (MonadState.get >>= next') :=
  fun s t alike => rest s t alike s t alike rfl

theorem throw {e f : SyntaxError} (same : e.fault = f.fault)
    : Agrees bare n m (MonadExcept.throw e) (MonadExcept.throw f) :=
  fun _ _ _ => same

theorem unexpected : Agrees bare n m Parse.unexpected Parse.unexpected :=
  get fun s t alike _ _ _ _ => throw (by rw [Token.value_of_bare alike.current])

theorem unmet (expectation : Expectation)
    : Agrees bare n m (Parse.unmet expectation) (Parse.unmet expectation) :=
  get fun s t alike _ _ _ _ => throw (by rw [Token.value_of_bare alike.current])

/-- Readers may look at the class of the current token first. If it is not the end of the file,
then there is a token left.
-/
theorem kind {next next' : TokenKind → Parse α}
    (rest : ∀ kind, (kind ≠ .endOfFile → 0 < n) →
      AgreesAt kind bare n m (next kind) (next' kind))
    : Agrees bare n m (Parse.kind >>= next) (Parse.kind >>= next') := by
  intro s t alike
  show Agree bare m (next s.kind s) (next' t.kind t)
  rw [← alike.kind]
  exact rest s.kind alike.pos s t alike rfl

/-- A token that is expected is consumed, and one less is left. -/
theorem expectThen {wanted : TokenKind} {next next' : Token → Parse α}
    (inner : wanted ≠ .endOfFile)
    (rest : ∀ a b, a.bare = b.bare → 0 < n → Agrees bare (n - 1) m (next a) (next' b))
    : Agrees bare n m (Parse.expect wanted >>= next) (Parse.expect wanted >>= next') := by
  intro s t alike
  rw [run_bind, run_bind, run_expect, run_expect, ← alike.kind]
  by_cases here : s.kind = wanted
  · rw [if_pos here, if_pos here]
    have inside : s.kind ≠ .endOfFile := by rw [here]; exact inner
    exact rest _ _ alike.current (alike.pos inside) _ _ (alike.advance inside)
  · -- Neither stream shows what is wanted, so that both fail before they go on.
    rw [if_neg here, if_neg here]
    show SyntaxFault.unmet _ _ = SyntaxFault.unmet _ _
    rw [Token.value_of_bare alike.current]

/-- Whether a token other than the end of the file is accepted decides how many are left. -/
theorem acceptThen {wanted : TokenKind} {after after' : Bool → Parse α}
    (inner : wanted ≠ .endOfFile)
    (accepted : 0 < n → Agrees bare (n - 1) m (after true) (after' true))
    (refused : Agrees bare n m (after false) (after' false))
    : Agrees bare n m (Parse.accept wanted >>= after) (Parse.accept wanted >>= after') := by
  intro s t alike
  rw [run_bind, run_bind, run_accept, run_accept, ← alike.kind]
  by_cases here : s.kind = wanted
  · rw [if_pos here, if_pos here]
    have inside : s.kind ≠ .endOfFile := by rw [here]; exact inner
    exact accepted (alike.pos inside) _ _ (alike.advance inside)
  · rw [if_neg here, if_neg here]
    exact refused s t alike

theorem spanFrom (a b : Span) : Agrees (fun _ => ()) n n (Parse.spanFrom a) (Parse.spanFrom b) :=
  fun _ _ alike => ⟨rfl, alike⟩

/-- An attempt goes on from where the reader ends, or from where it began if that fails. -/
theorem attemptThen {bare' : β → δ} {next next' : Option α → Parse β}
    (attempted : Agrees bare n m first second)
    (read : ∀ a b, bare a = bare b → Agrees bare' m k (next (some a)) (next' (some b)))
    (failed : Agrees bare' n k (next none) (next' none))
    : Agrees bare' n k (Parse.attempt first >>= next) (Parse.attempt second >>= next') := by
  intro s t alike
  have outcome := attempted s t alike
  rw [run_bind, run_bind, run_attempt, run_attempt]
  revert outcome
  cases first s with
  | error e =>
      cases second t with
      | error f => exact fun _ => failed s t alike
      | ok b => exact fun impossible => nomatch impossible
  | ok a =>
      cases second t with
      | error f => exact fun impossible => nomatch impossible
      | ok b => exact fun ⟨same, alike⟩ => read a.1 b.1 same a.2 b.2 alike

end Agrees

namespace AgreesAt

variable {shown : TokenKind} {bare : α → γ} {bare' : β → δ} {n m k : Nat} {first second : Parse α}

/-- A token that is shown is consumed, and one less is left. -/
theorem nextThen {after after' : Token → Parse α} (inner : shown ≠ .endOfFile)
    (rest : ∀ a b, a.bare = b.bare → 0 < n → Agrees bare (n - 1) m (after a) (after' b))
    : AgreesAt shown bare n m (Parse.next >>= after) (Parse.next >>= after') := by
  rintro s t alike rfl
  rw [run_bind, run_bind, run_next, run_next]
  exact rest _ _ alike.current (alike.pos inner) _ _ (alike.advance inner)

/-- The class that is shown may be looked at again. -/
theorem kind {after after' : TokenKind → Parse α}
    (rest : AgreesAt shown bare n m (after shown) (after' shown))
    : AgreesAt shown bare n m (Parse.kind >>= after) (Parse.kind >>= after') := by
  rintro s t alike rfl
  show Agree bare m (after s.kind s) (after' t.kind t)
  rw [← alike.kind]
  exact rest s t alike rfl

theorem bind {after after' : α → Parse β} (start : AgreesAt shown bare n m first second)
    (rest : ∀ a b, bare a = bare b → Agrees bare' m k (after a) (after' b))
    : AgreesAt shown bare' n k (first >>= after) (second >>= after') :=
  fun s t alike here => (start s t alike here).bind rest

theorem map {change change' : α → β} (start : AgreesAt shown bare n m first second)
    (kept : ∀ a b, bare a = bare b → bare' (change a) = bare' (change' b))
    : AgreesAt shown bare' n m (change <$> first) (change' <$> second) := by
  rw [← bind_pure_comp, ← bind_pure_comp]
  exact start.bind fun a b same => .pure (kept a b same)

end AgreesAt

namespace Agrees

variable {bare : α → γ} {n : Nat} {first second : Parse α}

-----------------------------------------------------------------------------------------
-- Repetition
-----------------------------------------------------------------------------------------

/-- No comma is shown at the end of the file. -/
theorem afterCommas_end (item : Parse α) (count : Nat) {stream : TokenStream}
    (ended : stream.kind = .endOfFile)
    : Parse.afterCommas item count stream = .ok ([], stream) := by
  cases count with
  | zero => rfl
  | succ count =>
      unfold Parse.afterCommas
      rw [run_bind, run_accept, ended]
      rfl

/-- Items after commas, by induction over the bound for the tokens that are left. -/
theorem afterCommas (n : Nat) (items : ∀ left < n, Agrees bare left left first second)
    {count count' : Nat} (enough : n ≤ count) (enough' : n ≤ count')
    : Agrees (List.map bare) n n (Parse.afterCommas first count)
        (Parse.afterCommas second count') := by
  induction n generalizing count count' with
  | zero =>
      -- At the end of the file there is no comma, be the bounds what they may.
      exact atEnd (fun _ => afterCommas_end first count) (fun _ => afterCommas_end second count')
        rfl
  | succ n ih =>
      obtain ⟨count, rfl⟩ := Nat.exists_eq_add_of_le' (Nat.pos_of_ne_zero (by omega) : 1 ≤ count)
      obtain ⟨count', rfl⟩ := Nat.exists_eq_add_of_le' (Nat.pos_of_ne_zero (by omega) : 1 ≤ count')
      refine acceptThen (by decide) (fun _ => ?_) (.pure rfl)
      refine (items n (Nat.lt_succ_self n)).bind fun a b same => ?_
      refine (ih (fun left less => items left (Nat.lt_succ_of_lt less)) (by omega)
        (by omega)).bind fun as bs sames => ?_
      refine weaken (.pure (n := n) ?_) (Nat.le_refl _) (Nat.le_succ n)
      rw [List.map_cons, List.map_cons, same, sames]

/-- Items between commas, of which the first may take as many tokens as are left. -/
theorem separated (items : ∀ left ≤ n, Agrees bare left left first second)
    : Agrees (List.map bare) n n (Parse.separated first) (Parse.separated second) := by
  refine (items n (Nat.le_refl n)).bind fun a b same => ?_
  refine get fun s t alike k le less less' => ?_
  refine (afterCommas k (fun left small => items left (by omega)) less less').bind
    fun as bs sames => ?_
  refine weaken (.pure (n := k) ?_) (Nat.le_refl _) le
  rw [List.map_cons, List.map_cons, same, sames]

end Agrees

end Parse

end BuildScript
