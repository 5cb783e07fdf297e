import BuildScript.Proofs.Syntax.ScriptAgreement
import BuildScript.Proofs.Token.Layout

/-! A script is spelled by the classes and values of its tokens alone. Neither the spans of the
tokens nor the file they come from have a part in how it is read, and an end of file at the end of
the tokens may be left out.
-/

namespace BuildScript

-----------------------------------------------------------------------------------------
-- Contents and streams of tokens
-----------------------------------------------------------------------------------------

namespace Token

/-- (contents tokens) are the classes and values of tokens before the ends of file that close
them.
-/
def contents (tokens : List Token) : List (TokenKind × String) :=
  ((tokens.map content).reverse.dropWhile (· == endContent)).reverse

/-- What is dropped at the front is some ends of file. -/
theorem dropWhile_spec (shown : List (TokenKind × String))
    : ∃ ends : Nat,
        shown = List.replicate ends endContent ++ shown.dropWhile (· == endContent) := by
  induction shown with
  | nil => exact ⟨0, rfl⟩
  | cons first rest ih =>
      by_cases isEnd : first = endContent
      · obtain ⟨ends, dropped⟩ := ih
        refine ⟨ends + 1, ?_⟩
        subst isEnd
        rw [List.replicate_succ, List.cons_append, List.dropWhile_cons,
          if_pos (beq_self_eq_true endContent), ← dropped]
      · refine ⟨0, ?_⟩
        rw [List.dropWhile_cons_of_neg (by simpa using isEnd)]
        rfl

/-- Only ends of file come after the contents of tokens. -/
theorem contents_spec (tokens : List Token)
    : ∃ ends : Nat, tokens.map content = contents tokens ++ List.replicate ends endContent := by
  obtain ⟨ends, dropped⟩ := dropWhile_spec (tokens.map content).reverse
  refine ⟨ends, ?_⟩
  rw [← List.reverse_reverse (tokens.map content), dropped, List.reverse_append,
    List.reverse_replicate]
  rfl

end Token

namespace TokenStream

theorem ofTokens_last (tokens : List Token) (file : String)
    : (ofTokens tokens file).last.kind = .endOfFile := by
  unfold ofTokens
  split
  · rfl
  · split
    · next ended => exact eq_of_beq ended
    · rfl

/-- An end of file that the tokens end with is not ahead. -/
theorem ofTokens_ended {last : Token} (ended : last.kind = .endOfFile) (before : List Token)
    (file : String)
    : ofTokens (before ++ [last]) file = ⟨before, last, file, 0⟩ := by
  rw [ofTokens, List.reverse_append, List.reverse_singleton, List.singleton_append]
  dsimp only
  rw [if_pos (by simpa using ended), List.reverse_reverse]

/-- A stream shows the contents of its tokens, and then ends of file. -/
theorem ofTokens_shows (tokens : List Token) (file : String)
    : ∃ ends : Nat,
        ((ofTokens tokens file).ahead ++ [(ofTokens tokens file).last]).map Token.content =
          Token.contents tokens ++ List.replicate ends Token.endContent := by
  obtain ⟨ends, split_⟩ := Token.contents_spec tokens
  -- Either the tokens themselves are shown, or an end of file after them.
  suffices shown : (ofTokens tokens file).ahead ++ [(ofTokens tokens file).last] = tokens ∨
      ((ofTokens tokens file).ahead ++ [(ofTokens tokens file).last]).map Token.content =
        tokens.map Token.content ++ [Token.endContent] by
    rcases shown with shown | shown
    · exact ⟨ends, by rw [shown, split_]⟩
    · refine ⟨ends + 1, ?_⟩
      rw [shown, split_, List.append_assoc, List.replicate_succ']
  unfold ofTokens
  split
  · next none_ =>
      obtain rfl := List.reverse_eq_nil_iff.mp none_
      exact .inr rfl
  · next last before reversed =>
      split
      · left
        rw [← List.reverse_cons, ← reversed, List.reverse_reverse]
      · right
        rw [List.map_append]
        rfl

/-- What is shown in a stream is ahead, or the last token. -/
theorem content_peek {stream : TokenStream} {shown : List (TokenKind × String)}
    (all : (stream.ahead ++ [stream.last]).map Token.content = shown) {n : Nat}
    {content : TokenKind × String} (there : shown[n]? = some content)
    : (stream.peek n).content = content := by
  subst all
  rw [List.getElem?_map, Option.map_eq_some_iff] at there
  obtain ⟨token, place, rfl⟩ := there
  rcases Nat.lt_or_ge n stream.ahead.length with inside | beyond
  · rw [List.getElem?_append_left inside] at place
    rw [peek, place, Option.getD_some]
  · rw [List.getElem?_append_right beyond] at place
    rw [peek_beyond beyond]
    obtain ⟨within, here⟩ := List.getElem?_eq_some_iff.mp place
    rw [List.getElem_singleton] at here
    rw [here]

/-- Streams of tokens of the same contents look alike. -/
theorem ofTokens_alike {tokens tokens' : List Token}
    (same : Token.contents tokens = Token.contents tokens') (file file' : String)
    : ∃ n, Alike n (ofTokens tokens file) (ofTokens tokens' file') := by
  obtain ⟨ends, shown⟩ := ofTokens_shows tokens file
  obtain ⟨ends', shown'⟩ := ofTokens_shows tokens' file'
  rw [← same] at shown'
  -- The end of the file is shown among the contents, or else directly after them.
  suffices stops : ∃ stop contents,
      (∃ more, Token.contents tokens ++ List.replicate ends Token.endContent = contents ++ more) ∧
      (∃ more, Token.contents tokens ++ List.replicate ends' Token.endContent = contents ++ more) ∧
      ∃ value, contents[stop]? = some (TokenKind.endOfFile, value) by
    obtain ⟨stop, contents, ⟨more, first⟩, ⟨more', second⟩, value, ended⟩ := stops
    obtain ⟨within, _⟩ := List.getElem?_eq_some_iff.mp ended
    have same (k : Nat) (le : k ≤ stop)
        : ∃ content, ((ofTokens tokens file).peek k).content = content ∧
            ((ofTokens tokens' file').peek k).content = content := by
      have there : contents[k]? = some contents[k] := List.getElem?_eq_getElem (by omega)
      refine ⟨contents[k], content_peek (shown.trans first) ?_,
        content_peek (shown'.trans second) ?_⟩
      · rw [List.getElem?_append_left (by omega), there]
      · rw [List.getElem?_append_left (by omega), there]
    refine ⟨stop, ⟨stop, Nat.le_refl stop, ?_, fun k le => ?_⟩, ofTokens_last _ _,
      ofTokens_last _ _⟩
    · have content := content_peek (shown.trans first)
        ((List.getElem?_append_left within).trans ended)
      exact (Prod.mk.inj content).1
    · obtain ⟨content, here, here'⟩ := same k le
      exact Token.bare_eq_of_content (here.trans here'.symm)
  by_cases inner : ∃ value, (TokenKind.endOfFile, value) ∈ Token.contents tokens
  · obtain ⟨value, member⟩ := inner
    obtain ⟨stop, within, at_⟩ := List.getElem_of_mem member
    exact ⟨stop, Token.contents tokens, ⟨_, rfl⟩, ⟨_, rfl⟩, value,
      List.getElem?_eq_some_iff.mpr ⟨within, at_⟩⟩
  · have positive {stream : TokenStream} {ends : Nat} (last : stream.last.kind = .endOfFile)
        (shown : (stream.ahead ++ [stream.last]).map Token.content =
          Token.contents tokens ++ List.replicate ends Token.endContent)
        : ∃ fewer, ends = fewer + 1 := by
      rcases ends with _ | fewer
      · -- Then the last of the contents would be an end of file.
        rw [List.replicate_zero, List.append_nil, List.map_append] at shown
        refine absurd ⟨stream.last.value, ?_⟩ inner
        rw [← shown, ← last]
        exact List.mem_append_right _ (List.mem_singleton_self _)
      · exact ⟨fewer, rfl⟩
    obtain ⟨fewer, rfl⟩ := positive (ofTokens_last _ _) shown
    obtain ⟨fewer', rfl⟩ := positive (ofTokens_last _ _) shown'
    refine ⟨(Token.contents tokens).length, Token.contents tokens ++ [Token.endContent],
      ⟨List.replicate fewer Token.endContent, ?_⟩, ⟨List.replicate fewer' Token.endContent, ?_⟩,
      "EOF", ?_⟩
    · rw [List.replicate_succ, List.append_assoc, List.singleton_append]
    · rw [List.replicate_succ, List.append_assoc, List.singleton_append]
    · rw [List.getElem?_append_right (Nat.le_refl _), Nat.sub_self]
      rfl

end TokenStream

-----------------------------------------------------------------------------------------
-- Scripts
-----------------------------------------------------------------------------------------

/-- (EqualUpToPlaces first second) says that two outcomes of reading a script are scripts that are
equal up to spans, or failures of one cause.
-/
def ScriptUnit.EqualUpToPlaces
    : Except SyntaxError ScriptUnit → Except SyntaxError ScriptUnit → Prop
  | .ok first, .ok second => first.bare = second.bare
  | .error first, .error second => first.fault = second.fault
  | _, _ => False

/-- Tokens of the same contents spell the same script, whatever files they come from. -/
theorem ScriptUnit.ofTokens_of_contents {tokens tokens' : List Token}
    (same : Token.contents tokens = Token.contents tokens') (file file' : String)
    : EqualUpToPlaces (ofTokens tokens file) (ofTokens tokens' file') := by
  obtain ⟨n, alike⟩ := TokenStream.ofTokens_alike same file file'
  have agree : Parse.Agree ScriptUnit.bare n _ _ := Parse.Agrees.scriptUnit _ _ alike
  simp only [ofTokens, Parse.runOn, StateT.run]
  revert agree
  cases Parse.scriptUnit (TokenStream.ofTokens tokens file) with
  | error e =>
      cases Parse.scriptUnit (TokenStream.ofTokens tokens' file') with
      | error f => exact id
      | ok b => exact id
  | ok a =>
      cases Parse.scriptUnit (TokenStream.ofTokens tokens' file') with
      | error f => exact id
      | ok b => exact fun both => both.1

/-- Layout has no part in what a text spells, and places have none in how tokens are read: with
layout put in at a boundary, a text is scanned to tokens of the same classes and values, and tokens
of the same classes and values are read as the same script, or refused for the same cause.
-/
theorem ScriptUnit.reading_ignores_layout
    : (∀ (before inserted after file file' : String) (tokens : List Token),
        Token.scan (before ++ after) file = .ok tokens →
        Token.Boundary before.toList after.toList →
        Token.Layout inserted.toList →
        ∃ tokens', Token.scan (before ++ inserted ++ after) file' = .ok tokens' ∧
          tokens'.map Token.content = tokens.map Token.content) ∧
      ∀ (tokens tokens' : List Token) (file file' : String),
        Token.contents tokens = Token.contents tokens' →
        EqualUpToPlaces (ofTokens tokens file) (ofTokens tokens' file') := by
  constructor
  · intro before inserted after file file' tokens scanned boundary isLayout
    rw [Token.scan, String.toList_append] at scanned
    rw [Token.scan, String.toList_append, String.toList_append]
    have spells := boundary.spells isLayout (Token.spells_of_scanFrom _ scanned)
    exact Token.scanFrom_of_spells spells file' 0
  · intro tokens tokens' file file' same
    exact ofTokens_of_contents same file file'

/-- Witness: a comment is put between a name and the semicolon after it. -/
theorem ScriptUnit.reading_ignores_layout_comment
    : (∃ tokens', Token.scan ("x" ++ " /*y*/ " ++ ";") "b" = .ok tokens' ∧
        tokens'.map Token.content =
          [(.identifier, "x"), (.semicolon, ";"), (.endOfFile, "EOF")]) ∧
      EqualUpToPlaces (ofTokens [⟨.semicolon, ";", ⟨"a", 1, 2⟩⟩] "a")
        (ofTokens [⟨.semicolon, ";", ⟨"b", 8, 9⟩⟩, Token.endOfFile ⟨"b", 9⟩] "b") := by
  obtain ⟨scans, reads⟩ := reading_ignores_layout
  refine ⟨?_, reads _ _ "a" "b" (by decide)⟩
  have word : Lexeme.scan 'x' [';'] = .ok (.token .identifier "x" 0) := by decide
  have mark : Lexeme.scan ';' [] = .ok (.token .semicolon ";" 0) := by decide
  have spells : Token.Spells ("x" ++ ";").toList
      [(.identifier, "x"), (.semicolon, ";"), Token.endContent] :=
    .piece (by decide) word (.piece (by decide) mark .nil)
  obtain ⟨tokens, scanned, same⟩ := Token.scanFrom_of_spells spells "a" 0
  rw [show ((.endOfFile, "EOF") : TokenKind × String) = Token.endContent from rfl, ← same]
  refine scans "x" " /*y*/ " ";" "a" "b" tokens scanned ?_ (.inr ⟨[' '], "/*y*/".toList, [' '], ?_⟩)
  · show Token.Boundary ('x' :: [] ++ []) [';']
    exact .piece (by decide) word rfl (fun slash => nomatch slash) .here
  · have blank : ∀ c ∈ [' '], Text.isBlank c := List.forall_mem_singleton.mpr rfl
    exact ⟨by decide, by decide, blank, ⟨['y', '*', '/'], by decide, by decide⟩, blank⟩

end BuildScript
