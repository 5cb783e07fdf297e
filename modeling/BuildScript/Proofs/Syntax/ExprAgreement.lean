import BuildScript.Proofs.Syntax.Agreement
import BuildScript.Syntax.Parser.Expr

/-! Readers of types and expressions take no account of places. Each level of depth is beyond the
number of tokens that are left, since every level takes a token: so two readers agree whatever
their depths, if both are that deep.
-/

namespace BuildScript.Parse.Agrees

variable {n : Nat}

-----------------------------------------------------------------------------------------
-- Types
-----------------------------------------------------------------------------------------

/-- No segment follows at the end of the file. -/
theorem moreSegments_end (count : Nat) {stream : TokenStream} (ended : stream.kind = .endOfFile)
    : Parse.moreSegments count stream = .ok ([], stream) := by
  cases count with
  | zero => rfl
  | succ count =>
      unfold Parse.moreSegments
      rw [run_bind, run_get]
      simp only [ended]
      rfl

/-- Segments of a name, by induction over the bound for the tokens that are left. -/
theorem moreSegments (n : Nat) {count count' : Nat} (enough : n ≤ count) (enough' : n ≤ count')
    : Agrees (List.map Token.bare) n n (Parse.moreSegments count) (Parse.moreSegments count') := by
  induction n using Nat.strongRecOn generalizing count count' with
  | ind n ih =>
  rcases Nat.eq_zero_or_pos n with rfl | pos
  · exact atEnd (fun _ => moreSegments_end count) (fun _ => moreSegments_end count') rfl
  obtain ⟨count, rfl⟩ := Nat.exists_eq_add_of_le' (show 1 ≤ count by omega)
  obtain ⟨count', rfl⟩ := Nat.exists_eq_add_of_le' (show 1 ≤ count' by omega)
  intro s t alike
  rw [run_moreSegments, run_moreSegments, ← alike.kind]
  by_cases inside : s.kind = .endOfFile
  · rw [if_neg (by simp [inside]), if_neg (by simp [inside])]
    exact ⟨rfl, alike⟩
  have following := alike.following inside
  rw [← Token.kind_of_bare following]
  by_cases goesOn : s.kind = .colonColon ∧ (s.peek 1).kind = .identifier
  · rw [if_pos goesOn, if_pos goesOn]
    have inside' : s.advance.kind ≠ .endOfFile := by
      show (s.advance.peek 0).kind ≠ .endOfFile
      rw [TokenStream.peek_advance, goesOn.2]
      decide
    have rest : Agrees _ _ _ (Parse.moreSegments count) (Parse.moreSegments count') :=
      ih (n - 1 - 1) (by omega) (by omega) (by omega)
    refine Agree.bind (rest _ _ ((alike.advance inside).advance inside'))
      fun as bs sames s t alike => ⟨?_, alike.mono (by omega)⟩
    rw [List.map_cons, List.map_cons, following, sames]
  · rw [if_neg goesOn, if_neg goesOn]
    exact ⟨rfl, alike⟩

theorem qualifiedName
    : Agrees (List.map Token.bare) n (n - 1) Parse.qualifiedName Parse.qualifiedName := by
  refine expectThen (by decide) fun a b same _ => ?_
  refine get fun s t alike k le less less' => ?_
  refine (moreSegments k less less').bind fun as bs sames => weaken (.pure ?_) (Nat.le_refl k) le
  rw [List.map_cons, List.map_cons, same, sames]

section Types

variable {nested nested' : Parse TypeExpr}
  (parts : ∀ left < n, Agrees TypeExpr.bare left left nested nested')

include parts

theorem typeArgumentsWith
    : Agrees (List.map TypeExpr.bare) n (n - 1) (Parse.typeArgumentsWith nested)
        (Parse.typeArgumentsWith nested') := by
  refine expectThen (by decide) fun _ _ _ pos => ?_
  refine (separated fun left small => parts left (by omega)).bind fun as bs sames => ?_
  exact expectThen (by decide) fun _ _ _ _ => weaken (.pure sames) (Nat.le_refl _) (Nat.pred_le _)

theorem plainTypeWith
    : Agrees TypeExpr.bare n (n - 1) (Parse.plainTypeWith nested)
        (Parse.plainTypeWith nested') := by
  refine kind fun class_ pos => ?_
  split
  · refine here (get fun s t _ k le _ _ => ?_) _
    refine (qualifiedName (n := k)).bind fun as bs names => kind fun after _ => here ?_ _
    dsimp only
    split
    · next opens =>
        have arguments := typeArgumentsWith (n := k - 1) fun left small => parts left (by omega)
        refine arguments.bind fun gs hs generics => (spanFrom _ _).bind fun _ _ _ => ?_
        refine weaken (.pure ?_) (Nat.le_refl _) (show k - 1 - 1 ≤ n - 1 by omega)
        simp only [TypeExpr.bare, TypeExpr.bareAll_eq_map, names, generics]
    · refine (nothing TypeExpr.bare).bind fun gs hs generics => (spanFrom _ _).bind fun _ _ _ => ?_
      refine weaken (.pure ?_) (Nat.le_refl _) (show k - 1 ≤ n - 1 by omega)
      simp only [TypeExpr.bare, TypeExpr.bareAll_eq_map, names, generics]
  · refine .nextThen (by decide) fun a b same _ => .pure ?_
    simp only [TypeExpr.bare, TypeExpr.bareAll, List.map_cons, List.map_nil, same]
  · exact (unmet _).here _

theorem typeExprWith
    : Agrees TypeExpr.bare n (n - 1) (Parse.typeExprWith nested) (Parse.typeExprWith nested') := by
  refine (plainTypeWith parts).bind fun a b same => kind fun class_ _ => ?_
  split
  · next marked =>
    refine .nextThen (by rw [eq_of_beq marked]; decide) fun _ _ _ _ =>
      kind fun class_ _ => here ?_ _
    split
    · exact unmet _
    · refine weaken (.pure ?_) (Nat.le_refl _) (Nat.pred_le _)
      obtain ⟨names, generics, isReference, span⟩ := a
      obtain ⟨names', generics', isReference', span'⟩ := b
      simp only [TypeExpr.bare, TypeExpr.mk.injEq, and_true] at same ⊢
      exact ⟨same.1, same.2.1⟩
  · exact (pure same).here _

end Types

/-- Types of any depths, by induction over the tokens that are left. -/
theorem typeExprWithin {depth depth' : Nat} (deep : n < depth) (deep' : n < depth')
    : Agrees TypeExpr.bare n (n - 1) (Parse.typeExprWithin depth)
        (Parse.typeExprWithin depth') := by
  induction n using Nat.strongRecOn generalizing depth depth' with
  | ind n ih =>
      obtain ⟨depth, rfl⟩ := Nat.exists_eq_add_of_le' (show 1 ≤ depth by omega)
      obtain ⟨depth', rfl⟩ := Nat.exists_eq_add_of_le' (show 1 ≤ depth' by omega)
      exact typeExprWith fun left small => (ih left small (by omega) (by omega)).weaken
        (Nat.le_refl _) (Nat.pred_le _)

theorem typeExpr : Agrees TypeExpr.bare n (n - 1) Parse.typeExpr Parse.typeExpr := by
  refine get fun s t _ k le less less' => ?_
  exact (typeExprWithin (Nat.lt_succ_of_le less) (Nat.lt_succ_of_le less')).weaken (Nat.le_refl k)
    (Nat.sub_le_sub_right le 1)

theorem typeArguments
    : Agrees (List.map TypeExpr.bare) n (n - 1) Parse.typeArguments Parse.typeArguments := by
  refine get fun s t _ k le less less' => ?_
  refine (typeArgumentsWith fun left small => ?_).weaken (Nat.le_refl k)
    (Nat.sub_le_sub_right le 1)
  exact (typeExprWithin (Nat.lt_succ_of_le (by omega)) (Nat.lt_succ_of_le (by omega))).weaken
    (Nat.le_refl _) (Nat.pred_le _)

-----------------------------------------------------------------------------------------
-- Expressions
-----------------------------------------------------------------------------------------

section Expressions

variable {nested nested' : Operand}
  (parts : ∀ left < n, ∀ power, Agrees Expr.bare left left (nested power) (nested' power))

include parts

theorem argumentsWith
    : Agrees (List.map Expr.bare) n (n - 1) (Parse.argumentsWith nested)
        (Parse.argumentsWith nested') := by
  refine expectThen (by decide) fun _ _ _ pos => kind fun class_ _ => here ?_ _
  dsimp only
  split
  · refine (nothing Expr.bare).bind fun as bs sames => expectThen (by decide) fun _ _ _ _ => ?_
    exact weaken (.pure sames) (Nat.le_refl _) (Nat.pred_le _)
  · refine (separated fun left small => parts left (by omega) _).bind fun as bs sames => ?_
    exact expectThen (by decide) fun _ _ _ _ => weaken (.pure sames) (Nat.le_refl _) (Nat.pred_le _)

theorem identifierWith
    : Agrees Expr.bare n (n - 1) (Parse.identifierWith nested) (Parse.identifierWith nested') := by
  have comparison {names names' : List Token} (span span' : Span)
      (same : names.map Token.bare = names'.map Token.bare)
      : Agrees Expr.bare (n - 1) (n - 1)
          (do return Expr.id names (← Parse.spanFrom span))
          (do return Expr.id names' (← Parse.spanFrom span')) := by
    refine (spanFrom _ _).bind fun _ _ _ => .pure ?_
    simp only [Expr.bare, same]
  refine get fun s t _ k le _ _ => ?_
  refine (qualifiedName (n := k)).bind fun as bs names => ?_
  refine weaken (n := n - 1) ?_ (Nat.sub_le_sub_right le 1) (Nat.le_refl _)
  dsimp only
  refine kind fun class_ _ => here ?_ _
  split
  · have generics : Agrees (List.map TypeExpr.bare) (n - 1) (n - 1)
        (do
          let generics ← Parse.typeArguments
          if (← Parse.kind) == .openParen then return generics else Parse.unexpected)
        (do
          let generics ← Parse.typeArguments
          if (← Parse.kind) == .openParen then return generics else Parse.unexpected) := by
      refine typeArguments.bind fun gs hs same => kind fun class_ _ => here ?_ _
      split
      · exact weaken (.pure same) (Nat.le_refl _) (Nat.pred_le _)
      · exact unexpected
    refine attemptThen generics (fun gs hs same => ?_) (comparison _ _ names)
    refine (spanFrom _ _).bind fun _ _ _ => ?_
    refine (argumentsWith fun left small power => parts left (by omega) power).bind
      fun args args' arguments => (spanFrom _ _).bind fun _ _ _ => ?_
    refine weaken (.pure ?_) (Nat.le_refl _) (Nat.pred_le _)
    simp only [Expr.bare, TypeExpr.bare, TypeExpr.bareAll_eq_map, Expr.bareAll_eq_map, names, same,
      arguments]
  · exact comparison _ _ names

theorem fieldInitWith
    : Agrees FieldInit.bare n n (Parse.fieldInitWith nested) (Parse.fieldInitWith nested') := by
  have valueAfter {left : Nat} {wanted : TokenKind} (inner : wanted ≠ .endOfFile) (le : left ≤ n)
      : Agrees FieldInit.bare left n
          (do
            let name ← Parse.expect .identifier
            let _ ← Parse.expect wanted
            return .mk name (← nested .lowest))
          (do
            let name ← Parse.expect .identifier
            let _ ← Parse.expect wanted
            return .mk name (← nested' .lowest)) := by
    refine expectThen (by decide) fun a b same pos => expectThen inner fun _ _ _ _ => ?_
    refine (parts _ (by omega) .lowest).bind fun v w value => weaken (.pure ?_) (Nat.le_refl _)
      (by omega)
    simp only [FieldInit.bare, same, value]
  exact acceptThen (by decide) (fun _ => valueAfter (by decide) (Nat.pred_le n))
    (valueAfter (by decide) (Nat.le_refl n))

theorem bracesWith
    : Agrees Expr.bare n (n - 1) (Parse.bracesWith nested) (Parse.bracesWith nested') := by
  refine expectThen (by decide) fun _ _ _ pos => get fun s t alike k le _ _ => ?_
  rw [alike.begins (by decide), alike.kind]
  split
  · refine (separated fun left small =>
      fieldInitWith fun left less power => parts left (by omega) power).bind fun as bs sames => ?_
    refine expectThen (by decide) fun _ _ _ _ => (spanFrom _ _).bind fun _ _ _ => ?_
    refine weaken (.pure ?_) (Nat.le_refl _) (show k - 1 ≤ n - 1 by omega)
    simp only [Expr.bare, FieldInit.bareAll_eq_map, sames]
  · have closing {as bs : List Expr} (sames : as.map Expr.bare = bs.map Expr.bare)
        (span span' : Span)
        : Agrees Expr.bare k (n - 1)
            (do
              let _ ← Parse.expect .closeCurly
              return .list as (← Parse.spanFrom span))
            (do
              let _ ← Parse.expect .closeCurly
              return .list bs (← Parse.spanFrom span')) := by
      refine expectThen (by decide) fun _ _ _ _ => (spanFrom _ _).bind fun _ _ _ => ?_
      refine weaken (.pure ?_) (Nat.le_refl _) (show k - 1 ≤ n - 1 by omega)
      simp only [Expr.bare, Expr.bareAll_eq_map, sames]
    dsimp only
    split
    · exact (nothing Expr.bare).bind fun as bs sames => closing sames _ _
    · exact (separated fun left small => parts left (by omega) _).bind fun as bs sames =>
        closing sames _ _

omit parts in
theorem numberLiteral {α : Type} {m : Nat} (read? : List Char → Option α) {a b : Token}
    (same : a.bare = b.bare) (le : n ≤ m)
    : Agrees id n m (Parse.numberLiteral read? a) (Parse.numberLiteral read? b) := by
  unfold Parse.numberLiteral
  rw [Token.value_of_bare same]
  split
  · exact weaken (.pure rfl) (Nat.le_refl n) le
  · exact throw rfl

/-- The end of the file begins no expression, and all other tokens that do are consumed. -/
theorem primaryWith
    : Agrees Expr.bare n (n - 1) (Parse.primaryWith nested) (Parse.primaryWith nested') := by
  have prefixed {shown : TokenKind} (inner : shown ≠ .endOfFile)
      : AgreesAt shown Expr.bare n (n - 1)
          (do
            let operator ← Parse.next
            let operand ← nested .unary
            return .unary operator operand (operator.span.upTo operand.span))
          (do
            let operator ← Parse.next
            let operand ← nested' .unary
            return .unary operator operand (operator.span.upTo operand.span)) := by
    refine .nextThen inner fun a b same pos => ?_
    refine (parts _ (by omega) _).bind fun v w value => .pure ?_
    simp only [Expr.bare, same, value]
  refine kind fun class_ pos => ?_
  split
  · refine .nextThen (by decide) fun a b same _ => ?_
    refine (numberLiteral _ same (Nat.le_refl _)).bind fun v w value => .pure ?_
    simp only [Expr.bare, show v = w from value]
  · refine .nextThen (by decide) fun a b same _ => ?_
    refine (numberLiteral _ same (Nat.le_refl _)).bind fun v w value => .pure ?_
    simp only [Expr.bare, show v = w from value]
  · refine .nextThen (by decide) fun a b same _ => .pure ?_
    simp only [Expr.bare, Token.value_of_bare same]
  · exact .nextThen (by decide) fun a b same _ => .pure rfl
  · exact .nextThen (by decide) fun a b same _ => .pure rfl
  · exact (identifierWith parts).here _
  · exact prefixed (by decide)
  · exact prefixed (by decide)
  · exact prefixed (by decide)
  · exact prefixed (by decide)
  · refine .nextThen (by decide) fun _ _ _ pos => ?_
    refine (parts _ (by omega) _).bind fun v w value => expectThen (by decide) fun _ _ _ _ => ?_
    exact weaken (.pure value) (Nat.le_refl _) (Nat.pred_le _)
  · exact (bracesWith parts).here _
  · exact unexpected.here _

/-- What continues an expression is consumed. -/
theorem continuationWith {left left' : Expr} (same : left.bare = left'.bare) (power : BindingPower)
    {shown : TokenKind} (inner : shown ≠ .endOfFile)
    : AgreesAt shown Expr.bare n (n - 1) (Parse.continuationWith nested left power)
        (Parse.continuationWith nested' left' power) := by
  refine .kind ?_
  split
  · refine .nextThen inner fun _ _ _ pos => (parts _ (by omega) _).bind fun v w whenTrue => ?_
    refine expectThen (by decide) fun _ _ _ _ => ?_
    refine (parts _ (by omega) _).bind fun x y whenFalse => ?_
    refine weaken (.pure ?_) (Nat.le_refl _) (Nat.pred_le _)
    simp only [Expr.bare, same, whenTrue, whenFalse]
  · refine here ?_ _
    cases left <;> cases left' <;> try (simp only [Expr.bare, reduceCtorEq] at same)
    all_goals try exact unmet _
    next names span names' span' =>
      refine (argumentsWith parts).bind fun as bs arguments => (spanFrom _ _).bind fun _ _ _ => ?_
      refine .pure ?_
      simp only [Expr.id.injEq, and_true] at same
      simp only [Expr.bare, TypeExpr.bare, TypeExpr.bareAll, Expr.bareAll_eq_map, same, arguments]
  · refine .nextThen inner fun _ _ _ _ => expectThen (by decide) fun a b name _ => ?_
    refine kind fun class_ _ => here ?_ _
    split
    · refine (argumentsWith fun left small power => parts left (by omega) power).bind
        fun as bs arguments => (spanFrom _ _).bind fun _ _ _ => ?_
      refine weaken (.pure ?_) (Nat.le_refl _) (show n - 1 - 1 - 1 ≤ n - 1 by omega)
      simp only [Expr.bare, Expr.bareAll_eq_map, same, name, arguments]
    · refine (spanFrom _ _).bind fun _ _ _ => weaken (.pure ?_) (Nat.le_refl _) (Nat.pred_le _)
      simp only [Expr.bare, same, name]
  · refine .nextThen inner fun a b operator pos => ?_
    rw [Token.kind_of_bare operator]
    refine (parts _ (by omega) _).bind fun v w right => .pure ?_
    simp only [Expr.bare, same, operator, right]

omit parts in
/-- Nothing continues an expression at the end of the file. -/
theorem continueWith_end (nested : Operand) (power : BindingPower) (left : Expr) (count : Nat)
    {stream : TokenStream} (ended : stream.kind = .endOfFile)
    : Parse.continueWith nested power left count stream = .ok (left, stream) := by
  cases count with
  | zero => rfl
  | succ count =>
      unfold Parse.continueWith
      rw [run_bind, run_kind, ended]
      rfl

omit parts in
/-- Continuations, by induction over the bound for the tokens that are left. -/
theorem continueWith (n : Nat)
    (parts : ∀ left < n, ∀ power, Agrees Expr.bare left left (nested power) (nested' power))
    (power : BindingPower) {left left' : Expr} (same : left.bare = left'.bare) {count count' : Nat}
    (enough : n ≤ count) (enough' : n ≤ count')
    : Agrees Expr.bare n n (Parse.continueWith nested power left count)
        (Parse.continueWith nested' power left' count') := by
  induction n generalizing left left' count count' with
  | zero =>
      exact atEnd (fun _ => continueWith_end nested power left count)
        (fun _ => continueWith_end nested' power left' count') same
  | succ n ih =>
      obtain ⟨count, rfl⟩ := Nat.exists_eq_add_of_le' (show 1 ≤ count by omega)
      obtain ⟨count', rfl⟩ := Nat.exists_eq_add_of_le' (show 1 ≤ count' by omega)
      unfold Parse.continueWith
      refine kind fun class_ _ => ?_
      split
      · exact (pure same).here _
      · next binds =>
          split
          · have inner : class_ ≠ .endOfFile := by
              rintro rfl
              exact nomatch binds
            refine (continuationWith parts same _ inner).bind fun a b longer => ?_
            exact (ih (fun left small => parts left (Nat.lt_succ_of_lt small)) longer (by omega)
              (by omega)).weaken (Nat.le_refl _) (Nat.le_succ n)
          · exact (pure same).here _

theorem exprWith (power : BindingPower)
    : Agrees Expr.bare n (n - 1) (Parse.exprWith nested power) (Parse.exprWith nested' power) := by
  refine (primaryWith parts).bind fun a b same => get fun s t _ k le less less' => ?_
  exact (continueWith k (fun left small power => parts left (by omega) power) power same less
    less').weaken (Nat.le_refl k) le

end Expressions

/-- Expressions of any depths, by induction over the tokens that are left. -/
theorem exprWithin {depth depth' : Nat} (deep : n < depth) (deep' : n < depth')
    (power : BindingPower)
    : Agrees Expr.bare n (n - 1) (Parse.exprWithin depth power)
        (Parse.exprWithin depth' power) := by
  induction n using Nat.strongRecOn generalizing depth depth' power with
  | ind n ih =>
      obtain ⟨depth, rfl⟩ := Nat.exists_eq_add_of_le' (show 1 ≤ depth by omega)
      obtain ⟨depth', rfl⟩ := Nat.exists_eq_add_of_le' (show 1 ≤ depth' by omega)
      exact exprWith (fun left small power => (ih left small (by omega) (by omega) power).weaken
        (Nat.le_refl _) (Nat.pred_le _)) power

theorem expr : Agrees Expr.bare n (n - 1) Parse.expr Parse.expr := by
  refine get fun s t _ k le less less' => ?_
  exact (exprWithin (Nat.lt_succ_of_le less) (Nat.lt_succ_of_le less') .lowest).weaken
    (Nat.le_refl k) (Nat.sub_le_sub_right le 1)

end BuildScript.Parse.Agrees
