import BuildScript.Proofs.Syntax.ExprReading

/-! Operands with operators between them. Of all the ways to group such a chain there is just one
in which every operator binds more tightly than those around it, and the chain is read that way.
-/

namespace BuildScript

-----------------------------------------------------------------------------------------
-- Chains
-----------------------------------------------------------------------------------------

/-- (literal? content) is the expression that a token is by itself: a number within its limits, a
text or a truth value.
-/
def Expr.literal? : TokenKind × String → Option Expr
  | (.integer, text) => (Decimal.readInt64? text.toList).map fun value => .int value .unknown
  | (.double, text) => (Decimal.readFloat? text.toList).map fun value => .double value .unknown
  | (.string, text) => some (.string text .unknown)
  | (.trueKeyword, _) => some (.bool true .unknown)
  | (.falseKeyword, _) => some (.bool false .unknown)
  | _ => none

/-- (ReadsInParens contents expr) says that contents are read as an expression where a closing
parenthesis comes next, however deep one may read besides.
-/
def Parse.ReadsInParens (contents : List (TokenKind × String)) (expr : Expr) : Prop :=
  ∀ depth, contents.length < depth → ∀ rest,
    Reads (exprWithin depth .lowest) contents (TokenKind.closeParen.mark :: rest)
      (fun read => read.bare = expr.bare)

namespace Chain

/-- An operand of a chain: a literal, an expression between parentheses, or a prefix operator with
an operand of its own.
-/
inductive Operand where
  | literal (content : TokenKind × String) (value : Expr)
    (denotes : Expr.literal? content = some value)
  | group (contents : List (TokenKind × String)) (inner : Expr)
    (reads : Parse.ReadsInParens contents inner)
  | signed (sign : Token) (among : sign.kind ∈ TokenKind.prefixOperators) (operand : Operand)

namespace Operand

/-- (print operand) is the spelling of an operand. -/
def print : Operand → List (TokenKind × String)
  | literal content _ _ => [content]
  | group contents _ _ => TokenKind.openParen.mark :: (contents ++ [TokenKind.closeParen.mark])
  | signed sign _ operand => sign.content :: operand.print

/-- (expr operand) is the expression that an operand is. A prefix operator has no more in its reach
than the operand that it stands before.
-/
def expr : Operand → Expr
  | literal _ value _ => value
  | group _ inner _ => inner
  | signed sign _ operand => .unary sign operand.expr .unknown

theorem length_print_pos (operand : Operand) : 0 < operand.print.length := by
  cases operand with
  | literal content value denotes => exact Nat.zero_lt_one
  | group contents inner reads => exact Nat.succ_pos _
  | signed sign among operand => exact Nat.succ_pos _

end Operand

/-- An operator between two operands, which may be an assignment. -/
structure Operator where
  token : Token
  among : token.kind ∈ TokenKind.infixOperators

namespace Operator

/-- (power operator) tells how tightly an operator binds. -/
def power (operator : Operator) : BindingPower :=
  operator.token.kind.continuationPower?.getD .lowest

/-- (isAssignment operator) tells whether an operator stores into its left operand. -/
def isAssignment (operator : Operator) : Bool := operator.token.kind.isAssignment

/-- (reach operator) is what the operators in the right operand bind more tightly than. For an
assignment this is a level below its own, so that another assignment may stand there.
-/
def reach (operator : Operator) : BindingPower :=
  if operator.isAssignment then .comma else operator.power

end Operator

end Chain

/-- Operands with operators between them, in the order in which they are written. -/
structure Chain where
  first : Chain.Operand
  rest : List (Chain.Operator × Chain.Operand)

/-- (print chain) is the spelling of a chain. -/
def Chain.print (chain : Chain) : List (TokenKind × String) :=
  chain.first.print ++ chain.rest.flatMap fun item => item.1.token.content :: item.2.print

-----------------------------------------------------------------------------------------
-- Groupings
-----------------------------------------------------------------------------------------

/-- A way to group the operands of a chain: which operator takes what to its left and right. -/
inductive Grouping where
  | single (operand : Chain.Operand)
  | node (operator : Chain.Operator) (left right : Grouping)

namespace Grouping

/-- (chain grouping) are the operands and operators from left to right. -/
def chain : Grouping → Chain
  | single operand => ⟨operand, []⟩
  | node operator left right =>
    ⟨left.chain.first, left.chain.rest ++ (operator, right.chain.first) :: right.chain.rest⟩

/-- (expr grouping) is the expression in which the operands are grouped this way. -/
def expr : Grouping → Expr
  | single operand => operand.expr
  | node operator left right => .binary operator.token left.expr right.expr .unknown

/-- (root? grouping) is the operator that takes all operands. -/
def root? : Grouping → Option Chain.Operator
  | single _ => none
  | node operator _ _ => some operator

/-- (Balanced grouping) says that operators are grouped by how tightly they bind. What an
assignment takes to its left binds more tightly than an assignment, and what it takes to its right
may be another one. Any other operator takes to its left what binds no less tightly, and to its
right what binds more tightly.
-/
def Balanced : Grouping → Prop
  | single _ => True
  | node operator left right =>
    (∀ inner ∈ left.root?, if operator.isAssignment then .assignment < inner.power
      else operator.power ≤ inner.power)
    ∧ (∀ inner ∈ right.root?, if operator.isAssignment then .assignment ≤ inner.power
      else operator.power < inner.power)
    ∧ left.Balanced ∧ right.Balanced

instance decidableBalanced : (tree : Grouping) → Decidable tree.Balanced
  | single _ => inferInstanceAs (Decidable True)
  | node _ left right =>
    have := decidableBalanced left
    have := decidableBalanced right
    inferInstanceAs (Decidable (_ ∧ _ ∧ _ ∧ _))

end Grouping

-----------------------------------------------------------------------------------------
-- How tightly operators bind
-----------------------------------------------------------------------------------------

namespace Chain.Operator

theorem binds (operator : Operator)
    : operator.token.kind.continuationPower? = some operator.power := by
  have table : ∀ kind ∈ TokenKind.infixOperators, kind.continuationPower?.isSome := by
    decide
  obtain ⟨found, binds⟩ := Option.isSome_iff_exists.mp (table _ operator.among)
  rw [power, binds, Option.getD_some]

/-- Operators bind at least as tightly as assignments, and less tightly than prefix operators. Only
assignments bind as loosely as they do.
-/
theorem power_bounds (operator : Operator)
    : .assignment ≤ operator.power ∧ operator.power < .unary ∧
        (operator.isAssignment ↔ operator.power = .assignment) := by
  have table : ∀ kind ∈ TokenKind.infixOperators, let power := kind.continuationPower?.getD .lowest
      .assignment ≤ power ∧ power < .unary ∧ (kind.isAssignment ↔ power = .assignment) := by
    decide
  exact table _ operator.among

theorem reach_of_assignment {operator : Operator} (assigns : operator.isAssignment)
    : operator.power = .assignment ∧ operator.reach = .comma :=
  ⟨operator.power_bounds.2.2.mp assigns, by rw [reach, if_pos assigns]⟩

theorem reach_of_value {operator : Operator} (value : ¬ operator.isAssignment)
    : .assignment < operator.power ∧ operator.reach = operator.power := by
  obtain ⟨above, -, assigns⟩ := operator.power_bounds
  refine ⟨Nat.lt_of_le_of_ne above fun same => value (assigns.mpr ?_), by rw [reach, if_neg value]⟩
  have injective : ∀ a b : BindingPower, a.rank = b.rank → a = b := by
    intro a b
    cases a <;> cases b <;> decide
  exact injective _ _ same.symm

theorem reach_le_power (operator : Operator) : operator.reach ≤ operator.power := by
  by_cases assigns : operator.isAssignment
  · rw [(reach_of_assignment assigns).1, (reach_of_assignment assigns).2]
    decide
  · rw [(reach_of_value assigns).2]
    exact Nat.le_refl _

/-- What an operator binds more tightly than, the operators in its right operand bind more tightly
than, too.
-/
theorem le_reach_of_lt_power {operator : Operator} {power : BindingPower}
    (tighter : power < operator.power)
    : power ≤ operator.reach := by
  by_cases assigns : operator.isAssignment
  · rw [(reach_of_assignment assigns).1] at tighter
    rw [(reach_of_assignment assigns).2]
    exact Nat.le_of_lt_succ tighter
  · rw [(reach_of_value assigns).2]
    exact Nat.le_of_lt tighter

/-- What may stand to the left of an operator is what the operator is out of the reach of. -/
theorem left_iff (operator inner : Operator)
    : (if operator.isAssignment then BindingPower.assignment < inner.power
        else operator.power ≤ inner.power) ↔
        operator.power ≤ inner.reach := by
  by_cases assigns : operator.isAssignment
  · rw [if_pos assigns, (reach_of_assignment assigns).1]
    by_cases inside : inner.isAssignment
    · rw [(reach_of_assignment inside).1, (reach_of_assignment inside).2]
      decide
    · obtain ⟨above, same⟩ := reach_of_value inside
      rw [same]
      exact iff_of_true above (Nat.le_of_lt above)
  · rw [if_neg assigns]
    by_cases inside : inner.isAssignment
    · have above := (reach_of_value assigns).1
      rw [(reach_of_assignment inside).1, (reach_of_assignment inside).2]
      exact iff_of_false (Nat.not_le_of_lt above)
        (Nat.not_le_of_lt (Nat.lt_trans (by decide) above))
    · rw [(reach_of_value inside).2]

/-- What may stand to the right of an operator is what is in its reach. -/
theorem right_iff (operator inner : Operator)
    : (if operator.isAssignment then BindingPower.assignment ≤ inner.power
        else operator.power < inner.power) ↔
        operator.reach < inner.power := by
  split
  · next assigns =>
      rw [(reach_of_assignment assigns).2]
      exact Iff.rfl
  · next value => rw [(reach_of_value value).2]

end Chain.Operator

-----------------------------------------------------------------------------------------
-- The balanced grouping of a chain
-----------------------------------------------------------------------------------------

namespace Grouping

theorem balanced_node {operator : Chain.Operator} {left right : Grouping}
    : (node operator left right).Balanced ↔
        (∀ inner ∈ left.root?, operator.power ≤ inner.reach)
          ∧ (∀ inner ∈ right.root?, operator.reach < inner.power)
          ∧ left.Balanced ∧ right.Balanced := by
  simp only [Balanced, Chain.Operator.left_iff, Chain.Operator.right_iff]

/-- In a balanced grouping, what binds less tightly than the operator of the whole binds less
tightly than all operators.
-/
theorem Balanced.tighter {grouping : Grouping} (balanced : grouping.Balanced)
    {power : BindingPower} (tighter : ∀ operator ∈ grouping.root?, power < operator.power)
    : ∀ item ∈ grouping.chain.rest, power < item.1.power := by
  induction grouping with
  | single operand => exact fun item member => nomatch member
  | node operator left right ihLeft ihRight =>
      obtain ⟨loose, tight, balancedLeft, balancedRight⟩ := balanced_node.mp balanced
      have here : power < operator.power := tighter operator rfl
      intro item member
      rcases List.mem_append.mp member with before | after
      · refine ihLeft balancedLeft (fun inner root => ?_) item before
        exact Nat.lt_of_lt_of_le here (Nat.le_trans (loose inner root) inner.reach_le_power)
      · rcases List.mem_cons.mp after with rfl | after
        · exact here
        · refine ihRight balancedRight (fun inner root => ?_) item after
          exact Nat.lt_of_le_of_lt (Chain.Operator.le_reach_of_lt_power here) (tight inner root)

/-- (push operator operand grouping) is the grouping of a chain that goes on with one more operand.
The operator is given to the right-hand side as long as it is in reach there.
-/
def push (operator : Chain.Operator) (operand : Chain.Operand) : Grouping → Grouping
  | single first => node operator (single first) (single operand)
  | node outer left right =>
    if outer.reach < operator.power then node outer left (right.push operator operand)
    else node operator (node outer left right) (single operand)

/-- (ofChain chain) groups the operands of a chain one after the other. -/
def ofChain (chain : Chain) : Grouping :=
  chain.rest.foldl (fun grouping item => grouping.push item.1 item.2) (single chain.first)

variable (operator : Chain.Operator) (operand : Chain.Operand)

theorem chain_push (grouping : Grouping)
    : (grouping.push operator operand).chain =
        ⟨grouping.chain.first, grouping.chain.rest ++ [(operator, operand)]⟩ := by
  induction grouping with
  | single first => rfl
  | node outer left right _ ih =>
      rw [push]
      split
      · rw [chain, ih, chain, List.append_assoc, List.cons_append]
      · rfl

/-- The operator of the whole stays, or it is the one that was added. -/
theorem root_push (grouping : Grouping)
    : ∀ root ∈ (grouping.push operator operand).root?, root = operator ∨ root ∈ grouping.root? := by
  intro root member
  cases grouping with
  | single first => exact .inl (Option.some.inj member).symm
  | node outer left right =>
      rw [push] at member
      split at member
      · exact .inr member
      · exact .inl (Option.some.inj member).symm

theorem Balanced.push {grouping : Grouping} (balanced : grouping.Balanced)
    : (grouping.push operator operand).Balanced := by
  induction grouping with
  | single first =>
      exact balanced_node.mpr ⟨by simp [root?], by simp [root?], trivial, trivial⟩
  | node outer left right _ ih =>
      obtain ⟨loose, tight, balancedLeft, balancedRight⟩ := balanced_node.mp balanced
      rw [Grouping.push]
      split
      · next reached =>
          refine balanced_node.mpr ⟨loose, fun root member => ?_, balancedLeft, ih balancedRight⟩
          rcases root_push operator operand right root member with rfl | before
          · exact reached
          · exact tight root before
      · next out =>
          refine balanced_node.mpr ⟨fun root member => ?_, by simp [root?], balanced, trivial⟩
          obtain rfl := Option.some.inj member
          exact Nat.le_of_not_lt out

theorem chain_foldl_push (rest : List (Chain.Operator × Chain.Operand)) (grouping : Grouping)
    : (rest.foldl (fun grouping item => grouping.push item.1 item.2) grouping).chain =
        ⟨grouping.chain.first, grouping.chain.rest ++ rest⟩ := by
  induction rest generalizing grouping with
  | nil => rw [List.foldl_nil, List.append_nil]
  | cons item rest ih =>
      rw [List.foldl_cons, ih, chain_push, List.append_assoc, List.singleton_append]

theorem chain_ofChain (chain : Chain) : (ofChain chain).chain = chain :=
  chain_foldl_push chain.rest (single chain.first)

theorem balanced_ofChain (chain : Chain) : (ofChain chain).Balanced := by
  have keeps (rest : List (Chain.Operator × Chain.Operand)) (grouping : Grouping)
      (balanced : grouping.Balanced)
      : (rest.foldl (fun grouping item => grouping.push item.1 item.2) grouping).Balanced := by
    induction rest generalizing grouping with
    | nil => exact balanced
    | cons item rest ih => exact ih _ (balanced.push item.1 item.2)
  exact keeps chain.rest (single chain.first) trivial

/-- Operators in the reach of the operator of the whole are given to its right-hand side. -/
theorem foldl_push_node (left right : Grouping) (rest : List (Chain.Operator × Chain.Operand))
    (reached : ∀ item ∈ rest, operator.reach < item.1.power)
    : rest.foldl (fun grouping item => grouping.push item.1 item.2) (node operator left right) =
        node operator left
          (rest.foldl (fun grouping item => grouping.push item.1 item.2) right) := by
  induction rest generalizing right with
  | nil => rfl
  | cons item rest ih =>
      rw [List.foldl_cons, List.foldl_cons, push, if_pos (reached item List.mem_cons_self)]
      exact ih (right.push item.1 item.2) fun item member =>
        reached item (List.mem_cons_of_mem _ member)

/-- A balanced grouping is the one in which its operands are grouped one after the other. -/
theorem Balanced.eq_ofChain {grouping : Grouping} (balanced : grouping.Balanced)
    : grouping = ofChain grouping.chain := by
  induction grouping with
  | single operand => rfl
  | node operator left right ihLeft ihRight =>
      obtain ⟨loose, tight, balancedLeft, balancedRight⟩ := balanced_node.mp balanced
      -- The left-hand side is complete when the operator comes, which takes all of it.
      have taken : left.push operator right.chain.first =
          node operator left (single right.chain.first) := by
        cases left with
        | single operand => rfl
        | node inner before after =>
            have complete : ¬ inner.reach < operator.power := Nat.not_lt_of_le (loose inner rfl)
            rw [Grouping.push, if_neg complete]
      have grouped : ofChain (node operator left right).chain =
          node operator left (ofChain right.chain) := by
        rw [ofChain, chain, List.foldl_append, List.foldl_cons]
        rw [show List.foldl _ (single left.chain.first) left.chain.rest = left from
          (ihLeft balancedLeft).symm]
        rw [taken, foldl_push_node operator _ _ _ (balancedRight.tighter tight)]
        rfl
      rw [grouped, ← ihRight balancedRight]

end Grouping

-----------------------------------------------------------------------------------------
-- Reading chains
-----------------------------------------------------------------------------------------

namespace Grouping

/-- (print grouping) is the spelling of the chain that is grouped. -/
def print : Grouping → List (TokenKind × String)
  | single operand => operand.print
  | node operator left right => left.print ++ operator.token.content :: right.print

theorem print_eq (grouping : Grouping) : grouping.print = grouping.chain.print := by
  induction grouping with
  | single operand => exact (List.append_nil _).symm
  | node operator left right ihLeft ihRight =>
      rw [print, ihLeft, ihRight, Chain.print, Chain.print, Chain.print, chain, List.flatMap_append,
        List.flatMap_cons, List.append_assoc, List.cons_append]

theorem length_print_pos (grouping : Grouping) : 0 < grouping.print.length := by
  cases grouping with
  | single operand => exact operand.length_print_pos
  | node operator left right =>
      rw [print, List.length_append, List.length_cons]
      omega

end Grouping

namespace Parse.Reads

variable {nested : Operand} {rest : List (TokenKind × String)} {power : BindingPower}

/-- (StopsAt power rest) says that what comes next binds no more tightly than `power`, if it could
continue an operand at all.
-/
def StopsAt (power : BindingPower) (rest : List (TokenKind × String)) : Prop :=
  ∃ shown later, rest = shown :: later ∧ ∀ next ∈ shown.1.continuationPower?, next ≤ power

theorem StopsAt.mono {power' : BindingPower} (stops : StopsAt power rest) (le : power ≤ power')
    : StopsAt power' rest := by
  obtain ⟨shown, later, same, loose⟩ := stops
  exact ⟨shown, later, same, fun next binds => Nat.le_trans (loose next binds) le⟩

theorem Closes.stopsAt (closes : Closes rest) (power : BindingPower) : StopsAt power rest := by
  obtain ⟨shown, later, same, among⟩ := closes
  have table : ∀ kind ∈ closers, kind.continuationPower? = none := by
    decide
  exact ⟨shown, later, same, by rw [table _ among]; exact fun next none_ => nomatch none_⟩

theorem stopsAt_operator (operator : Chain.Operator) (later : List (TokenKind × String))
    : StopsAt operator.power (operator.token.content :: later) := by
  refine ⟨_, later, rfl, fun next binds => ?_⟩
  obtain rfl := Option.some.inj (operator.binds.symm.trans binds)
  exact Nat.le_refl _

/-- What does not bind more tightly does not continue an operand. -/
theorem Continues.ends {expr : Expr} (stops : StopsAt power rest)
    : Continues nested power expr [] rest (fun read => read.bare = expr.bare) := by
  intro left same count _
  obtain ⟨shown, later, rfl, loose⟩ := stops
  cases count with
  | zero => exact pure same
  | succ count =>
      refine kind rfl ?_
      split
      · exact pure same
      · next next binds =>
          have loose : ¬ power < next := Nat.not_lt_of_le (loose next binds)
          rw [if_neg loose]
          exact pure same

/-- A literal is read from its token. -/
theorem literalToken {content : TokenKind × String} {value : Expr}
    (denotes : Expr.literal? content = some value)
    : Reads (Parse.primaryWith nested) [content] rest (fun read => read.bare = value.bare) := by
  obtain ⟨class_, text⟩ := content
  refine kind rfl ?_
  cases class_ with
  | integer =>
      obtain ⟨number, read, rfl⟩ := Option.map_eq_some_iff.mp denotes
      exact nextThen _ fun token same => numberLiteralThen read same (pure rfl)
  | double =>
      obtain ⟨number, read, rfl⟩ := Option.map_eq_some_iff.mp denotes
      exact nextThen _ fun token same => numberLiteralThen read same (pure rfl)
  | string =>
      obtain rfl := Option.some.inj denotes
      refine nextThen _ fun token same => pure ?_
      rw [Expr.bare, Expr.bare, show token.value = text from congrArg Prod.snd same]
  | trueKeyword =>
      obtain rfl := Option.some.inj denotes
      exact nextThen _ fun _ _ => pure rfl
  | falseKeyword =>
      obtain rfl := Option.some.inj denotes
      exact nextThen _ fun _ _ => pure rfl
  | _ => cases denotes

/-- An operand is read up to where it ends, by induction over its prefix operators. -/
theorem operandWith (operand : Chain.Operand) {depth : Nat} (short : operand.print.length ≤ depth)
    (stops : StopsAt .unary rest)
    : Reads (Parse.primaryWith (exprWithin depth)) operand.print rest
        (fun read => read.bare = operand.expr.bare) := by
  induction operand generalizing depth with
  | literal content value denotes => exact literalToken denotes
  | group contents inner reads =>
      refine grouping (reads depth ?_ rest)
      simp only [Chain.Operand.print, List.length_cons, List.length_append] at short
      omega
  | signed sign among operand ih =>
      rw [Chain.Operand.print, List.length_cons] at short
      obtain ⟨depth, rfl⟩ := Nat.exists_eq_add_of_le' (Nat.zero_lt_of_lt short)
      have inner : Reads (exprWithin (depth + 1) .unary) (operand.print ++ []) rest _ :=
        exprWith (ih (Nat.le_of_succ_le_succ short)) (Continues.ends stops)
      rw [List.append_nil] at inner
      exact prefixThen among inner

/-- A balanced grouping is read, and then continued, where its operators bind more tightly than is
asked for and what comes next is out of reach of them.
-/
theorem balancedWith {tree : Grouping} (balanced : tree.Balanced) {depth : Nat}
    (short : tree.print.length ≤ depth) (tight : ∀ root ∈ tree.root?, power < root.power)
    {contents : List (TokenKind × String)} {post : Expr → Prop}
    (stops : StopsAt .unary (contents ++ rest))
    (ends : ∀ root ∈ tree.root?, StopsAt root.reach (contents ++ rest))
    (continues : Continues (exprWithin depth) power tree.expr contents rest post)
    : Reads (exprWithin (depth + 1) power) (tree.print ++ contents) rest post := by
  induction tree generalizing depth power contents rest post with
  | single operand => exact exprWith (operandWith operand short stops) continues
  | node operator left right ihLeft ihRight =>
      obtain ⟨loose, tighter, balancedLeft, balancedRight⟩ := Grouping.balanced_node.mp balanced
      have here : power < operator.power := tight operator rfl
      have out : StopsAt operator.reach (contents ++ rest) := ends operator rfl
      have leftPos := left.length_print_pos
      rw [Grouping.print, List.length_append, List.length_cons] at short
      obtain ⟨depth, rfl⟩ := Nat.exists_eq_add_of_le' (show 1 ≤ depth by omega)
      -- The right-hand side is read one level deeper, up to what is out of reach.
      have readsRight : Reads (exprWithin (depth + 1) operator.reach) (right.print ++ [])
          (contents ++ rest) _ :=
        ihRight balancedRight (by omega) tighter stops
          (fun root member =>
            out.mono (Chain.Operator.le_reach_of_lt_power (tighter root member)))
          (Continues.ends out)
      rw [List.append_nil] at readsRight
      have next := stopsAt_operator operator (right.print ++ contents ++ rest)
      rw [Grouping.print, List.append_assoc]
      refine ihLeft balancedLeft (by omega) (fun root member => ?_)
        (next.mono (Nat.le_of_lt operator.power_bounds.2.1))
        (fun root member => next.mono (loose root member)) ?_
      · exact Nat.lt_of_lt_of_le here (Nat.le_trans (loose root member) root.reach_le_power)
      · exact Continues.more operator.binds here
          (fun read same => binaryThen operator.among same readsRight) continues

end Parse.Reads

/-- Before a closing mark, a balanced grouping is all that is read. -/
theorem Parse.Reads.balanced {tree : Grouping} (balanced : tree.Balanced) {depth : Nat}
    (short : tree.print.length ≤ depth) {rest : List (TokenKind × String)} (closes : Closes rest)
    : Reads (exprWithin (depth + 1) .lowest) tree.print rest
        (fun read => read.bare = tree.expr.bare) := by
  have tight : ∀ root ∈ tree.root?, BindingPower.lowest < root.power := fun root _ =>
    Nat.lt_of_lt_of_le (by decide) root.power_bounds.1
  rw [← List.append_nil tree.print]
  exact balancedWith balanced short tight (closes.stopsAt _) (fun root _ => closes.stopsAt _)
    (Continues.ends (closes.stopsAt _))

/-- Between parentheses, a chain may stand as an operand of another one. -/
theorem Grouping.Balanced.readsInParens {tree : Grouping} (balanced : tree.Balanced)
    : Parse.ReadsInParens tree.print tree.expr := by
  intro depth short rest
  obtain ⟨depth, rfl⟩ := Nat.exists_eq_add_of_le' (Nat.zero_lt_of_lt short)
  exact Parse.Reads.balanced balanced (Nat.le_of_lt_succ short) ⟨_, _, rfl, by decide⟩

/-- A chain is read as the one balanced grouping of its operands: where the tokens ahead spell a
chain and a semicolon, just these operands and operators are read, grouped by how tightly the
operators bind, and the semicolon is shown next.
-/
theorem Chain.reading_balances (chain : Chain) {stream : TokenStream}
    {rest : List (TokenKind × String)}
    (ahead : stream.ahead.map Token.content = chain.print ++ TokenKind.semicolon.mark :: rest)
    : ∃ tree : Grouping, tree.chain = chain ∧ tree.Balanced
        ∧ (∀ other : Grouping, other.chain = chain → other.Balanced → other = tree)
        ∧ ∃ read after, Parse.expr stream = .ok (read, after) ∧ read.bare = tree.expr.bare
          ∧ after.kind = .semicolon ∧ after.ahead = stream.ahead.drop chain.print.length := by
  have balanced := Grouping.balanced_ofChain chain
  have same := Grouping.chain_ofChain chain
  refine ⟨.ofChain chain, same, balanced, fun other same' balanced' => ?_, ?_⟩
  · rw [balanced'.eq_ofChain, same']
  have print : (Grouping.ofChain chain).print = chain.print := by rw [Grouping.print_eq, same]
  have length : (Grouping.ofChain chain).print.length ≤ stream.ahead.length := by
    rw [← List.length_map (f := Token.content), ahead, List.length_append, print]
    exact Nat.le_add_right _ _
  have closes : Parse.Reads.Closes (TokenKind.semicolon.mark :: rest) := ⟨_, _, rfl, by decide⟩
  have reads := Parse.Reads.balanced balanced length closes
  rw [print] at reads
  obtain ⟨read, after, given, equal, left⟩ := reads stream ahead
  refine ⟨read, after, given, equal, ?_, left⟩
  have ahead' : after.ahead.map Token.content = TokenKind.semicolon.mark :: rest := by
    rw [left, List.map_drop, ahead, List.drop_left]
  exact Parse.kind_current ahead'

/-- Witness: two assignments in a row, a difference of three, and a sum with a sign, a product and
an assignment between parentheses.
-/
theorem Chain.reading_balances_assignments
    : let token (kind : TokenKind) : Token := ⟨kind, kind.text, .unknown⟩
      let digit (text : String) : Token := ⟨.integer, text, .unknown⟩
      let int (value : Int64) : Expr := .int value .unknown
      let binary (kind : TokenKind) (lhs rhs : Expr) : Expr := .binary (token kind) lhs rhs .unknown
      let stream : TokenStream := .ofTokens [digit "1", token .assignment, token .dash, digit "2",
        token .plus, token .openParen, digit "3", token .assignment, digit "4", token .closeParen,
        token .star, digit "5", token .plusEquals, digit "6", token .dash, digit "7", token .dash,
        digit "8", token .semicolon] ""
      ∃ read after, Parse.expr stream = .ok (read, after)
        ∧ read.bare = (binary .assignment (int 1) (binary .plusEquals
            (binary .plus (.unary (token .dash) (int 2) .unknown)
              (binary .star (binary .assignment (int 3) (int 4)) (int 5)))
            (binary .dash (binary .dash (int 6) (int 7)) (int 8)))).bare
        ∧ after.ahead = [token .semicolon] := by
  intro token digit int binary stream
  let literal (text : String) (value : Int64)
      (number : Decimal.readInt64? text.toList = some value) : Operand :=
    .literal (.integer, text) (int value) (by simp [Expr.literal?, number, int])
  let node (kind : TokenKind) (among : kind ∈ TokenKind.infixOperators) : Grouping → Grouping →
      Grouping := .node ⟨token kind, among⟩
  let inner : Grouping := node .assignment (by decide) (.single (literal "3" 3 rfl))
    (.single (literal "4" 4 rfl))
  let group : Operand :=
    .group inner.print inner.expr (Grouping.Balanced.readsInParens (by decide))
  let tree : Grouping := node .assignment (by decide) (.single (literal "1" 1 rfl))
    (node .plusEquals (by decide)
      (node .plus (by decide) (.single (.signed (token .dash) (by decide) (literal "2" 2 rfl)))
        (node .star (by decide) (.single group) (.single (literal "5" 5 rfl))))
      (node .dash (by decide)
        (node .dash (by decide) (.single (literal "6" 6 rfl)) (.single (literal "7" 7 rfl)))
        (.single (literal "8" 8 rfl))))
  obtain ⟨found, -, -, unique, read, after, given, same, -, left⟩ := tree.chain.reading_balances
    (by rfl : stream.ahead.map Token.content = tree.chain.print ++ TokenKind.semicolon.mark :: [])
  rw [← unique tree rfl (by decide)] at same
  exact ⟨read, after, given, same, left⟩

end BuildScript
