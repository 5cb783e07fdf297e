import BuildScript.Token

/-! How tightly operators bind. -/

namespace BuildScript

/-- The levels of precedence, loosest first. -/
inductive BindingPower where
  | lowest
  | comma
  | assignment
  | ternary
  | logicalOr
  | logicalAnd
  | equality
  | relational
  | additive
  | multiplicative
  | unary
  | call
  | member
deriving Repr, DecidableEq, Inhabited

namespace BindingPower

/-- The place among the levels. -/
def rank (power : BindingPower) : Nat := power.ctorIdx

instance : LT BindingPower := ⟨fun a b => a.rank < b.rank⟩

instance : LE BindingPower := ⟨fun a b => a.rank ≤ b.rank⟩

instance (a b : BindingPower) : Decidable (a < b) := inferInstanceAs (Decidable (a.rank < b.rank))

instance (a b : BindingPower) : Decidable (a ≤ b) := inferInstanceAs (Decidable (a.rank ≤ b.rank))

end BindingPower

/-- How tightly a token binds that stands after an operand, if it can continue one. -/
def TokenKind.continuationPower? : TokenKind → Option BindingPower
  | assignment | plusEquals | minusEquals | starEquals | slashEquals | percentEquals =>
    some .assignment
  | question => some .ternary
  | or => some .logicalOr
  | and => some .logicalAnd
  | equals | notEquals => some .equality
  | less | lessEquals | greater | greaterEquals => some .relational
  | plus | dash => some .additive
  | star | slash | percent => some .multiplicative
  | openParen => some .call
  | dot => some .member
  | _ => none

end BuildScript
