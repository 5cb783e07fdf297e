/-! Names for the entries of a registry. -/

namespace BuildScript

/-- The place of a type in its registry. -/
structure TypeId where
  index : Nat
deriving Repr, DecidableEq, Inhabited

/-- The place of a function in its registry. -/
structure FunctionId where
  index : Nat
deriving Repr, DecidableEq, Inhabited

/-- The place of a context in its registry. -/
structure ContextId where
  index : Nat
deriving Repr, DecidableEq, Inhabited

/-- The number of a type, written after a hash sign. -/
def TypeId.text (id : TypeId) : String := "#" ++ toString id.index

end BuildScript
