import BuildScript.Registry.Basic

/-! Which of several functions of a name a call means. -/

namespace BuildScript

/-- Why no function is chosen. -/
inductive OverloadFailure where
  | ambiguous (candidates : List FunctionId)
  | noMatch
deriving Repr, DecidableEq

namespace Registry

/-- How well an argument fits a parameter, if it fits at all: exactly, up to a reference, or as
an object of a derived class. Initialisers of members fit any class.
-/
def fitness? (registry : Registry) (param argument : TypeId) : Option Nat :=
  if (registry.type argument).isDesignated then
    if (registry.type (registry.decayed param)).isObject then some 2 else none
  else if registry.sameType param argument then some 3
  else if registry.sameType (registry.decayed param) (registry.decayed argument) then some 2
  else if registry.isDerivedFrom (registry.decayed argument) (registry.decayed param) then some 1
  else none

/-- How well arguments fit parameters, one by one and summed up. -/
def totalFitness? (registry : Registry) : List Param → List TypeId → Option Nat
  | [], [] => some 0
  | param :: params, argument :: arguments =>
    (registry.fitness? param.type argument).bind fun own =>
      (registry.totalFitness? params arguments).map (own + ·)
  | _, _ => none

/-- The functions that take the arguments, and how well they fit. -/
def viable (registry : Registry) (candidates : List FunctionId) (arguments : List TypeId)
    : List (FunctionId × Nat) :=
  candidates.filterMap fun id =>
    (registry.totalFitness? (registry.function id).params arguments).map (id, ·)

/-- The functions that fit best. -/
def bestOf (scored : List (FunctionId × Nat)) : List FunctionId :=
  let best := (scored.map (·.2)).foldl max 0
  (scored.filter (·.2 == best)).map (·.1)

/-- The function that a call means. The first group with a function that takes the arguments
decides, and in it the best fit, which must be the only one.
-/
def chooseOverload (registry : Registry) (arguments : List TypeId)
    : List (List FunctionId) → Except OverloadFailure FunctionId
  | [] => .error .noMatch
  | candidates :: groups =>
    match bestOf (registry.viable candidates arguments) with
    | [] => registry.chooseOverload arguments groups
    | [winner] => .ok winner
    | winners => .error (.ambiguous winners)

end Registry

end BuildScript
