import BuildScript.Run.Operation.Scalar
import BuildScript.Run.Operation.Sequence
import BuildScript.Run.Operation.System
import BuildScript.Run.Operation.Target

/-! Every operation at work. -/

namespace BuildScript

/-- Performs an operation, where `result` is the type of what it gives. An operation of no value
works on a void one.
-/
def Operation.perform (operation : Operation) (self? : Option Handle) (operands : List Handle)
    (result : TypeId)
    : Effect Handle := do
  let self ← Effect.operand self?.toList 0
  match operation with
  | .bool operation => operation.perform self operands
  | .int operation => operation.perform self operands
  | .double operation => operation.perform self operands
  | .string operation => operation.perform self operands
  | .version operation => operation.perform self operands
  | .list operation => operation.perform self operands result
  | .external operation => operation.perform self operands result
  | .project operation => operation.perform self operands
  | .target operation => operation.perform self operands
  | .enumeration operation => operation.perform self operands
  | .assignObject => Effect.overwrite self (← Effect.operand operands 0)
  | .system operation => operation.perform operands

end BuildScript
