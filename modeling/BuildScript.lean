import BuildScript.Main
import BuildScript.Proofs.Run.Restoration
import BuildScript.Proofs.Run.Latching
import BuildScript.Proofs.Workspace.TypeNames
import BuildScript.Proofs.Workspace.Casting
import BuildScript.Proofs.Workspace.Nesting
import BuildScript.Proofs.Workspace.Reporting
import BuildScript.Proofs.Syntax.Agreement
import BuildScript.Proofs.Syntax.ExprAgreement
import BuildScript.Proofs.Syntax.Places
import BuildScript.Proofs.Syntax.ExprReading
import BuildScript.Proofs.Run.AcceptedFaults
import BuildScript.Proofs.Run.AcceptedValues
import BuildScript.Proofs.Run.ValueSemantics
import BuildScript.Proofs.Run.Placement
import BuildScript.Proofs.Run.DepthLimit
import BuildScript.Proofs.Scope.Refinement
import BuildScript.Proofs.Scope.SymbolImports
import BuildScript.Proofs.Run.OperationFaults
import BuildScript.Proofs.Run.Aftermath
import BuildScript.Proofs.Run.ParameterBinding
import BuildScript.Proofs.Run.ContainerSizes
import BuildScript.Proofs.Workspace.Rendering
import BuildScript.Proofs.Syntax.Chains
import BuildScript.Proofs.Token.Coverage
import BuildScript.Proofs.Run.HeapRenaming
import BuildScript.Proofs.Run.OperationRenaming
import BuildScript.Proofs.Run.MachineRenaming
import BuildScript.Proofs.Run.Simulation
import BuildScript.Proofs.Run.Readiness
import BuildScript.Proofs.Run.LoopDesugaring
import BuildScript.Proofs.Registry.Overloads
import BuildScript.Proofs.Run.ListEdits
import BuildScript.Proofs.Run.IntegerArithmetic
import BuildScript.Proofs.Run.ListOrder
import BuildScript.Proofs.Run.TextEdits
import BuildScript.Proofs.Token.Literals
import BuildScript.Proofs.Syntax.Reading
import BuildScript.Proofs.Component.Reading
import BuildScript.Proofs.Syntax.Progress
import BuildScript.Proofs.Syntax.SpanNesting
import BuildScript.Proofs.Component.Checking
import BuildScript.Proofs.Diagnostic.Arrows
import BuildScript.Proofs.Workspace.Keys
import BuildScript.Proofs.Syntax.TypeSpelling
import BuildScript.Proofs.Workspace.Evolution
import BuildScript.Proofs.Run.Defaults
import BuildScript.Proofs.Syntax.WrittenIntegers
import BuildScript.Proofs.Run.WrittenIntegers
