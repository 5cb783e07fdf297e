import BuildScript.Problem
import BuildScript.SyntaxError

/-! Messages about places in the scripts. -/

namespace BuildScript

/-- Whether a message tells of a fault or explains one. -/
inductive Severity where
  | note
  | error
deriving Repr, DecidableEq, Inhabited

/-- A message about a place. -/
structure Diagnostic where
  severity : Severity
  message : String
  span : Span
deriving Repr, DecidableEq, Inhabited

namespace Diagnostic

/-- The error that something is wrong at a place. -/
def error (problem : Problem) (span : Span) : Diagnostic := ⟨.error, problem.message, span⟩

/-- The explanation of an error that was found before. -/
def note (problem : Problem) (span : Span) : Diagnostic := ⟨.note, problem.message, span⟩

/-- The error that a text is not a script. -/
def ofSyntaxError (e : SyntaxError) : Diagnostic :=
  ⟨.error, e.fault.message, Span.ofPosition e.position⟩

/-- The messages of one severity, in order. -/
def messages (severity : Severity) (diagnostics : List Diagnostic) : List String :=
  (diagnostics.filter (·.severity == severity)).map (·.message)

/-- The number of errors among some diagnostics. -/
def errorCount (diagnostics : List Diagnostic) : Nat :=
  (diagnostics.filter (·.severity == .error)).length

/-- Whether there is an error among some diagnostics. -/
def hasErrors (diagnostics : List Diagnostic) : Bool := 0 < errorCount diagnostics

end Diagnostic

end BuildScript
