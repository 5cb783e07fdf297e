import BuildScript.Diagnostic
import BuildScript.Text.Blank
import BuildScript.Text.Lines

/-! Messages with the lines that they are about. -/

namespace BuildScript

/-- The heading of a severity. -/
def Severity.text : Severity → String
  | .note => "note"
  | .error => "error"

namespace Diagnostic

/-- A character at the end of a field of the given width. -/
def padLeft (fill : Char) (width : Nat) (c : Char) : String :=
  String.ofList (List.replicate (width - 1) fill ++ [c])

/-- Whether a character indents a line. -/
def isIndent (c : Char) : Bool := c == ' ' || c == '\t'

/-- A message without the line that it is about. -/
def header (diagnostic : Diagnostic) : String :=
  diagnostic.severity.text ++ ": " ++ diagnostic.message ++ "\n-> " ++ diagnostic.span.file ++ "\n"

/-- A line without its indentation, and an arrow below it to the place. -/
def excerpt (place : Text.LinePlace) : String :=
  let number := toString place.number
  let line := place.line.toList
  let indentation := (line.takeWhile isIndent).length
  let shown := String.ofList (Text.trimEnd (line.drop indentation))
  let margin := padLeft ' ' (number.length + 2) '|'
  margin ++ "\n" ++ number ++ " | " ++ shown ++ "\n" ++ margin ++ " "
    ++ padLeft '-' (place.offset - indentation + 1) '^' ++ "\n"

/-- A message with the line of the text that it is about. -/
def render (diagnostic : Diagnostic) (text : String) : String :=
  match Text.placeOf? text diagnostic.span.start with
  | none => diagnostic.header
  | some place => diagnostic.header ++ excerpt place

end Diagnostic

end BuildScript
