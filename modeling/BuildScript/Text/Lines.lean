import BuildScript.Text.Utf8

/-! The lines of a text and the places of its bytes in them. -/

namespace BuildScript.Text

/-- A place in a text: the number of its line, counted from one, the line with the line break
that ends it, and the distance in bytes from the beginning of the line.
-/
structure LinePlace where
  number : Nat
  line : String
  offset : Nat
deriving Repr, DecidableEq

/-- The first line of a text with the line break that ends it. -/
def firstLine : List Char → List Char
  | [] => []
  | c :: rest => if c == '\n' then [c] else c :: firstLine rest

/-- The first line of a text without the line break that ends it, which is a line feed with or
without a carriage return before it.
-/
def firstLineContent : List Char → List Char
  | [] => []
  | '\n' :: _ => []
  | '\r' :: '\n' :: _ => []
  | c :: rest => c :: firstLineContent rest

/-- The place `position` bytes further on, where `line` is the text from the beginning of the
current line on, of which `offset` bytes are passed.
-/
def placeFrom? (number : Nat) (line : List Char) (offset : Nat)
    : Nat → List Char → Option LinePlace
  | 0, _ => some ⟨number, String.ofList (firstLine line), offset⟩
  | _ + 1, [] => none
  | position + 1, c :: rest =>
    if c == '\n' then placeFrom? (number + 1) rest 0 position rest
    else if c.utf8Size ≤ position + 1 then
      placeFrom? number line (offset + c.utf8Size) (position + 1 - c.utf8Size) rest
    else some ⟨number, String.ofList (firstLine line), offset + (position + 1)⟩

/-- The place of a byte, or of the end of the text. -/
def placeOf? (text : String) (position : Nat) : Option LinePlace :=
  placeFrom? 1 text.toList 0 position text.toList

end BuildScript.Text
