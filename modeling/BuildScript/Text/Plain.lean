/-! Text as it shows where no terminal interprets it: without control characters and without the
escape sequences that would be commands to a terminal.
-/

namespace BuildScript.Text

/-- How far an escape sequence has been read: outside of any, after the escape character, after
the further characters that may follow it, in a control sequence, in a command to the operating
system, or in another control string.
-/
inductive ControlState where
  | outside
  | escape
  | escapeMiddle
  | sequence
  | command
  | string
deriving Repr, DecidableEq, Inhabited

/-- The controls that lay out text. -/
def isLayout (c : Char) : Bool :=
  c == '\t' || c == '\n' || c == '\x0c' || c == '\r'

/-- Whether a character outside of escape sequences shows. -/
def isShown (c : Char) : Bool :=
  isLayout c || (0x20 ≤ c.toNat && c.toNat != 0x7F)

/-- Whether the encoding of a character contains the byte that ends a control string. -/
def endsString (c : Char) : Bool := (String.utf8EncodeChar c).contains 0x9C

/-- What the character after an escape character begins or ends. -/
def ControlState.afterEscape (c : Char) : ControlState :=
  if c == '[' then sequence
  else if c == ']' then command
  else if c == 'P' || c == 'X' || c == '^' || c == '_' then string
  else if 0x20 ≤ c.toNat && c.toNat < 0x30 then escapeMiddle
  else if 0x30 ≤ c.toNat && c.toNat < 0x7F then outside
  else escape

/-- The state after a character that belongs to an escape sequence. -/
def ControlState.next (c : Char) : ControlState → ControlState
  | outside => outside
  | escape => afterEscape c
  | escapeMiddle => if 0x30 ≤ c.toNat && c.toNat < 0x7F then outside else escapeMiddle
  | sequence => if 0x40 ≤ c.toNat && c.toNat < 0x7F then outside else sequence
  | command => if c == '\x07' then outside else command
  | string => if endsString c then outside else string

/-- Whether layout breaks off what has been begun, and shows. Strings take it in. -/
def ControlState.isBrokenByLayout : ControlState → Bool
  | outside | escape | escapeMiddle | sequence => true
  | command | string => false

/-- The state after a character, and whether the character shows. An escape character begins a
new sequence wherever it stands, and two other controls break off any.
-/
def ControlState.step (state : ControlState) (c : Char) : ControlState × Bool :=
  if c == '\x1b' then (escape, false)
  else if c == '\x18' || c == '\x1a' then (outside, false)
  else if isLayout c && state.isBrokenByLayout then (outside, true)
  else (state.next c, state == outside && isShown c)

/-- The characters that show, from a state on. -/
def plainFrom (state : ControlState) : List Char → List Char
  | [] => []
  | c :: rest =>
    let (next, shown) := state.step c
    if shown then c :: plainFrom next rest else plainFrom next rest

/-- The text that shows. -/
def plain (text : String) : String := String.ofList (plainFrom .outside text.toList)

end BuildScript.Text
