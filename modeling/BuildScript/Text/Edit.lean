import BuildScript.Text.Search

/-! Changes to a text at byte offsets. Where an offset does not lie between two characters of
the text, the change fails and tells that offset.
-/

namespace BuildScript.Text

/-- Cuts a text at an offset. -/
def cut (text : List Char) (offset : Int) : Except Int (List Char × List Char) :=
  if offset < 0 then .error offset
  else
    match splitAtByte? offset.toNat text with
    | some parts => .ok parts
    | none => .error offset

/-- The end of a range of at most `count` bytes. A negative count is none. -/
def rangeEnd (text : String) (offset count : Int) : Int :=
  min (offset + max count 0) text.utf8ByteSize

/-- A text before, in and after a range of at most `count` bytes. -/
def cutRange (text : String) (offset count : Int)
    : Except Int (List Char × List Char × List Char) := do
  let (before, rest) ← cut text.toList offset
  let (range, after) ← cut rest (rangeEnd text offset count - offset)
    |>.mapError fun _ => rangeEnd text offset count
  return (before, range, after)

/-- A range of a text. -/
def substring (text : String) (offset count : Int) : Except Int String := do
  let (_, range, _) ← cutRange text offset count
  return String.ofList range

/-- A text with a range replaced. -/
def replace (text : String) (offset count : Int) (replacement : String)
    : Except Int String := do
  let (before, _, after) ← cutRange text offset count
  return String.ofList before ++ replacement ++ String.ofList after

/-- A text without a range. -/
def erase (text : String) (offset count : Int) : Except Int String :=
  replace text offset count ""

/-- A text with another one inserted. -/
def insert (text : String) (offset : Int) (inserted : String) : Except Int String := do
  let (before, after) ← cut text.toList offset
  return String.ofList before ++ inserted ++ String.ofList after

/-- The first place from an offset on where a text occurs in another one. -/
def find (text : String) (offset : Int) (needle : String) : Except Int (Option Nat) := do
  let (_, rest) ← cut text.toList offset
  return findFrom? needle.toList offset.toNat rest

/-- The first place from an offset on of a character that is not in a set. -/
def findNotOf (text : String) (offset : Int) (set : String) : Except Int (Option Nat) := do
  let (_, rest) ← cut text.toList offset
  return findNotOfFrom? set.toList offset.toNat rest

/-- A text after `before`, some number of times. -/
def repeatAfter (text before : String) : Nat → String
  | 0 => before
  | count + 1 => repeatAfter text (before ++ text) count

/-- A text some number of times. -/
def repeated (text : String) (count : Nat) : String := repeatAfter text "" count

/-- Adds the characters of `fill` in turn, `pending` first, until the text has `size` bytes.
At most `missing` characters are added.
-/
def padWith (fill : List Char) (size : Nat) : Nat → List Char → String → String
  | 0, _, text => text
  | missing + 1, pending, text =>
    if size ≤ text.utf8ByteSize then text
    else
      match if pending.isEmpty then fill else pending with
      | [] => text
      | c :: rest => padWith fill size missing rest (text.push c)

/-- A text cut or filled to `size` bytes, or the few more that its last character takes. -/
def resize (text : String) (size : Nat) (fill : String) : Except Int String :=
  if size ≤ text.utf8ByteSize then do
    let (before, _) ← cut text.toList size
    return String.ofList before
  else return padWith fill.toList size (size - text.utf8ByteSize) [] text

end BuildScript.Text
