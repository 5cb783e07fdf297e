import BuildScript.Text.Utf8

/-! Finding texts and characters in a text. Places are byte offsets. -/

namespace BuildScript.Text

/-- The first place from `offset` on where a text begins with `needle`. -/
def findFrom? (needle : List Char) (offset : Nat) : List Char → Option Nat
  | [] => if needle.isEmpty then some offset else none
  | c :: rest =>
    if needle.isPrefixOf (c :: rest) then some offset
    else findFrom? needle (offset + c.utf8Size) rest

/-- The last place from `offset` on where a text begins with `needle`, or else `found?`. -/
def findLastFrom? (needle : List Char) (offset : Nat) (found? : Option Nat)
    : List Char → Option Nat
  | [] => if needle.isEmpty then some offset else found?
  | c :: rest =>
    findLastFrom? needle (offset + c.utf8Size)
      (if needle.isPrefixOf (c :: rest) then some offset else found?) rest

/-- The first place from `offset` on of a character that is not in `set`. -/
def findNotOfFrom? (set : List Char) (offset : Nat) : List Char → Option Nat
  | [] => none
  | c :: rest =>
    if set.contains c then findNotOfFrom? set (offset + c.utf8Size) rest else some offset

/-- The last place from `offset` on of a character that is not in `set`, or else `found?`. -/
def findLastNotOfFrom? (set : List Char) (offset : Nat) (found? : Option Nat)
    : List Char → Option Nat
  | [] => found?
  | c :: rest =>
    findLastNotOfFrom? set (offset + c.utf8Size)
      (if set.contains c then found? else some offset) rest

/-- The last place where a text occurs in another one. -/
def findLast? (needle text : String) : Option Nat :=
  findLastFrom? needle.toList 0 none text.toList

/-- The last place of a character that is not in a set. -/
def findLastNotOf? (set text : String) : Option Nat :=
  findLastNotOfFrom? set.toList 0 none text.toList

/-- Whether a text occurs in another one. -/
def contains (needle text : String) : Bool := (findFrom? needle.toList 0 text.toList).isSome

/-- Whether a text begins with another one. -/
def startsWith (beginning text : String) : Bool := beginning.toList.isPrefixOf text.toList

/-- Whether a text ends with another one. -/
def endsWith (ending text : String) : Bool :=
  ending.toList.reverse.isPrefixOf text.toList.reverse

end BuildScript.Text
