/-! The escapes of string literals. -/

namespace BuildScript.Token

/-- The value of a hexadecimal digit of either case. -/
def hexValue? (c : Char) : Option Nat :=
  if '0' ≤ c && c ≤ '9' then some (c.toNat - '0'.toNat)
  else if 'a' ≤ c && c ≤ 'f' then some (c.toNat - 'a'.toNat + 10)
  else if 'A' ≤ c && c ≤ 'F' then some (c.toNat - 'A'.toNat + 10)
  else none

/-- The character that a backslash and one letter stand for. -/
def shortEscape? : Char → Option Char
  | 'n' => some '\n'
  | 't' => some '\t'
  | '\\' => some '\\'
  | 'r' => some '\r'
  | '"' => some '"'
  | '0' => some (Char.ofNat 0)
  | _ => none

/-- The characters that the text between the quotes stands for. After `\x` come at most two
hexadecimal digits, and a backslash that begins no escape stands for itself.
-/
def unescape : List Char → List Char
  | [] => []
  | '\\' :: 'x' :: a :: b :: rest =>
    match hexValue? a, hexValue? b with
    | some high, some low => Char.ofNat (16 * high + low) :: unescape rest
    | some low, none => Char.ofNat low :: unescape (b :: rest)
    | none, _ => '\\' :: 'x' :: unescape (a :: b :: rest)
  | ['\\', 'x', a] =>
    match hexValue? a with
    | some low => [Char.ofNat low]
    | none => '\\' :: 'x' :: unescape [a]
  | '\\' :: c :: rest =>
    match shortEscape? c with
    | some escaped => escaped :: unescape rest
    | none => '\\' :: unescape (c :: rest)
  | c :: rest => c :: unescape rest

end BuildScript.Token
