import BuildScript.Text.Property

/-! Text between double quotes, with everything escaped that would not show. -/

namespace BuildScript.Text

/-- Whether a character can be seen as itself: it has a shape, is not ignored where text is
shown, and does not merge with the character before it.
-/
def isVisible (c : Char) : Bool :=
  isPrintable c && !isDefaultIgnorable c && (!isGraphemeExtend c || isSoundMark c)

/-- How one character is written between quotes: the quote, the backslash and the common
controls by a letter, any other character that cannot be seen as itself by its code point in
lower-case hexadecimal.
-/
def quotedChar (c : Char) : String :=
  if c == '"' then "\\\""
  else if c == '\\' then "\\\\"
  else if c == '\t' then "\\t"
  else if c == '\n' then "\\n"
  else if c == '\r' then "\\r"
  else if c.toNat == 0 then "\\0"
  else if isVisible c then c.toString
  else "\\u\x7b" ++ String.ofList (Nat.toDigits 16 c.toNat) ++ "\x7d"

/-- A text between double quotes. -/
def quoted (text : String) : String :=
  "\"" ++ String.join (text.toList.map quotedChar) ++ "\""

end BuildScript.Text
