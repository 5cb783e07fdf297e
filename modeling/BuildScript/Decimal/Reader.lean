import BuildScript.Decimal.Binary64
import BuildScript.Decimal.Integer

/-! Decimal numerals of binary64 numbers. -/

namespace BuildScript.Decimal

/-- Beyond this power of ten, in either direction, all numbers are infinite or zero. -/
def powerLimit : Int := 400

/-- The number nearest to `digits * 10 ^ exponent`. -/
def nearestScientific (negative : Bool) (digits : Nat) (exponent : Int) : Float :=
  let magnitude : Int := (Nat.toDigits 10 digits).length + exponent
  if digits == 0 || magnitude < -powerLimit then nearestFloat negative 0 1
  else if powerLimit < magnitude then
    Float.ofBits (UInt64.ofNat (infinityBits + if negative then signBit else 0))
  else if exponent < 0 then nearestFloat negative digits (Nat.pow 10 exponent.natAbs)
  else nearestFloat negative (digits * Nat.pow 10 exponent.natAbs) 1

/-- The value of an exponent part, which is empty or begins with an `e`. -/
def readExponent? : List Char → Option Int
  | [] => some 0
  | c :: rest =>
    if c == 'e' || c == 'E' then
      match rest with
      | '-' :: digits => (readNat? digits).map fun n => -(n : Int)
      | '+' :: digits => (readNat? digits).map fun n => (n : Int)
      | digits => (readNat? digits).map fun n => (n : Int)
    else none

/-- The value of a numeral without a sign: digits with an optional point among, before or
after them, and an optional exponent.
-/
def readUnsigned? (negative : Bool) (text : List Char) : Option Float :=
  let whole := text.takeWhile Char.isDigit
  let afterWhole := text.dropWhile Char.isDigit
  let fraction :=
    match afterWhole with
    | '.' :: rest => rest.takeWhile Char.isDigit
    | _ => []
  let afterFraction :=
    match afterWhole with
    | '.' :: rest => rest.dropWhile Char.isDigit
    | _ => afterWhole
  match readNat? (whole ++ fraction), readExponent? afterFraction with
  | some digits, some exponent =>
    some (nearestScientific negative digits (exponent - fraction.length))
  | _, _ => none

/-- The value of a numeral or of a name of an infinity or of the number that is none, with an
optional sign.
-/
def readFloat? (text : List Char) : Option Float :=
  let (negative, body) :=
    match text with
    | '-' :: rest => (true, rest)
    | '+' :: rest => (false, rest)
    | _ => (false, text)
  let name := String.ofList (body.map Char.toLower)
  if name == "inf" || name == "infinity" then
    some (Float.ofBits (UInt64.ofNat (infinityBits + if negative then signBit else 0)))
  else if name == "nan" then some (0.0 / 0.0)
  else readUnsigned? negative body

end BuildScript.Decimal
