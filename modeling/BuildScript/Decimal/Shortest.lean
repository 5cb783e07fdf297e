import BuildScript.Decimal.Binary64

/-! The shortest decimal fraction that reads back as a given binary64 number: of the decimal
fractions with the fewest digits that round to the number, the one nearest to it, and the
greater of two that are equally near.
-/

namespace BuildScript.Decimal

/-- The decimal number `digits * 10 ^ exponent`. -/
structure Scientific where
  digits : Nat
  exponent : Int
deriving Repr, DecidableEq

/-- The exponent of the greatest power of ten that is not above a positive fraction. -/
def leadingPower (num den : Nat) : Int :=
  if den ≤ num then ((Nat.toDigits 10 (num / den)).length : Int) - 1
  else -((Nat.toDigits 10 ((den + num - 1) / num - 1)).length : Int)

/-- A positive number and the ends of the interval of the fractions that round to it, over one
denominator. The ends belong to the interval when `closed`.
-/
structure Rounding where
  num : Nat
  low : Nat
  high : Nat
  den : Nat
  closed : Bool

/-- The interval of a positive number. Below a power of two the numbers are twice as dense. -/
def Rounding.ofBinary64 (x : Binary64) : Rounding :=
  let narrow := x.mantissa == leadingBit && x.exponent != leastExponent
  let scale := if x.exponent < 0 then 1 else 1 <<< x.exponent.natAbs
  { num := 4 * x.mantissa * scale
    low := (4 * x.mantissa - if narrow then 1 else 2) * scale
    high := (4 * x.mantissa + 2) * scale
    den := 4 * (if x.exponent < 0 then 1 <<< x.exponent.natAbs else 1)
    closed := x.mantissa % 2 == 0 }

/-- Whether `candidate * 10 ^ power` rounds to the number. -/
def Rounding.accepts (r : Rounding) (candidate : Nat) (power : Int) : Bool :=
  let value := if power < 0 then candidate * r.den else candidate * Nat.pow 10 power.natAbs * r.den
  let scale := if power < 0 then Nat.pow 10 power.natAbs else 1
  if r.closed then r.low * scale ≤ value && value ≤ r.high * scale
  else r.low * scale < value && value < r.high * scale

/-- The multiple of `10 ^ power` nearest to the number, of those that round to it. -/
def Rounding.onGrid? (r : Rounding) (power : Int) : Option Scientific :=
  let num := if power < 0 then r.num * Nat.pow 10 power.natAbs else r.num
  let den := if power < 0 then r.den else r.den * Nat.pow 10 power.natAbs
  let below := num / den
  let above := below + 1
  match r.accepts below power, r.accepts above power with
  | true, true => some ⟨if 2 * (num % den) < den then below else above, power⟩
  | true, false => some ⟨below, power⟩
  | false, true => some ⟨above, power⟩
  | false, false => none

/-- The shortest decimal number that reads back as `x`. Seventeen digits always do. -/
def shortest (x : Binary64) : Scientific :=
  let r := Rounding.ofBinary64 x
  let leading := leadingPower r.num r.den
  ((List.range 17).findSome? fun (n : Nat) => r.onGrid? (leading - n)).getD ⟨0, 0⟩

/-- A decimal number in positional notation, without a point if it is whole. -/
def Scientific.positional (s : Scientific) : String :=
  let digits := Nat.toDigits 10 s.digits
  if 0 ≤ s.exponent then
    String.ofList (digits ++ List.replicate s.exponent.natAbs '0')
  else
    let places := s.exponent.natAbs
    let padded := List.replicate (places + 1 - digits.length) '0' ++ digits
    let whole := padded.take (padded.length - places)
    let fraction := (padded.drop (padded.length - places)).reverse.dropWhile (· == '0')
    String.ofList (if fraction.isEmpty then whole else whole ++ '.' :: fraction.reverse)

/-- The text of a number: its shortest digits in positional notation, whatever its size. -/
def writeFloat (x : Float) : String :=
  if x.isNaN then "NaN"
  else
    let bits := x.toBits.toNat
    let sign := if signBit ≤ bits then "-" else ""
    if bits % signBit == infinityBits then sign ++ "inf"
    else
      let finite := Binary64.ofBits bits
      if finite.mantissa == 0 then sign ++ "0" else sign ++ (shortest finite).positional

end BuildScript.Decimal
