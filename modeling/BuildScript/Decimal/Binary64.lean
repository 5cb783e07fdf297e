/-! Binary floating-point numbers as integers times powers of two, and the rounding of
fractions to the nearest of them, to the even one of two.
-/

namespace BuildScript.Decimal

/-- The least power of two that a binary64 number is a multiple of. -/
def leastExponent : Int := -1074

/-- The bits of positive infinity. -/
def infinityBits : Nat := 0x7FF0000000000000

/-- The bit of the sign. -/
def signBit : Nat := 0x8000000000000000

/-- The bit that begins the 53 bits of a mantissa, where it is understood and not stored. -/
def leadingBit : Nat := 0x10000000000000

/-- A fraction with the quotient scaled by `2 ^ -exponent`. -/
def scaleFraction (num den : Nat) (exponent : Int) : Nat × Nat :=
  if exponent < 0 then (num <<< exponent.natAbs, den) else (num, den <<< exponent.natAbs)

/-- The integer nearest to a fraction, the even one of two. -/
def roundHalfEven (num den : Nat) : Nat :=
  let quotient := num / den
  let twice := 2 * (num % den)
  if den < twice || (twice == den && quotient % 2 == 1) then quotient + 1 else quotient

/-- The power of two of the last bit kept of a positive fraction, so that 53 bits are kept or
the least exponent is reached.
-/
def lastBitExponent (num den : Nat) : Int :=
  let guess : Int := (num.log2 : Int) - den.log2 - 53
  let scaled := scaleFraction num den guess
  max leastExponent (if 2 * leadingBit ≤ scaled.1 / scaled.2 then guess + 1 else guess)

/-- The bits of the non-negative binary64 number nearest to a fraction. -/
def nearestBits (num den : Nat) : Nat :=
  if num == 0 then 0
  else
    let exponent := lastBitExponent num den
    let scaled := scaleFraction num den exponent
    min infinityBits
      ((exponent - leastExponent).natAbs * leadingBit + roundHalfEven scaled.1 scaled.2)

/-- The number with the given sign that is nearest to a fraction. -/
def nearestFloat (negative : Bool) (num den : Nat) : Float :=
  Float.ofBits (UInt64.ofNat (nearestBits num den + if negative then signBit else 0))

/-- A finite positive binary64 number: `mantissa * 2 ^ exponent`. -/
structure Binary64 where
  mantissa : Nat
  exponent : Int
deriving Repr, DecidableEq

/-- The absolute value of a finite number. -/
def Binary64.ofBits (bits : Nat) : Binary64 :=
  let biased := bits / leadingBit % 0x800
  let fraction := bits % leadingBit
  if biased == 0 then ⟨fraction, leastExponent⟩
  else ⟨leadingBit + fraction, leastExponent + (biased - 1 : Nat)⟩

end BuildScript.Decimal
