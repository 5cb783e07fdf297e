/-! Decimal numerals of 64-bit integers. -/

namespace BuildScript.Decimal

/-- The value of a sequence of decimal digits that continues the digits of `seen`. -/
def readDigitsFrom? (seen : Nat) : List Char → Option Nat
  | [] => some seen
  | c :: rest =>
    if c.isDigit then readDigitsFrom? (10 * seen + (c.toNat - '0'.toNat)) rest else none

/-- The value of a non-empty sequence of decimal digits. -/
def readNat? : List Char → Option Nat
  | [] => none
  | digits => readDigitsFrom? 0 digits

/-- An integer as a 64-bit word, if it is in range. -/
def toInt64? (value : Int) : Option Int64 :=
  if Int64.minValue.toInt ≤ value ∧ value ≤ Int64.maxValue.toInt then some (Int64.ofInt value)
  else none

/-- The value of a decimal numeral with an optional sign, if it is in range. -/
def readInt64? : List Char → Option Int64
  | '-' :: digits => (readNat? digits).bind fun n => toInt64? (-n)
  | '+' :: digits => (readNat? digits).bind fun n => toInt64? n
  | digits => (readNat? digits).bind fun n => toInt64? n

/-- The digits of an integer, after a minus sign if it is negative. -/
def writeInt64 (value : Int64) : String := toString value.toInt

end BuildScript.Decimal
