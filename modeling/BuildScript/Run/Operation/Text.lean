import BuildScript.Run.Effect
import BuildScript.Text.Case
import BuildScript.Text.Edit

/-! The operations of `string`. Positions and sizes count bytes. -/

namespace BuildScript

open Effect

/-- A size that a string or list is to have. -/
def Container.checkSize (container : Container) (size : Int) : Except Fault Nat :=
  if size < 0 then .error (.negativeSize container size)
  else if maxContainerSize < size.toNat then .error (.excessiveSize container size)
  else .ok size.toNat

/-- The count that stands for the whole rest. -/
def unlimited : Int := Int64.maxValue.toInt

/-- The number of times that a text is to be repeated, which is not more often than a string
can hold.
-/
def repetitions (text : String) (count : Int) : Except Fault Nat := do
  let count := count.toNat
  let size := min (text.utf8ByteSize * count : Int) unlimited
  let _ ← Container.checkSize .string size
  return if text.isEmpty then 0 else count

/-- Performs an operation of `string`. -/
def StringOperation.perform (operation : StringOperation) (self : Handle)
    (operands : List Handle)
    : Effect Handle := do
  let this ← valueOf self
  let values ← valuesOf operands
  let text := this.asString
  let first := values.headD .void
  let second? := values[1]?
  let edited {α : Type} : Except Int α → Effect α := ofExcept .stringPosition
  match operation with
  | .default => string ""
  | .copy => string first.asString
  | .repeated =>
    let count ← ofExcept id
      (repetitions first.asString ((second?.map Value.asInt).getD 0).toInt)
    string (Text.repeated first.asString count)
  | .isEmpty => bool text.isEmpty
  | .size => int (Int64.ofNat text.utf8ByteSize)
  | .compare comparison => test comparison this first
  | .append => string (text ++ first.asString)
  | .assign => overwrite self (← operand operands 0)
  | .appendTo => change self (.string (text ++ first.asString))
  | .clear => become self (.string "")
  | .insert =>
    let inserted := (second?.map Value.asString).getD ""
    become self (.string (← edited (Text.insert text first.asInt.toInt inserted)))
  | .eraseFrom | .erase =>
    let count := (second?.map fun value => value.asInt.toInt).getD unlimited
    become self (.string (← edited (Text.erase text first.asInt.toInt count)))
  | .startsWith => bool (Text.startsWith first.asString text)
  | .endsWith => bool (Text.endsWith first.asString text)
  | .replace =>
    let count := (second?.map fun value => value.asInt.toInt).getD 0
    let replacement := (values[2]?.map Value.asString).getD ""
    become self
      (.string (← edited (Text.replace text first.asInt.toInt count replacement)))
  | .substringFrom | .substring =>
    let count := (second?.map fun value => value.asInt.toInt).getD unlimited
    string (← edited (Text.substring text first.asInt.toInt count))
  | .resize | .resizeWith =>
    let size ← ofExcept id (Container.checkSize .string first.asInt.toInt)
    let fill := (second?.map Value.asString).getD "\x00"
    become self (.string (← edited (Text.resize text size fill)))
  | .find | .findFrom =>
    let offset := (second?.map fun value => value.asInt.toInt).getD 0
    place (← edited (Text.find text offset first.asString))
  | .findNotOf | .findNotOfFrom =>
    let offset := (second?.map fun value => value.asInt.toInt).getD 0
    place (← edited (Text.findNotOf text offset first.asString))
  | .findLast => place (Text.findLast? first.asString text)
  | .findLastNotOf => place (Text.findLastNotOf? first.asString text)
  | .contains => bool (Text.contains first.asString text)
  | .lower => string (Text.toLower text)
  | .makeLower => become self (.string (Text.toLower text))
  | .upper => string (Text.toUpper text)
  | .makeUpper => become self (.string (Text.toUpper text))

end BuildScript
