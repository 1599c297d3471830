import Switchyard.Json.Value

/-!
# Values as integers

Where a table asks for an integer, a number loses its fraction, a truth value counts as one or zero,
and a text is read as a numeral.
-/

namespace Switchyard.Json

/-- Why a value is no integer. -/
inductive IntegerFault where
  /-- A text does not denote an integer. -/
  | badNumeral (text : String)
  /-- A numeral has more digits than are read. -/
  | tooLong (digits : Nat)
  /-- The number is not a number. -/
  | nan
  /-- The number is infinite. -/
  | infinite
  /-- The value is neither number nor text. -/
  | wrongType
deriving DecidableEq, Repr

/-- The most characters of a quoted text that a complaint shows. -/
def maxShown : Nat := 200

/-- The wording of a fault, for those that have one. -/
def IntegerFault.message? : IntegerFault → Option String
  | .badNumeral text =>
    let shown := String.ofList ((Text.quoted text).toList.take maxShown)
    some s!"invalid literal for int() with base 10: {shown}"
  | .tooLong digits => some (Text.tooLongMessage digits)
  | .nan => some "cannot convert float NaN to integer"
  | .infinite | .wrongType => none

/-- The integer that a value denotes. -/
def toInteger : Json → Except IntegerFault Int
  | .int n => .ok n
  | .bool b => .ok (if b then 1 else 0)
  | .real x =>
    if x.isNaN then .error .nan else if x.isInfinite then .error .infinite else .ok x.truncate
  | .str s =>
    match Text.readInteger s with
    | .ok n => .ok n
    | .error .malformed => .error (.badNumeral s)
    | .error (.tooLong digits) => .error (.tooLong digits)
  | _ => .error .wrongType

end Switchyard.Json
