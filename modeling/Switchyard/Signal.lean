import Switchyard.Json.Key

/-!
# Three-valued signals

A wire or net is low, high or unknown. The connectives are those of three-valued logic: a result is
known as soon as the known operands determine it, and exclusive or needs both.
-/

namespace Switchyard

/-- A logic level. -/
inductive Signal where
  | low
  | high
  | unknown
deriving DecidableEq, Repr, Inhabited

namespace Signal

/-- The number by which a level is written. -/
def code : Signal → Int
  | low => 0
  | high => 1
  | unknown => 2

/-- The level that a number denotes. -/
def ofCode? (n : Int) : Option Signal :=
  if n = 0 then some low else if n = 1 then some high else if n = 2 then some unknown else none

/-- The level that a value denotes: it must be equal to the number of the level. -/
def ofJson? (value : Json) : Option Signal :=
  match value.key with
  | .int n => ofCode? n
  | _ => none

/-- The level that a number denotes, any number that denotes none being taken as unknown. -/
def ofCode (n : Int) : Signal :=
  (ofCode? n).getD unknown

/-- Whether the level is low or high. -/
def isKnown : Signal → Bool
  | unknown => false
  | _ => true

/-- Negation. -/
def not : Signal → Signal
  | low => high
  | high => low
  | unknown => unknown

/-- Conjunction: low as soon as one operand is. -/
def and : Signal → Signal → Signal
  | low, _ | _, low => low
  | high, high => high
  | _, _ => unknown

/-- Disjunction: high as soon as one operand is. -/
def or : Signal → Signal → Signal
  | high, _ | _, high => high
  | low, low => low
  | _, _ => unknown

/-- Exclusive or: known only if both operands are. -/
def xor : Signal → Signal → Signal
  | unknown, _ | _, unknown => unknown
  | low, low | high, high => low
  | _, _ => high

/-- The code of a level stands for that level. -/
theorem ofCode?_code (s : Signal) : ofCode? s.code = some s := by
  cases s <;> rfl

/-- A number stands for a level exactly as a code does. -/
theorem ofJson?_int (n : Int) : ofJson? (.int n) = ofCode? n := rfl

end Signal

/-- The wording for a value that denotes no level. -/
def invalidSignal (value : Json) : String :=
  s!"{value.shown} is not a valid SignalValue"

end Switchyard
