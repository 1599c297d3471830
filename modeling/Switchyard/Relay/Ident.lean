import Switchyard.Json.Key
import Switchyard.Json.Writer
import Switchyard.Text.Surrogate

/-!
# Identifiers

Components, wires and ports are named by JSON values, nearly always by strings. An identifier is
kept as it was written; two of them are compared by `==`, which holds when they name the same thing:
`1`, `1.0` and `true` are one name in three forms. Lists and objects can be compared too, but they
cannot be looked up, and an operation that comes to look one up fails.
-/

namespace Switchyard

/-- A name of a component, a wire or a port, as it was written. -/
structure Ident where
  value : Json
deriving DecidableEq, Inhabited

namespace Ident

/-- The identifier that a text is. -/
def text (name : String) : Ident := ⟨.str name⟩

/-- The identifier that the null value is. -/
def null : Ident := ⟨.null⟩

instance : Coe String Ident := ⟨text⟩

/-- The form in which an identifier is compared with others. -/
def key (i : Ident) : Json :=
  i.value.key

instance : BEq Ident := ⟨fun a b => a.key == b.key⟩

/-- Ids are equal exactly if their keys are. -/
theorem beq_iff {a b : Ident} : a == b ↔ a.key = b.key := by
  change (a.key == b.key) = true ↔ _
  simp

instance : EquivBEq Ident where
  rfl := beq_iff.2 rfl
  symm h := beq_iff.2 (beq_iff.1 h).symm
  trans h h' := beq_iff.2 ((beq_iff.1 h).trans (beq_iff.1 h'))

/-- Whether an identifier is the number that is not a number. -/
def isNaN (i : Ident) : Bool :=
  match i.value with
  | .real x => x.isNaN
  | _ => false

/-- Whether two identifiers are equal. The number that is not a number is found where it is looked
up, but it equals nothing. -/
def equals (i j : Ident) : Bool :=
  i == j && !i.isNaN

/-- Unless it is not a number, an id equals another exactly if it names the same thing. -/
theorem equals_eq_beq {i j : Ident} (h : i.isNaN = false) : i.equals j = (i == j) := by
  simp [equals, h]

/-- Whether an identifier can be looked up. -/
def isScalar (i : Ident) : Bool :=
  i.value.isScalar

/-- An identifier as a JSON value. -/
def toJson (i : Ident) : Json :=
  i.value

/-- An identifier as it stands in a message. -/
def display (i : Ident) : String :=
  i.value.display

/-- An identifier as the name of a member. -/
def member (i : Ident) : String :=
  match i.value with
  | .str s => s
  | value => value.compact

/-- Whether an identifier counts as absent where an optional one is asked for. -/
def isVoid (i : Ident) : Bool :=
  i.value.isVoid

/-- The identifier, or another one if it counts as absent. -/
def orElse (i other : Ident) : Ident :=
  if i.isVoid then other else i

/-- Whether an identifier is a text. -/
def isText (i : Ident) : Bool :=
  match i.value with
  | .str _ => true
  | _ => false

/-- Whether an identifier is a number or a truth value. -/
def isNumber (i : Ident) : Bool :=
  i.value.isNumber

/-- The order in which identifiers are listed: numbers by size, texts by code points. -/
def below (a b : Ident) : Bool :=
  match a.value, b.value with
  | .str s, .str t => Text.codePoints s < Text.codePoints t
  | a, b => a.numberBelow b

/-- Whether identifiers can be put in order: all of them are texts or all numbers, or they are one
and the same. -/
def areOrdered : List Ident → Bool
  | [] => true
  | i :: rest =>
    (i :: rest).all isText || (i :: rest).all isNumber || rest.all (· == i)

end Ident

end Switchyard
