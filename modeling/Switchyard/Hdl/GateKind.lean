import Switchyard.Text.Letter
import Switchyard.Text.Upper

/-!
# Kinds of gates

The ten gate primitives and the number of operands that each takes. A program names a kind in any
case; a built circuit names it in upper case.
-/

namespace Switchyard

/-- A gate primitive. -/
inductive GateKind where
  | and
  | or
  | xor
  | not
  | buf
  | nand
  | nor
  | mux
  | dff
  | latch
deriving DecidableEq, Repr

/-- How many operands a kind takes; without a most, any number from the least on. -/
structure GateArity where
  least : Nat
  most : Option Nat
  outputs : Nat := 1
deriving DecidableEq, Repr

namespace GateKind

/-- Every kind, in the order of the table. -/
def all : List GateKind :=
  [and, or, xor, not, buf, nand, nor, mux, dff, latch]

/-- The name of a kind in lower case. -/
def name : GateKind → String
  | and => "and"
  | or => "or"
  | xor => "xor"
  | not => "not"
  | buf => "buf"
  | nand => "nand"
  | nor => "nor"
  | mux => "mux"
  | dff => "dff"
  | latch => "latch"

/-- The name of a kind in upper case. -/
def label : GateKind → String
  | and => "AND"
  | or => "OR"
  | xor => "XOR"
  | not => "NOT"
  | buf => "BUF"
  | nand => "NAND"
  | nor => "NOR"
  | mux => "MUX"
  | dff => "DFF"
  | latch => "LATCH"

/-- The number of operands of a kind. -/
def arity : GateKind → GateArity
  | and | or | xor | nand | nor => ⟨2, none, 1⟩
  | not | buf => ⟨1, some 1, 1⟩
  | mux => ⟨3, some 3, 1⟩
  | dff | latch => ⟨2, some 2, 1⟩

/-- The kind that a program names. -/
def ofName? (s : String) : Option GateKind :=
  all.find? (fun kind => kind.name == Text.lower s)

/-- The kind that a built circuit names. -/
def ofLabel? (s : String) : Option GateKind :=
  all.find? (fun kind => kind.label == Text.upper s)

end GateKind

/-- Whether a number of inputs is not above the most that an arity allows. -/
def GateArity.allows (arity : GateArity) (inputs : Nat) : Bool :=
  match arity.most with
  | some most => inputs ≤ most
  | none => true

end Switchyard
