import Switchyard.Logic.Circuit
import Switchyard.Signal

/-!
# Rounds of gate evaluation

In a round every gate is evaluated on the same wire states (`evaluate`), and only then are the
results written, gate after gate, so that of several gates that drive one bit the last one decides
(`round`). Rounds are repeated until one changes nothing or their number reaches a cap (`settle`).
A port that denotes no bit reads as unknown and takes no result.
-/

namespace Switchyard.Logic

/-- What an operation on a gate circuit can refuse. -/
inductive Fault where
  /-- No wire has the name. -/
  | unknownWire (name : String)
  /-- The wire does not have the bit. -/
  | bitOutOfRange (bit : Int) (name : String) (width : Int)
  /-- The value denotes no level. -/
  | invalidLevel (value : Json)
  /-- A position lies outside its list. -/
  | noEntry
deriving DecidableEq

/-- The wording of a fault; a position outside its list has none. -/
def Fault.message? : Fault → Option String
  | .unknownWire name => some s!"Unknown wire '{name}'"
  | .bitOutOfRange bit name width =>
    some s!"Bit {bit} is out of range for wire '{name}' (width {width})"
  | .invalidLevel value => some (invalidSignal value)
  | .noEntry => none

/-- The level that a code denotes. -/
def levelOf (code : Int) : Except Fault Signal :=
  match Signal.ofCode? code with
  | some level => .ok level
  | none => .error (.invalidLevel (.int code))

/-- The code at a port, if the port denotes a bit. -/
def codeAt? (wires : List Wire) (port : Port) : Option Int :=
  if 0 ≤ port.wire ∧ 0 ≤ port.bit then
    wires[port.wire.toNat]?.bind (fun wire => wire.state[port.bit.toNat]?)
  else none

/-- The level at a port; unknown if the port denotes no bit. -/
def read (wires : List Wire) (port : Port) : Except Fault Signal :=
  match codeAt? wires port with
  | some code => levelOf code
  | none => .ok .unknown

/-- The wires with the level at a port set; unchanged if the port denotes no bit. -/
def write (wires : List Wire) (port : Port) (level : Signal) : List Wire :=
  if 0 ≤ port.wire ∧ 0 ≤ port.bit then
    wires.modify port.wire.toNat
      (fun wire => { wire with state := wire.state.set port.bit.toNat level.code })
  else wires

/-- What a kind without memory makes of its inputs, given in order. A multiplexer chooses the first
input when the third is low and the second when it is high. -/
def combine : GateKind → List Signal → Signal
  | .not, v :: _ => v.not
  | .buf, v :: _ => v
  | .and, v :: vs => vs.foldl Signal.and v
  | .or, v :: vs => vs.foldl Signal.or v
  | .nand, v :: vs => (vs.foldl Signal.and v).not
  | .nor, v :: vs => (vs.foldl Signal.or v).not
  | .xor, v :: vs => vs.foldl Signal.xor v
  | .mux, a :: _ :: .low :: _ => a
  | .mux, _ :: b :: .high :: _ => b
  | _, _ => .unknown

/-- What a flip-flop puts out: the level it stores. -/
def storedLevel (gate : Gate) : Except Fault Signal :=
  match gate.stored with
  | some code => levelOf code
  | none => .ok .unknown

/-- What a latch puts out: its first input while the second is high, and what its first output
holds while the second is low. -/
def latchLevel (wires : List Wire) (gate : Gate) : List Signal → Except Fault Signal
  | data :: .high :: _ => .ok data
  | _ :: .low :: _ =>
    match gate.outputs with
    | port :: _ => read wires port
    | [] => .ok .unknown
  | _ => .ok .unknown

/-- What a gate puts out in the given wire states; unknown for a gate without inputs or of no known
kind. -/
def evaluate (wires : List Wire) (gate : Gate) : Except Fault Signal := do
  let levels ← gate.inputs.mapM (read wires)
  if levels.isEmpty then return .unknown
  match GateKind.ofLabel? gate.kind with
  | some .dff => storedLevel gate
  | some .latch => latchLevel wires gate levels
  | some kind => return combine kind levels
  | none => return .unknown

/-- The wires with the outputs of a gate set. -/
def drive (wires : List Wire) (gate : Gate) (level : Signal) : List Wire :=
  gate.outputs.foldl (fun wires port => write wires port level) wires

/-- The wires after one round: every gate evaluated on the old states, the results written in the
order of the gates. -/
def round (gates : List Gate) (wires : List Wire) : Except Fault (List Wire) := do
  let levels ← gates.mapM (evaluate wires)
  return (gates.zip levels).foldl (fun wires (gate, level) => drive wires gate level) wires

/-- Rounds until one changes nothing, at most `fuel` of them, after `done` earlier ones. Gives the
wires reached and the number of rounds, the last one included that found nothing to change; no
number if the rounds ran out. A fault keeps the wires of the rounds before it. -/
def settle (gates : List Gate) :
    (fuel : Nat) → (done : Nat) → List Wire → List Wire × Except Fault (Option Nat)
  | 0, _, wires => (wires, .ok none)
  | fuel + 1, done, wires =>
    match round gates wires with
    | .error fault => (wires, .error fault)
    | .ok next =>
      if next = wires then (wires, .ok (some (done + 1))) else settle gates fuel (done + 1) next

end Switchyard.Logic
