import Switchyard.Hdl.GateKind
import Switchyard.Hdl.Program
import Switchyard.Json.Value
import Switchyard.Signal

/-!
# Gate circuits

A gate circuit is a program made ready to run: wires are addressed by number and hold a state, one
level code a bit, and gates refer to wire bits by port. Building one from a program
(`Circuit.ofProgram`) numbers wires and gates in order, sets every bit low, and gives flip-flops a
stored low. A wire name declared twice denotes its last declaration.
-/

namespace Switchyard.Logic

/-- One bit of a wire, by the wire's number. -/
structure Port where
  wire : Int
  bit : Int := 0
deriving DecidableEq, Repr

/-- A wire with the level codes of its bits. -/
structure Wire where
  id : Int
  name : String
  width : Int
  isInput : Bool := false
  isOutput : Bool := false
  state : List Int := []
deriving DecidableEq, Repr

/-- A gate. Only flip-flops store a level. -/
structure Gate where
  id : Int
  name : String
  kind : String
  inputs : List Port := []
  outputs : List Port := []
  stored : Option Int := none
deriving DecidableEq, Repr

/-- A circuit together with how far its simulation has come. -/
structure Circuit where
  cycle : Int := 0
  stable : Bool := true
  wires : List Wire := []
  gates : List Gate := []
deriving DecidableEq, Repr

/-- Why a program cannot be built. -/
inductive BuildFault where
  /-- A wire has no bit. -/
  | noBits (width : Int) (name : String)
  /-- A gate refers to a wire that is not declared. -/
  | undefinedWire (name : String)
deriving DecidableEq, Repr

/-- The wording of a build fault. -/
def BuildFault.message : BuildFault → String
  | .noBits width name =>
    s!"Invalid width {width} for wire '{name}' - a wire needs at least one bit"
  | .undefinedWire name =>
    s!"Undefined wire reference: '{name}' - wire must be declared before use in gates"

/-- The number of the wire that a name denotes: that of its last declaration. -/
def wireNumber? (name : String) : List Hdl.Wire → Option Nat
  | [] => none
  | wire :: rest =>
    match wireNumber? name rest with
    | some n => some (n + 1)
    | none => if wire.name = name then some 0 else none

/-- The port that a reference denotes. -/
def Port.ofRef (declared : List Hdl.Wire) (ref : Hdl.Ref) : Except BuildFault Port :=
  match wireNumber? ref.wire declared with
  | some n => .ok ⟨n, ref.bit⟩
  | none => .error (.undefinedWire ref.wire)

/-- The wire built from a declaration, every bit low. -/
def Wire.ofDeclared (wire : Hdl.Wire) (number : Nat) : Except BuildFault Wire :=
  if wire.width < 1 then .error (.noBits wire.width wire.name)
  else .ok {
    id := number
    name := wire.name
    width := wire.width
    isInput := wire.isInput
    isOutput := wire.isOutput
    state := List.replicate wire.width.toNat Signal.low.code }

/-- What a gate of the given kind stores at first. -/
def initialStored (kind : String) : Option Int :=
  if kind = GateKind.dff.label then some Signal.low.code else none

/-- The gate built from a program's gate. -/
def Gate.ofDeclared (declared : List Hdl.Wire) (gate : Hdl.Gate) (number : Nat) :
    Except BuildFault Gate := do
  let inputs ← gate.inputs.mapM (Port.ofRef declared)
  let outputs ← gate.outputs.mapM (Port.ofRef declared)
  let kind := Text.upper gate.kind
  return { id := number, name := gate.name, kind, inputs, outputs, stored := initialStored kind }

/-- The circuit of a program. The first wire without a bit is reported before any reference that
denotes no wire, and references in the order of the gates, inputs before outputs. -/
def Circuit.ofProgram (program : Hdl.Program) : Except BuildFault Circuit := do
  let wires ← program.wires.zipIdx.mapM (fun (wire, number) => Wire.ofDeclared wire number)
  let gates ← program.gates.zipIdx.mapM
    (fun (gate, number) => Gate.ofDeclared program.wires gate number)
  return { wires, gates }

/-- The first wire with a name. -/
def Circuit.wireByName? (circuit : Circuit) (name : String) : Option Wire :=
  circuit.wires.find? (·.name = name)

/-- A port as a JSON object. -/
def Port.toJson (port : Port) : Json :=
  .obj [("wire", .int port.wire), ("bit", .int port.bit)]

/-- A wire as a JSON object. -/
def Wire.toJson (wire : Wire) : Json :=
  .obj [("id", .int wire.id), ("name", .str wire.name), ("width", .int wire.width),
    ("is_input", .bool wire.isInput), ("is_output", .bool wire.isOutput),
    ("state", .arr (wire.state.map .int))]

/-- A gate as a JSON object, with the stored level if there is one. -/
def Gate.toJson (gate : Gate) : Json :=
  .obj ([("id", .int gate.id), ("name", .str gate.name), ("type", .str gate.kind),
      ("inputs", .arr (gate.inputs.map Port.toJson)),
      ("outputs", .arr (gate.outputs.map Port.toJson))] ++
    (gate.stored.map (fun n => ("stored", Json.int n))).toList)

/-- A circuit as a JSON object. -/
def Circuit.toJson (circuit : Circuit) : Json :=
  .obj [("cycle", .int circuit.cycle), ("stable", .bool circuit.stable),
    ("wires", .arr (circuit.wires.map Wire.toJson)),
    ("gates", .arr (circuit.gates.map Gate.toJson))]

end Switchyard.Logic
