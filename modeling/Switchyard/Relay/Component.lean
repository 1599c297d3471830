import Switchyard.Relay.Ident

/-!
# Components

A component is a relay, a source, a sink or a compound gate placed at a position. Its kind decides
which ports it has. Position, rotation and label belong to whoever draws the circuit; they are kept
as they were read. A kind that is not known is kept too, and has no ports.
-/

namespace Switchyard.Relay

/-- What a component is. -/
inductive Kind where
  /-- A relay whose switch is closed while its coil is energized. -/
  | relayNo
  /-- A relay whose switch is open while its coil is energized. -/
  | relayNc
  | power
  | ground
  | input
  | output
  | notGate
  | andGate
  | orGate
  | nandGate
  | norGate
  | xorGate
  | other (value : Json)
deriving DecidableEq

namespace Kind

/-- The known kinds, in the order of the table. -/
def known : List Kind :=
  [relayNo, relayNc, power, ground, input, output, notGate, andGate, orGate, nandGate, norGate,
    xorGate]

/-- A kind as a JSON value. -/
def toJson : Kind → Json
  | relayNo => .str "relay_no"
  | relayNc => .str "relay_nc"
  | power => .str "power"
  | ground => .str "ground"
  | input => .str "input"
  | output => .str "output"
  | notGate => .str "not"
  | andGate => .str "and"
  | orGate => .str "or"
  | nandGate => .str "nand"
  | norGate => .str "nor"
  | xorGate => .str "xor"
  | other value => value

/-- The kind that a value names. -/
def ofJson (value : Json) : Kind :=
  (known.find? (fun kind => kind.toJson = value)).getD (other value)

/-- Whether the kind is one of the table. -/
def isKnown : Kind → Bool
  | other _ => false
  | _ => true

/-- Whether the kind can be looked up in the table. -/
def isScalar : Kind → Bool
  | other value => value.isScalar
  | _ => true

/-- Whether the kind is a relay. -/
def isRelay : Kind → Bool
  | relayNo | relayNc => true
  | _ => false

/-- The name of a kind in messages. -/
def display (kind : Kind) : String :=
  kind.toJson.display

/-- The behaviour a kind belongs to; the compound gates share one. -/
def category? : Kind → Option String
  | notGate | andGate | orGate | nandGate | norGate | xorGate => some "user_gate"
  | other _ => none
  | kind => some kind.display

/-- The name of a kind for users; a kind that is not known is its own name. -/
def title : Kind → Json
  | relayNo => .str "Relay (NO)"
  | relayNc => .str "Relay (NC)"
  | power => .str "Power (VCC)"
  | ground => .str "Ground (GND)"
  | input => .str "Input"
  | output => .str "Output"
  | notGate => .str "NOT Gate"
  | andGate => .str "AND Gate"
  | orGate => .str "OR Gate"
  | nandGate => .str "NAND Gate"
  | norGate => .str "NOR Gate"
  | xorGate => .str "XOR Gate"
  | other value => value

end Kind

/-- The ports of a relay. -/
def coilIn : Ident := .text "coil_in"

@[inherit_doc coilIn]
def coilOut : Ident := .text "coil_out"

@[inherit_doc coilIn]
def contactIn : Ident := .text "contact_in"

@[inherit_doc coilIn]
def contactOut : Ident := .text "contact_out"

/-- The port at which a source or a gate puts out its level. -/
def outPort : Ident := .text "out"

/-- The port at which a sink or an inverter takes in a level. -/
def inPort : Ident := .text "in"

/-- The ports of a kind. -/
def Kind.ports : Kind → List Ident
  | .relayNo | .relayNc => [coilIn, coilOut, contactIn, contactOut]
  | .power | .input => [outPort]
  | .ground | .output => [inPort]
  | .notGate => [inPort, outPort]
  | .andGate | .orGate | .nandGate | .norGate | .xorGate => [.text "a", .text "b", outPort]
  | .other _ => []

/-- A placed component. -/
structure Component where
  id : Ident
  kind : Kind
  x : Binary64 := .zero false
  y : Binary64 := .zero false
  rotation : Json := .int 0
  label : Json := .null
deriving DecidableEq

namespace Component

/-- The ports of a component. -/
def ports (component : Component) : List Ident :=
  component.kind.ports

/-- Whether a component has a port of a name. -/
def hasPort (component : Component) (port : Ident) : Bool :=
  component.ports.contains port

/-- A component shown with its name and kind. -/
def summary (component : Component) : String :=
  s!"ComponentData({component.id.display}, {component.kind.display})"

/-- A component as a JSON object, with its label if there is one. -/
def toJson (component : Component) : Json :=
  .obj ([("id", component.id.toJson), ("type", component.kind.toJson),
      ("pos", .obj [("x", .real component.x), ("y", .real component.y)]),
      ("rotation", component.rotation)] ++
    (if component.label.isVoid then [] else [("label", component.label)]))

end Component

end Switchyard.Relay
