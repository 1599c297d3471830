import Switchyard.Relay.Circuit

/-!
# Inspecting a circuit

Before a circuit is simulated it is inspected. Problems block the simulation: an empty circuit,
components of unknown kind, wires that end on nothing, and external ports that stand for the wrong
component. Cautions do not: relays with nothing on the coil or a contact, and a circuit without
power. A circuit with names that cannot be looked up cannot be inspected (`isInspectable`).
-/

namespace Switchyard.Relay

/-- What blocks a simulation. -/
inductive Problem where
  | noComponents
  | unknownKind (component : Ident) (kind : Kind)
  | missingComponent (wire component : Ident)
  | missingPort (wire port component : Ident) (kind : Kind)
  | unboundInput (port : Ident)
  | unboundOutput (port : Ident)
deriving DecidableEq

/-- What is suspicious. -/
inductive Caution where
  | unconnectedCoil (component : Ident) (kind : Kind)
  | unconnectedContacts (component : Ident) (kind : Kind) (ports : List Ident)
  | noPower
deriving DecidableEq

/-- The wording of a problem. -/
def Problem.message : Problem → String
  | .noComponents => "Circuit has no components. Add at least one component to simulate."
  | .unknownKind component kind =>
    s!"{component.display} has unknown component type '{kind.display}'."
  | .missingComponent wire component =>
    s!"Wire {wire.display} references missing component '{component.display}'."
  | .missingPort wire port component kind =>
    s!"Wire {wire.display} connects to port '{port.display}' which {component.display} ({kind.display}) does not have."
  | .unboundInput port => s!"Circuit input '{port.display}' is not bound to an input component."
  | .unboundOutput port => s!"Circuit output '{port.display}' is not bound to an output component."

/-- The wording of a caution. -/
def Caution.message : Caution → String
  | .unconnectedCoil component kind =>
    s!"{component.display} ({kind.display}) has an unconnected coil."
  | .unconnectedContacts component kind ports =>
    let list := (Json.arr (ports.map Ident.toJson)).shown
    s!"{component.display} ({kind.display}) has unconnected contact(s): {list}."
  | .noPower => "Circuit has no power source. Relay contacts will only carry input signals."

/-- The outcome of an inspection. -/
structure Inspection where
  problems : List Problem := []
  cautions : List Caution := []
deriving DecidableEq

/-- Whether nothing blocks a simulation. -/
def Inspection.passed (inspection : Inspection) : Bool :=
  inspection.problems.isEmpty

namespace Circuit

/-- What is wrong with the end of a wire, if anything. The ports of a component of unknown kind are
not known, so every port of it is taken. -/
def endProblem? (circuit : Circuit) (wire : Wire) (terminal : Terminal) : Option Problem :=
  match circuit.component? terminal.component with
  | none => some (.missingComponent wire.id terminal.component)
  | some component =>
    if component.kind.isKnown && !component.hasPort terminal.port then
      some (.missingPort wire.id terminal.port component.id component.kind)
    else none

/-- The terminals on which some wire ends properly. -/
def connected (circuit : Circuit) : List Terminal :=
  circuit.wires.flatMap (fun wire =>
    wire.terminals.filter (fun terminal => (circuit.endProblem? wire terminal).isNone))

/-- Whether a name is that of a component of the given kind. -/
def isOfKind (circuit : Circuit) (id : Ident) (kind : Kind) : Bool :=
  match circuit.component? id with
  | some component => component.kind = kind
  | none => false

/-- The problems of a circuit that has components. -/
def problems (circuit : Circuit) : List Problem :=
  (circuit.components.filter (!·.kind.isKnown)).map (fun c => .unknownKind c.id c.kind) ++
  circuit.wires.flatMap (fun wire => wire.terminals.filterMap (circuit.endProblem? wire)) ++
  (circuit.inputs.filter (fun port => !circuit.isOfKind port.component .input)).map
    (.unboundInput ·.id) ++
  (circuit.outputs.filter (fun port => !circuit.isOfKind port.component .output)).map
    (.unboundOutput ·.id)

/-- What is suspicious about a relay, given the terminals that are connected. -/
def relayCautions (connected : List Terminal) (component : Component) : List Caution :=
  let free := [contactIn, contactOut].filter (fun port => !connected.contains ⟨component.id, port⟩)
  (if connected.contains ⟨component.id, coilIn⟩ then []
    else [.unconnectedCoil component.id component.kind]) ++
  (if free.isEmpty then [] else [.unconnectedContacts component.id component.kind free])

/-- What is suspicious about a circuit that has components. -/
def cautions (circuit : Circuit) : List Caution :=
  (circuit.components.filter (·.kind.isRelay)).flatMap (relayCautions circuit.connected) ++
  (if circuit.components.any (fun c => c.kind = .power) then [] else [.noPower])

/-- Whether the end of a wire can be inspected: its component can be looked up, and so can its port
unless the end is a problem. -/
def canInspectEnd (circuit : Circuit) (wire : Wire) (terminal : Terminal) : Bool :=
  terminal.component.isScalar &&
    (terminal.port.isScalar || (circuit.endProblem? wire terminal).isSome)

/-- Whether everything that an inspection looks up can be looked up. -/
def isInspectable (circuit : Circuit) : Bool :=
  circuit.wires.all (fun wire => wire.terminals.all (circuit.canInspectEnd wire)) &&
    circuit.inputs.all (·.component.isScalar) && circuit.outputs.all (·.component.isScalar)

/-- Inspect a circuit. -/
def inspect (circuit : Circuit) : Except Fault Inspection :=
  if circuit.components.isEmpty then .ok { problems := [.noComponents] }
  else if circuit.isInspectable then
    .ok { problems := circuit.problems, cautions := circuit.cautions }
  else .error .notScalar

end Circuit

end Switchyard.Relay
