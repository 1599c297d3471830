import Switchyard.Relay.Wire
import Switchyard.Signal

/-!
# Relay circuits

A relay circuit holds components under distinct names (`Placement`), wires between their ports, and
the external inputs and outputs that stand for some of its components. Editing it keeps it well
formed: a component or wire that would not fit is rejected with a reason, and the circuit stays as
it was. A name that cannot be looked up is a reason without words.

What inspecting or simulating a circuit can fail of is a `Fault`. Most faults have a wording for the
user; a missing state and a name that cannot be looked up have none.
-/

namespace Switchyard.Relay

/-- Components that stand each under its own name, no two under one. -/
structure Keyed (entries : List (Ident × Component)) : Prop where
  own : ∀ entry ∈ entries, entry.1 == entry.2.id
  distinct : (entries.map (·.1)).Pairwise (fun a b => (a == b) = false)

theorem keyed_nil : Keyed [] where
  own _ h := nomatch h
  distinct := .nil

/-- The components of a circuit under their names. -/
structure Placement where
  entries : List (Ident × Component) := []
  keyed : Keyed entries := by exact keyed_nil
deriving DecidableEq

namespace Placement

/-- A component is put under its own id, so the entries stay keyed. -/
theorem keyed_put {entries : List (Ident × Component)} (h : Keyed entries)
    (component : Component) : Keyed (Assoc.put component.id component entries) where
  own entry hentry := by
    obtain hold | ⟨hkey, hvalue⟩ := Assoc.mem_of_mem_put hentry
    · exact h.own entry hold
    · rw [hvalue]
      exact hkey
  distinct := Assoc.pairwise_keys_put h.distinct

theorem keyed_filter {entries : List (Ident × Component)} (h : Keyed entries)
    (keep : Ident × Component → Bool) : Keyed (entries.filter keep) where
  own entry hentry := h.own entry (List.mem_filter.1 hentry).1
  distinct := h.distinct.sublist (List.filter_sublist.map _)

/-- The components with one more, which takes the place of one of its name. -/
def put (placement : Placement) (component : Component) : Placement :=
  ⟨Assoc.put component.id component placement.entries, keyed_put placement.keyed component⟩

/-- The components without that of a name. -/
def remove (placement : Placement) (id : Ident) : Placement :=
  ⟨placement.entries.filter (·.1 != id), keyed_filter placement.keyed _⟩

end Placement

/-- An external input or output, which stands for a component. -/
structure Port where
  id : Ident
  name : Ident
  direction : Json
  component : Ident
deriving DecidableEq

/-- A relay circuit. Its name, era and description are carried along and not looked into. -/
structure Circuit where
  id : Json := .str "untitled"
  name : Json := .str "Untitled"
  era : Json := .str "relay"
  /-- The components under their names. -/
  placed : Placement := {}
  wires : List Wire := []
  inputs : List Port := []
  outputs : List Port := []
  description : Json := .str ""
deriving DecidableEq

/-- Why an addition is rejected. -/
inductive Rejection where
  /-- A component of that name is there. -/
  | componentTaken (id : Ident)
  /-- A wire ends on no component. -/
  | unknownComponent (wire component : Ident)
  /-- A wire ends on a port that its component does not have. -/
  | unknownPort (wire component port : Ident)
  /-- A wire joins a terminal to itself. -/
  | selfLoop (wire : Ident)
  /-- A wire of that name, or between those terminals, is there. -/
  | wireTaken (wire existing : Ident)
  /-- A list or an object stands where something is looked up by name. -/
  | notScalar
deriving DecidableEq

/-- The wording of a rejection, for those that have one. -/
def Rejection.message? : Rejection → Option String
  | .componentTaken id => some s!"Component id '{id.display}' is already in use"
  | .unknownComponent wire component =>
    some s!"Wire {wire.display}: unknown component '{component.display}'"
  | .unknownPort wire component port =>
    some s!"Wire {wire.display}: {component.display} has no port '{port.display}'"
  | .selfLoop wire => some s!"Wire {wire.display}: cannot connect a port to itself"
  | .wireTaken wire existing =>
    some s!"Wire {wire.display}: already exists as {existing.display}"
  | .notScalar => none

namespace Circuit

/-- The components in order. -/
def components (circuit : Circuit) : List Component :=
  circuit.placed.entries.map (·.2)

/-- The names of the components in order. -/
def names (circuit : Circuit) : List Ident :=
  circuit.placed.entries.map (·.1)

/-- The component of a name. -/
def component? (circuit : Circuit) (id : Ident) : Option Component :=
  Assoc.get? id circuit.placed.entries

/-- The name of a port that stands for a component: its label, or a title with a number. -/
def portName (component : Component) (title : String) (number : Nat) : Ident :=
  if component.label.isVoid then .text s!"{title} {number}" else ⟨component.label⟩

/-- The circuit with a component added at the end. An input or output also becomes an external
port, named by its label or else by its number among the ports of its side. -/
def addComponent (circuit : Circuit) (component : Component) : Except Rejection Circuit :=
  if !component.id.isScalar then .error .notScalar
  else if (circuit.component? component.id).isSome then .error (.componentTaken component.id)
  else
    let placed := { circuit with placed := circuit.placed.put component }
    match component.kind with
    | .input =>
      let name := portName component "Input" (circuit.inputs.length + 1)
      .ok { placed with
        inputs := circuit.inputs ++ [⟨component.id, name, .str "input", component.id⟩] }
    | .output =>
      let name := portName component "Output" (circuit.outputs.length + 1)
      .ok { placed with
        outputs := circuit.outputs ++ [⟨component.id, name, .str "output", component.id⟩] }
    | _ => .ok placed

/-- The circuit without a component, its wires and its external ports, and the names of the wires
that went with it. -/
def removeComponent (circuit : Circuit) (id : Ident) : Circuit × List Ident :=
  if (circuit.component? id).isSome then
    ({ circuit with
        placed := circuit.placed.remove id
        wires := circuit.wires.filter (!·.touches id)
        inputs := circuit.inputs.filter (!·.component.equals id)
        outputs := circuit.outputs.filter (!·.component.equals id) },
      (circuit.wires.filter (·.touches id)).map (·.id))
  else (circuit, [])

/-- Why a wire cannot end on a terminal, if it cannot. -/
def endFault? (circuit : Circuit) (wire : Ident) (terminal : Terminal) : Option Rejection :=
  if !terminal.component.isScalar then some .notScalar
  else
    match circuit.component? terminal.component with
    | none => some (.unknownComponent wire terminal.component)
    | some component =>
      if !component.kind.isScalar then some .notScalar
      else if component.hasPort terminal.port then none
      else some (.unknownPort wire terminal.component terminal.port)

/-- Why a wire cannot be added beside another one, if it cannot. -/
def clash? (wire existing : Wire) : Option Rejection :=
  if existing.id.equals wire.id then some (.wireTaken wire.id existing.id)
  else if !existing.source.isScalar || !existing.target.isScalar then some .notScalar
  else if existing.joins wire.source wire.target then some (.wireTaken wire.id existing.id)
  else none

/-- Why a wire does not fit, if it does not: the ends are looked at first, then whether they are
distinct, then the wires that are there. -/
def wireFault? (circuit : Circuit) (wire : Wire) : Option Rejection :=
  match circuit.endFault? wire.id wire.source, circuit.endFault? wire.id wire.target with
  | some fault, _ => some fault
  | none, some fault => some fault
  | none, none =>
    if wire.source == wire.target then some (.selfLoop wire.id)
    else circuit.wires.findSome? (clash? wire)

/-- The circuit with a wire added at the end. -/
def addWire (circuit : Circuit) (wire : Wire) : Except Rejection Circuit :=
  match circuit.wireFault? wire with
  | some fault => .error fault
  | none => .ok { circuit with wires := circuit.wires ++ [wire] }

/-- The circuit without the wires of a name. -/
def removeWire (circuit : Circuit) (id : Ident) : Circuit :=
  { circuit with wires := circuit.wires.filter (!·.id.equals id) }

/-- The first wire of a name. -/
def wire? (circuit : Circuit) (id : Ident) : Option Wire :=
  circuit.wires.find? (·.id.equals id)

/-- The external port made for a component; a name or an own identifier that is absent is the
component's. -/
def newPort (direction : String) (component : Ident) (name id : Option Ident) : Port where
  id := (id.getD .null).orElse component
  name := (name.getD .null).orElse component
  direction := .str direction
  component := component

/-- The circuit with an external input added. -/
def addInput (circuit : Circuit) (port : Port) : Circuit :=
  { circuit with inputs := circuit.inputs ++ [port] }

/-- The circuit with an external output added. -/
def addOutput (circuit : Circuit) (port : Port) : Circuit :=
  { circuit with outputs := circuit.outputs ++ [port] }

/-- The circuit without components, wires and ports. -/
def clear (circuit : Circuit) : Circuit :=
  { circuit with placed := {}, wires := [], inputs := [], outputs := [] }

end Circuit

/-- An edit of a circuit. -/
inductive Edit where
  | addComponent (component : Component)
  | removeComponent (id : Ident)
  | addWire (wire : Wire)
  | removeWire (id : Ident)
  | addInput (component : Ident) (name id : Option Ident)
  | addOutput (component : Ident) (name id : Option Ident)
  | clear
deriving DecidableEq

/-- The circuit after an edit; a rejected one leaves it as it is. -/
def Circuit.edit (circuit : Circuit) : Edit → Circuit
  | .addComponent component =>
    match circuit.addComponent component with
    | .ok next => next
    | .error _ => circuit
  | .removeComponent id => (circuit.removeComponent id).1
  | .addWire wire =>
    match circuit.addWire wire with
    | .ok next => next
    | .error _ => circuit
  | .removeWire id => circuit.removeWire id
  | .addInput component name id => circuit.addInput (Circuit.newPort "input" component name id)
  | .addOutput component name id => circuit.addOutput (Circuit.newPort "output" component name id)
  | .clear => circuit.clear

/-! ## Faults -/

/-- What an operation fails of. -/
inductive Fault where
  /-- No input answers to the name. -/
  | unknownInput (id : Ident)
  /-- The value denotes no level. -/
  | invalidLevel (value : Json)
  /-- A component has no state, since it was added after the loading. -/
  | noState (component : Ident)
  /-- A list or an object stands where something is looked up by name. -/
  | notScalar
deriving DecidableEq

/-- The wording of a fault, for those that have one. -/
def Fault.message? : Fault → Option String
  | .unknownInput id => some s!"Unknown input '{id.display}'"
  | .invalidLevel value => some (invalidSignal value)
  | .noState _ | .notScalar => none

/-- Refuse a name that cannot be looked up. -/
def requireScalar (id : Ident) : Except Fault Unit :=
  if id.isScalar then .ok () else .error .notScalar

end Switchyard.Relay
