import Switchyard.Relay.Circuit
import Switchyard.Relay.Netlist

/-!
# Simulating relay circuits

Loading a circuit builds its nets and gives every component a state. A step resets the nets and then
goes through rounds until one changes nothing, or their number reaches a cap. A round has four
phases: sources assert their levels (`driveSources`), coils follow their nets (`updateCoils`),
switches follow their coils (`updateSwitches`), and closed switches pass known levels between their
contacts (`passContacts`). At last the nets that nothing drives are pulled low.

The circuit may be edited after it was loaded. A step then works with the nets of the loading and
the components of now; a component that was added since has no state, and a step that comes to it
stops there (`interrupted`). What is looked up under a name that cannot be looked up makes the
operation fail; what it has done until then stays done.
-/

namespace Switchyard.Relay

/-- The cap on rounds that is used unless another one is asked for. -/
def defaultCap : Int := 1000

/-- The state of a component: its coil and switch, and the levels at its ports. -/
structure ComponentState where
  coil : Bool := false
  closed : Bool := false
  ports : List (Ident × Signal) := []
deriving DecidableEq

/-- The states of components by name. -/
abbrev States := List (Ident × ComponentState)

/-- What a step tells: whether and after how many rounds it came to rest, and the states of the
components and the levels of the wires after it. -/
structure StepResult where
  converged : Bool
  iterations : Nat
  states : States := []
  wires : List (Ident × Signal) := []
  error : Option String := none
deriving DecidableEq

/-- A loaded circuit being simulated. -/
structure Simulator where
  cap : Int := defaultCap
  cycle : Nat := 0
  states : States := []
  inputs : List (Ident × Signal) := []
  netlist : Netlist := {}
deriving DecidableEq

/-- The complaint of a step that came to no rest. -/
def unsettledMessage (iterations : Nat) : String :=
  s!"Simulation did not converge after {iterations} iterations"

/-- The complaint of a step without a circuit. -/
def noCircuitMessage : String := "No circuit loaded"

/-- The step of a simulator that has no circuit. -/
def StepResult.idle : StepResult :=
  { converged := false, iterations := 0, error := some noCircuitMessage }

/-! ### The phases of a round -/

/-- The level that a component asserts at its output, if it is a source. -/
def sourceLevel? (inputs : List (Ident × Signal)) (component : Component) : Option Signal :=
  match component.kind with
  | .power => some .high
  | .input => some ((Assoc.get? component.id inputs).getD .low)
  | _ => none

/-- The nets after one source has asserted its level, and whether anything changed. -/
def driveSource (inputs : List (Ident × Signal)) (netlist : Netlist) (component : Component) :
    Netlist × Bool :=
  match sourceLevel? inputs component with
  | some level => netlist.drive ⟨component.id, outPort⟩ level
  | none => (netlist, false)

/-- The nets after every source has asserted its level, in the order of the components, and whether
anything changed. -/
def driveSources (inputs : List (Ident × Signal)) :
    List Component → Netlist → Netlist × Bool
  | [], netlist => (netlist, false)
  | component :: rest, netlist =>
    let (netlist, changed) := driveSource inputs netlist component
    let (netlist, more) := driveSources inputs rest netlist
    (netlist, changed || more)

/-- Whether the coil of a relay is energized: its net is high. -/
def energized (netlist : Netlist) (relay : Ident) : Bool :=
  netlist.signalAt ⟨relay, coilIn⟩ = .high

/-- Where the switch of a component of the given kind is, for the position of its coil. -/
def switchOf (kind : Kind) (state : ComponentState) : Bool :=
  match kind with
  | .relayNo => state.coil
  | .relayNc => !state.coil
  | _ => state.closed

/-- The states with that of one component changed, if it has one. -/
def States.adjust (states : States) (id : Ident) (change : ComponentState → ComponentState) :
    States :=
  states.map (fun (i, state) => if i == id then (i, change state) else (i, state))

/-- The states after the coils of the relays have followed their nets. -/
def updateCoils (netlist : Netlist) (components : List Component) (states : States) : States :=
  (components.filter (·.kind.isRelay)).foldl
    (fun states c => states.adjust c.id (fun s => { s with coil := energized netlist c.id })) states

/-- The states after the switches of the relays have followed their coils. -/
def updateSwitches (components : List Component) (states : States) : States :=
  (components.filter (·.kind.isRelay)).foldl
    (fun states c => states.adjust c.id (fun s => { s with closed := switchOf c.kind s })) states

/-- Whether the switch of a component is closed. -/
def isClosed (states : States) (id : Ident) : Bool :=
  ((Assoc.get? id states).map (·.closed)).getD false

/-- The nets after a level known at one terminal has been passed to another, and whether anything
changed. -/
def pass (netlist : Netlist) (level : Signal) (target : Terminal) : Netlist × Bool :=
  if level = .unknown then (netlist, false) else netlist.drive target level

/-- The nets after one relay has passed levels between its contacts: if its switch is closed, the
levels that both had before. -/
def passContact (states : States) (netlist : Netlist) (component : Component) : Netlist × Bool :=
  if component.kind.isRelay && isClosed states component.id then
    let input := netlist.signalAt ⟨component.id, contactIn⟩
    let output := netlist.signalAt ⟨component.id, contactOut⟩
    let (netlist, changed) := pass netlist input ⟨component.id, contactOut⟩
    let (netlist, more) := pass netlist output ⟨component.id, contactIn⟩
    (netlist, changed || more)
  else (netlist, false)

/-- The nets after every relay has passed levels, in the order of the components, and whether
anything changed. -/
def passContacts (states : States) : List Component → Netlist → Netlist × Bool
  | [], netlist => (netlist, false)
  | component :: rest, netlist =>
    let (netlist, changed) := passContact states netlist component
    let (netlist, more) := passContacts states rest netlist
    (netlist, changed || more)

/-- The nets and states that a round works on. -/
structure Scene where
  netlist : Netlist
  states : States
deriving DecidableEq

/-- One round, and whether it changed anything. -/
def Scene.round (components : List Component) (inputs : List (Ident × Signal)) (scene : Scene) :
    Scene × Bool :=
  let (driven, sourced) := driveSources inputs components scene.netlist
  let coils := updateCoils driven components scene.states
  let switches := updateSwitches components coils
  let (passed, contacted) := passContacts switches components driven
  (⟨passed, switches⟩,
    sourced || coils ≠ scene.states || switches ≠ coils || contacted)

/-- Rounds until one changes nothing, at most `fuel` of them, after `done` earlier ones: the scene
reached, the number of rounds, and whether the last one changed nothing. -/
def Scene.settle (components : List Component) (inputs : List (Ident × Signal)) :
    (fuel : Nat) → (done : Nat) → Scene → Scene × Nat × Bool
  | 0, done, scene => (scene, done, false)
  | fuel + 1, done, scene =>
    match scene.round components inputs with
    | (next, true) => settle components inputs fuel (done + 1) next
    | (next, false) => (next, done + 1, true)

/-- A component's state with the levels at its ports taken from the nets. -/
def ComponentState.readPorts (netlist : Netlist) (component : Component) (state : ComponentState) :
    ComponentState :=
  { state with
    ports := component.ports.foldl
      (fun ports port => Assoc.put port (netlist.signalAt ⟨component.id, port⟩) ports)
      state.ports }

/-- The states with the levels at the ports of the given components taken from the nets. -/
def readPorts (netlist : Netlist) (components : List Component) (states : States) : States :=
  components.foldl (fun states c => states.adjust c.id (·.readPorts netlist c)) states

namespace Simulator

/-- The states of components at rest. -/
def restStates (components : List Component) : States :=
  components.foldl (fun states c => Assoc.put c.id { closed := c.kind = .relayNc } states) []

/-- Every input of the given ports low. -/
def lowInputs (ports : List Port) : List (Ident × Signal) :=
  ports.foldl (fun inputs port => Assoc.put port.component .low inputs) []

/-- Load a circuit: nets from its wires, every component at rest, every input low. -/
def load (cap : Int) (circuit : Circuit) : Simulator where
  cap := cap
  cycle := 0
  states := restStates circuit.components
  inputs := lowInputs circuit.inputs
  netlist := Netlist.ofWires circuit.wires

/-- Load a circuit in the place of another one. A wire that cannot be looked up ends this before the
nets are built, an external input for such a component before it is set. -/
def reload (circuit : Circuit) (sim : Simulator) : Simulator × Except Fault Unit :=
  let fresh := load sim.cap circuit
  if !circuit.wires.all (·.isScalar) then
    ({ fresh with inputs := [], netlist := sim.netlist }, .error .notScalar)
  else if !circuit.inputs.all (·.component.isScalar) then
    ({ fresh with inputs := lowInputs (circuit.inputs.takeWhile (·.component.isScalar)) },
      .error .notScalar)
  else (fresh, .ok ())

/-- Whether a component has a state. -/
def knows (sim : Simulator) (component : Component) : Bool :=
  Assoc.has component.id sim.states

/-- Whether the ports of a component can be read: it has a state, and its kind can be looked up. -/
def canRead (sim : Simulator) (component : Component) : Bool :=
  sim.knows component && component.kind.isScalar

/-- The input component that a name denotes: that of the first external input with that identifier,
name or component, or else the input component of that name. -/
def resolve (circuit : Circuit) (id : Ident) : Except Fault (Option Ident) :=
  match circuit.inputs.find? (fun port =>
    id == port.id || id == port.name || id == port.component) with
  | some port => .ok (some port.component)
  | none => do
    requireScalar id
    match circuit.component? id with
    | some component => return if component.kind = .input then some id else none
    | none => return none

/-- Set an input to the level of a value. The null name denotes no input. -/
def setInput (circuit : Circuit) (sim : Simulator) (id : Ident) (value : Json) :
    Except Fault Simulator := do
  match ← resolve circuit id with
  | none | some ⟨.null⟩ => throw (.unknownInput id)
  | some component =>
    match Signal.ofJson? value with
    | none => throw (.invalidLevel value)
    | some level =>
      requireScalar component
      return { sim with inputs := Assoc.put component level sim.inputs }

/-- The level of an input without regard to external names. -/
def inputLevel (sim : Simulator) (component : Ident) : Except Fault Signal := do
  requireScalar component
  return (Assoc.get? component sim.inputs).getD .low

/-- The level of an input. A name that denotes no component, or one whose identifier counts as
absent, is looked up as it is. -/
def getInput (circuit : Circuit) (sim : Simulator) (id : Ident) : Except Fault Signal := do
  let component ← resolve circuit id
  sim.inputLevel ((component.getD .null).orElse id)

/-- Turn an input low if it is high, and high otherwise. -/
def toggle (circuit : Circuit) (sim : Simulator) (id : Ident) : Except Fault Simulator := do
  let level := if (← sim.getInput circuit id) = .high then Signal.low else .high
  sim.setInput circuit id (.int level.code)

/-- The level that an output sees: that at the input port of the component of the first external
output with that identifier or component. -/
def getOutput (circuit : Circuit) (sim : Simulator) (id : Ident) : Except Fault Signal :=
  match circuit.outputs.find? (fun port => id == port.id || id == port.component) with
  | some port => do
    requireScalar port.component
    return ((Assoc.get? port.component sim.states).bind
      (fun s => Assoc.get? inPort s.ports)).getD .unknown
  | none => .ok .unknown

/-- The level of a wire; unknown for one that is in no net. -/
def wireSignal (netlist : Netlist) (id : Ident) : Signal :=
  ((netlist.netOfWire? id).map (·.signal)).getD .unknown

/-- How far a step comes in a circuit with a component that stops it. With a cap of zero it comes to
the ports of the components before it. Else its first round stops at a component without a state,
among the coils if that is a relay or else among the switches, or it goes through and stops at the
ports. -/
def interrupted (circuit : Circuit) (sim : Simulator) : Simulator :=
  let readable := circuit.components.takeWhile sim.canRead
  if sim.cap ≤ 0 then
    let netlist := sim.netlist.reset.ground
    { sim with netlist, states := readPorts netlist readable sim.states }
  else if circuit.components.all sim.knows then
    let (scene, _) := Scene.round circuit.components sim.inputs ⟨sim.netlist.reset, sim.states⟩
    { sim with
      netlist := scene.netlist
      states := readPorts scene.netlist readable scene.states }
  else
    let (netlist, _) := driveSources sim.inputs circuit.components sim.netlist.reset
    let reached := circuit.components.takeWhile (fun c => !c.kind.isRelay || sim.knows c)
    let coils := updateCoils netlist reached sim.states
    if reached.length = circuit.components.length then
      { sim with
        netlist, states := updateSwitches (circuit.components.takeWhile sim.knows) coils }
    else { sim with netlist, states := coils }

/-- The component that stops a step, if one does: with a cap of zero the first whose ports cannot be
read, else the first relay without a state or, if all relays have one, the first component without,
or, if all components have one, the first of a kind that cannot be looked up. -/
def obstacle? (circuit : Circuit) (sim : Simulator) : Option Component :=
  let unread := circuit.components.find? (!sim.canRead ·)
  if sim.cap ≤ 0 then unread
  else
    (circuit.components.find? (fun c => c.kind.isRelay && !sim.knows c)).or
      ((circuit.components.find? (!sim.knows ·)).or unread)

/-- Why a component stops a step. -/
def obstacleFault (sim : Simulator) (component : Component) : Fault :=
  if sim.knows component then .notScalar else .noState component.id

/-- A step of a circuit with no component that stops it. -/
def completeStep (circuit : Circuit) (sim : Simulator) : Simulator × StepResult :=
  let start : Scene := ⟨sim.netlist.reset, sim.states⟩
  let (scene, iterations, converged) :=
    start.settle circuit.components sim.inputs sim.cap.toNat 0
  let netlist := scene.netlist.ground
  let states := readPorts netlist circuit.components scene.states
  ({ sim with cycle := sim.cycle + 1, netlist, states },
    { converged, iterations, states
      wires := Assoc.ofPairs (circuit.wires.map (fun w => (w.id, wireSignal netlist w.id)))
      error := if converged then none else some (unsettledMessage iterations) })

/-- One step. A component may interrupt it; a wire that cannot be looked up spoils its result. -/
def step (circuit : Circuit) (sim : Simulator) : Simulator × Except Fault StepResult :=
  match sim.obstacle? circuit with
  | some component => (sim.interrupted circuit, .error (sim.obstacleFault component))
  | none =>
    let (next, result) := sim.completeStep circuit
    (next, if circuit.wires.all (·.id.isScalar) then .ok result else .error .notScalar)

/-- Set inputs one after the other. One that is refused ends this, and those before it stay set. -/
def setInputs (circuit : Circuit) (sim : Simulator) :
    List (Ident × Json) → Simulator × Except Fault Unit
  | [] => (sim, .ok ())
  | (id, value) :: rest =>
    match sim.setInput circuit id value with
    | .ok next => setInputs circuit next rest
    | .error fault => (sim, .error fault)

/-- The levels of external outputs with their identifiers. -/
def outputLevels (circuit : Circuit) (sim : Simulator) :
    List Port → Except Fault (List (Ident × Signal))
  | [] => .ok []
  | port :: rest => do
    let level ← sim.getOutput circuit port.id
    requireScalar port.id
    let levels ← outputLevels circuit sim rest
    return (port.id, level) :: levels

/-- The levels of all external outputs by identifier. -/
def outputs (circuit : Circuit) (sim : Simulator) : Except Fault (List (Ident × Signal)) :=
  (sim.outputLevels circuit circuit.outputs).map Assoc.ofPairs

end Simulator

end Switchyard.Relay
