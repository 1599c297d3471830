import Switchyard.Relay.Inspection
import Switchyard.Relay.Simulator

/-!
# A bench: one circuit under edit, one simulator

On a bench a circuit is edited while a simulator has it loaded. The simulator looks at the circuit
itself, so an edit is seen by its next operation, while its nets and states stay those of the last
loading. If the circuit on the bench is replaced by another one, the simulator keeps the old one.
Every operation is an `Action`; performing one gives an answer or a fault, and the warnings that it
calls for.
-/

namespace Switchyard.Relay

/-- Which circuit a simulator has loaded. -/
inductive Attachment where
  | nothing
  /-- The circuit on the bench. -/
  | current
  /-- A circuit that is no longer on the bench. -/
  | kept (circuit : Circuit)
deriving DecidableEq

/-- A circuit under edit and a simulator. -/
structure Bench where
  circuit : Circuit := {}
  attached : Attachment := .nothing
  sim : Simulator := {}
deriving DecidableEq

/-- An operation on a bench. -/
inductive Action where
  | edit (edit : Edit)
  | getWire (id : Ident)
  | replace (circuit : Circuit)
  | dump
  | inspect
  | load
  | reset
  | setInput (id : Ident) (value : Json)
  | toggle (id : Ident)
  | resolve (id : Ident)
  | getInput (id : Ident)
  | getOutput (id : Ident)
  | step
  | run (inputs : List (Ident × Json))
  | state (id : Ident)
  | states
  | nets
deriving DecidableEq

/-- What an operation answers. -/
inductive Answer where
  | done
  | component (added : Option Component)
  | removedWires (ids : List Ident)
  | wire (wire : Option Wire)
  | flag (value : Bool)
  | port (port : Port)
  | circuit (circuit : Circuit)
  | inspection (inspection : Inspection)
  | ident (id : Option Ident)
  | level (level : Signal)
  | result (result : StepResult)
  | levels (levels : List (Ident × Signal))
  | state (state : Option ComponentState)
  | states (states : States)
  | netlist (netlist : Netlist)
deriving DecidableEq

/-- A bench after an operation, what was answered, and the warnings. -/
structure Performed where
  bench : Bench
  answer : Except Fault Answer
  warnings : List String := []

/-- The warning of a step that came to no rest. -/
def unsettledWarning (circuit : Circuit) (iterations : Nat) : String :=
  s!"{unsettledMessage iterations} (circuit '{circuit.name.display}')"

/-- The warnings that the result of a step calls for. -/
def StepResult.warnings (circuit : Circuit) (result : StepResult) : List String :=
  if result.converged then [] else [unsettledWarning circuit result.iterations]

namespace Bench

/-- A bench with a circuit and nothing loaded. -/
def ofCircuit (circuit : Circuit) (cap : Int) : Bench where
  circuit := circuit
  sim := { cap }

/-- The circuit that the simulator has loaded, as it is now. -/
def loaded? (bench : Bench) : Option Circuit :=
  match bench.attached with
  | .nothing => none
  | .current => some bench.circuit
  | .kept circuit => some circuit

/-- Load the circuit on the bench. -/
def load (bench : Bench) : Bench × Except Fault Unit :=
  let (sim, outcome) := bench.sim.reload bench.circuit
  ({ bench with attached := .current, sim }, outcome)

/-- Load the loaded circuit again, if there is one. -/
def reset (bench : Bench) : Bench × Except Fault Unit :=
  match bench.loaded? with
  | some circuit =>
    let (sim, outcome) := bench.sim.reload circuit
    ({ bench with sim }, outcome)
  | none => (bench, .ok ())

/-- Put another circuit on the bench. -/
def replace (bench : Bench) (circuit : Circuit) : Bench :=
  { bench with
    circuit := circuit
    attached :=
      match bench.attached with
      | .current => .kept bench.circuit
      | other => other }

/-- The input that a name denotes. -/
def resolve (bench : Bench) (id : Ident) : Except Fault (Option Ident) :=
  match bench.loaded? with
  | none => .ok none
  | some circuit => Simulator.resolve circuit id

/-- Set an input of the loaded circuit. -/
def setInput (bench : Bench) (id : Ident) (value : Json) : Except Fault Bench :=
  match bench.loaded? with
  | none => .error (.unknownInput id)
  | some circuit => (bench.sim.setInput circuit id value).map ({ bench with sim := · })

/-- The level of an input of the loaded circuit. -/
def getInput (bench : Bench) (id : Ident) : Except Fault Signal :=
  match bench.loaded? with
  | none => bench.sim.inputLevel id
  | some circuit => bench.sim.getInput circuit id

/-- Turn an input of the loaded circuit over. -/
def toggle (bench : Bench) (id : Ident) : Except Fault Bench :=
  match bench.loaded? with
  | none => do
    requireScalar id
    throw (.unknownInput id)
  | some circuit => (bench.sim.toggle circuit id).map ({ bench with sim := · })

/-- The level that an output of the loaded circuit sees. -/
def getOutput (bench : Bench) (id : Ident) : Except Fault Signal :=
  match bench.loaded? with
  | none => .ok .unknown
  | some circuit => bench.sim.getOutput circuit id

/-- One step of the loaded circuit. -/
def step (bench : Bench) : Bench × Except Fault StepResult :=
  match bench.loaded? with
  | none => (bench, .ok .idle)
  | some circuit =>
    let (sim, outcome) := bench.sim.step circuit
    ({ bench with sim }, outcome)

/-- The warnings that the outcome of a step calls for; a step without a circuit warns of nothing. -/
def stepWarnings (bench : Bench) (outcome : Except Fault StepResult) : List String :=
  match bench.loaded?, outcome with
  | some circuit, .ok result => result.warnings circuit
  | _, _ => []

/-- Set inputs, step, and give the levels of all outputs, with the warnings of the step. -/
def run (bench : Bench) (inputs : List (Ident × Json)) :
    Bench × Except Fault (List (Ident × Signal)) × List String :=
  match bench.loaded? with
  | none =>
    match inputs with
    | [] => (bench, .ok [], [])
    | (id, _) :: _ => (bench, .error (.unknownInput id), [])
  | some circuit =>
    let (sim, set) := bench.sim.setInputs circuit inputs
    match set with
    | .error fault => ({ bench with sim }, .error fault, [])
    | .ok _ =>
      let (sim, outcome) := sim.step circuit
      let next := { bench with sim }
      (next, outcome.bind (fun _ => sim.outputs circuit), next.stepWarnings outcome)

/-- The bench after an addition that was rejected: a rejection with words is a warning, and one
without is a fault. -/
def rejected (bench : Bench) (answer : Answer) (rejection : Rejection) : Performed :=
  match rejection.message? with
  | some text => ⟨bench, .ok answer, [text]⟩
  | none => ⟨bench, .error .notScalar, []⟩

/-- Perform an edit. -/
def performEdit (bench : Bench) (edit : Edit) : Performed :=
  let next := { bench with circuit := bench.circuit.edit edit }
  match edit with
  | .addComponent component =>
    match bench.circuit.addComponent component with
    | .ok _ => ⟨next, .ok (.component (some component)), []⟩
    | .error rejection => bench.rejected (.component none) rejection
  | .removeComponent id =>
    ⟨next, (requireScalar id).map
      (fun _ => .removedWires (bench.circuit.removeComponent id).2), []⟩
  | .addWire wire =>
    match bench.circuit.addWire wire with
    | .ok _ => ⟨next, .ok (.wire (some wire)), []⟩
    | .error rejection => bench.rejected (.wire none) rejection
  | .removeWire id => ⟨next, .ok (.flag (bench.circuit.wires.any (·.id.equals id))), []⟩
  | .addInput component name id =>
    ⟨next, .ok (.port (Circuit.newPort "input" component name id)), []⟩
  | .addOutput component name id =>
    ⟨next, .ok (.port (Circuit.newPort "output" component name id)), []⟩
  | .clear => ⟨next, .ok .done, []⟩

/-- The bench after a loading. -/
def reloaded (outcome : Bench × Except Fault Unit) : Performed :=
  ⟨outcome.1, outcome.2.map (fun _ => .done), []⟩

/-- The bench after an operation that gives another bench or a fault. -/
def settled (bench : Bench) : Except Fault Bench → Performed
  | .ok next => ⟨next, .ok .done, []⟩
  | .error fault => ⟨bench, .error fault, []⟩

/-- Perform an operation. -/
def perform (bench : Bench) : Action → Performed
  | .edit edit => bench.performEdit edit
  | .getWire id => ⟨bench, .ok (.wire (bench.circuit.wire? id)), []⟩
  | .replace circuit => ⟨bench.replace circuit, .ok .done, []⟩
  | .dump => ⟨bench, .ok (.circuit bench.circuit), []⟩
  | .inspect => ⟨bench, bench.circuit.inspect.map .inspection, []⟩
  | .load => reloaded bench.load
  | .reset => reloaded bench.reset
  | .setInput id value => bench.settled (bench.setInput id value)
  | .toggle id => bench.settled (bench.toggle id)
  | .resolve id => ⟨bench, (bench.resolve id).map .ident, []⟩
  | .getInput id => ⟨bench, (bench.getInput id).map .level, []⟩
  | .getOutput id => ⟨bench, (bench.getOutput id).map .level, []⟩
  | .step =>
    let (next, outcome) := bench.step
    ⟨next, outcome.map .result, bench.stepWarnings outcome⟩
  | .run inputs =>
    let (next, outcome, warnings) := bench.run inputs
    ⟨next, outcome.map .levels, warnings⟩
  | .state id =>
    ⟨bench, (requireScalar id).map (fun _ => .state (Assoc.get? id bench.sim.states)), []⟩
  | .states => ⟨bench, .ok (.states bench.sim.states), []⟩
  | .nets => ⟨bench, .ok (.netlist bench.sim.netlist), []⟩

/-- Perform operations one after the other, whether refused or not. -/
def performAll (bench : Bench) (actions : List Action) : Bench :=
  actions.foldl (fun bench action => (bench.perform action).bench) bench

end Bench

/-- The state of a component as a JSON object. -/
def ComponentState.toJson (state : ComponentState) : Json :=
  .obj [("coil_energized", .bool state.coil), ("switch_closed", .bool state.closed),
    ("port_values", .obj (state.ports.map (fun (port, level) => (port.member, .int level.code))))]

/-- The members of the result of a step, with its complaint if there is one. -/
def StepResult.members (result : StepResult) : List (String × Json) :=
  [("converged", .bool result.converged), ("iterations", .int result.iterations),
    ("component_states", .obj (result.states.map (fun (id, s) => (id.member, s.toJson)))),
    ("wire_signals", .obj (result.wires.map (fun (id, level) => (id.member, .int level.code))))] ++
  match result.error with
  | some text => if text.isEmpty then [] else [("error", .str text)]
  | none => []

/-- The result of a step as a JSON object. -/
def StepResult.toJson (result : StepResult) : Json :=
  .obj result.members

end Switchyard.Relay
