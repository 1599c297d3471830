import Switchyard.Logic.Round

/-!
# Simulating gate circuits

A simulator settles the combinational gates of its own copy of a circuit (`propagate`), lets every
flip-flop take over its first input (`clock`), and steps through cycles of both (`step`, `run`).
When a propagation runs into the cap, the simulator has failed, and it stays failed. The operations
are collected in `Action`, so that a whole session is a list of them.
-/

namespace Switchyard.Logic

/-- The cap on rounds that is used unless another one is asked for. -/
def defaultRoundCap : Int := 100

/-- A circuit being simulated, with the cap on the rounds of one propagation. -/
structure Simulator where
  circuit : Circuit
  cap : Int := defaultRoundCap
  /-- Whether some propagation has run into the cap. -/
  failed : Bool := false
deriving DecidableEq, Repr

/-- What a step tells. -/
structure StepReport where
  stable : Bool
  iterations : Int
  cycle : Int
  error : Option String
  /-- How many propagations of the step ran into the cap. -/
  capped : Nat
deriving DecidableEq, Repr

/-- The complaint of a propagation that ran into the cap. -/
def unstableMessage (cap : Int) : String :=
  s!"Circuit did not stabilize after {cap} iterations"

namespace Simulator

/-- The complaint of a simulator that has failed. -/
def error? (sim : Simulator) : Option String :=
  if sim.failed then some (unstableMessage sim.cap) else none

/-- The wire that a name denotes: the wire at the place that the last wire of that name gives as its
number, counted from either end. -/
def wireFor (sim : Simulator) (name : String) : Except Fault (Nat × Wire) :=
  match sim.circuit.wires.reverse.find? (·.name = name) with
  | none => .error (.unknownWire name)
  | some named =>
    match place? sim.circuit.wires.length named.id with
    | none => .error .noEntry
    | some place =>
      match sim.circuit.wires[place]? with
      | none => .error .noEntry
      | some wire => .ok (place, wire)

/-- The circuit's wires replaced. -/
def withWires (sim : Simulator) (wires : List Wire) : Simulator :=
  { sim with circuit := { sim.circuit with wires } }

/-- The simulator with one bit of a named wire set to the level of a value. -/
def setInput (sim : Simulator) (name : String) (value : Json) (bit : Int) :
    Except Fault Simulator := do
  let (place, wire) ← sim.wireFor name
  if bit < 0 ∨ wire.width ≤ bit then throw (.bitOutOfRange bit name wire.width)
  match Signal.ofJson? value with
  | none => throw (.invalidLevel value)
  | some level =>
    if bit.toNat < wire.state.length then
      return sim.withWires (sim.circuit.wires.modify place
        (fun wire => { wire with state := wire.state.set bit.toNat level.code }))
    else throw .noEntry

/-- The level of one bit of a named wire; unknown if the wire does not have the bit. -/
def getWire (sim : Simulator) (name : String) (bit : Int) : Except Fault Signal := do
  let (_, wire) ← sim.wireFor name
  if bit < 0 ∨ wire.width ≤ bit then return .unknown
  match wire.state[bit.toNat]? with
  | none => throw .noEntry
  | some code => levelOf code

/-- Settle the gates, with the number of rounds; the cap itself if they do not settle. -/
def propagate (sim : Simulator) : Simulator × Except Fault Int :=
  match settle sim.circuit.gates sim.cap.toNat 0 sim.circuit.wires with
  | (wires, .error fault) => (sim.withWires wires, .error fault)
  | (wires, .ok (some rounds)) =>
    ({ sim with circuit := { sim.circuit with wires, stable := true } }, .ok rounds)
  | (wires, .ok none) =>
    ({ sim with circuit := { sim.circuit with wires, stable := false }, failed := true },
      .ok sim.cap)

/-- The gates after a clock pulse on the given wires: every flip-flop with an input stores the level
of the first. A fault keeps what was stored before it. -/
def capture (wires : List Wire) : List Gate → List Gate × Except Fault Unit
  | [] => ([], .ok ())
  | gate :: gates =>
    let next (gate : Gate) : List Gate × Except Fault Unit :=
      let (rest, outcome) := capture wires gates
      (gate :: rest, outcome)
    if GateKind.ofLabel? gate.kind = some .dff then
      match gate.inputs with
      | [] => next gate
      | port :: _ =>
        match read wires port with
        | .ok level => next { gate with stored := some level.code }
        | .error fault => (gate :: gates, .error fault)
    else next gate

/-- Give a clock pulse; the cycle counts those that were given without a fault. -/
def clock (sim : Simulator) : Simulator × Except Fault Unit :=
  match capture sim.circuit.wires sim.circuit.gates with
  | (gates, .ok _) =>
    ({ sim with circuit := { sim.circuit with gates, cycle := sim.circuit.cycle + 1 } }, .ok ())
  | (gates, .error fault) => ({ sim with circuit := { sim.circuit with gates } }, .error fault)

/-- What the simulator tells after propagations of the given number of rounds. -/
def report (sim : Simulator) (iterations : Int) (capped : Nat) : StepReport where
  stable := sim.circuit.stable
  iterations := iterations
  cycle := sim.circuit.cycle
  error := sim.error?
  capped := capped

/-- How many of the propagations that left the given simulator ran into the cap: one or none. -/
def cappedOnce (sim : Simulator) : Nat :=
  if sim.circuit.stable then 0 else 1

/-- Propagate without a clock pulse. -/
def settleStep (sim : Simulator) : Simulator × Except Fault StepReport :=
  match sim.propagate with
  | (sim, .error fault) => (sim, .error fault)
  | (sim, .ok rounds) => (sim, .ok (sim.report rounds sim.cappedOnce))

/-- One cycle: propagate, give a clock pulse, propagate. -/
def step (sim : Simulator) : Simulator × Except Fault StepReport :=
  match sim.propagate with
  | (sim, .error fault) => (sim, .error fault)
  | (before, .ok rounds) =>
    match before.clock with
    | (sim, .error fault) => (sim, .error fault)
    | (clocked, .ok _) =>
      match clocked.propagate with
      | (sim, .error fault) => (sim, .error fault)
      | (sim, .ok more) =>
        (sim, .ok (sim.report (rounds + more) (before.cappedOnce + sim.cappedOnce)))

/-- At most the given number of cycles, none after the simulator has failed; the report is that of
the last cycle done, or the given one. -/
def cycles : (count : Nat) → Simulator → StepReport → Simulator × Except Fault StepReport
  | 0, sim, last => (sim, .ok last)
  | count + 1, sim, last =>
    if sim.failed then (sim, .ok last)
    else
      match sim.step with
      | (sim, .error fault) => (sim, .error fault)
      | (sim, .ok next) => cycles count sim next

/-- Settle, then do the given number of cycles, none if it is negative. -/
def run (sim : Simulator) (count : Int) : Simulator × Except Fault StepReport :=
  match sim.settleStep with
  | (sim, .error fault) => (sim, .error fault)
  | (sim, .ok first) => cycles count.toNat sim first

end Simulator

/-- An operation on a simulator. -/
inductive Action where
  | set (name : String) (value : Json) (bit : Int)
  | get (name : String) (bit : Int)
  | propagate
  | settle
  | step
  | run (cycles : Int)
  | clock
  | evaluate (gate : Int)
  | snapshot
deriving DecidableEq

/-- What an operation answers. -/
inductive Answer where
  | done
  | level (level : Signal)
  | rounds (count : Int)
  | report (report : StepReport)
  | circuit (circuit : Circuit)
deriving DecidableEq, Repr

namespace Simulator

/-- Perform an operation. One that is refused leaves the simulator as far as it came. -/
def perform (sim : Simulator) : Action → Simulator × Except Fault Answer
  | .set name value bit =>
    match sim.setInput name value bit with
    | .ok sim => (sim, .ok .done)
    | .error fault => (sim, .error fault)
  | .get name bit => (sim, (sim.getWire name bit).map .level)
  | .propagate => let (sim, outcome) := sim.propagate; (sim, outcome.map .rounds)
  | .settle => let (sim, outcome) := sim.settleStep; (sim, outcome.map .report)
  | .step => let (sim, outcome) := sim.step; (sim, outcome.map .report)
  | .run count => let (sim, outcome) := sim.run count; (sim, outcome.map .report)
  | .clock => let (sim, outcome) := sim.clock; (sim, outcome.map (fun _ => .done))
  | .evaluate i =>
    match pick? sim.circuit.gates i with
    | some gate => (sim, (evaluate sim.circuit.wires gate).map .level)
    | none => (sim, .error .noEntry)
  | .snapshot => (sim, .ok (.circuit sim.circuit))

/-- Perform operations one after the other, whether refused or not. -/
def performAll (sim : Simulator) (actions : List Action) : Simulator :=
  actions.foldl (fun sim action => (sim.perform action).1) sim

end Simulator

/-- A report as a JSON object, with the complaint if there is one. -/
def StepReport.toJson (report : StepReport) : Json :=
  .obj ([("stable", .bool report.stable), ("iterations", .int report.iterations),
      ("cycle", .int report.cycle)] ++
    (report.error.map (fun text => ("error", Json.str text))).toList)

end Switchyard.Logic
