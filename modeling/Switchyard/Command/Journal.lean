import Switchyard.Pipeline

/-!
# The journal

While a command works, the parts of the program note what they do. A note has a level, and the
verbosity asked for decides from which level on notes are shown. The notes of a pipeline are read
off what it was given and what came out of it.
-/

namespace Switchyard.Command

/-- How much a note matters. -/
inductive Level where
  | debug
  | info
  | warning
deriving DecidableEq, Repr

/-- The name of a level. -/
def Level.name : Level → String
  | .debug => "DEBUG"
  | .info => "INFO"
  | .warning => "WARNING"

/-- Whether notes of a level are shown at a verbosity: warnings always, information from one on, all
from two on. -/
def Level.isShown (verbosity : Nat) : Level → Bool
  | .warning => true
  | .info => 1 ≤ verbosity
  | .debug => 2 ≤ verbosity

/-- The parts of the program that make notes. -/
inductive Part where
  | commands
  | reader
  | surveyor
  | builder
  | pipelines
  | gates
  | nets
  | relays
  | grading
deriving DecidableEq, Repr

/-- The name of a part. -/
def Part.name : Part → String
  | .commands => "cli"
  | .reader => "hdl.parser"
  | .surveyor => "hdl.validator"
  | .builder => "hdl.generator"
  | .pipelines => "controllers.simulation_controller"
  | .gates => "simulation.gate_simulator"
  | .nets => "simulation.netlist"
  | .relays => "simulation.relay_simulator"
  | .grading => "grading.verifier"

/-- A note in the journal. -/
structure Note where
  level : Level
  part : Part
  text : String
deriving DecidableEq, Repr

/-- The line of a note. -/
def Note.line (note : Note) : String :=
  s!"{note.level.name} - {note.part.name} - {note.text}"

/-! ### Programs -/

/-- The notes made while a program is read: each operand left out, then the counts, unless reading
does not come to its end. -/
def readingNotes (text : String) : List Note :=
  (Hdl.skippedOperands text).map (fun (line, operand) =>
    ⟨.debug, .reader, s!"Line {line.number}: skipping malformed wire reference '{operand}'"⟩) ++
  match Hdl.Program.read text with
  | .ok program => [⟨.debug, .reader,
      s!"Parsed {program.wires.length} wires, {program.gates.length} gates, {program.unread.length} errors"⟩]
  | .error _ => []

/-- The note made after a survey. -/
def surveyNote (survey : Hdl.Survey) : Note :=
  ⟨.debug, .surveyor,
    s!"Validation finished: {survey.findings.length} errors, {survey.unused.length} warnings"⟩

/-- The notes made while a program is built into a circuit. -/
def buildingNotes : Except Logic.BuildFault Logic.Circuit → List Note
  | .ok circuit => [⟨.debug, .builder,
      s!"Generated circuit with {circuit.wires.length} wires and {circuit.gates.length} gates"⟩]
  | .error (.undefinedWire name) =>
    [⟨.warning, .builder, s!"Generation failed on undefined wire '{name}'"⟩]
  | .error (.noBits _ _) => []

/-- The note of a pipeline that stopped before its end. A circuit that does not pass its grading has
come to the end of its pipeline. -/
def stopNotes {δ : Type} (outcome : Outcome δ) : List Note :=
  if outcome.success || outcome.stage = .verification then []
  else [⟨.info, .pipelines,
    s!"Pipeline stopped at {outcome.stage.name} stage: " ++ "; ".intercalate outcome.errors⟩]

/-- The notes of compiling a text, given the outcome or the limit that it met. -/
def compilingNotes (text : String) : Except Limit (Outcome Logic.Circuit) → List Note
  | .error (.numeral _) => readingNotes text
  | .error (.excess _) => readingNotes text ++ [surveyNote (Hdl.Survey.ofText text)]
  | .ok outcome =>
    let surveying := [surveyNote (Hdl.Survey.ofText text)]
    let building := buildingNotes (Logic.Circuit.ofProgram (Hdl.Program.ofText text))
    match outcome.stage with
    | .parse => readingNotes text ++ stopNotes outcome
    | .validation => readingNotes text ++ surveying ++ stopNotes outcome
    | _ => readingNotes text ++ surveying ++ building ++ stopNotes outcome

/-- The notes of simulating a built circuit: a warning for every propagation that ran into the
cap. -/
def simulatingNotes (cap : Int) :
    Except Logic.Fault (Logic.Circuit × Logic.StepReport) → List Note
  | .ok (_, report) =>
    List.replicate report.capped ⟨.warning, .gates, Logic.unstableMessage cap⟩
  | .error _ => []

/-! ### Relay circuits -/

/-- The notes made while a relay circuit is loaded. -/
def loadingNotes (circuit : Relay.Circuit) : List Note :=
  let netlist := Relay.Netlist.ofWires circuit.wires
  let nets := netlist.nets.length
  [⟨.debug, .nets, s!"Built {nets} nets from {netlist.wireIds.length} wires"⟩,
    ⟨.debug, .relays,
      s!"Loaded circuit '{circuit.name.display}': {circuit.components.length} components, {nets} nets"⟩]

/-- The note made after a step. -/
def stepNote (circuit : Relay.Circuit) (converged : Bool) (iterations : Nat) : Note :=
  if converged then ⟨.debug, .relays, s!"Converged after {iterations} iterations"⟩
  else ⟨.warning, .relays, Relay.unsettledWarning circuit iterations⟩

/-- The notes made while a relay circuit is stepped once. A fault without a wording stops the
loading. -/
def steppingNotes (circuit : Relay.Circuit) :
    Except Relay.Fault (Relay.Simulator × Relay.StepResult) → List Note
  | .ok (_, result) => loadingNotes circuit ++ [stepNote circuit result.converged result.iterations]
  | .error fault => if fault.message?.isSome then loadingNotes circuit else []

/-- Levels in a note. -/
def levelList (levels : List Signal) : String :=
  "[" ++ ", ".intercalate (levels.map (fun level => toString level.code)) ++ "]"

/-- The note of a row that failed. -/
def failedRowNote (row : Grading.RowOutcome) : Note :=
  let converged := (Json.bool row.converged).shown
  ⟨.debug, .grading,
    s!"Row {row.index} failed: expected {levelList row.expected}, got {levelList row.actual} (converged={converged})"⟩

/-- The notes made while one row is graded. -/
def rowNotes (circuit : Relay.Circuit) (loading : List Note) (row : Grading.RowOutcome) :
    List Note :=
  loading ++ [stepNote circuit row.converged row.iterations] ++
    (if row.passes then [] else [failedRowNote row])

/-- The notes made while a circuit is tried for a gate. -/
def trialNotes (circuit : Relay.Circuit) (gate : Grading.Gate) : Grading.Trial → List Note
  | .unfit _ => []
  | .graded rows =>
    let loading := loadingNotes circuit
    let passed := (rows.filter (·.passes)).length
    loading ++ rows.flatMap (rowNotes circuit loading) ++
      [⟨.info, .grading,
        s!"Unlock check '{gate.name}' on circuit '{circuit.name.display}': {passed}/{rows.length} rows passed"⟩]

/-- The notes made up to the first step of a grading. -/
def gradingStart (circuit : Relay.Circuit) : List Note :=
  loadingNotes circuit ++ loadingNotes circuit

/-- The notes of trying a circuit for a gate. A fault that is not one of the circuit's stops the
grading at its first step. -/
def tryingNotes (circuit : Relay.Circuit) (gate : Grading.Gate) :
    Except Grading.Fault Grading.Trial → List Note
  | .ok trial => trialNotes circuit gate trial
  | .error (.simulator _) => gradingStart circuit
  | .error _ => []

end Switchyard.Command
