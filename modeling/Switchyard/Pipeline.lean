import Switchyard.Grading.Verdict
import Switchyard.Hdl.Survey
import Switchyard.Logic.Capacity
import Switchyard.Logic.Simulator
import Switchyard.Relay.Bench
import Switchyard.Report.Diagnosis

/-!
# Pipelines

A program text is read, surveyed, built and simulated; a relay circuit is inspected and then
simulated or graded. A pipeline stops at the first stage that fails and reports it: the outcome
names the stage, lists the errors, and explains them.

There are two reasons for having no outcome. A program can be beyond what a machine reads or holds;
`compile` and `runProgram` disregard that, and `compileWithin` and `runWithin` look for it
(`limit?`). And a relay circuit can have names that cannot be looked up, which is a fault of
`runRelay` and `verify`.
-/

namespace Switchyard

open Report (Category Diagnosis)

/-- The stages of the pipelines. -/
inductive Stage where
  | parse
  | validation
  | generation
  | simulation
  | verification
  | complete
deriving DecidableEq, Repr

/-- The name of a stage. -/
def Stage.name : Stage → String
  | .parse => "parse"
  | .validation => "validation"
  | .generation => "generation"
  | .simulation => "simulation"
  | .verification => "verification"
  | .complete => "complete"

/-- What a pipeline reports: whether it succeeded, the stage where it ended, what it made, the
errors and warnings, the message for the user, and the levels of the outputs. -/
structure Outcome (δ : Type) where
  success : Bool
  stage : Stage := .complete
  data : Option δ := none
  errors : List String := []
  warnings : List String := []
  error : String := ""
  outputs : List (Ident × Int) := []
  diagnosis : Option Diagnosis := none

namespace Outcome

variable {δ : Type}

/-- The outcome of a pipeline that stopped. -/
def failure (stage : Stage) (category : Category) (errors : List String)
    (warnings : List String) (data : Option δ) : Outcome δ :=
  let diagnosis := Diagnosis.ofCategory category
  { success := false, stage, data, errors, warnings
    error := diagnosis.userMessage errors
    diagnosis := some diagnosis }

end Outcome

/-- A message with the number of its line. -/
def located (line : Nat) (message : String) : String :=
  s!"Line {line}: {message}"

/-- The complaints about the lines of a program that could not be read. -/
def Hdl.Program.complaints (program : Hdl.Program) : List String :=
  program.unread.map (fun line => located line.number line.unreadMessage)

/-- The errors of a survey. -/
def Hdl.Survey.complaints (survey : Hdl.Survey) : List String :=
  survey.findings.map (fun finding => located finding.line finding.fault.message)

/-- The warnings of a survey. -/
def Hdl.Survey.cautions (survey : Hdl.Survey) : List String :=
  survey.unused.map (fun wire => located wire.2 (Hdl.unusedMessage wire.1))

/-- Read, survey and build a program. -/
def compile (text : String) : Outcome Logic.Circuit :=
  let program := Hdl.Program.ofText text
  if !program.isRead then .failure .parse .parse program.complaints [] none
  else
    let survey := Hdl.Survey.ofText text
    if !survey.isValid then
      .failure .validation .validation survey.complaints survey.cautions none
    else
      match Logic.Circuit.ofProgram program with
      | .error fault => .failure .generation .generation [fault.message] survey.cautions none
      | .ok circuit => { success := true, data := some circuit, warnings := survey.cautions }

/-- What makes a program more than a machine reads or holds. -/
inductive Limit where
  /-- A number that cannot be read. -/
  | numeral (fault : Text.NumeralFault)
  /-- A wire that cannot be held. -/
  | excess (excess : Logic.Excess)
deriving DecidableEq, Repr

/-- The limit that building a program on a machine meets. -/
def buildLimit? (machine : Logic.Machine) (program : Hdl.Program) : Option Limit :=
  match Logic.Circuit.buildWithin machine program with
  | .error (.excess excess) => some (.excess excess)
  | _ => none

/-- The limit that compiling a program on a machine meets: a number at its reading, or a wire at its
building. -/
def limit? (machine : Logic.Machine) (text : String) : Option Limit :=
  match Hdl.Program.read text with
  | .error fault => some (.numeral fault)
  | .ok program =>
    if program.isRead && (Hdl.Survey.ofText text).isValid then buildLimit? machine program
    else none

/-- Compile a program within the limits of a machine. -/
def compileWithin (machine : Logic.Machine) (text : String) :
    Except Limit (Outcome Logic.Circuit) :=
  match limit? machine text with
  | some limit => .error limit
  | none => .ok (compile text)

/-- Set bit zero of wires one after the other. -/
def setWires (sim : Logic.Simulator) :
    List (String × Json) → Except Logic.Fault Logic.Simulator
  | [] => .ok sim
  | (name, value) :: rest => do
    let sim ← sim.setInput name value 0
    setWires sim rest

/-- The wording of a fault of the gate simulator. -/
def Logic.Fault.text (fault : Logic.Fault) : String :=
  fault.message?.getD ""

/-- Bit zero of every wire by name. -/
def wireOutputs (circuit : Logic.Circuit) : List (Ident × Int) :=
  Assoc.ofPairs (circuit.wires.filterMap
    (fun wire => wire.state.head?.map (fun code => (Ident.text wire.name, code))))

/-- Simulate a built circuit: set the inputs, settle, and run the cycles. -/
def simulate (cap : Int) (circuit : Logic.Circuit) (inputs : List (String × Json))
    (cycles : Int) : Except Logic.Fault (Logic.Circuit × Logic.StepReport) := do
  let sim ← setWires { circuit, cap } inputs
  let (sim, outcome) := sim.run cycles
  let report ← outcome
  return (sim.circuit, report)

/-- The outcome of a simulation of a built circuit. -/
def simulated (warnings : List String)
    (result : Except Logic.Fault (Logic.Circuit × Logic.StepReport)) : Outcome Logic.Circuit :=
  match result with
  | .error fault => .failure .simulation .unknown [fault.text] warnings none
  | .ok (circuit, report) =>
    match report.error with
    | some text => .failure .simulation .nonConvergence [text] warnings (some circuit)
    | none => { success := true, data := some circuit, warnings, outputs := wireOutputs circuit }

/-- Compile a program and simulate it. -/
def runProgram (cap : Int) (text : String) (inputs : List (String × Json)) (cycles : Int) :
    Outcome Logic.Circuit :=
  let compiled := compile text
  match compiled.success, compiled.data with
  | true, some circuit => simulated compiled.warnings (simulate cap circuit inputs cycles)
  | _, _ => compiled

/-- Compile a program and simulate it within the limits of a machine. -/
def runWithin (machine : Logic.Machine) (cap : Int) (text : String)
    (inputs : List (String × Json)) (cycles : Int) : Except Limit (Outcome Logic.Circuit) :=
  match limit? machine text with
  | some limit => .error limit
  | none => .ok (runProgram cap text inputs cycles)

/-- The cautions of an inspection in words. -/
def Relay.Inspection.warnings (inspection : Relay.Inspection) : List String :=
  inspection.cautions.map (·.message)

/-- The outcome of a relay circuit that did not pass inspection. -/
def rejected {δ : Type} (inspection : Relay.Inspection) : Outcome δ :=
  .failure .validation .validation (inspection.problems.map (·.message)) inspection.warnings none

/-- A relay circuit after it was loaded, its inputs were set and one step was made. -/
def stepOnce (cap : Int) (circuit : Relay.Circuit) (inputs : List (Ident × Json)) :
    Except Relay.Fault (Relay.Simulator × Relay.StepResult) := do
  let (sim, loading) := Relay.Simulator.reload circuit { cap }
  loading
  let (sim, setting) := sim.setInputs circuit inputs
  setting
  let (sim, outcome) := sim.step circuit
  return (sim, ← outcome)

/-- The outcome of one step of a relay circuit. A fault that has a wording is reported. -/
def stepped (circuit : Relay.Circuit) (warnings : List String) :
    Except Relay.Fault (Relay.Simulator × Relay.StepResult) →
    Except Relay.Fault (Outcome Relay.StepResult)
  | .error fault =>
    match fault.message? with
    | some text => .ok (.failure .simulation .unknown [text] warnings none)
    | none => .error fault
  | .ok (sim, result) => do
    let outputs := (← sim.outputs circuit).map (fun (id, level) => (id, level.code))
    if result.converged then return { success := true, data := some result, warnings, outputs }
    else
      let text := result.error.getD ""
      return { Outcome.failure .simulation (Report.classify text) [text] warnings (some result) with
        outputs }

/-- Inspect a relay circuit, set its inputs and make one step. -/
def runRelay (cap : Int) (circuit : Relay.Circuit) (inputs : List (Ident × Json)) :
    Except Relay.Fault (Outcome Relay.StepResult) := do
  let inspection ← circuit.inspect
  if inspection.passed then
    stepped circuit inspection.warnings (stepOnce cap circuit inputs)
  else return rejected inspection

/-- The outcome of a grading. -/
def graded (warnings : List String) (verdict : Grading.Verdict) : Outcome Grading.Verdict :=
  if verdict.passed then { success := true, data := some verdict, warnings }
  else {
    success := false
    stage := .verification
    data := some verdict
    errors := verdict.error.toList
    warnings
    error := verdict.error.getD "" }

/-- Inspect a relay circuit and grade it for the gate that a value names. -/
def verify (arrays : Grading.Arrays) (cap : Int) (circuit : Relay.Circuit) (gate : Json) :
    Except Grading.Fault (Outcome Grading.Verdict) := do
  let inspection ← circuit.inspect.mapError .circuit
  if inspection.passed then
    return graded inspection.warnings (← Grading.unlockNamed arrays cap circuit gate)
  else return rejected inspection

end Switchyard
