import Switchyard.Command.Journal
import Switchyard.Command.Loading
import Switchyard.Command.Request
import Switchyard.Grading.Nesting
import Switchyard.Json.Writer
import Switchyard.Report.Export

/-!
# Performing requests

A request is performed in surroundings with files. It writes to two streams, the results to one and
everything said to the user to the other, and it ends with an exit code, or in a crash. The code is
zero if all went well, one if the command failed, and two if the command line was refused.
-/

namespace Switchyard.Command

/-- The machine that commands run on: the wires of a circuit may have 2 ^ 32 bits altogether. -/
def machine : Logic.Machine := .ofRoom 0x100000000

/-- The library of arrays that reads the rows of tables: lists may be nested 64 deep. -/
def arrays : Grading.Arrays := .ofNesting 64

/-- What has been written to the two streams, and the verbosity asked for. -/
structure Transcript where
  verbosity : Nat := 0
  out : String := ""
  err : String := ""
deriving DecidableEq, Repr

/-- The work of a command in surroundings. -/
abbrev Work (m : Type → Type) := ExceptT Halt (StateT Transcript m)

/-- How a command line came out. -/
structure Result where
  exit : Except Crash Nat
  out : String := ""
  err : String := ""

section Work

variable {m : Type → Type} [Monad m]

/-- Write a line to the results. -/
def say (line : String) : Work m Unit :=
  modify (fun t => { t with out := t.out ++ line ++ "\n" })

/-- Write a line for the user. -/
def tell (line : String) : Work m Unit :=
  modify (fun t => { t with err := t.err ++ line ++ "\n" })

/-- Write notes, as far as they are shown. -/
def noteAll (notes : List Note) : Work m Unit := do
  let verbosity := (← get).verbosity
  (notes.filter (fun note => note.level.isShown verbosity)).forM (fun note => tell note.line)

/-- Tell why and where a pipeline stopped. -/
def tellFailure {δ : Type} (outcome : Outcome δ) : Work m Unit := do
  tell s!"Failed at {outcome.stage.name} stage:"
  tell outcome.error

/-- Tell the warnings of a pipeline. -/
def tellWarnings {δ : Type} (outcome : Outcome δ) : Work m Unit :=
  outcome.warnings.forM (fun warning => tell s!"Warning: {warning}")

variable [Files m]

/-- Load the source of a program. -/
def loadSource (path : String) : Work m String := do
  let found ← (Files.readFile (Path.ofText path) : m _)
  MonadExcept.ofExcept (sourceAt path found)

/-- Load a relay circuit. -/
def loadCircuit (path : String) : Work m Relay.Circuit := do
  let found ← (Files.readFile (Path.ofText path) : m _)
  MonadExcept.ofExcept (circuitAt path found)

/-- Write a result to the file asked for, or else among the results. A file of the empty name counts
as none. -/
def emit (what : String) (output : Option String) (text : String) : Work m Unit := do
  let target := output.getD ""
  if target.isEmpty then say text
  else
    match ← (Files.writeFile (Path.ofText target) text : m _) with
    | .ok _ => tell s!"{what} written to {target}"
    | .error fault => throw (.crashed (.file fault))

/-- Write a result in the form asked for: as JSON, or as a table. -/
def emitResult (settings : Settings) (value : Json) (sheet : Report.Sheet) : Work m Unit :=
  emit "Results" settings.output
    (match settings.format with
      | .json => value.pretty
      | .csv => Report.Csv.write sheet)

/-- The name of a file by which tables call what is in it. -/
def fileName (path : String) : String :=
  String.ofList (Path.ofText path).name

/-- The cap on the rounds of a propagation of gates, unless it is void. -/
def Settings.roundCap? (settings : Settings) : Option Int :=
  settings.cap.getD? Logic.defaultRoundCap

/-- The cap on the rounds of a step of a relay circuit, unless it is void. -/
def Settings.stepCap? (settings : Settings) : Option Int :=
  settings.cap.getD? Relay.defaultCap

/-- The levels to set, each name in its first place with its last level. A void assignment cannot
be used. -/
def Settings.levels (settings : Settings) : Except Halt (List (String × Json)) :=
  match settings.inputs.findIdx? (·.isNone) with
  | some index => .error (.crashed (.voidAssignment index))
  | none =>
    .ok (Assoc.ofPairs (settings.inputs.filterMap id |>.map (fun (name, code) => (name, .int code))))

/-- Break off. -/
def crash {α : Type} (reason : Crash) : Work m α :=
  throw (.crashed reason)

/-- Go on with a relay circuit's answer, or break off. -/
def requireAnswer {α : Type} (answer : Except Relay.Fault α) : Work m α :=
  MonadExcept.ofExcept (answer.mapError (fun fault => .crashed (.circuit (.circuit fault))))

/-- Read a program and show it. -/
def performParse (source : String) : Work m Nat := do
  let text ← loadSource source
  noteAll (readingNotes text)
  match Hdl.Program.read text with
  | .error fault => crash (.limit (.numeral fault))
  | .ok program =>
    if !program.toJson.isWritable then crash .unwritable
    say program.toJson.pretty
    return if program.isRead then 0 else 1

/-- Inspect a relay circuit. -/
def inspectCircuit (path : String) : Work m Nat := do
  let inspection ← requireAnswer (← loadCircuit path).inspect
  if inspection.passed then
    say s!"Circuit is valid: {path}"
    inspection.cautions.forM (fun caution => say s!"  Warning: {caution.message}")
    return 0
  else
    tell s!"Circuit has errors: {path}"
    inspection.problems.forM (fun problem => tell s!"  - {problem.message}")
    return 1

/-- Survey a program. -/
def surveyProgram (path : String) : Work m Nat := do
  let survey := Hdl.Survey.ofText (← loadSource path)
  noteAll [surveyNote survey]
  survey.unused.forM (fun (name, line) =>
    say s!"  Warning (line {line}): {Hdl.unusedMessage name}")
  if survey.isValid then
    say s!"Program is valid: {path}"
    return 0
  else
    tell s!"Program has errors: {path}"
    survey.findings.forM (fun finding =>
      tell s!"  - line {finding.line}: {finding.fault.message}")
    return 1

/-- Check a file: by its ending a relay circuit, or else a program. -/
def performValidate (path : String) : Work m Nat :=
  if Text.lower (String.ofList (Path.ofText path).suffix) = ".json" then inspectCircuit path
  else surveyProgram path

/-- Compile a program. -/
def compileText (text : String) : Work m (Outcome Logic.Circuit) := do
  let compiled := compileWithin machine text
  noteAll (compilingNotes text compiled)
  MonadExcept.ofExcept (compiled.mapError (fun limit => .crashed (.limit limit)))

/-- Build a program into a circuit. -/
def performGenerate (settings : Settings) (source : String) : Work m Nat := do
  let outcome ← compileText (← loadSource source)
  match outcome.success, outcome.data with
  | true, some circuit =>
    tellWarnings outcome
    emit "Circuit" settings.output circuit.toJson.pretty
    return 0
  | _, _ =>
    tellFailure outcome
    return 1

/-- Report how the simulation of a program went. -/
def reportRun (date : String) (settings : Settings) (source : String)
    (outcome : Outcome Logic.Circuit) : Work m Nat := do
  match outcome.success, outcome.data with
  | true, some circuit =>
    tellWarnings outcome
    emitResult settings circuit.toJson (Report.circuitSheet date circuit (fileName source))
    return 0
  | _, _ =>
    tellFailure outcome
    return 1

/-- Simulate a built circuit. A void cap is used by the first propagation, and a void number of
cycles after it. -/
def simulateCircuit (settings : Settings) (circuit : Logic.Circuit)
    (levels : List (String × Json)) :
    Work m (Except Logic.Fault (Logic.Circuit × Logic.StepReport)) := do
  let cap := settings.roundCap?
  let cycles := settings.cycles.getD? 0
  let result :=
    simulate (cap.getD Logic.defaultRoundCap) circuit levels (cycles.getD 0)
  noteAll (match cap with
    | some cap => simulatingNotes cap result
    | none => [])
  match result with
  | .ok _ => if cap.isNone || cycles.isNone then crash .voidValue else return result
  | .error _ => return result

/-- Build a program and simulate it. -/
def performRun (date : String) (settings : Settings) (source : String) : Work m Nat := do
  let levels ← MonadExcept.ofExcept settings.levels
  let compiled ← compileText (← loadSource source)
  match compiled.success, compiled.data with
  | true, some circuit =>
    let outcome := simulated compiled.warnings (← simulateCircuit settings circuit levels)
    noteAll (stopNotes outcome)
    reportRun date settings source outcome
  | _, _ =>
    tellFailure compiled
    return 1

/-- Step a relay circuit that was inspected. A void cap is used by the step. -/
def stepCircuit (settings : Settings) (circuit : Relay.Circuit) (warnings : List String)
    (levels : List (String × Json)) : Work m (Outcome Relay.StepResult) := do
  let inputs := levels.map (fun (name, code) => (Ident.text name, code))
  match settings.stepCap?, stepOnce (settings.stepCap?.getD Relay.defaultCap) circuit inputs with
  | none, .ok _ =>
    noteAll (loadingNotes circuit)
    crash .voidValue
  | _, once =>
    noteAll (steppingNotes circuit once)
    requireAnswer (stepped circuit warnings once)

/-- The result of a step with the levels of the outputs. -/
def stepJson (result : Relay.StepResult) (outputs : List (Ident × Int)) : Json :=
  .obj (result.members ++
    [("outputs", .obj (outputs.map (fun (id, code) => (id.member, .int code))))])

/-- Report how the step of a relay circuit went. -/
def reportStep (date : String) (settings : Settings) (path : String)
    (outcome : Outcome Relay.StepResult) : Work m Nat := do
  noteAll (stopNotes outcome)
  match outcome.success, outcome.data with
  | true, some result =>
    tellWarnings outcome
    if settings.format = .csv && !Report.isOrdered result then crash .unordered
    emitResult settings (stepJson result outcome.outputs)
      (Report.stepSheet date result (fileName path))
    return 0
  | _, _ =>
    tellFailure outcome
    return 1

/-- Make one step of a relay circuit. -/
def performSimulate (date : String) (settings : Settings) (path : String) : Work m Nat := do
  let circuit ← loadCircuit path
  let levels ← MonadExcept.ofExcept settings.levels
  let inspection ← requireAnswer circuit.inspect
  reportStep date settings path
    (← if inspection.passed then stepCircuit settings circuit inspection.warnings levels
      else pure (rejected inspection))

/-- The verdict on a circuit for a gate. -/
def verdictJson (verdict : Grading.Verdict) (gate : Grading.Gate) : Json :=
  .obj (verdict.members ++ [("gate", .str gate.name)])

/-- Try a relay circuit for a gate. A void cap is used by the first step. -/
def tryCircuit (settings : Settings) (circuit : Relay.Circuit) (gate : Grading.Gate) :
    Work m Grading.Trial := do
  let cap := settings.stepCap?.getD Relay.defaultCap
  let trial := Grading.Trial.ofGate arrays cap circuit gate
  match settings.stepCap?, trial with
  | none, .ok (.graded _) =>
    noteAll (gradingStart circuit)
    crash .voidValue
  | _, trial =>
    noteAll (tryingNotes circuit gate trial)
    MonadExcept.ofExcept (trial.mapError (fun fault => .crashed (.circuit fault)))

/-- Report how a grading went. -/
def reportGrading (date : String) (settings : Settings) (path : String) (gate : Grading.Gate)
    (outcome : Outcome Grading.Verdict) : Work m Nat := do
  noteAll (stopNotes outcome)
  match outcome.data with
  | none =>
    tellFailure outcome
    return 1
  | some verdict =>
    emitResult settings (verdictJson verdict gate)
      (Report.verdictSheet date verdict (Grading.Table.standard arrays gate) (fileName path)
        gate.name)
    if outcome.success then return 0
    else
      tell s!"Verification failed: {outcome.error}"
      return 1

/-- Grade a relay circuit for a gate, which is used after the inspection. -/
def performVerify (date : String) (settings : Settings) (path : String)
    (gate : Option Grading.Gate) : Work m Nat := do
  let circuit ← loadCircuit path
  let inspection ← requireAnswer circuit.inspect
  match inspection.passed, gate with
  | false, _ =>
    let outcome : Outcome Grading.Verdict := rejected inspection
    noteAll (stopNotes outcome)
    tellFailure outcome
    return 1
  | true, none => crash .voidValue
  | true, some gate =>
    let trial ← tryCircuit settings circuit gate
    reportGrading date settings path gate (graded inspection.warnings (trial.verdict arrays gate))

/-- The gates of a list that a relay circuit unlocks. -/
def tryAll (settings : Settings) (circuit : Relay.Circuit) :
    List Grading.Gate → Work m (List Grading.Gate)
  | [] => return []
  | gate :: gates => do
    let trial ← tryCircuit settings circuit gate
    let unlocked ← tryAll settings circuit gates
    return if (trial.verdict arrays gate).passed then gate :: unlocked else unlocked

/-- List the gates that a relay circuit unlocks. -/
def performUnlocks (settings : Settings) (path : String) : Work m Nat := do
  let circuit ← loadCircuit path
  let unlocked ← tryAll settings circuit Grading.Gate.all
  if unlocked.isEmpty then
    say "No gates unlocked."
    return 1
  else
    unlocked.forM (fun gate => say gate.name)
    return 0

/-- Perform a job. -/
def Job.perform (date : String) (settings : Settings) : Job → Work m Nat
  | .parse source => performParse source
  | .validate path => performValidate path
  | .generate source => performGenerate settings source
  | .run source => performRun date settings source
  | .simulate path => performSimulate date settings path
  | .verify path gate => performVerify date settings path gate
  | .unlocks path => performUnlocks settings path

/-- Perform a request; the date is that of the tables. -/
def Request.perform (date : String) (request : Request) : Work m Nat := do
  modify (fun t => { t with verbosity := request.settings.verbosity })
  noteAll [⟨.debug, .commands, s!"Running command {request.job.verb.name}"⟩]
  request.job.perform date request.settings

/-- The result of work that has ended. -/
def Result.ofWork (ended : Except Halt Nat × Transcript) : Result :=
  match ended with
  | (.ok code, t) => ⟨.ok code, t.out, t.err⟩
  | (.error (.failed complaint), t) => ⟨.ok 1, t.out, t.err ++ complaint ++ "\n"⟩
  | (.error (.crashed crash), t) => ⟨.error crash, t.out, t.err⟩

/-- The text that answers a request for help. -/
def helpText : String :=
  let verbs := "|".intercalate (Verb.all.map Verb.name)
  s!"usage: {programName} [-v] [--max-iterations N] {verbs} ...\n"

/-- The result of a command line that is refused. -/
def Refusal.result (refusal : Refusal) : Result :=
  match refusal.stop with
  | .help => ⟨.ok 0, helpText, ""⟩
  | _ => ⟨.ok 2, "", refusal.message ++ "\n"⟩

/-- Perform a command line. -/
def perform (date : String) (arguments : List String) : m Result := do
  match Request.ofArguments arguments with
  | .error refusal => return refusal.result
  | .ok request => return Result.ofWork (← (request.perform date).run.run {})

end Work

end Switchyard.Command
