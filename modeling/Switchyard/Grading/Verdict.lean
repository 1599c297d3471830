import Switchyard.Grading.Rows
import Switchyard.Grading.Table
import Switchyard.Relay.Bench

/-!
# Grading relay circuits

A circuit is graded by the rows of a truth table, one after the other: it is loaded afresh, the
inputs are set, one step is made, and the row passes if the step came to rest and every output reads
what is expected (`gradeRow`). A gate is unlocked by a circuit with as many external inputs and
outputs as the gate's table that passes every row of it (`unlock`).
-/

namespace Switchyard.Grading

open Relay (Bench Circuit)

/-- How a row came out. -/
structure RowOutcome where
  index : Nat
  expected : List Signal
  actual : List Signal
  converged : Bool
  iterations : Nat
deriving DecidableEq

/-- Whether a row passes. -/
def RowOutcome.passes (outcome : RowOutcome) : Bool :=
  outcome.converged && outcome.actual = outcome.expected

/-- Why a circuit cannot be graded. -/
inductive Fault where
  /-- The rows are refused before any of them is graded. -/
  | rows (fault : RowsFault)
  /-- The circuit cannot be inspected or loaded. -/
  | circuit (fault : Relay.Fault)
  /-- The grading of a row fails. -/
  | simulator (fault : Relay.Fault)
  /-- A list or an object stands where the name of a gate is looked up. -/
  | notScalar
deriving DecidableEq

/-- The outcome of a grading: the rows that passed and those that failed, and why it came to
nothing, if so. -/
structure Verdict where
  passed : Bool
  passedRows : List Nat := []
  failedRows : List Nat := []
  error : Option String := none
deriving DecidableEq

/-- The level that a number of a row denotes. -/
def levelOf (n : Int) : Except Relay.Fault Signal :=
  match Signal.ofCode? n with
  | some level => .ok level
  | none => .error (.invalidLevel (.int n))

/-- Set inputs of a bench one after the other. -/
def setAll (bench : Bench) : List (Ident × Int) → Except Relay.Fault Bench
  | [] => .ok bench
  | (id, n) :: rest => do
    let bench ← bench.setInput id (.int n)
    setAll bench rest

/-- Grade one row: load afresh, set the inputs, step, and read the outputs. -/
def gradeRow (bench : Bench) (inputs outputs : List Ident) (index : Nat) (row : List Int) :
    Except Relay.Fault (Bench × RowOutcome) := do
  let (bench, loading) := bench.reset
  loading
  let bench ← setAll bench (inputs.zip (row.take inputs.length))
  let (bench, outcome) := bench.step
  let result ← outcome
  let actual ← outputs.mapM bench.getOutput
  let expected ← (row.drop inputs.length).mapM levelOf
  return (bench, {
    index, expected, actual
    converged := result.converged
    iterations := result.iterations })

/-- Grade rows one after the other, the first of which has the given number. -/
def gradeRows (inputs outputs : List Ident) :
    (index : Nat) → Bench → List (List Int) → Except Relay.Fault (Bench × List RowOutcome)
  | _, bench, [] => .ok (bench, [])
  | index, bench, row :: rows => do
    let (bench, outcome) ← gradeRow bench inputs outputs index row
    let (bench, outcomes) ← gradeRows inputs outputs (index + 1) bench rows
    return (bench, outcome :: outcomes)

/-- The verdict on rows. -/
def Verdict.ofOutcomes (outcomes : List RowOutcome) : Verdict where
  passed := outcomes.all (·.passes)
  passedRows := (outcomes.filter (·.passes)).map (·.index)
  failedRows := (outcomes.filter (!·.passes)).map (·.index)

/-- The number of rows that were graded. -/
def Verdict.total (verdict : Verdict) : Nat :=
  verdict.passedRows.length + verdict.failedRows.length

section
variable (arrays : Arrays)

/-- Grade what a bench has loaded by rows given as a value. -/
def gradeValue (bench : Bench) (inputs outputs : List Ident) (rows : Json) :
    Except Fault (Bench × List RowOutcome) := do
  let rows ← (rowsOf arrays (inputs.length + outputs.length) rows).mapError .rows
  (gradeRows inputs outputs 0 bench rows).mapError .simulator

/-- Grade what a bench has loaded by a list of rows. -/
def grade (bench : Bench) (inputs outputs : List Ident) (rows : List (List Int)) :
    Except Fault (Bench × List RowOutcome) := do
  let rows ← (checkRows arrays (inputs.length + outputs.length) rows).mapError .rows
  (gradeRows inputs outputs 0 bench rows).mapError .simulator

/-- The components that the ports of a side stand for. -/
def portComponents (ports : List Relay.Port) : List Ident :=
  ports.map (·.component)

/-- Grade a circuit by the rows of a table, its external inputs and outputs in order. -/
def gradeTable (cap : Int) (circuit : Circuit) (table : Table) :
    Except Fault (List RowOutcome) := do
  let (bench, loading) := (Bench.ofCircuit circuit cap).load
  loading.mapError .circuit
  let (_, outcomes) ←
    grade arrays bench (portComponents circuit.inputs) (portComponents circuit.outputs) table.rows
  return outcomes

/-- The complaint about a circuit that failed some of the rows of a table. -/
def failedMessage (failed total : Nat) : String :=
  s!"Failed {failed} of {total} test cases"

/-- The verdict on the rows of a table, with a complaint unless all of them pass. -/
def Verdict.ofTable (table : Table) (outcomes : List RowOutcome) : Verdict :=
  let verdict := Verdict.ofOutcomes outcomes
  if verdict.passed then verdict
  else { verdict with
    error := some (failedMessage verdict.failedRows.length table.rows.length) }

/-- Test a circuit against a table. -/
def testTable (cap : Int) (circuit : Circuit) (table : Table) : Except Fault Verdict :=
  (gradeTable arrays cap circuit table).map (Verdict.ofTable table)

/-- The complaint about a circuit whose ports do not fit a table, if they do not. -/
def portComplaint? (circuit : Circuit) (table : Table) : Option String :=
  if circuit.inputs.length ≠ table.inputs.length then
    some s!"Circuit has {circuit.inputs.length} inputs, expected {table.inputs.length}"
  else if circuit.outputs.length ≠ table.outputs.length then
    some s!"Circuit has {circuit.outputs.length} outputs, expected {table.outputs.length}"
  else none

/-- How a circuit was tried for a gate. -/
inductive Trial where
  /-- Its ports do not fit the table of the gate. -/
  | unfit (complaint : String)
  /-- It was graded by every row of the table. -/
  | graded (rows : List RowOutcome)
deriving DecidableEq

/-- Try a circuit for a gate. -/
def Trial.ofGate (cap : Int) (circuit : Circuit) (gate : Gate) : Except Fault Trial :=
  match portComplaint? circuit (Table.standard arrays gate) with
  | some text => .ok (.unfit text)
  | none => (gradeTable arrays cap circuit (Table.standard arrays gate)).map .graded

/-- The verdict of a trial for a gate. -/
def Trial.verdict (gate : Gate) : Trial → Verdict
  | .unfit text => { passed := false, error := some text }
  | .graded rows => Verdict.ofTable (Table.standard arrays gate) rows

/-- Whether a circuit unlocks a gate. -/
def unlock (cap : Int) (circuit : Circuit) (gate : Gate) : Except Fault Verdict :=
  (Trial.ofGate arrays cap circuit gate).map (Trial.verdict arrays gate)

/-- The complaint about a name that is not that of a gate with a table. -/
def noTableMessage (name : Json) : String :=
  s!"No truth table found for gate: {name.display}"

/-- Whether a circuit unlocks the gate of a name. -/
def unlockNamed (cap : Int) (circuit : Circuit) (name : Json) : Except Fault Verdict :=
  match Gate.ofJson? name with
  | some gate => unlock arrays cap circuit gate
  | none =>
    if name.isScalar then .ok { passed := false, error := some (noTableMessage name) }
    else .error .notScalar

/-- The gates of a list that a circuit unlocks. -/
def unlockedOf (cap : Int) (circuit : Circuit) : List Gate → Except Fault (List Gate)
  | [] => .ok []
  | gate :: gates => do
    let verdict ← unlock arrays cap circuit gate
    let rest ← unlockedOf cap circuit gates
    return if verdict.passed then gate :: rest else rest

/-- All gates that a circuit unlocks, in the order of the lessons. -/
def unlocked (cap : Int) (circuit : Circuit) : Except Fault (List Gate) :=
  unlockedOf arrays cap circuit Gate.all

end

/-- A verdict as a JSON object, with its complaint if there is one. -/
def Verdict.members (verdict : Verdict) : List (String × Json) :=
  [("passed", .bool verdict.passed),
    ("passed_rows", .arr (verdict.passedRows.map (fun (n : Nat) => .int n))),
    ("failed_rows", .arr (verdict.failedRows.map (fun (n : Nat) => .int n)))] ++
  match verdict.error with
  | some text => if text.isEmpty then [] else [("error_message", .str text)]
  | none => []

/-- A verdict as a JSON object. -/
def Verdict.toJson (verdict : Verdict) : Json :=
  .obj verdict.members

end Switchyard.Grading
