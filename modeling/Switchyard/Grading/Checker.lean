import Switchyard.Grading.Verdict

/-!
# Grading on one bench

Gradings are done on a bench that is used again and again: every row leaves behind what its last
operation did, also if it was refused, and so does every grading. A row starts by resetting the
bench (`tryRow`), and a grading of another circuit by loading it (`testOn`). A checker tries a
circuit for one gate after the other on the same bench (`checkAll`).
-/

namespace Switchyard.Grading

open Relay (Bench Circuit)

/-- Set inputs of a bench in order. One that is refused ends this, and those before it stay set. -/
def setInOrder (bench : Bench) : List (Ident × Int) → Bench × Except Relay.Fault Unit
  | [] => (bench, .ok ())
  | (id, n) :: rest =>
    match bench.setInput id (.int n) with
    | .error fault => (bench, .error fault)
    | .ok next => setInOrder next rest

/-- What the outputs of a bench read after the step for a row, beside what is expected. -/
def readRow (bench : Bench) (inputs outputs : List Ident) (index : Nat) (row : List Int)
    (result : Relay.StepResult) : Except Relay.Fault RowOutcome := do
  let actual ← outputs.mapM bench.getOutput
  let expected ← (row.drop inputs.length).mapM levelOf
  return {
    index, expected, actual
    converged := result.converged
    iterations := result.iterations }

/-- Try one row on a bench: reset it, set the inputs, step, and read the outputs. -/
def tryRow (bench : Bench) (inputs outputs : List Ident) (index : Nat) (row : List Int) :
    Bench × Except Relay.Fault RowOutcome :=
  match bench.reset with
  | (bench, .error fault) => (bench, .error fault)
  | (bench, .ok _) =>
    match setInOrder bench (inputs.zip (row.take inputs.length)) with
    | (bench, .error fault) => (bench, .error fault)
    | (bench, .ok _) =>
      match bench.step with
      | (bench, .error fault) => (bench, .error fault)
      | (bench, .ok result) => (bench, readRow bench inputs outputs index row result)

/-- Try rows on a bench one after the other, the first of which has the given number. -/
def tryRows (inputs outputs : List Ident) :
    (index : Nat) → Bench → List (List Int) → Bench × Except Relay.Fault (List RowOutcome)
  | _, bench, [] => (bench, .ok [])
  | index, bench, row :: rows =>
    match tryRow bench inputs outputs index row with
    | (bench, .error fault) => (bench, .error fault)
    | (bench, .ok outcome) =>
      let (bench, outcomes) := tryRows inputs outputs (index + 1) bench rows
      (bench, outcomes.map (outcome :: ·))

/-- Try rows on a bench once they have been checked; rows that were refused are not tried. -/
def tryChecked (bench : Bench) (inputs outputs : List Ident) :
    Except RowsFault (List (List Int)) → Bench × Except Fault (List RowOutcome)
  | .error fault => (bench, .error (.rows fault))
  | .ok rows =>
    let (bench, outcomes) := tryRows inputs outputs 0 bench rows
    (bench, outcomes.mapError .simulator)

section
variable (arrays : Arrays)

/-- The verdict on what a bench has loaded by rows given as a value. -/
def verify (bench : Bench) (inputs outputs : List Ident) (rows : Json) :
    Bench × Except Fault Verdict :=
  let (bench, outcomes) :=
    tryChecked bench inputs outputs (rowsOf arrays (inputs.length + outputs.length) rows)
  (bench, outcomes.map Verdict.ofOutcomes)

/-- Load a circuit on a bench and test it against a table. -/
def testOn (bench : Bench) (circuit : Circuit) (table : Table) : Bench × Except Fault Verdict :=
  match (bench.replace circuit).load with
  | (bench, .error fault) => (bench, .error (.circuit fault))
  | (bench, .ok _) =>
    let inputs := portComponents circuit.inputs
    let outputs := portComponents circuit.outputs
    let (bench, outcomes) :=
      tryChecked bench inputs outputs
        (checkRows arrays (inputs.length + outputs.length) table.rows)
    (bench, outcomes.map (Verdict.ofTable table))

/-- Check on a bench whether a circuit unlocks a gate. A circuit whose ports do not fit the table of
the gate is not loaded. -/
def check (bench : Bench) (circuit : Circuit) (gate : Gate) : Bench × Except Fault Verdict :=
  match portComplaint? circuit (Table.standard arrays gate) with
  | some text => (bench, .ok { passed := false, error := some text })
  | none => testOn arrays bench circuit (Table.standard arrays gate)

/-- Check on a bench whether a circuit unlocks the gate of a name. -/
def checkNamed (bench : Bench) (circuit : Circuit) (name : Json) : Bench × Except Fault Verdict :=
  match Gate.ofJson? name with
  | some gate => check arrays bench circuit gate
  | none =>
    (bench,
      if name.isScalar then .ok { passed := false, error := some (noTableMessage name) }
      else .error .notScalar)

/-- The gates of a list that a circuit unlocks, checked one after the other on a bench. -/
def checkAll (bench : Bench) (circuit : Circuit) : List Gate → Bench × Except Fault (List Gate)
  | [] => (bench, .ok [])
  | gate :: gates =>
    match check arrays bench circuit gate with
    | (bench, .error fault) => (bench, .error fault)
    | (bench, .ok verdict) =>
      let (bench, rest) := checkAll bench circuit gates
      (bench, rest.map (fun rest => if verdict.passed then gate :: rest else rest))

end

end Switchyard.Grading
