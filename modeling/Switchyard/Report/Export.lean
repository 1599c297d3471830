import Switchyard.Grading.Verdict
import Switchyard.Logic.Circuit
import Switchyard.Relay.Bench
import Switchyard.Report.Csv
import Switchyard.Sorting

/-!
# Results as tables

Gradings, relay simulations and gate simulations are exported as tables: a heading that names the
analysis, the date and what was analysed, then the rows of the result. Components, ports and wires
of a relay simulation are listed in the order of their names.
-/

namespace Switchyard.Report

/-- A table of texts. -/
abbrev Sheet := List (List String)

/-- The heading common to all exports. The name of the circuit is left out if it is empty. -/
def headingRows (analysis date circuit : String) : Sheet :=
  [["# Analysis Type", analysis], ["# Date", date]] ++
    (if circuit.isEmpty then [] else [["# Circuit", circuit]]) ++ [[]]

/-- A row with an optional text; none without the text, or with an empty one. -/
def noteRow (title : String) (text : Option String) : Sheet :=
  match text with
  | some s => if s.isEmpty then [] else [[title, s]]
  | none => []

/-- The word for a truth value. -/
def yesNo (b : Bool) : String :=
  if b then "yes" else "no"

/-- The number for a truth value. -/
def oneZero (b : Bool) : String :=
  if b then "1" else "0"

/-- The word for how a row of a table came out. -/
def rowStatus (verdict : Grading.Verdict) (index : Nat) : String :=
  if verdict.failedRows.contains index then "FAIL"
  else if verdict.passedRows.contains index then "PASS"
  else "NOT RUN"

/-- The text of a name in a cell; the null name leaves it empty. -/
def cellOf (name : Json) : String :=
  if name = .null then "" else name.display

/-- A grading against a table. -/
def verdictSheet (date : String) (verdict : Grading.Verdict) (table : Grading.Table)
    (circuit gate : String) : Sheet :=
  headingRows "Truth Table Verification" date circuit ++
    noteRow "# Gate" (some gate) ++ [["# Passed", yesNo verdict.passed]] ++
    noteRow "# Error" verdict.error ++ [[]] ++
    [["Row"] ++ table.inputs.map cellOf ++
      table.outputs.map (fun name => s!"expected({name.display})") ++ ["Result"]] ++
    table.rows.zipIdx.map (fun (row, index) =>
      [toString index] ++ row.map toString ++ [rowStatus verdict index])

/-- A map in the order of its keys. -/
def sortedByKey {β : Type} (m : List (Ident × β)) : List (Ident × β) :=
  Sorting.sort (fun a b => a.1.below b.1) m

/-- The rows of one component: one for each port. -/
def componentRows (id : Ident) (state : Relay.ComponentState) : Sheet :=
  (sortedByKey state.ports).map (fun (port, level) =>
    [cellOf id.value, oneZero state.coil, oneZero state.closed, cellOf port.value,
      toString level.code])

/-- A step of a relay simulation. -/
def stepSheet (date : String) (result : Relay.StepResult) (circuit : String) : Sheet :=
  headingRows "Relay Simulation" date circuit ++
    [["# Converged", yesNo result.converged], ["# Iterations", toString result.iterations]] ++
    noteRow "# Error" result.error ++ [[]] ++
    [["Component", "Coil Energized", "Switch Closed", "Port", "Signal"]] ++
    (sortedByKey result.states).flatMap (fun (id, state) => componentRows id state) ++ [[]] ++
    [["Wire", "Signal"]] ++
    (sortedByKey result.wires).map (fun (id, level) => [cellOf id.value, toString level.code])

/-- The wires of a gate circuit, one row a bit. -/
def wireRows (wire : Logic.Wire) : Sheet :=
  wire.state.zipIdx.map (fun (code, bit) => [wire.name, toString bit, toString code])

/-- The states of a gate circuit. -/
def circuitSheet (date : String) (data : Logic.Circuit) (circuit : String) : Sheet :=
  headingRows "Gate Simulation" date circuit ++
    [["# Cycle", toString data.cycle], ["# Stable", yesNo data.stable], []] ++
    [["Wire", "Bit", "Value"]] ++ data.wires.flatMap wireRows

/-- Whether the components, ports and wires of a step can be listed in the order of their names. -/
def isOrdered (result : Relay.StepResult) : Bool :=
  Ident.areOrdered (result.states.map (·.1)) &&
    result.states.all (fun (_, state) => Ident.areOrdered (state.ports.map (·.1))) &&
    Ident.areOrdered (result.wires.map (·.1))

end Switchyard.Report
