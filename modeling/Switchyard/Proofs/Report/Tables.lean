import Mathlib.Data.List.Lex
import Mathlib.Data.List.Perm.Basic
import Switchyard.Proofs.Report.Reading
import Switchyard.Proofs.Sorting
import Switchyard.Report.Export

/-!
# What exported tables hold

A result that is exported and read back gives the rows that were meant (`read_exports`), whatever
texts are in it. All exports have one heading (`heading`). Behind it a grading has a row for every
row of its table, marked with how that came out (`VerdictRows`), a relay simulation a row for every
port of every component and then one for every wire (`StepRows`), and a gate simulation a row for
every bit of every wire (`CircuitRows`). The ports and the wires of a relay simulation are listed in
the order of the code points of their names, each once (`sortedByKey_perm`,
`Named.sortedByKey_pairwise_lt`).
-/

namespace Switchyard.Report

/-! ## Names in order -/

/-- The code points of a name. -/
def points (name : Ident) : List Nat :=
  Text.codePoints name.display

/-- An id that is a text is made from it. -/
theorem exists_of_isText {name : Ident} (h : name.isText) : ∃ s, name = .text s := by
  obtain ⟨value⟩ := name
  cases value with
  | str s => exact ⟨s, rfl⟩
  | _ => cases h

/-- Ids that are texts are ordered by their code points. -/
theorem below_iff {a b : Ident} (ha : a.isText) (hb : b.isText) :
    a.below b = true ↔ points a < points b := by
  obtain ⟨s, rfl⟩ := exists_of_isText ha
  obtain ⟨t, rfl⟩ := exists_of_isText hb
  simp [Ident.below, Ident.text, points, Ident.display, Json.display]

/-- The names of a map are texts, and no two of them are the same. -/
@[mk_iff]
structure Named {β : Type} (m : List (Ident × β)) : Prop where
  isText : ∀ e ∈ m, e.1.isText
  nodup : (m.map (fun e => points e.1)).Nodup

instance {β : Type} (m : List (Ident × β)) : Decidable (Named m) :=
  decidable_of_iff' _ (named_iff m)

/-- The cell of an id that is a text is what it is displayed as. -/
theorem cellOf_of_isText {name : Ident} (h : name.isText) : cellOf name.value = name.display := by
  obtain ⟨s, rfl⟩ := exists_of_isText h
  rfl

/-- Sorting by keys loses and repeats no entry. -/
theorem sortedByKey_perm {β : Type} (m : List (Ident × β)) : (sortedByKey m).Perm m :=
  Sorting.sort_perm m

/-- Entries with distinct texts for keys are sorted by code points, strictly. -/
theorem Named.sortedByKey_pairwise_lt {β : Type} {m : List (Ident × β)} (h : Named m) :
    (sortedByKey m).Pairwise (fun a b => points a.1 < points b.1) :=
  Sorting.sort_pairwise_lt (fun a ha b hb => below_iff (h.isText a ha) (h.isText b hb)) h.nodup

/-! ## The rows that are meant -/

/-- A row with a title, left out if it has no text. -/
def titled (title text : String) : Sheet :=
  if text = "" then [] else [[title, text]]

/-- The rows before the first row of a result. -/
def heading (analysis date circuit : String) (notes : Sheet) (columns : List String) : Sheet :=
  [["# Analysis Type", analysis], ["# Date", date]] ++ titled "# Circuit" circuit ++ [[]] ++
    notes ++ [[], columns]

/-- How a row of a table came out. -/
inductive Status (verdict : Grading.Verdict) (index : Nat) : String → Prop
  | fail : index ∈ verdict.failedRows → Status verdict index "FAIL"
  | pass : index ∈ verdict.passedRows → index ∉ verdict.failedRows → Status verdict index "PASS"
  | notRun : index ∉ verdict.passedRows → index ∉ verdict.failedRows →
      Status verdict index "NOT RUN"

/-- The rows of a grading: the heading, and one row for each row of the table. -/
def VerdictRows (date circuit gate : String) (verdict : Grading.Verdict) (table : Grading.Table)
    (rows : Sheet) : Prop :=
  ∃ body : Sheet,
    rows = heading "Truth Table Verification" date circuit
        (titled "# Gate" gate ++ [["# Passed", if verdict.passed then "yes" else "no"]] ++
          titled "# Error" (verdict.error.getD ""))
        (["Row"] ++ table.inputs.map cellOf ++
          table.outputs.map (fun name => "expected(" ++ name.display ++ ")") ++ ["Result"]) ++
      body ∧
    body.length = table.rows.length ∧
    ∀ index row, table.rows[index]? = some row → ∃ status, Status verdict index status ∧
      body[index]? = some ([toString index] ++ row.map toString ++ [status])

/-- A port of a component, with their states. -/
structure PortState where
  component : Ident
  state : Relay.ComponentState
  port : Ident
  level : Signal

/-- The given ports of a component. -/
def portsOf (component : Ident) (state : Relay.ComponentState) (ports : List (Ident × Signal)) :
    List PortState :=
  ports.map (fun (port, level) => ⟨component, state, port, level⟩)

/-- Every port of every component. -/
def portStates (states : List (Ident × Relay.ComponentState)) : List PortState :=
  states.flatMap (fun (component, state) => portsOf component state state.ports)

/-- A port is listed before another one: by the name of its component, then by its own. -/
def PortState.Before (a b : PortState) : Prop :=
  points a.component < points b.component ∨
    points a.component = points b.component ∧ points a.port < points b.port

/-- The row of a port. -/
def PortState.row (p : PortState) : List String :=
  [p.component.display, if p.state.coil then "1" else "0", if p.state.closed then "1" else "0",
    p.port.display, toString p.level.code]

/-- The rows of a step of a relay simulation: the heading, a row for each port of each component,
and behind a blank row and a title one for each wire. -/
def StepRows (date circuit : String) (result : Relay.StepResult) (rows : Sheet) : Prop :=
  ∃ (ports : List PortState) (wires : List (Ident × Signal)),
    rows = heading "Relay Simulation" date circuit
        ([["# Converged", if result.converged then "yes" else "no"],
          ["# Iterations", toString result.iterations]] ++ titled "# Error" (result.error.getD ""))
        ["Component", "Coil Energized", "Switch Closed", "Port", "Signal"] ++
      ports.map PortState.row ++ [[], ["Wire", "Signal"]] ++
      wires.map (fun (wire, level) => [wire.display, toString level.code]) ∧
    ports.Perm (portStates result.states) ∧ ports.Pairwise PortState.Before ∧
    wires.Perm result.wires ∧ wires.Pairwise (fun a b => points a.1 < points b.1)

/-- The rows of a gate simulation: the heading, and one row for each bit of each wire. -/
def CircuitRows (date circuit : String) (data : Logic.Circuit) (rows : Sheet) : Prop :=
  rows = heading "Gate Simulation" date circuit
      [["# Cycle", toString data.cycle], ["# Stable", if data.stable then "yes" else "no"]]
      ["Wire", "Bit", "Value"] ++
    data.wires.flatMap (fun wire =>
      wire.state.mapIdx (fun bit code => [wire.name, toString bit, toString code]))

/-! ## The sheets hold them -/

/-- A heading is followed by the notes, an empty row and the columns. -/
theorem headingRows_append (analysis date circuit : String) (notes : Sheet)
    (columns : List String) :
    headingRows analysis date circuit ++ notes ++ [[]] ++ [columns] =
      heading analysis date circuit notes columns := by
  simp [headingRows, heading, titled]

/-- A note is titled, and left empty if there is no text. -/
theorem noteRow_eq (title : String) (text : Option String) :
    noteRow title text = titled title (text.getD "") := by
  cases text with
  | none => rfl
  | some s => simp [noteRow, titled]

/-- The status of a row is the one that the verdict gives it. -/
theorem status_rowStatus (verdict : Grading.Verdict) (index : Nat) :
    Status verdict index (rowStatus verdict index) := by
  rw [rowStatus]
  split
  · next hf => exact .fail (by simpa using hf)
  · next hf =>
    split
    · next hp => exact .pass (by simpa using hp) (by simpa using hf)
    · next hp => exact .notRun (by simpa using hp) (by simpa using hf)

/-- The sheet of a verdict has the rows that are meant. -/
theorem verdictRows_verdictSheet (date circuit gate : String) (verdict : Grading.Verdict)
    (table : Grading.Table) :
    VerdictRows date circuit gate verdict table (verdictSheet date verdict table circuit gate) := by
  refine ⟨table.rows.zipIdx.map (fun e =>
    [toString e.2] ++ e.1.map toString ++ [rowStatus verdict e.2]), ?_, by simp, ?_⟩
  · rw [← headingRows_append, verdictSheet, noteRow_eq, noteRow_eq]
    simp only [List.append_assoc, yesNo, Option.getD_some]
    rfl
  · intro index row h
    refine ⟨rowStatus verdict index, status_rowStatus verdict index, ?_⟩
    simp [h]

/-- The names of a step's components, their ports and its wires are texts, and no two of a kind are
the same. -/
structure Listable (result : Relay.StepResult) : Prop where
  states : Named result.states
  ports : ∀ e ∈ result.states, Named e.2.ports
  wires : Named result.wires

/-- Every port of every component as it is listed. -/
def listedPorts (states : List (Ident × Relay.ComponentState)) : List PortState :=
  (sortedByKey states).flatMap (fun (component, state) =>
    portsOf component state (sortedByKey state.ports))

/-- The listed ports are those of all states, each once. -/
theorem listedPorts_perm (states : List (Ident × Relay.ComponentState)) :
    (listedPorts states).Perm (portStates states) :=
  (sortedByKey_perm states).flatMap fun e _ => (sortedByKey_perm e.2.ports).map _

variable {result : Relay.StepResult}

/-- The ports of listable results are listed in order, by component and then by port. -/
theorem Listable.pairwise_before (h : Listable result) :
    (listedPorts result.states).Pairwise PortState.Before := by
  refine List.pairwise_flatMap.2 ⟨fun e he => List.pairwise_map.2 ?_, ?_⟩
  · have hports := h.ports e ((sortedByKey_perm _).mem_iff.1 he)
    exact hports.sortedByKey_pairwise_lt.imp fun hlt => .inr ⟨rfl, hlt⟩
  · refine h.states.sortedByKey_pairwise_lt.imp fun hlt p hp q hq => .inl ?_
    obtain ⟨_, _, rfl⟩ := List.mem_map.1 hp
    obtain ⟨_, _, rfl⟩ := List.mem_map.1 hq
    exact hlt

/-- The rows of a component are those of its ports, sorted by name. -/
theorem componentRows_eq {component : Ident} {state : Relay.ComponentState}
    (hc : component.isText) (hports : Named state.ports) :
    componentRows component state =
      (portsOf component state (sortedByKey state.ports)).map PortState.row := by
  rw [componentRows, portsOf, List.map_map]
  refine List.map_congr_left fun e he => ?_
  have he := hports.isText e ((sortedByKey_perm _).mem_iff.1 he)
  simp [PortState.row, oneZero, cellOf_of_isText hc, cellOf_of_isText he]

/-- The rows of all components together are those of the listed ports. -/
theorem Listable.flatMap_componentRows (h : Listable result) :
    (sortedByKey result.states).flatMap (fun (id, state) => componentRows id state) =
      (listedPorts result.states).map PortState.row := by
  rw [listedPorts, List.map_flatMap]
  refine List.flatMap_congr fun e he => ?_
  have he := (sortedByKey_perm _).mem_iff.1 he
  exact componentRows_eq (h.states.isText e he) (h.ports e he)

/-- The cells of the wires are their names and their codes. -/
theorem Listable.map_wires (h : Listable result) :
    (sortedByKey result.wires).map (fun (id, level) => [cellOf id.value, toString level.code]) =
      (sortedByKey result.wires).map (fun (id, level) => [id.display, toString level.code]) := by
  refine List.map_congr_left fun e he => ?_
  have he := h.wires.isText e ((sortedByKey_perm _).mem_iff.1 he)
  simp only [cellOf_of_isText he]

/-- The sheet of a step has the rows that are meant. -/
theorem Listable.stepRows_stepSheet (h : Listable result) (date circuit : String) :
    StepRows date circuit result (stepSheet date result circuit) := by
  refine ⟨listedPorts result.states, sortedByKey result.wires, ?_, listedPorts_perm _,
    h.pairwise_before, sortedByKey_perm _, h.wires.sortedByKey_pairwise_lt⟩
  rw [← headingRows_append, stepSheet, noteRow_eq, h.flatMap_componentRows, h.map_wires]
  simp only [List.append_assoc, yesNo]
  rfl

/-- The sheet of a gate circuit has the rows that are meant. -/
theorem circuitRows_circuitSheet (date circuit : String) (data : Logic.Circuit) :
    CircuitRows date circuit data (circuitSheet date data circuit) := by
  have hwires : wireRows = fun wire => wire.state.mapIdx (fun bit code =>
      [wire.name, toString bit, toString code]) := by
    funext wire
    rw [wireRows, List.mapIdx_eq_zipIdx_map]
  rw [CircuitRows, ← headingRows_append, circuitSheet, hwires]
  simp only [List.append_assoc, yesNo]
  rfl

/-- A grading, a step of a relay simulation and a gate simulation that are exported are read back as
the rows they mean, whatever characters are in their texts. The names of the components, ports and
wires of the step are the keys of maps. -/
theorem read_exports (date circuit gate : String) (verdict : Grading.Verdict)
    (table : Grading.Table) {result : Relay.StepResult} (hresult : Listable result)
    (data : Logic.Circuit) :
    (∃ rows, Csv.read (Csv.write (verdictSheet date verdict table circuit gate)) = some rows ∧
      VerdictRows date circuit gate verdict table rows) ∧
    (∃ rows, Csv.read (Csv.write (stepSheet date result circuit)) = some rows ∧
      StepRows date circuit result rows) ∧
    ∃ rows, Csv.read (Csv.write (circuitSheet date data circuit)) = some rows ∧
      CircuitRows date circuit data rows :=
  ⟨⟨_, Csv.read_write _, verdictRows_verdictSheet date circuit gate verdict table⟩,
    ⟨_, Csv.read_write _, hresult.stepRows_stepSheet date circuit⟩,
    ⟨_, Csv.read_write _, circuitRows_circuitSheet date circuit data⟩⟩

/-- A step whose names hold commas, quotes and line ends and are not in order. -/
def awkwardStep : Relay.StepResult where
  converged := true
  iterations := 2
  states := [("b,\x22", { coil := true, ports := [("z\r\n", .high), (",", .low)] }),
    ("a", { closed := true, ports := [("", .unknown)] })]
  wires := [("w\n", .high), ("w", .low)]

/-- The step with awkward names is read back as it was meant. -/
theorem read_exports_awkwardStep : Listable awkwardStep ∧
    ∃ rows,
      Csv.read (Csv.write (stepSheet "2024-05-01" awkwardStep "lamp, \x22big\x22")) = some rows ∧
      StepRows "2024-05-01" "lamp, \x22big\x22" awkwardStep rows := by
  have h : Listable awkwardStep := ⟨by decide, by decide, by decide⟩
  exact ⟨h, (read_exports "2024-05-01" "lamp, \x22big\x22" "" { passed := true }
    { inputs := [], outputs := [], rows := [] } h {}).2.1⟩

end Switchyard.Report
