import Switchyard.Proofs.Grading.Columns
import Switchyard.Proofs.Relay.LiveEdits

/-!
# Grading always gives a verdict

In a circuit whose names can be looked up, inputs that some names denote are set to any levels
(`exists_setAll_eq_ok`) and each row is graded (`exists_gradeRow_eq_ok`). If the external inputs
stand for components, their components are such names, be it of other inputs
(`settable_of_present`). So grading for a gate ends in a verdict, which has a complaint exactly if
the circuit did not pass (`exists_unlockNamed_eq_ok`).
-/

namespace Switchyard.Grading

open Relay

variable {arrays : Arrays} {circuit : Circuit} {cap : Int}

/-! ## Names of inputs -/

/-- The name denotes an input that can be set. -/
def Settable (circuit : Circuit) (id : Ident) : Prop :=
  ∃ component, Simulator.resolve circuit id = .ok (some component) ∧ component ≠ .null

/-- The component of an external input denotes some external input, be it another one. -/
theorem settable_of_present (hpresent : ∀ port ∈ circuit.inputs, port.component ≠ .null) :
    ∀ id ∈ portComponents circuit.inputs, Settable circuit id := by
  intro id hid
  obtain ⟨port, hport, rfl⟩ := List.mem_map.1 hid
  have hself : answersTo port.component port = true := by
    rw [answersTo, BEq.refl, Bool.or_true]
  obtain ⟨found, hfound⟩ := Option.isSome_iff_exists.1 (List.find?_isSome.2 ⟨port, hport, hself⟩)
  exact ⟨found.component, resolve_of_find? hfound, hpresent found (List.mem_of_find?_eq_some hfound)⟩

/-! ## Rows -/

section
variable (h : circuit.Searchable)
include h

/-- Inputs that can be set are set to levels one after the other, and the bench still holds the
circuit. -/
theorem exists_setAll_eq_ok : ∀ {values : List (Ident × Int)} {bench : Bench},
    bench.Holds circuit cap → (∀ v ∈ values, Settable circuit v.1 ∧ IsLevel v.2) →
    ∃ set, setAll bench values = .ok set ∧ set.Holds circuit cap
  | [], bench, hholds, _ => ⟨bench, rfl, hholds⟩
  | (id, n) :: rest, bench, hholds, hvalues => by
    obtain ⟨⟨⟨component, hresolve, hpresent⟩, hn⟩, hrest⟩ := List.forall_mem_cons.1 hvalues
    have hlevel : Signal.ofJson? (.int n) = some (Signal.ofCode n) := ofCode?_of_isLevel hn
    rw [setAll, hholds.setInput_eq,
      bench.sim.setInput_of_resolve (Simulator.isScalar_of_resolve h.inputs hresolve) hpresent
        hresolve hlevel]
    exact exists_setAll_eq_ok (hholds.withInputs _) hrest

variable {inputs : List Ident} (hinputs : ∀ id ∈ inputs, Settable circuit id) (outputs : List Ident)
include hinputs

/-- A row of levels is graded on any bench that holds the circuit: setting, stepping and reading all
give a result. -/
theorem exists_gradeRow_eq_ok {bench : Bench} (hholds : bench.Holds circuit cap) (index : Nat)
    {row : List Int} (hrow : ∀ n ∈ row, IsLevel n) :
    ∃ graded, gradeRow bench inputs outputs index row = .ok graded := by
  have hvalues : ∀ v ∈ inputs.zip (row.take inputs.length), Settable circuit v.1 ∧ IsLevel v.2 := by
    rintro ⟨id, n⟩ hv
    obtain ⟨hid, hn⟩ := List.of_mem_zip hv
    exact ⟨hinputs id hid, hrow n (List.mem_of_mem_take hn)⟩
  have hfresh : (Bench.fresh circuit cap).Holds circuit cap := Bench.holds_fresh hholds.loadable
  obtain ⟨set, hset, hready⟩ := exists_setAll_eq_ok h hfresh hvalues
  obtain ⟨result, hresult⟩ := hready.step_ok_iff.2 (List.all_eq_true.2 h.kinds)
  obtain ⟨actual, hactual⟩ : ∃ actual, outputs.mapM set.step.1.getOutput = .ok actual := by
    refine exists_mapM_eq_ok (fun id _ => ?_)
    rw [hready.step_eq, Bench.getOutput, hready.withStep.loaded?_eq]
    exact h.exists_getOutput_eq_ok _ id
  have hexpected : (row.drop inputs.length).mapM levelOf = .ok _ :=
    mapM_levelOf (fun n hn => hrow n (List.mem_of_mem_drop hn))
  exact ⟨(_, _), (gradeRow_eq_ok_iff hholds).2
    ⟨set, result, actual, _, hset, hresult, hactual, hexpected, rfl, rfl⟩⟩

/-- Rows of levels are graded one after the other, each on the bench that the last one left. -/
theorem exists_gradeRows_eq_ok : ∀ (rows : List (List Int)) (index : Nat) {bench : Bench},
    bench.Holds circuit cap → (∀ row ∈ rows, ∀ n ∈ row, IsLevel n) →
    ∃ next outcomes, gradeRows inputs outputs index bench rows = .ok (next, outcomes)
  | [], _, bench, _, _ => ⟨bench, [], rfl⟩
  | row :: rows, index, bench, hholds, hrows => by
    obtain ⟨hrow, hrest⟩ := List.forall_mem_cons.1 hrows
    obtain ⟨⟨middle, outcome⟩, hfirst⟩ := exists_gradeRow_eq_ok h hinputs outputs hholds index hrow
    obtain ⟨next, outcomes, hothers⟩ := exists_gradeRows_eq_ok rows (index + 1)
      (gradeRow_holds hholds hfirst) hrest
    rw [gradeRows, hfirst]
    dsimp only [bind, Except.bind]
    rw [hothers]
    exact ⟨next, outcome :: outcomes, rfl⟩

end

/-! ## Verdicts -/

/-- The values of a standard table are levels. -/
theorem isLevel_of_mem_standard (gate : Gate) :
    ∀ row ∈ (Table.standard arrays gate).rows, ∀ n ∈ row, IsLevel n := by
  have hbit : ∀ bit : Bool, IsLevel (bitValue bit) := by
    unfold IsLevel
    decide
  rw [Table.rows_standard, List.forall_mem_map]
  intro bits _ n hn
  rcases List.mem_append.1 hn with hn | hn
  · obtain ⟨bit, -, rfl⟩ := List.mem_map.1 hn
    exact hbit bit
  · rw [List.mem_singleton.1 hn]
    exact hbit _

/-- A verdict reports an error exactly if it is negative. -/
theorem error_ofTable (table : Table) (outcomes : List RowOutcome) :
    (Verdict.ofTable table outcomes).error = none ↔
      (Verdict.ofTable table outcomes).passed = true := by
  rw [passed_ofTable, Verdict.ofTable]
  cases hall : outcomes.all (·.passes) with
  | true => simp [Verdict.ofOutcomes, hall]
  | false => simp [Verdict.ofOutcomes, hall]

/-- The table of a gate fits a circuit with as many ports. -/
theorem checkRows_of_portComplaint? {gate : Gate}
    (hcomplaint : portComplaint? circuit (Table.standard arrays gate) = none) :
    checkRows arrays
        ((portComponents circuit.inputs).length + (portComponents circuit.outputs).length)
      (Table.standard arrays gate).rows = .ok (Table.standard arrays gate).rows := by
  obtain ⟨hinputs, houtputs⟩ := portComplaint?_eq_none.1 hcomplaint
  rw [length_portComponents, length_portComponents, hinputs, houtputs]
  exact Table.checkRows_standard arrays gate

section
variable (h : circuit.Searchable)
include h

/-- A fresh bench holds its circuit. -/
theorem holds_fresh : (Bench.fresh circuit cap).Holds circuit cap :=
  Bench.holds_fresh ⟨{}, by rw [h.reload_eq]⟩

/-- A circuit with as many ports as a gate is tried for it by all rows of its table. -/
theorem unlock_of_gradeRows {gate : Gate}
    (hcomplaint : portComplaint? circuit (Table.standard arrays gate) = none) {next : Bench}
    {outcomes : List RowOutcome}
    (hrows : gradeRows (portComponents circuit.inputs) (portComponents circuit.outputs) 0
      (Bench.fresh circuit cap) (Table.standard arrays gate).rows = .ok (next, outcomes)) :
    unlock arrays cap circuit gate =
      .ok (Verdict.ofTable (Table.standard arrays gate) outcomes) := by
  have hload : (Bench.ofCircuit circuit cap).load.2 = .ok () := by
    rw [Bench.load, Bench.ofCircuit, h.reload_eq]
  have hgraded : gradeTable arrays cap circuit (Table.standard arrays gate) = .ok outcomes := by
    unfold gradeTable grade
    dsimp only [bind, Except.bind]
    rw [hload, (load_ofCircuit hload).1, checkRows_of_portComplaint? hcomplaint]
    dsimp only [Except.mapError]
    rw [hrows]
    rfl
  unfold unlock Trial.ofGate
  rw [hcomplaint]
  dsimp only
  rw [hgraded]
  rfl

variable (hpresent : ∀ port ∈ circuit.inputs, port.component ≠ .null)
include hpresent

/-- A circuit is graded for every gate, and the verdict has a complaint unless it passed. -/
theorem exists_unlock_eq_ok (gate : Gate) : ∃ verdict, unlock arrays cap circuit gate = .ok verdict ∧
    (verdict.error = none ↔ verdict.passed = true) := by
  cases hcomplaint : portComplaint? circuit (Table.standard arrays gate) with
  | some text =>
    unfold unlock Trial.ofGate
    rw [hcomplaint]
    exact ⟨_, rfl, iff_of_false nofun nofun⟩
  | none =>
    obtain ⟨next, outcomes, hrows⟩ := exists_gradeRows_eq_ok h (settable_of_present hpresent)
      (portComponents circuit.outputs) (Table.standard arrays gate).rows 0 (holds_fresh h)
      (isLevel_of_mem_standard gate)
    exact ⟨_, unlock_of_gradeRows h hcomplaint hrows, error_ofTable _ _⟩

/-- So it is for every name that can be looked up, be it that of a gate or not. -/
theorem exists_unlockNamed_eq_ok {name : Json} (hname : name.isScalar = true) :
    ∃ verdict, unlockNamed arrays cap circuit name = .ok verdict ∧
      (verdict.error = none ↔ verdict.passed = true) := by
  unfold unlockNamed
  split
  · next gate _ => exact exists_unlock_eq_ok h hpresent gate
  · rw [if_pos hname]
    exact ⟨_, rfl, iff_of_false nofun nofun⟩

end

end Switchyard.Grading
