import Mathlib.Data.List.Basic
import Switchyard.Grading.Nesting
import Switchyard.Proofs.Grading.Rectangles
import Switchyard.Proofs.Grading.Rows

/-!
# Unlocking a gate

The standard table of a gate has a row for every assignment of bits to its inputs
(`mem_assignments`), and such a row passes if the outputs of the circuit are what the gate is meant
to be for the bits (`answers_iff_passes`). Grading looks at these rows alone, and at each of them on
a circuit just loaded. Since a step does not depend on what came before it, the circuit then gives
the same answers after any history of steps and of settings of its external inputs
(`Answers.of_agreeBeyond`), so that a gate is unlocked exactly by the circuits that always compute
it (`unlockNamed_iff`).
-/

namespace Switchyard.Grading

open Relay

/-! ## The rows of a standard table -/

/-- The assignments of `n` bits are the lists of that length, each of them. -/
theorem mem_assignments : ∀ {n : Nat} {bits : List Bool}, bits ∈ assignments n ↔ bits.length = n
  | 0, bits => by rw [assignments, List.mem_singleton, List.length_eq_zero_iff]
  | n + 1, bits => by
    rw [assignments, List.mem_append, List.mem_map, List.mem_map]
    constructor
    · rintro (⟨rest, hrest, rfl⟩ | ⟨rest, hrest, rfl⟩) <;>
        rw [List.length_cons, mem_assignments.1 hrest]
    · intro hlength
      cases bits with
      | nil => cases hlength
      | cons bit rest =>
        have hrest := mem_assignments.2 (Nat.succ.inj hlength)
        cases bit with
        | false => exact .inl ⟨rest, hrest, rfl⟩
        | true => exact .inr ⟨rest, hrest, rfl⟩

namespace Table

section
variable (arrays : Arrays) (gate : Gate)

/-- The rows of the standard table of a gate are those of all assignments. -/
theorem rows_standard : (standard arrays gate).rows =
    (assignments (standard arrays gate).inputs.length).map (rowOf arrays gate) := by
  unfold standard
  split <;> rfl

/-- A standard table has one output column. -/
theorem outputs_standard : (standard arrays gate).outputs.length = 1 := by
  unfold standard
  split <;> rfl

/-- An inverter has one input, and a circuit is graded for any other gate with two. -/
theorem inputs_standard :
    (standard arrays gate).inputs.length = if gate = .not then 1 else 2 := by
  unfold standard
  split <;> rfl

/-- The rows of a standard table are read as they are. -/
theorem checkRows_standard : checkRows arrays (standard arrays gate).width
    (standard arrays gate).rows = .ok (standard arrays gate).rows := by
  have hbit : ∀ bit : Bool, fitsWord (bitValue bit) = true := by decide
  have hrows : ∀ row ∈ (standard arrays gate).rows,
      row.length = (standard arrays gate).width ∧ ∀ n ∈ row, fitsWord n = true := by
    rw [rows_standard, List.forall_mem_map]
    intro bits hbits
    constructor
    · rw [rowOf, List.length_append, List.length_map, mem_assignments.1 hbits, width,
        outputs_standard]
      rfl
    · intro n hn
      rcases List.mem_append.1 hn with hn | hn
      · obtain ⟨bit, -, rfl⟩ := List.mem_map.1 hn
        exact hbit bit
      · rw [List.mem_singleton.1 hn]
        exact hbit _
  have hwidth : 0 < (standard arrays gate).width := by
    rw [width, outputs_standard]
    exact Nat.succ_pos _
  exact checkRows_of_words hwidth (fun row hrow => (hrows row hrow).1)
    (fun row hrow => (hrows row hrow).2)

end

end Table

/-! ## Computing a gate -/

/-- On the bench the circuit computes the gate for the bits: with its external inputs set to them in
order, a step comes to rest and every external output reads high if the gate is meant to be high for
the bits, and low if not. -/
def Answers (circuit : Circuit) (gate : Gate) (bits : List Bool) (bench : Bench) : Prop :=
  ∃ set result,
    setAll bench ((portComponents circuit.inputs).zip (bits.map bitValue)) = .ok set ∧
      set.step.2 = .ok result ∧ result.converged = true ∧
      ∀ port ∈ circuit.outputs, set.step.1.getOutput port.component =
        .ok (if gate.Holds bits then .high else .low)

section
variable {circuit : Circuit} {cap : Int} {gate : Gate} {bits : List Bool}

/-- Computing a gate is a matter of the inputs that are not external: a bench on which these are the
same computes it too. -/
theorem Answers.of_agreeBeyond {a b : Bench} (ha : a.Holds circuit cap) (hb : b.Holds circuit cap)
    (hagree : AgreeBeyond circuit (portComponents circuit.inputs) a.sim.inputs b.sim.inputs)
    (hbits : bits.length = circuit.inputs.length) (h : Answers circuit gate bits a) :
    Answers circuit gate bits b := by
  obtain ⟨set, result, hset, hresult, hconverged, houtputs⟩ := h
  have hnames : ((portComponents circuit.inputs).zip (bits.map bitValue)).map (·.1) =
      portComponents circuit.inputs := by
    refine List.map_fst_zip ?_
    rw [portComponents, List.length_map, List.length_map, hbits]
  rcases setAll_alike ((portComponents circuit.inputs).zip (bits.map bitValue)) ha hb
      (hnames.symm ▸ hagree) with
    ⟨fault, hfault, -⟩ | ⟨setA, setB, hsetA, hsetB, hholdsA, hholdsB, hsame⟩
  · rw [hset] at hfault
    cases hfault
  · rw [hset] at hsetA
    cases hsetA
    obtain ⟨houtcome, hread⟩ := hholdsA.step_alike hholdsB hsame
    refine ⟨setB, result, hsetB, houtcome ▸ hresult, hconverged, fun port hport => ?_⟩
    rw [← hread result hresult port.component]
    exact houtputs port hport

/-- A bit of a standard table is read as the level it stands for. -/
theorem levelOf_bitValue (p : Prop) [Decidable p] :
    levelOf (bitValue (decide p)) = .ok (if p then .high else .low) := by
  by_cases hp : p
  · rw [decide_eq_true hp, if_pos hp]
    rfl
  · rw [decide_eq_false hp, if_neg hp]
    rfl

/-- A circuit with one output computes a gate for some bits if and only if their row passes. -/
theorem answers_iff_passes {arrays : Arrays} {bench : Bench}
    (hinputs : circuit.inputs.length = (Table.standard arrays gate).inputs.length)
    (hbits : bits.length = circuit.inputs.length) (houtputs : circuit.outputs.length = 1) :
    Answers circuit gate bits bench ↔
      Passes (portComponents circuit.inputs) (portComponents circuit.outputs)
        (Table.rowOf arrays gate bits) bench := by
  have hunary : gate = .not → bits.length = 1 := by
    rintro rfl
    rw [hbits, hinputs, Table.inputs_standard]
    rfl
  obtain ⟨port, hport⟩ := List.length_eq_one_iff.1 houtputs
  have hlength : (portComponents circuit.inputs).length = (bits.map bitValue).length := by
    rw [portComponents, List.length_map, List.length_map, hbits]
  unfold Answers Passes Table.rowOf
  rw [hlength, List.take_left, List.drop_left, hport, Gate.value_eq hunary]
  simp only [List.forall_mem_singleton, portComponents, List.map_cons, List.map_nil, List.mapM_cons,
    List.mapM_nil, levelOf_bitValue]
  constructor
  · rintro ⟨set, result, hset, hresult, hconverged, hread⟩
    exact ⟨set, result, _, hset, hresult, hconverged, by rw [hread]; rfl, rfl⟩
  · rintro ⟨set, result, levels, hset, hresult, hconverged, hread, hexpected⟩
    cases hexpected
    refine ⟨set, result, hset, hresult, hconverged, ?_⟩
    cases hlevel : set.step.1.getOutput port.component with
    | error fault =>
      rw [hlevel] at hread
      cases hread
    | ok level =>
      rw [hlevel] at hread
      cases hread
      rfl

end

/-! ## Unlocking a gate -/

section
variable {arrays : Arrays} {circuit : Circuit} {cap : Int}

/-- Nothing is wrong with the ports exactly if each side has as many as the table has columns. -/
theorem portComplaint?_eq_none {table : Table} : portComplaint? circuit table = none ↔
    circuit.inputs.length = table.inputs.length ∧
      circuit.outputs.length = table.outputs.length := by
  unfold portComplaint?
  split
  · simp_all
  · split <;> simp_all

/-- A circuit that can be loaded onto a new simulator. -/
theorem load_ofCircuit (h : (Bench.ofCircuit circuit cap).load.2 = .ok ()) :
    (Bench.ofCircuit circuit cap).load.1 = Bench.fresh circuit cap ∧
      (Bench.fresh circuit cap).Holds circuit cap := by
  have hreload : (Simulator.reload circuit { cap }).2 = .ok () := h
  exact ⟨congrArg Prod.fst (Bench.load_eq_fresh rfl rfl hreload), Bench.holds_fresh ⟨_, hreload⟩⟩

/-- All rows of a table pass if and only if the circuit can be loaded and passes each of them as
freshly loaded. -/
theorem gradeTable_pass_iff {table : Table}
    (hcheck : checkRows arrays ((portComponents circuit.inputs).length +
      (portComponents circuit.outputs).length) table.rows = .ok table.rows) :
    (∃ outcomes, gradeTable arrays cap circuit table = .ok outcomes ∧
      outcomes.all (·.passes) = true) ↔
    (Bench.ofCircuit circuit cap).load.2 = .ok () ∧
      ∀ row ∈ table.rows, Passes (portComponents circuit.inputs) (portComponents circuit.outputs)
        row (Bench.fresh circuit cap) := by
  unfold gradeTable grade
  rw [hcheck]
  dsimp only [bind, Except.bind]
  cases hload : (Bench.ofCircuit circuit cap).load.2 with
  | error fault => exact ⟨nofun, nofun⟩
  | ok _ =>
    obtain ⟨hfresh, hholds⟩ := load_ofCircuit hload
    rw [hfresh, ← gradeRows_pass_iff table.rows 0 hholds]
    dsimp only [Except.mapError]
    cases gradeRows (portComponents circuit.inputs) (portComponents circuit.outputs) 0
        (Bench.fresh circuit cap) table.rows with
    | error fault => exact ⟨nofun, fun ⟨_, _, _, hrows, _⟩ => nomatch hrows⟩
    | ok graded =>
      constructor
      · rintro ⟨outcomes, ⟨⟩, hpass⟩
        exact ⟨rfl, _, _, rfl, hpass⟩
      · rintro ⟨-, next, outcomes, ⟨⟩, hpass⟩
        exact ⟨_, rfl, hpass⟩

/-- A verdict is positive exactly if every row passes. -/
theorem passed_ofTable (table : Table) (outcomes : List RowOutcome) :
    (Verdict.ofTable table outcomes).passed = outcomes.all (·.passes) := by
  unfold Verdict.ofTable
  dsimp only
  split <;> rfl

/-- A gate is unlocked by a circuit that has ports as its standard table and can be loaded, and that
computes the gate, as freshly loaded, for all bits. -/
theorem unlock_passed_iff {gate : Gate} :
    (∃ verdict, unlock arrays cap circuit gate = .ok verdict ∧ verdict.passed = true) ↔
    circuit.inputs.length = (Table.standard arrays gate).inputs.length ∧
      circuit.outputs.length = (Table.standard arrays gate).outputs.length ∧
      (Bench.ofCircuit circuit cap).load.2 = .ok () ∧
      ∀ bits : List Bool, bits.length = circuit.inputs.length →
        Answers circuit gate bits (Bench.fresh circuit cap) := by
  unfold unlock Trial.ofGate
  cases hcomplaint : portComplaint? circuit (Table.standard arrays gate) with
  | some text =>
    refine ⟨?_, fun ⟨hinputs, houtputs, _⟩ => ?_⟩
    · rintro ⟨_, ⟨⟩, ⟨⟩⟩
    · rw [portComplaint?_eq_none.2 ⟨hinputs, houtputs⟩] at hcomplaint
      cases hcomplaint
  | none =>
    obtain ⟨hinputs, houtputs⟩ := portComplaint?_eq_none.1 hcomplaint
    have hone := houtputs.trans (Table.outputs_standard arrays gate)
    have hcheck : checkRows arrays ((portComponents circuit.inputs).length +
        (portComponents circuit.outputs).length) (Table.standard arrays gate).rows =
        .ok (Table.standard arrays gate).rows := by
      rw [portComponents, portComponents, List.length_map, List.length_map, hinputs, houtputs]
      exact Table.checkRows_standard arrays gate
    rw [exists_map_eq_ok, exists_map_eq_ok]
    simp only [Trial.verdict, passed_ofTable]
    rw [gradeTable_pass_iff hcheck, Table.rows_standard, List.forall_mem_map,
      and_iff_right hinputs, and_iff_right houtputs]
    refine and_congr_right' (forall_congr' (fun bits => ?_))
    rw [mem_assignments, ← hinputs]
    exact forall_congr' (fun hbits => (answers_iff_passes hinputs hbits hone).symm)

/-- A gate is unlocked exactly by the circuits that always compute it: they have as many external
inputs and outputs as its table and can be loaded, and after any history of steps and of settings of
the external inputs, whatever bits these are set to, a step comes to rest with every external output
at what the gate is meant to be for the bits. -/
theorem unlockNamed_iff {gate : Gate} {name : Json} (hname : Gate.ofJson? name = some gate) :
    (∃ verdict, unlockNamed arrays cap circuit name = .ok verdict ∧ verdict.passed = true) ↔
    circuit.inputs.length = (Table.standard arrays gate).inputs.length ∧
      circuit.outputs.length = (Table.standard arrays gate).outputs.length ∧
      (Bench.ofCircuit circuit cap).load.2 = .ok () ∧
      ∀ history : List Action,
        (∀ action ∈ history, action.SetsOnly (portComponents circuit.inputs)) →
        ∀ bits : List Bool, bits.length = circuit.inputs.length →
          Answers circuit gate bits ((Bench.ofCircuit circuit cap).load.1.performAll history) := by
  rw [unlockNamed, hname]
  dsimp only
  rw [unlock_passed_iff]
  refine and_congr_right' (and_congr_right' (and_congr_right (fun hload => ?_)))
  obtain ⟨hfresh, hholds⟩ := load_ofCircuit hload
  rw [hfresh]
  constructor
  · intro h history hhistory bits hbits
    obtain ⟨hafter, hagree⟩ := hholds.performAll_agreeBeyond hhistory (.refl _ _ _)
    exact (h bits hbits).of_agreeBeyond hholds hafter hagree.symm hbits
  · intro h bits hbits
    exact h [] nofun bits hbits

end

/-- A normally closed relay whose coil is the input and whose contact passes the power on. -/
def inverter : Circuit where
  placed := [⟨.text "vcc", .power, .zero false, .zero false, .int 0, .null⟩,
    ⟨.text "a", .input, .zero false, .zero false, .int 0, .null⟩,
    ⟨.text "r", .relayNc, .zero false, .zero false, .int 0, .null⟩,
    ⟨.text "y", .output, .zero false, .zero false, .int 0, .null⟩].foldl Placement.put {}
  wires := [⟨.text "w1", ⟨.text "vcc", outPort⟩, ⟨.text "r", contactIn⟩⟩,
    ⟨.text "w2", ⟨.text "a", outPort⟩, ⟨.text "r", coilIn⟩⟩,
    ⟨.text "w3", ⟨.text "r", contactOut⟩, ⟨.text "y", inPort⟩⟩]
  inputs := [⟨.text "in_0", .text "A", .str "input", .text "a"⟩]
  outputs := [⟨.text "out_0", .text "Y", .str "output", .text "y"⟩]

/-- The relay inverts also after a run with its input unknown. -/
theorem inverter_answers :
    let loaded := (Bench.ofCircuit inverter 10).load.1
    let history := [.toggle (.text "a"), .step, .run [(.text "a", .int 2)]]
    Gate.ofJson? (.str "not") = some .not ∧
      (∃ verdict, unlockNamed (.ofNesting 64) 10 inverter (.str "not") = .ok verdict ∧
        verdict.passed = true) ∧
      (∀ action ∈ history, action.SetsOnly (portComponents inverter.inputs)) ∧
      (loaded.performAll history).sim.states ≠ loaded.sim.states ∧
      ∀ bit, Answers inverter .not [bit] (loaded.performAll history) := by
  intro loaded history
  have hname : Gate.ofJson? (.str "not") = some .not := by decide
  have hverdict : ∃ verdict, unlockNamed (.ofNesting 64) 10 inverter (.str "not") = .ok verdict ∧
      verdict.passed = true := exists_of_toOption (by decide +kernel)
  have hhistory : ∀ action ∈ history, action.SetsOnly (portComponents inverter.inputs) := by
    have hport : Ident.text "a" ∈ portComponents inverter.inputs := List.mem_singleton.2 rfl
    have hlevel : (Signal.ofJson? (.int 2)).isSome = true := rfl
    simpa [history, Action.SetsOnly, hport] using hlevel
  obtain ⟨-, -, -, hanswers⟩ := (unlockNamed_iff hname).1 hverdict
  exact ⟨hname, hverdict, hhistory, by decide +kernel,
    fun bit => hanswers history hhistory [bit] rfl⟩

end Switchyard.Grading
