import Mathlib.Logic.Equiv.Defs
import Switchyard.Grading.Checker
import Switchyard.Proofs.Grading.Total

/-!
# Rows are graded independently

Trying rows on one bench differs from grading them only in what is left behind of refused operations
(`gradeRow_eq_tryRow`), so the verdicts of a checker are those of grading (`verify_eq_gradeValue`,
`checkNamed_eq_unlockNamed`). A row starts by a reset, so it comes out as on the circuit as freshly
loaded, whatever the bench was left with (`exists_tryRow`), and it leaves a bench that is reset to
the same. So a table is judged row by row (`exists_tryRows`, `Verdict.rowwise`): the verdict on two
tables one after the other is that on each of them, and rows in another order are judged in that
order (`verify_rowwise`).
-/

namespace Switchyard.Grading

open Relay

/-! ## Trying and grading -/

/-- Setting inputs until one is refused is setting them in order, and the bench is handed on only if
none is. -/
theorem setAll_eq_setInOrder : ∀ (values : List (Ident × Int)) (bench : Bench),
    setAll bench values = (setInOrder bench values).2.map (fun _ => (setInOrder bench values).1)
  | [], _ => rfl
  | (id, n) :: rest, bench => by
    rw [setAll, setInOrder]
    cases bench.setInput id (.int n) with
    | error fault => rfl
    | ok next => exact setAll_eq_setInOrder rest next

/-- Grading a row is trying it, where only a row that is graded hands its bench on. -/
theorem gradeRow_eq_tryRow (bench : Bench) (inputs outputs : List Ident) (index : Nat)
    (row : List Int) : gradeRow bench inputs outputs index row =
      (tryRow bench inputs outputs index row).2.map
        (fun outcome => ((tryRow bench inputs outputs index row).1, outcome)) := by
  unfold gradeRow tryRow
  rcases bench.reset with ⟨fresh, fault | _⟩
  · rfl
  · dsimp only [bind, Except.bind]
    rw [setAll_eq_setInOrder]
    rcases setInOrder fresh (inputs.zip (row.take inputs.length)) with ⟨set, fault | _⟩
    · rfl
    · dsimp only [Except.map]
      rcases set.step with ⟨next, fault | result⟩
      · rfl
      · dsimp only [readRow, bind, Except.bind]
        cases outputs.mapM next.getOutput with
        | error fault => rfl
        | ok actual => cases (row.drop inputs.length).mapM levelOf <;> rfl

/-- Grading rows is trying them one after the other, by induction on the rows. -/
theorem gradeRows_eq_tryRows (inputs outputs : List Ident) :
    ∀ (rows : List (List Int)) (index : Nat) (bench : Bench),
      gradeRows inputs outputs index bench rows =
        (tryRows inputs outputs index bench rows).2.map
          (fun outcomes => ((tryRows inputs outputs index bench rows).1, outcomes))
  | [], _, _ => rfl
  | row :: rows, index, bench => by
    rw [gradeRows, tryRows, gradeRow_eq_tryRow]
    rcases tryRow bench inputs outputs index row with ⟨next, fault | outcome⟩
    · rfl
    · dsimp only [Except.map, bind, Except.bind]
      rw [gradeRows_eq_tryRows inputs outputs rows (index + 1) next]
      rcases tryRows inputs outputs (index + 1) next rows with ⟨last, fault | outcomes⟩ <;> rfl

/-- Grading the rows of a table is trying them, a refused table being refused before any row is
tried. -/
theorem gradeChecked_eq_tryChecked (bench : Bench) (inputs outputs : List Ident)
    (checked : Except RowsFault (List (List Int))) :
    (checked.mapError Fault.rows >>= fun rows =>
        (gradeRows inputs outputs 0 bench rows).mapError Fault.simulator).map Prod.snd =
      (tryChecked bench inputs outputs checked).2 := by
  cases checked with
  | error fault => rfl
  | ok rows =>
    dsimp only [tryChecked, bind, Except.bind, Except.mapError]
    rw [gradeRows_eq_tryRows]
    rcases tryRows inputs outputs 0 bench rows with ⟨next, fault | outcomes⟩ <;> rfl

/-- A checker judges rows as they are graded. -/
theorem verify_eq_gradeValue (arrays : Arrays) (bench : Bench) (inputs outputs : List Ident)
    (rows : Json) :
    (verify arrays bench inputs outputs rows).2 =
      (gradeValue arrays bench inputs outputs rows).map
        (fun graded => Verdict.ofOutcomes graded.2) := by
  have htried : (tryChecked bench inputs outputs
      (rowsOf arrays (inputs.length + outputs.length) rows)).2 =
        (gradeValue arrays bench inputs outputs rows).map Prod.snd :=
    (gradeChecked_eq_tryChecked ..).symm
  dsimp only [verify]
  rw [htried]
  cases gradeValue arrays bench inputs outputs rows <;> rfl

/-- A new checker tests a circuit against a table as it is tested by itself. -/
theorem testOn_eq_testTable (arrays : Arrays) (cap : Int) (circuit : Circuit) (table : Table) :
    (testOn arrays (Bench.ofCircuit {} cap) circuit table).2 =
      testTable arrays cap circuit table := by
  have hreplaced : (Bench.ofCircuit {} cap).replace circuit = Bench.ofCircuit circuit cap := rfl
  unfold testOn testTable gradeTable
  rw [hreplaced]
  rcases (Bench.ofCircuit circuit cap).load with ⟨bench, fault | _⟩
  · rfl
  · have htried : (tryChecked bench (portComponents circuit.inputs)
        (portComponents circuit.outputs) (checkRows arrays ((portComponents circuit.inputs).length +
          (portComponents circuit.outputs).length) table.rows)).2 =
            (grade arrays bench (portComponents circuit.inputs) (portComponents circuit.outputs)
              table.rows).map Prod.snd :=
      (gradeChecked_eq_tryChecked ..).symm
    dsimp only
    rw [htried]
    dsimp only [Except.mapError, bind, Except.bind]
    cases grade arrays bench (portComponents circuit.inputs) (portComponents circuit.outputs)
      table.rows <;> rfl

/-- A new checker checks for a gate as for that gate alone. -/
theorem checkNamed_eq_unlockNamed (arrays : Arrays) (cap : Int) (circuit : Circuit) (name : Json) :
    (checkNamed arrays (Bench.ofCircuit {} cap) circuit name).2 =
      unlockNamed arrays cap circuit name := by
  unfold checkNamed unlockNamed
  cases Gate.ofJson? name with
  | none => rfl
  | some gate =>
    unfold check unlock Trial.ofGate
    dsimp only
    cases portComplaint? circuit (Table.standard arrays gate) with
    | some text => rfl
    | none =>
      dsimp only
      rw [testOn_eq_testTable, testTable]
      cases gradeTable arrays cap circuit (Table.standard arrays gate) <;> rfl

/-! ## Rows on one bench -/

/-- Resetting the bench loads the circuit afresh. -/
structure Resets (circuit : Circuit) (cap : Int) (bench : Bench) : Prop where
  cap_eq : bench.sim.cap = cap
  reset_eq : bench.reset = (Bench.fresh circuit cap, .ok ())

/-- Whether the row passes on the circuit as freshly loaded. -/
def passesFresh (cap : Int) (circuit : Circuit) (inputs outputs : List Ident) (row : List Int) :
    Bool :=
  match (tryRow (Bench.fresh circuit cap) inputs outputs 0 row).2 with
  | .ok outcome => outcome.passes
  | .error _ => false

section
variable {circuit : Circuit} {cap : Int} {inputs outputs : List Ident} {row : List Int}

/-- The check on a fresh bench answers whether the row passes there. -/
theorem passesFresh_iff (hfresh : (Bench.fresh circuit cap).Holds circuit cap) :
    passesFresh cap circuit inputs outputs row = true ↔
      Passes inputs outputs row (Bench.fresh circuit cap) := by
  rw [← gradeRow_passes_iff hfresh 0 row, gradeRow_eq_tryRow, passesFresh]
  rcases tryRow (Bench.fresh circuit cap) inputs outputs 0 row with ⟨next, fault | outcome⟩
  · exact ⟨nofun, nofun⟩
  · simp [Except.map]

variable (h : circuit.Searchable)
include h

/-- A bench that has the circuit loaded is reset to it, whatever has become of the simulator. -/
theorem resets_current (sim : Simulator) : Resets circuit sim.cap ⟨circuit, .current, sim⟩ := by
  have hreload : (sim.reload circuit).2 = .ok () := by rw [h.reload_eq]
  exact ⟨rfl, (Bench.reset_eq_load rfl).trans (Bench.load_eq_fresh rfl rfl hreload)⟩

variable (hinputs : ∀ id ∈ inputs, Settable circuit id) (outputs)
include hinputs

/-- A row is tried to the end and passes if it does so on the circuit as freshly loaded, and the
bench that it leaves behind is reset as the one before. -/
theorem exists_tryRow {bench : Bench} (hresets : Resets circuit cap bench)
    (hrow : ∀ n ∈ row, IsLevel n) (index : Nat) :
    ∃ next outcome, tryRow bench inputs outputs index row = (next, .ok outcome) ∧
      Resets circuit cap next ∧ outcome.index = index ∧
      outcome.passes = passesFresh cap circuit inputs outputs row := by
  have hfresh : (Bench.fresh circuit cap).Holds circuit cap := holds_fresh h
  have hsame : tryRow bench inputs outputs index row =
      tryRow (Bench.fresh circuit cap) inputs outputs index row := by
    unfold tryRow
    rw [hresets.reset_eq, hfresh.reset_eq]
  obtain ⟨⟨next, outcome⟩, hgraded⟩ := exists_gradeRow_eq_ok h hinputs outputs hfresh index hrow
  obtain ⟨_, _, _, _, -, -, -, -, -, houtcome⟩ := (gradeRow_eq_ok_iff hfresh).1 hgraded
  have hpasses : outcome.passes = passesFresh cap circuit inputs outputs row := by
    rw [Bool.eq_iff_iff, passesFresh_iff hfresh, ← gradeRow_passes_iff hfresh index row, hgraded]
    simp
  have hnext := gradeRow_holds hfresh hgraded
  rw [gradeRow_eq_tryRow] at hgraded
  refine ⟨next, outcome, ?_, ⟨hnext.cap_eq, hnext.reset_eq⟩, by rw [houtcome], hpasses⟩
  rw [hsame]
  rcases htried : tryRow (Bench.fresh circuit cap) inputs outputs index row with
    ⟨last, fault | tried⟩
  · rw [htried] at hgraded
    cases hgraded
  · rw [htried] at hgraded
    cases hgraded
    rfl

/-- So are rows one after the other, each of which passes if it does so by itself. -/
theorem exists_tryRows : ∀ (rows : List (List Int)) (index : Nat) {bench : Bench},
    Resets circuit cap bench → (∀ row ∈ rows, ∀ n ∈ row, IsLevel n) →
    ∃ next outcomes, tryRows inputs outputs index bench rows = (next, .ok outcomes) ∧
      Resets circuit cap next ∧
      outcomes.map (fun outcome => (outcome.index, outcome.passes)) =
        (rows.zipIdx index).map (fun p => (p.2, passesFresh cap circuit inputs outputs p.1))
  | [], _, bench, hresets, _ => ⟨bench, [], rfl, hresets, rfl⟩
  | row :: rows, index, bench, hresets, hrows => by
    obtain ⟨hrow, hrest⟩ := List.forall_mem_cons.1 hrows
    obtain ⟨middle, outcome, hfirst, hmiddle, hindex, hpasses⟩ :=
      exists_tryRow outputs h hinputs hresets hrow index
    obtain ⟨next, outcomes, hothers, hnext, heach⟩ := exists_tryRows rows (index + 1) hmiddle hrest
    refine ⟨next, outcome :: outcomes, ?_, hnext, ?_⟩
    · rw [tryRows, hfirst]
      dsimp only
      rw [hothers]
      rfl
    · rw [List.map_cons, List.zipIdx_cons, List.map_cons, heach, hindex, hpasses]

end

/-! ## Numbers of rows -/

/-- The numbers of the rows that meet a condition. -/
def numbersOf (keep : List Int → Bool) (rows : List (List Int)) : List Nat :=
  (rows.zipIdx.filter (fun p => keep p.1)).map (·.2)

/-- A number is listed exactly if the row found at it is kept. -/
theorem mem_numbersOf {keep : List Int → Bool} {rows : List (List Int)} {k : Nat} :
    k ∈ numbersOf keep rows ↔ ∃ row, rows[k]? = some row ∧ keep row = true := by
  rw [← exists_numbered_iff (fun row => keep row = true), numbersOf]
  simp [and_assoc]

/-- The numbers of the kept rows are listed in rising order. -/
theorem ascend_numbersOf (keep : List Int → Bool) (rows : List (List Int)) :
    (numbersOf keep rows).Pairwise (· < ·) := by
  have hall : (rows.zipIdx.map (·.2)).Pairwise (· < ·) := by
    rw [List.zipIdx_map_snd]
    exact List.pairwise_lt_range'
  exact hall.sublist (List.filter_sublist.map _)

/-- The kept rows of two tables in a row are those of the first and those of the second, moved up.
-/
theorem numbersOf_append (keep : List Int → Bool) (rows more : List (List Int)) :
    numbersOf keep (rows ++ more) =
      numbersOf keep rows ++ (numbersOf keep more).map (rows.length + ·) := by
  have hshift : more.zipIdx rows.length = more.zipIdx.map (Prod.map id (rows.length + ·)) := by
    simp [List.zipIdx_eq_map_add (i := rows.length), Prod.map, Nat.add_comm]
  unfold numbersOf
  rw [List.zipIdx_append, Nat.zero_add, hshift, List.filter_append, List.map_append,
    List.filter_map, List.map_map, List.map_map]
  rfl

/-- Outcomes under the numbers of their rows, kept by how they came out. -/
theorem numbersOf_of_outcomes {passes : List Int → Bool} {rows : List (List Int)}
    {outcomes : List RowOutcome}
    (h : outcomes.map (fun outcome => (outcome.index, outcome.passes)) =
      rows.zipIdx.map (fun p => (p.2, passes p.1))) (keep : Bool → Bool) :
    (outcomes.filter (fun outcome => keep outcome.passes)).map (·.index) =
      numbersOf (fun row => keep (passes row)) rows := by
  have hkept := congrArg (fun ps => (ps.filter (fun p => keep p.2)).map Prod.fst) h
  unfold numbersOf
  simpa [List.filter_map, Function.comp_def] using hkept

/-! ## Verdicts row by row -/

namespace Verdict

/-- The verdict on rows of which each passes or fails by itself. -/
def rowwise (passes : List Int → Bool) (rows : List (List Int)) : Verdict where
  passed := rows.all passes
  passedRows := numbersOf passes rows
  failedRows := numbersOf (fun row => !passes row) rows

/-- The verdict on two tables one after the other, the first of which has the given number of
rows. -/
def followedBy (first : Verdict) (count : Nat) (second : Verdict) : Verdict where
  passed := first.passed && second.passed
  passedRows := first.passedRows ++ second.passedRows.map (count + ·)
  failedRows := first.failedRows ++ second.failedRows.map (count + ·)

/-- The verdict tells the rows that pass from the others, both by their numbers in ascending
order. -/
structure Judges (passes : List Int → Prop) (rows : List (List Int)) (verdict : Verdict) : Prop where
  error_eq : verdict.error = none
  passed_iff : verdict.passed = true ↔ verdict.failedRows = []
  passed_ascend : verdict.passedRows.Pairwise (· < ·)
  failed_ascend : verdict.failedRows.Pairwise (· < ·)
  disjoint : ∀ k ∈ verdict.passedRows, k ∉ verdict.failedRows
  covers : ∀ k, k ∈ verdict.passedRows ∨ k ∈ verdict.failedRows ↔ k < rows.length
  passes_iff : ∀ k row, rows[k]? = some row → (k ∈ verdict.passedRows ↔ passes row)

variable {passes : List Int → Bool} {rows : List (List Int)}

/-- Outcomes that number the rows and say of each whether it passes have the verdict by rows. -/
theorem ofOutcomes_eq_rowwise {outcomes : List RowOutcome}
    (h : outcomes.map (fun outcome => (outcome.index, outcome.passes)) =
      rows.zipIdx.map (fun p => (p.2, passes p.1))) :
    ofOutcomes outcomes = rowwise passes rows := by
  have hall : outcomes.all (·.passes) = rows.all passes := by
    have hpassed := congrArg (fun ps => ps.all Prod.snd) h
    rw [← List.zipIdx_map_fst 0 rows, List.all_map]
    simpa [List.all_map, Function.comp_def] using hpassed
  have hpassed := numbersOf_of_outcomes h id
  have hfailed := numbersOf_of_outcomes h not
  dsimp only [id] at hpassed
  rw [ofOutcomes, rowwise, hall, hpassed, hfailed]

/-- A verdict by rows lists a number as passed exactly if the row found at it passes. -/
theorem mem_passedRows_rowwise {k : Nat} : k ∈ (rowwise passes rows).passedRows ↔
    ∃ row, rows[k]? = some row ∧ passes row = true :=
  mem_numbersOf

/-- A verdict by rows lists a number as failed exactly if the row found at it does not pass. -/
theorem mem_failedRows_rowwise {k : Nat} : k ∈ (rowwise passes rows).failedRows ↔
    ∃ row, rows[k]? = some row ∧ passes row = false := by
  rw [rowwise, mem_numbersOf]
  simp only [Bool.not_eq_true']

/-- No row is listed as failed exactly if all pass. -/
theorem failedRows_rowwise_eq_nil_iff :
    (rowwise passes rows).failedRows = [] ↔ ∀ row ∈ rows, passes row = true := by
  rw [List.eq_nil_iff_forall_not_mem]
  constructor
  · intro hnone row hrow
    obtain ⟨k, hk⟩ := List.mem_iff_getElem?.1 hrow
    rw [← Bool.not_eq_false]
    exact fun hfails => hnone k (mem_failedRows_rowwise.2 ⟨row, hk, hfails⟩)
  · intro hall k hk
    obtain ⟨row, hrow, hfails⟩ := mem_failedRows_rowwise.1 hk
    cases (hall row (List.mem_of_getElem? hrow)).symm.trans hfails

/-- A verdict by rows judges every row by whether it passes, in each of its parts. -/
theorem rowwise_judges : (rowwise passes rows).Judges (fun row => passes row = true) rows where
  error_eq := rfl
  passed_iff := List.all_eq_true.trans failedRows_rowwise_eq_nil_iff.symm
  passed_ascend := ascend_numbersOf passes rows
  failed_ascend := ascend_numbersOf (fun row => !passes row) rows
  disjoint := by
    intro k hpassed hfailed
    obtain ⟨row, hrow, hpasses⟩ := mem_passedRows_rowwise.1 hpassed
    obtain ⟨other, hother, hfails⟩ := mem_failedRows_rowwise.1 hfailed
    cases hrow.symm.trans hother
    cases hpasses.symm.trans hfails
  covers := by
    intro k
    rw [mem_passedRows_rowwise, mem_failedRows_rowwise]
    constructor
    · rintro (⟨row, hrow, -⟩ | ⟨row, hrow, -⟩) <;> exact (List.getElem?_eq_some_iff.1 hrow).1
    · intro hk
      have hrow := List.getElem?_eq_getElem hk
      cases hpasses : passes rows[k] with
      | true => exact .inl ⟨_, hrow, hpasses⟩
      | false => exact .inr ⟨_, hrow, hpasses⟩
  passes_iff := by
    intro k row hrow
    refine mem_passedRows_rowwise.trans ⟨?_, fun hpasses => ⟨row, hrow, hpasses⟩⟩
    rintro ⟨other, hother, hpasses⟩
    cases hrow.symm.trans hother
    exact hpasses

/-- The verdict on two tables one after the other is made up of those on each. -/
theorem rowwise_append (more : List (List Int)) : rowwise passes (rows ++ more) =
    (rowwise passes rows).followedBy rows.length (rowwise passes more) := by
  rw [followedBy, rowwise, numbersOf_append, numbersOf_append, List.all_append]
  rfl

/-- Rows in another order are judged in that order. -/
theorem mem_rowwise_permuted (σ : Equiv.Perm (Fin rows.length)) (k : Fin rows.length) :
    (k.val ∈ (rowwise passes (List.ofFn fun i => rows[σ i])).passedRows ↔
      (σ k).val ∈ (rowwise passes rows).passedRows) ∧
    (k.val ∈ (rowwise passes (List.ofFn fun i => rows[σ i])).failedRows ↔
      (σ k).val ∈ (rowwise passes rows).failedRows) := by
  have hrow : (List.ofFn fun i => rows[σ i])[k.val]? = rows[(σ k).val]? := by
    rw [List.getElem?_ofFn, dif_pos k.isLt, List.getElem?_eq_getElem (σ k).isLt]
    rfl
  simp only [rowwise, mem_numbersOf, hrow, and_self]

end Verdict

/-! ## Verifying -/

section
variable {circuit : Circuit} (h : circuit.Searchable) {inputs outputs : List Ident}
  (hinputs : ∀ id ∈ inputs, Settable circuit id)
include h hinputs

/-- Rows that fit are judged each as on the circuit as freshly loaded. -/
theorem verify_eq_rowwise (arrays : Arrays) (hwidth : 0 < inputs.length + outputs.length)
    (sim : Simulator)
    {rows : List (List Int)} (hrows : ∀ row ∈ rows,
      row.length = inputs.length + outputs.length ∧ ∀ n ∈ row, IsLevel n) :
    (verify arrays ⟨circuit, .current, sim⟩ inputs outputs (rowsJson rows)).2 =
      .ok (Verdict.rowwise (passesFresh sim.cap circuit inputs outputs) rows) := by
  obtain ⟨next, outcomes, htried, -, heach⟩ := exists_tryRows outputs h hinputs rows 0
    (resets_current h sim) (fun row hrow => (hrows row hrow).2)
  unfold verify tryChecked
  have hread : rowsOf arrays (inputs.length + outputs.length) (rowsJson rows) = .ok rows :=
    checkRows_eq_ok hwidth hrows
  rw [hread]
  dsimp only
  rw [htried, ← Verdict.ofOutcomes_eq_rowwise heach]
  rfl

end

/-- Rows are graded independently. On a bench that has a circuit loaded, whatever state the
simulator is in, rows of levels of the right width are judged: one passes if, on a new simulator and
with its inputs set in order, a step comes to rest and the outputs read what is expected. So two
tables one after the other are judged as each of them, and rows in another order in that order. Rows
of words of which some has another width are refused with a wording, and the bench is left as it is.
-/
theorem verify_rowwise (arrays : Arrays) {circuit : Circuit} (h : circuit.Searchable) (cap : Int)
    {inputs outputs : List Ident} (hinputs : ∀ id ∈ inputs, Settable circuit id)
    (hwidth : 0 < inputs.length + outputs.length) :
    ∃ verdict : List (List Int) → Verdict,
      (∀ (sim : Simulator) (rows : List (List Int)), sim.cap = cap →
        (∀ row ∈ rows, row.length = inputs.length + outputs.length ∧ ∀ n ∈ row, IsLevel n) →
        (verify arrays ⟨circuit, .current, sim⟩ inputs outputs (rowsJson rows)).2 =
          .ok (verdict rows)) ∧
      (∀ rows, (verdict rows).Judges
        (fun row => Passes inputs outputs row (Bench.fresh circuit cap)) rows) ∧
      (∀ rows more, verdict (rows ++ more) = (verdict rows).followedBy rows.length (verdict more)) ∧
      (∀ (rows : List (List Int)) (σ : Equiv.Perm (Fin rows.length)) (k : Fin rows.length),
        (k.val ∈ (verdict (List.ofFn fun i => rows[σ i])).passedRows ↔
          (σ k).val ∈ (verdict rows).passedRows) ∧
        (k.val ∈ (verdict (List.ofFn fun i => rows[σ i])).failedRows ↔
          (σ k).val ∈ (verdict rows).failedRows)) ∧
      ∀ (bench : Bench) (rows : List (List Int)), (∃ row ∈ rows, row ≠ []) →
        (∀ row ∈ rows, ∀ n ∈ row, fitsWord n = true) →
        (∃ row ∈ rows, row.length ≠ inputs.length + outputs.length) →
        ∃ fault,
          verify arrays bench inputs outputs (rowsJson rows) = (bench, .error (.rows fault)) ∧
          fault.message?.isSome = true := by
  refine ⟨Verdict.rowwise (passesFresh cap circuit inputs outputs), ?_, fun rows => ?_,
    fun rows more => Verdict.rowwise_append more, fun rows σ k => Verdict.mem_rowwise_permuted σ k,
    ?_⟩
  · rintro sim rows rfl hrows
    exact verify_eq_rowwise h hinputs arrays hwidth sim hrows
  · have hpasses : (fun row => Passes inputs outputs row (Bench.fresh circuit cap)) =
        fun row => passesFresh cap circuit inputs outputs row = true :=
      funext (fun row => propext (passesFresh_iff (holds_fresh h)).symm)
    rw [hpasses]
    exact Verdict.rowwise_judges
  · intro bench rows hfilled hwords hodd
    obtain ⟨fault, hfault, hworded⟩ := checkRows_refused hfilled hwords hodd
    have hread : rowsOf arrays (inputs.length + outputs.length) (rowsJson rows) = .error fault :=
      hfault
    refine ⟨fault, ?_, hworded⟩
    unfold verify tryChecked
    rw [hread]
    rfl

/-- The inverter under two names of its input, of which the second decides, on a simulator with the
nets and states of a latch; the last row has a level that is no bit. -/
theorem verify_inverter_misnamed :
    let used := (Bench.ofCircuit Bench.latch 10).load.1.step.1.sim
    let inputs := [Ident.text "in_0", .text "a"]
    let arrays := .ofNesting 64
    (∃ verdict, (verify arrays ⟨inverter, .current, used⟩ inputs [.text "y"]
        (rowsJson [[1, 0, 1], [0, 1, 1], [2, 0, 1]])).2 = .ok verdict ∧
      verdict.passedRows = [0, 2] ∧ verdict.failedRows = [1]) ∧
    ∃ fault, verify arrays ⟨inverter, .current, used⟩ inputs [.text "y"]
        (rowsJson [[1, 0, 1], [0]]) =
      (⟨inverter, .current, used⟩, .error (.rows fault)) := by
  intro used inputs arrays
  have hsearchable : inverter.Searchable :=
    ⟨by decide +kernel, by decide +kernel, by decide +kernel, by decide +kernel⟩
  have hinputs : ∀ id ∈ inputs, Settable inverter id := by
    have hport : Simulator.resolve inverter (.text "in_0") = .ok (some (.text "a")) := by
      decide +kernel
    have hcomponent : Simulator.resolve inverter (.text "a") = .ok (some (.text "a")) := by
      decide +kernel
    simp only [inputs, List.forall_mem_cons]
    exact ⟨⟨_, hport, by decide⟩, ⟨_, hcomponent, by decide⟩, List.forall_mem_nil _⟩
  obtain ⟨verdict, hverdict, -, -, -, hrefused⟩ :=
    @verify_rowwise arrays inverter hsearchable 10 inputs [.text "y"] hinputs (by decide)
  have hjudged := hverdict used [[1, 0, 1], [0, 1, 1], [2, 0, 1]]
    (by decide +kernel) (by unfold IsLevel; decide)
  obtain ⟨fault, hfault, -⟩ := hrefused ⟨inverter, .current, used⟩ [[1, 0, 1], [0]] (by decide)
    (by decide) (by decide)
  have hnumbers : (verify arrays ⟨inverter, .current, used⟩ inputs [.text "y"]
      (rowsJson [[1, 0, 1], [0, 1, 1], [2, 0, 1]])).2.toOption.map
        (fun verdict => (verdict.passedRows, verdict.failedRows)) = some ([0, 2], [1]) := by
    decide +kernel
  rw [hjudged] at hnumbers
  exact ⟨⟨_, hjudged, Prod.mk.inj (Option.some.inj hnumbers)⟩, fault, hfault⟩

end Switchyard.Grading
