import Switchyard.Grading.Verdict
import Switchyard.Proofs.Outcomes
import Switchyard.Proofs.Relay.Inputs

/-!
# Grading row by row

Every row is graded from the circuit as freshly loaded, whatever was on the simulator before
(`Relay.Bench.Holds.reset_eq`), so a row passes if it does so there (`gradeRow_passes_iff`), and all
rows pass if each one does (`gradeRows_pass_iff`). That a row passes (`Passes`) is a matter of what
the inputs are set to and not of the bench, since benches whose inputs agree beyond the names that
the row sets come to agree on all of them (`setAll_alike`).
-/

namespace Switchyard.Grading

open Relay

variable {circuit : Circuit} {cap : Int}

/-! ## Setting the inputs of a row -/

/-- Two benches whose inputs agree beyond some names refuse alike to set these, or they come to
agree on all inputs. -/
theorem setAll_alike : ∀ (values : List (Ident × Int)) {a b : Bench}, a.Holds circuit cap →
    b.Holds circuit cap →
    AgreeBeyond circuit (values.map (·.1)) a.sim.inputs b.sim.inputs →
    (∃ fault, setAll a values = .error fault ∧ setAll b values = .error fault) ∨
    ∃ setA setB, setAll a values = .ok setA ∧ setAll b values = .ok setB ∧
      setA.Holds circuit cap ∧ setB.Holds circuit cap ∧
      SameInputs circuit setA.sim.inputs setB.sim.inputs
  | [], a, b, ha, hb, h => .inr ⟨a, b, rfl, rfl, ha, hb, h.sameInputs⟩
  | (id, n) :: rest, a, b, ha, hb, h => by
    rw [setAll, setAll, ha.setInput_eq, hb.setInput_eq]
    rcases Simulator.setInput_cases circuit id (.int n) with
      ⟨fault, hrefused⟩ | ⟨component, level, hresolve, -, hset⟩
    · exact .inl ⟨fault, by rw [hrefused]; rfl, by rw [hrefused]; rfl⟩
    · rw [hset, hset]
      exact setAll_alike rest (ha.withInputs _) (hb.withInputs _) (h.put_both hresolve level)

/-- Setting inputs keeps what holds of a loaded bench. -/
theorem setAll_holds {values : List (Ident × Int)} {bench set : Bench}
    (h : bench.Holds circuit cap) (hset : setAll bench values = .ok set) :
    set.Holds circuit cap := by
  rcases setAll_alike values h h (.refl _ _ _) with
    ⟨fault, hfault, -⟩ | ⟨setA, -, hok, -, hholds, -⟩
  · rw [hset] at hfault
    cases hfault
  · rw [hset] at hok
    cases hok
    exact hholds

/-! ## One row -/

/-- On the bench the row passes: with its inputs set, a step comes to rest and every output reads
what is expected. -/
def Passes (inputs outputs : List Ident) (row : List Int) (bench : Bench) : Prop :=
  ∃ set result levels, setAll bench (inputs.zip (row.take inputs.length)) = .ok set ∧
    set.step.2 = .ok result ∧ result.converged = true ∧
    outputs.mapM set.step.1.getOutput = .ok levels ∧
    (row.drop inputs.length).mapM levelOf = .ok levels

variable {bench : Bench} {inputs outputs : List Ident}

/-- What a graded row tells. -/
theorem gradeRow_eq_ok_iff (h : bench.Holds circuit cap) {index : Nat} {row : List Int}
    {next : Bench} {outcome : RowOutcome} :
    gradeRow bench inputs outputs index row = .ok (next, outcome) ↔
      ∃ set result actual expected,
        setAll (Bench.fresh circuit cap) (inputs.zip (row.take inputs.length)) = .ok set ∧
        set.step.2 = .ok result ∧ outputs.mapM set.step.1.getOutput = .ok actual ∧
        (row.drop inputs.length).mapM levelOf = .ok expected ∧ next = set.step.1 ∧
        outcome = ⟨index, expected, actual, result.converged, result.iterations⟩ := by
  rw [gradeRow, h.reset_eq]
  simp only [bind_eq_ok_iff]
  constructor
  · rintro ⟨-, -, set, hset, result, hresult, actual, hactual, expected, hexpected, ⟨⟩⟩
    exact ⟨set, result, actual, expected, hset, hresult, hactual, hexpected, rfl, rfl⟩
  · rintro ⟨set, result, actual, expected, hset, hresult, hactual, hexpected, rfl, rfl⟩
    exact ⟨(), trivial, set, hset, result, hresult, actual, hactual, expected, hexpected, rfl⟩

/-- A graded row leaves the circuit loaded. -/
theorem gradeRow_holds (h : bench.Holds circuit cap) {index : Nat} {row : List Int} {next : Bench}
    {outcome : RowOutcome}
    (hrow : gradeRow bench inputs outputs index row = .ok (next, outcome)) :
    next.Holds circuit cap := by
  obtain ⟨set, result, actual, expected, hset, -, -, -, rfl, -⟩ := (gradeRow_eq_ok_iff h).1 hrow
  have hholds := setAll_holds (Bench.holds_fresh h.loadable) hset
  rw [hholds.step_eq]
  exact hholds.withStep

/-- A row passes if and only if it does so on the circuit as freshly loaded. -/
theorem gradeRow_passes_iff (h : bench.Holds circuit cap) (index : Nat) (row : List Int) :
    (∃ next outcome, gradeRow bench inputs outputs index row = .ok (next, outcome) ∧
      outcome.passes = true) ↔ Passes inputs outputs row (Bench.fresh circuit cap) := by
  constructor
  · rintro ⟨next, outcome, hrow, hpasses⟩
    obtain ⟨set, result, actual, expected, hset, hresult, hactual, hexpected, -, rfl⟩ :=
      (gradeRow_eq_ok_iff h).1 hrow
    rw [RowOutcome.passes, Bool.and_eq_true, decide_eq_true_eq] at hpasses
    obtain ⟨hconverged, hequal⟩ := hpasses
    dsimp only at hconverged hequal
    subst hequal
    exact ⟨set, result, actual, hset, hresult, hconverged, hactual, hexpected⟩
  · rintro ⟨set, result, levels, hset, hresult, hconverged, hactual, hexpected⟩
    refine ⟨_, _, (gradeRow_eq_ok_iff h).2
      ⟨set, result, levels, levels, hset, hresult, hactual, hexpected, rfl, rfl⟩, ?_⟩
    rw [RowOutcome.passes, Bool.and_eq_true, decide_eq_true_eq]
    exact ⟨hconverged, rfl⟩

/-! ## All rows -/

/-- All rows pass if and only if each one does so on the circuit as freshly loaded. -/
theorem gradeRows_pass_iff : ∀ (rows : List (List Int)) (index : Nat) {bench : Bench},
    bench.Holds circuit cap →
    ((∃ next outcomes, gradeRows inputs outputs index bench rows = .ok (next, outcomes) ∧
      outcomes.all (·.passes) = true) ↔
    ∀ row ∈ rows, Passes inputs outputs row (Bench.fresh circuit cap))
  | [], _, bench, _ => ⟨nofun, fun _ => ⟨bench, [], rfl, rfl⟩⟩
  | row :: rows, index, bench, h => by
    rw [List.forall_mem_cons, ← gradeRow_passes_iff h index row, gradeRows]
    simp only [bind_eq_ok_iff]
    constructor
    · rintro ⟨next, _, ⟨⟨middle, outcome⟩, hrow, ⟨_, outcomes⟩, hrows, ⟨⟩⟩, hpass⟩
      rw [List.all_cons, Bool.and_eq_true] at hpass
      exact ⟨⟨middle, outcome, hrow, hpass.1⟩,
        (gradeRows_pass_iff rows (index + 1) (gradeRow_holds h hrow)).1
          ⟨_, outcomes, hrows, hpass.2⟩⟩
    · rintro ⟨⟨middle, outcome, hrow, hpasses⟩, hrest⟩
      obtain ⟨next, outcomes, hrows, hpass⟩ :=
        (gradeRows_pass_iff rows (index + 1) (gradeRow_holds h hrow)).2 hrest
      refine ⟨next, outcome :: outcomes, ⟨_, hrow, _, hrows, rfl⟩, ?_⟩
      rw [List.all_cons, hpasses, hpass]
      rfl

end Switchyard.Grading
