import Mathlib.Data.List.Pairwise
import Switchyard.Proofs.Logic.Clocking

/-!
# The order of the gates

Where no bit has two drivers (`SingleDriven`), the driver of a bit is the same in every order of the
gates (`SingleDriven.driver?_eq`), and as all gates of a round read the same states, so are the
states after it (`SingleDriven.advance_eq`), whether the gates ever settle or not
(`SingleDriven.settle_eq`). Two simulators of the same gates in different orders that hold the same
levels (`Simulator.Reordered`) therefore stay so through every operation
(`Simulator.Reordered.perform`) and through every session (`Simulator.session_reordered`).
-/

namespace Switchyard.Logic

/-- No bit of the wires is put out by two gates. -/
def SingleDriven (wires : List Wire) (gates : List Gate) : Prop :=
  gates.Pairwise (fun a b => ∀ p ∈ a.outputs, (codeAt? wires p).isSome = true → p ∉ b.outputs)

instance (wires : List Wire) (gates : List Gate) : Decidable (SingleDriven wires gates) :=
  inferInstanceAs (Decidable (gates.Pairwise
    (fun a b => ∀ p ∈ a.outputs, (codeAt? wires p).isSome = true → p ∉ b.outputs)))

/-! ## Rounds of reordered gates -/

namespace SingleDriven

variable {wires : List Wire} {gates gates' : List Gate} (h : SingleDriven wires gates)
include h

/-- That no bit has two drivers depends on the shape of the wires only. -/
theorem of_shape {next : List Wire} (hshape : shape next = shape wires) :
    SingleDriven next gates := by
  refine List.Pairwise.imp (fun hab p hp hin => hab p hp ?_) h
  rw [← isSome_codeAt?_of_shape hshape p]
  exact hin

/-- What the gates store is no matter. -/
theorem map {f : Gate → Gate} (hf : ∀ gate, (f gate).outputs = gate.outputs) :
    SingleDriven wires (gates.map f) := by
  refine List.pairwise_map.2 (List.Pairwise.imp (fun hab => ?_) h)
  rw [hf, hf]
  exact hab

/-- The driver of a bit is the gate that puts it out. -/
theorem driver?_eq_some_iff {p : Port} (hp : (codeAt? wires p).isSome = true) {gate : Gate} :
    driver? gates p = some gate ↔ gate ∈ gates ∧ p ∈ gate.outputs := by
  constructor
  · intro hgate
    exact ⟨mem_of_driver? hgate, by simpa using List.find?_some hgate⟩
  · rintro ⟨hmem, hout⟩
    have hsome : (driver? gates p).isSome = true :=
      List.find?_isSome.2 ⟨gate, List.mem_reverse.2 hmem, by simpa using hout⟩
    obtain ⟨driver, hdriver⟩ := Option.isSome_iff_exists.1 hsome
    have hdriven : p ∈ driver.outputs := by simpa using List.find?_some hdriver
    by_cases heq : driver = gate
    · rw [hdriver, heq]
    · have hpair : gates.Pairwise fun a b => p ∈ a.outputs → p ∉ b.outputs :=
        List.Pairwise.imp (fun hab ha => hab p ha hp) h
      have : Std.Symm fun a b : Gate => p ∈ a.outputs → p ∉ b.outputs :=
        ⟨fun _ _ hab hb ha => hab ha hb⟩
      exact absurd hout (hpair.forall (mem_of_driver? hdriver) hmem heq hdriven)

variable (hperm : gates.Perm gates')
include hperm

/-- That no bit has two drivers does not depend on the order of the gates. -/
theorem perm : SingleDriven wires gates' := by
  refine (hperm.pairwise_iff (fun {a b} hab p hpb hin hpa => ?_)).1 h
  exact hab p hpa hin hpb

/-- A bit has the same driver in every order of the gates. -/
theorem driver?_eq {p : Port} (hp : (codeAt? wires p).isSome = true) :
    driver? gates' p = driver? gates p := by
  refine Option.ext (fun gate => ?_)
  rw [h.driver?_eq_some_iff hp, (h.perm hperm).driver?_eq_some_iff hp, hperm.mem_iff]

variable (hgates : ∀ gate ∈ gates, gate.Coded)
include hgates

omit h in
/-- Reordered gates are coded too. -/
theorem coded_perm : ∀ gate ∈ gates', gate.Coded :=
  fun gate hgate => hgates gate (hperm.mem_iff.2 hgate)

/-- A round of the gates in another order leaves the same states. -/
theorem advance_eq (hwires : Coded wires) : advance gates' wires = advance gates wires := by
  have hgates' := coded_perm hperm hgates
  have hshape : shape (advance gates' wires) = shape (advance gates wires) :=
    (shape_advance hgates' hwires).trans (shape_advance hgates hwires).symm
  refine eq_of_codeAt? hshape (fun p => ?_)
  by_cases hp : (codeAt? wires p).isSome = true
  · have hdriver := h.driver?_eq hperm hp
    cases hgate : driver? gates p with
    | none =>
      rw [codeAt?_advance_of_none hgates hwires hgate,
        codeAt?_advance_of_none hgates' hwires (hdriver.trans hgate)]
    | some gate =>
      obtain ⟨level, hlevel, hcode⟩ := codeAt?_advance_of_driver hgates hwires hgate
      obtain ⟨level', hlevel', hcode'⟩ :=
        codeAt?_advance_of_driver hgates' hwires (hdriver.trans hgate)
      rw [hlevel] at hlevel'
      cases hlevel'
      rw [hcode, hcode']
  · rw [codeAt?_eq_none_of_shape (shape_advance hgates' hwires) hp,
      codeAt?_eq_none_of_shape (shape_advance hgates hwires) hp]

omit h in
/-- Settling the gates in another order goes through the same states, as far as the fuel reaches. -/
theorem settle_eq : ∀ (fuel done : Nat) {wires : List Wire}, Coded wires →
    SingleDriven wires gates → settle gates' fuel done wires = settle gates fuel done wires
  | 0, _, _, _, _ => rfl
  | fuel + 1, done, wires, hwires, h => by
    have hgates' := coded_perm hperm hgates
    rw [settle, settle, round_ok hgates hwires, round_ok hgates' hwires,
      h.advance_eq hperm hgates hwires]
    dsimp only
    split
    · rfl
    · exact settle_eq fuel (done + 1) (coded_advance hgates hwires)
        (h.of_shape (shape_advance hgates hwires))

end SingleDriven

/-! ## Simulators of reordered gates -/

/-- The gate storing what the function says of it. -/
def Gate.storing (stored : Gate → Option Int) (gate : Gate) : Gate :=
  { gate with stored := stored gate }

/-- A gate captures what its new stored code is, and nothing else of it changes. -/
theorem Gate.captured_eq (wires : List Wire) (gate : Gate) :
    gate.captured wires = { gate with stored := (gate.captured wires).stored } := by
  unfold captured
  split <;> rfl

/-- An operation that does not ask for gates by their place, nor for the whole circuit. -/
def Action.Gateless : Action → Prop
  | .evaluate _ => False
  | .snapshot => False
  | _ => True

namespace Simulator

/-- All codes of a simulator are those of levels, and no bit has two drivers. -/
structure SinglyDriven (sim : Simulator) : Prop where
  wires_coded : Coded sim.circuit.wires
  gates_coded : ∀ gate ∈ sim.circuit.gates, gate.Coded
  single : SingleDriven sim.circuit.wires sim.circuit.gates

/-- The simulator with other gates. -/
def withGates (sim : Simulator) (gates : List Gate) : Simulator :=
  { sim with circuit := { sim.circuit with gates } }

section
variable (sim : Simulator) (gates : List Gate)

@[simp] theorem gates_withGates : (sim.withGates gates).circuit.gates = gates := rfl
@[simp] theorem wires_withGates : (sim.withGates gates).circuit.wires = sim.circuit.wires := rfl
@[simp] theorem cap_withGates : (sim.withGates gates).cap = sim.cap := rfl
@[simp] theorem failed_withGates : (sim.withGates gates).failed = sim.failed := rfl

/-- Setting an input reads and writes no gate. -/
theorem setInput_withGates (name : String) (value : Json) (bit : Int) :
    (sim.withGates gates).setInput name value bit =
      (sim.setInput name value bit).map (·.withGates gates) := by
  unfold setInput
  rw [show (sim.withGates gates).wireFor name = sim.wireFor name from rfl]
  cases sim.wireFor name with
  | error fault => rfl
  | ok found =>
    obtain ⟨place, wire⟩ := found
    dsimp only [bind, Except.bind]
    split
    · rfl
    · dsimp only [pure, Except.pure]
      split
      · rfl
      · split <;> rfl

end

namespace SinglyDriven

variable {sim : Simulator} (h : sim.SinglyDriven)
include h

/-- Propagation changes no gate, and codes and drivers stay as they must be. -/
theorem propagate :
    sim.propagate.1.SinglyDriven ∧ sim.propagate.1.circuit.gates = sim.circuit.gates := by
  obtain ⟨hwires, hgates, hsingle⟩ := h
  unfold Simulator.propagate
  rcases settle_eq hgates sim.cap.toNat 0 sim.circuit.wires hwires with
    ⟨k, -, -, -, hsettle⟩ | ⟨-, hsettle⟩
  · obtain ⟨hcoded, hshape, -⟩ := iterate_advance hgates hwires k
    rw [hsettle]
    exact ⟨⟨hcoded, hgates, hsingle.of_shape hshape⟩, rfl⟩
  · obtain ⟨hcoded, hshape, -⟩ := iterate_advance hgates hwires sim.cap.toNat
    rw [hsettle]
    exact ⟨⟨hcoded, hgates, hsingle.of_shape hshape⟩, rfl⟩

/-- A propagation with reordered gates ends with the same wires after as many rounds. -/
theorem propagate_withGates {gates : List Gate} (hperm : sim.circuit.gates.Perm gates) :
    (sim.withGates gates).propagate = (sim.propagate.1.withGates gates, sim.propagate.2) := by
  obtain ⟨hwires, hgates, hsingle⟩ := h
  unfold Simulator.propagate
  rw [gates_withGates, wires_withGates, cap_withGates,
    SingleDriven.settle_eq hperm hgates sim.cap.toNat 0 hwires hsingle]
  split <;> rfl

end SinglyDriven

/-- Two simulators of the same gates in the orders of the given lists: each gate stores the same in
both, and in all else they are equal. -/
structure Reordered (gates gates' : List Gate) (a b : Simulator) : Prop where
  singlyDriven : a.SinglyDriven
  exists_stored : ∃ stored : Gate → Option Int, a.circuit.gates = gates.map (Gate.storing stored) ∧
    b = a.withGates (gates'.map (Gate.storing stored))

/-- Reordered simulators after an operation that had the same outcome in both. -/
def Alike (gates gates' : List Gate) {α : Type} (x y : Simulator × Except Fault α) : Prop :=
  Reordered gates gates' x.1 y.1 ∧ x.2 = y.2

/-- Alike outcomes are one outcome, with reordered gates in the simulators left behind. -/
theorem Alike.exists_eq {gates gates' : List Gate} {α : Type} {x y : Simulator × Except Fault α}
    (h : Alike gates gates' x y) :
    ∃ next other outcome, x = (next, outcome) ∧ y = (other, outcome) ∧
      Reordered gates gates' next other := by
  obtain ⟨hnext, houtcome⟩ := h
  exact ⟨x.1, y.1, x.2, rfl, Prod.ext rfl houtcome.symm, hnext⟩

namespace Reordered

variable {gates gates' : List Gate} {a b : Simulator} (h : Reordered gates gates' a b)
include h

/-- Both have failed or neither has. -/
theorem failed_eq : b.failed = a.failed := by
  obtain ⟨stored, -, hb⟩ := h.exists_stored
  rw [hb, failed_withGates]

/-- Both give one report. -/
theorem report_eq (iterations : Int) (capped : Nat) :
    b.report iterations capped = a.report iterations capped := by
  obtain ⟨stored, -, hb⟩ := h.exists_stored
  rw [hb]
  rfl

/-- Both count the cap alike. -/
theorem cappedOnce_eq : b.cappedOnce = a.cappedOnce := by
  obtain ⟨stored, -, hb⟩ := h.exists_stored
  rw [hb]
  rfl

/-- Both give one level for a wire. -/
theorem getWire_eq (name : String) (bit : Int) : b.getWire name bit = a.getWire name bit := by
  obtain ⟨stored, -, hb⟩ := h.exists_stored
  rw [hb]
  rfl

/-- Setting an input comes to the same for both. -/
theorem perform_set (name : String) (value : Json) (bit : Int) :
    Alike gates gates' (a.perform (.set name value bit)) (b.perform (.set name value bit)) := by
  obtain ⟨stored, hstored, hb⟩ := h.exists_stored
  rw [Simulator.perform, Simulator.perform]
  rcases a.setInput_cases name value bit with ⟨fault, hset⟩ | ⟨p, level, -, -, hset⟩
  · rw [hb, setInput_withGates, hset, ← hb]
    exact ⟨h, rfl⟩
  · rw [hb, setInput_withGates, hset]
    have hdriven : (a.withWires (write a.circuit.wires p level)).SinglyDriven :=
      ⟨h.singlyDriven.wires_coded.write p level, h.singlyDriven.gates_coded,
        h.singlyDriven.single.of_shape (shape_write _ p level)⟩
    exact ⟨⟨hdriven, stored, hstored, rfl⟩, rfl⟩

/-- A clock pulse comes to the same for both. -/
theorem clock : Alike gates gates' a.clock b.clock := by
  obtain ⟨stored, hstored, hb⟩ := h.exists_stored
  have hwires := h.singlyDriven.wires_coded
  have hcaptured : ∀ gates : List Gate,
      (gates.map (Gate.storing stored)).map (Gate.captured a.circuit.wires) =
        gates.map (Gate.storing
          (fun gate => ((gate.storing stored).captured a.circuit.wires).stored)) := by
    intro gates
    rw [List.map_map]
    exact List.map_congr_left (fun gate _ => Gate.captured_eq _ _)
  rw [hb, Simulator.clock, Simulator.clock, wires_withGates, gates_withGates, capture_eq hwires,
    capture_eq hwires, hcaptured, hstored, hcaptured]
  refine ⟨⟨⟨hwires, ?_, ?_⟩, _, rfl, rfl⟩, rfl⟩
  · dsimp only
    rw [← hcaptured, ← hstored]
    exact List.forall_mem_map.2
      (fun gate hgate => (h.singlyDriven.gates_coded gate hgate).captured hwires)
  · dsimp only
    rw [← hcaptured, ← hstored]
    exact h.singlyDriven.single.map (Gate.captured_outputs _)

variable (hperm : gates.Perm gates')
include hperm

/-- A propagation comes to the same for both. -/
theorem propagate : Alike gates gates' a.propagate b.propagate := by
  obtain ⟨stored, hstored, hb⟩ := h.exists_stored
  obtain ⟨hdriven, hgates⟩ := h.singlyDriven.propagate
  have hgates' : (a.circuit.gates).Perm (gates'.map (Gate.storing stored)) := by
    rw [hstored]
    exact hperm.map _
  rw [hb, h.singlyDriven.propagate_withGates hgates']
  exact ⟨⟨hdriven, stored, hgates.trans hstored, rfl⟩, rfl⟩

/-- Settling comes to the same for both, with one report. -/
theorem settleStep : Alike gates gates' a.settleStep b.settleStep := by
  obtain ⟨next, other, outcome, ha, hb, hnext⟩ := (h.propagate hperm).exists_eq
  rw [Simulator.settleStep, Simulator.settleStep, ha, hb]
  cases outcome with
  | error fault => exact ⟨hnext, rfl⟩
  | ok rounds =>
    dsimp only
    rw [hnext.report_eq, hnext.cappedOnce_eq]
    exact ⟨hnext, rfl⟩

/-- A step comes to the same for both, with one report. -/
theorem step : Alike gates gates' a.step b.step := by
  obtain ⟨before, before', settled, ha, hb, hbefore⟩ := (h.propagate hperm).exists_eq
  rw [Simulator.step, Simulator.step, ha, hb]
  cases settled with
  | error fault => exact ⟨hbefore, rfl⟩
  | ok rounds =>
    obtain ⟨clocked, clocked', pulsed, ha, hb, hclocked⟩ := hbefore.clock.exists_eq
    dsimp only
    rw [ha, hb]
    cases pulsed with
    | error fault => exact ⟨hclocked, rfl⟩
    | ok done =>
      obtain ⟨next, other, resettled, ha, hb, hnext⟩ := (hclocked.propagate hperm).exists_eq
      dsimp only
      rw [ha, hb]
      cases resettled with
      | error fault => exact ⟨hnext, rfl⟩
      | ok more =>
        dsimp only
        rw [hnext.report_eq, hnext.cappedOnce_eq, hbefore.cappedOnce_eq]
        exact ⟨hnext, rfl⟩

omit h in
/-- Cycles come to the same for both, by induction on their number. -/
theorem cycles : ∀ (count : Nat) (last : StepReport) {a b : Simulator},
    Reordered gates gates' a b →
      Alike gates gates' (Simulator.cycles count a last) (Simulator.cycles count b last)
  | 0, _, _, _, h => ⟨h, rfl⟩
  | count + 1, last, a, b, h => by
    rw [Simulator.cycles, Simulator.cycles, h.failed_eq]
    split
    · exact ⟨h, rfl⟩
    · obtain ⟨next, other, outcome, ha, hb, hnext⟩ := (h.step hperm).exists_eq
      rw [ha, hb]
      cases outcome with
      | error fault => exact ⟨hnext, rfl⟩
      | ok report => exact cycles count report hnext

/-- A run comes to the same for both, with one report. -/
theorem run (count : Int) : Alike gates gates' (a.run count) (b.run count) := by
  obtain ⟨next, other, outcome, ha, hb, hnext⟩ := (h.settleStep hperm).exists_eq
  rw [Simulator.run, Simulator.run, ha, hb]
  cases outcome with
  | error fault => exact ⟨hnext, rfl⟩
  | ok report => exact cycles hperm count.toNat report hnext

/-- An operation keeps simulators reordered, and has the same outcome in both unless it asks for a
gate by its place or for the whole circuit. -/
theorem perform (action : Action) :
    Reordered gates gates' (a.perform action).1 (b.perform action).1 ∧
      (action.Gateless → (a.perform action).2 = (b.perform action).2) := by
  cases action with
  | set name value bit =>
    obtain ⟨hnext, houtcome⟩ := h.perform_set name value bit
    exact ⟨hnext, fun _ => houtcome⟩
  | get name bit =>
    refine ⟨h, fun _ => ?_⟩
    rw [Simulator.perform, Simulator.perform, h.getWire_eq]
  | propagate =>
    obtain ⟨hnext, houtcome⟩ := h.propagate hperm
    exact ⟨hnext, fun _ => congrArg (Except.map Answer.rounds) houtcome⟩
  | settle =>
    obtain ⟨hnext, houtcome⟩ := h.settleStep hperm
    exact ⟨hnext, fun _ => congrArg (Except.map Answer.report) houtcome⟩
  | step =>
    obtain ⟨hnext, houtcome⟩ := h.step hperm
    exact ⟨hnext, fun _ => congrArg (Except.map Answer.report) houtcome⟩
  | run count =>
    obtain ⟨hnext, houtcome⟩ := h.run hperm count
    exact ⟨hnext, fun _ => congrArg (Except.map Answer.report) houtcome⟩
  | clock =>
    obtain ⟨hnext, houtcome⟩ := h.clock
    exact ⟨hnext, fun _ => congrArg (Except.map fun _ => Answer.done) houtcome⟩
  | evaluate place =>
    rw [Simulator.perform, Simulator.perform]
    refine ⟨?_, False.elim⟩
    split <;> split <;> exact h
  | snapshot => exact ⟨h, False.elim⟩

/-- After a session the simulators are still reordered forms of each other. -/
theorem performAll (actions : List Action) :
    Reordered gates gates' (a.performAll actions) (b.performAll actions) := by
  induction actions generalizing a b with
  | nil => exact h
  | cons action actions ih => exact ih (h.perform hperm action).1

end Reordered

/-- A simulator in which no bit has two drivers and its reordered form start out alike. -/
theorem SinglyDriven.reordered {sim : Simulator} (h : sim.SinglyDriven) (gates : List Gate) :
    Reordered sim.circuit.gates gates sim (sim.withGates gates) := by
  have hmap : ∀ gates : List Gate, gates.map (Gate.storing Gate.stored) = gates :=
    fun gates => List.map_id gates
  refine ⟨h, Gate.stored, (hmap _).symm, ?_⟩
  rw [hmap]

/-- The order of the gates does not matter. Where all codes are those of levels and no bit has two
drivers, two simulators of the same gates in any two orders agree after any operations on what each
gate stores and on all else, that is on the wires, the cycle, whether the circuit is stable and
whether it has failed; and every further operation that does not ask for gates by their place gives
the same answer in both. -/
theorem session_reordered {sim : Simulator} (h : sim.SinglyDriven) {gates : List Gate}
    (hperm : sim.circuit.gates.Perm gates) (actions : List Action) :
    (∃ stored : Gate → Option Int,
      (sim.performAll actions).circuit.gates = sim.circuit.gates.map (Gate.storing stored) ∧
      (sim.withGates gates).performAll actions =
        (sim.performAll actions).withGates (gates.map (Gate.storing stored))) ∧
    ∀ action : Action, action.Gateless →
      (((sim.withGates gates).performAll actions).perform action).2 =
        ((sim.performAll actions).perform action).2 := by
  have hsession := (h.reordered gates).performAll hperm actions
  refine ⟨hsession.exists_stored, fun action haction => ?_⟩
  exact ((hsession.perform hperm action).2 haction).symm

/-- An inverter that feeds itself, a latch that reads its output, and a flip-flop behind the
latch. -/
def ringed : Simulator where
  circuit := {
    wires := [{ id := 0, name := "ring", width := 1, state := [0] },
      { id := 1, name := "open", width := 1, state := [1] },
      { id := 2, name := "held", width := 2, state := [2, 0] }]
    gates := [
      { id := 0, name := "turn", kind := "NOT", inputs := [⟨0, 0⟩], outputs := [⟨0, 0⟩] },
      { id := 1, name := "hold", kind := "LATCH", inputs := [⟨0, 0⟩, ⟨1, 0⟩]
        outputs := [⟨2, 0⟩] },
      { id := 2, name := "take", kind := "DFF", inputs := [⟨2, 0⟩], outputs := [⟨2, 1⟩]
        stored := some 0 }] }
  cap := 3

/-- A ring that never settles: with the gates reversed, propagations that run into the cap, a clock
pulse between them and the closing of the latch leave the same stored codes and the same level
behind the flip-flop. -/
theorem session_ringed :
    let actions : List Action := [.propagate, .step, .set "open" (.int 0) 0, .run 2]
    let reversed := ringed.withGates ringed.circuit.gates.reverse
    ringed.SinglyDriven ∧ ringed.circuit.gates.Perm ringed.circuit.gates.reverse ∧
      (∃ stored : Gate → Option Int,
        (ringed.performAll actions).circuit.gates =
          ringed.circuit.gates.map (Gate.storing stored) ∧
        reversed.performAll actions = (ringed.performAll actions).withGates
          (ringed.circuit.gates.reverse.map (Gate.storing stored))) ∧
      ((reversed.performAll actions).perform (.get "held" 1)).2 = .ok (.level .high) := by
  intro actions reversed
  have hdriven : ringed.SinglyDriven :=
    { wires_coded := by decide, gates_coded := by decide, single := by decide }
  have hperm := (List.reverse_perm ringed.circuit.gates).symm
  obtain ⟨hstored, hanswer⟩ := session_reordered hdriven hperm actions
  have hlevel : ((ringed.performAll actions).perform (.get "held" 1)).2 = .ok (.level .high) := by
    decide +kernel
  exact ⟨hdriven, hperm, hstored, (hanswer (.get "held" 1) trivial).trans hlevel⟩

end Simulator

end Switchyard.Logic
