import Switchyard.Proofs.Hdl.Surveys
import Switchyard.Proofs.Logic.Abstraction

/-!
# Two-valued circuits

The unknown level comes from outside: from a port that denotes no bit, from a gate with a number of
inputs that its kind does not admit, from a flip-flop that stores nothing, or from a bit that is
unknown already. In a circuit without any of these (`Simulator.TwoValued`) every gate that puts out
a bit makes a known level of known ones (`evaluate_isKnown`). So each round keeps the wires low or
high (`twoValued_advance`), however the gates feed each other and however many of them drive one
bit, each clock pulse keeps what the flip-flops store low or high (`Gate.TwoValued.captured`), and
hence so does every operation, whether propagations come to rest or run into the cap
(`Simulator.TwoValued.perform`).
-/

namespace Switchyard

/-! ## Gates on known levels -/

namespace Signal

/-- A negation is known exactly if the level is. -/
@[simp] theorem isKnown_not (v : Signal) : v.not.isKnown = v.isKnown := by
  cases v <;> rfl

section
variable {v w : Signal} (hv : v.isKnown = true) (hw : w.isKnown = true)
include hv hw

/-- The conjunction of known levels is known. -/
theorem isKnown_and : (v.and w).isKnown = true := by
  revert hv hw
  cases v <;> cases w <;> decide

/-- The disjunction of known levels is known. -/
theorem isKnown_or : (v.or w).isKnown = true := by
  revert hv hw
  cases v <;> cases w <;> decide

/-- The exclusive disjunction of known levels is known. -/
theorem isKnown_xor : (v.xor w).isKnown = true := by
  revert hv hw
  cases v <;> cases w <;> decide

end

/-- A connective that makes known levels of known ones does so for any number of operands. -/
theorem isKnown_foldl {f : Signal → Signal → Signal}
    (hf : ∀ {v w : Signal}, v.isKnown = true → w.isKnown = true → (f v w).isKnown = true)
    {v : Signal} {vs : List Signal} (hv : v.isKnown = true) (hvs : ∀ w ∈ vs, w.isKnown = true) :
    (vs.foldl f v).isKnown = true :=
  vs.foldlRecOn (motive := (·.isKnown = true)) f hv (fun _ h w hw => hf h (hvs w hw))

end Signal

namespace Logic

open Signal

/-- A kind without memory makes a known level of as many known ones as it admits. -/
theorem combine_isKnown {kind : GateKind} (hdff : kind ≠ .dff) (hlatch : kind ≠ .latch)
    {levels : List Signal} (hadmits : kind.arity.Admits levels.length)
    (h : ∀ v ∈ levels, v.isKnown = true) : (combine kind levels).isKnown = true := by
  obtain ⟨hleast, -⟩ := hadmits
  cases levels with
  | nil => cases kind <;> cases hleast
  | cons v vs =>
    rw [List.forall_mem_cons] at h
    obtain ⟨hv, hvs⟩ := h
    cases kind with
    | not => exact (isKnown_not v).trans hv
    | buf => exact hv
    | and => exact isKnown_foldl isKnown_and hv hvs
    | or => exact isKnown_foldl isKnown_or hv hvs
    | xor => exact isKnown_foldl isKnown_xor hv hvs
    | nand => exact (isKnown_not _).trans (isKnown_foldl isKnown_and hv hvs)
    | nor => exact (isKnown_not _).trans (isKnown_foldl isKnown_or hv hvs)
    | mux =>
      match vs, hleast, hvs with
      | w :: choice :: _, _, hvs =>
        cases choice with
        | low => exact hv
        | high => exact hvs w (by simp)
        | unknown => exact absurd (hvs .unknown (by simp)) (by decide)
    | dff => exact absurd rfl hdff
    | latch => exact absurd rfl hlatch

/-! ## Codes that are 0 or 1 -/

/-- A number is the code of a known level. -/
def IsBit (code : Int) : Prop :=
  code = 0 ∨ code = 1

instance (code : Int) : Decidable (IsBit code) :=
  inferInstanceAs (Decidable (_ ∨ _))

/-- The code of a level is a bit exactly if the level is known. -/
@[simp] theorem isBit_code {level : Signal} : IsBit level.code ↔ level.isKnown = true := by
  cases level <;> decide

/-- A bit is a code. -/
theorem IsBit.isCode {code : Int} (h : IsBit code) : IsCode code :=
  isCode_iff.2 (h.imp_right .inl)

/-- Every bit of the wires is low or high. -/
def TwoValued (wires : List Wire) : Prop :=
  ∀ wire ∈ wires, ∀ code ∈ wire.state, IsBit code

instance (wires : List Wire) : Decidable (TwoValued wires) :=
  inferInstanceAs (Decidable (∀ wire ∈ wires, ∀ code ∈ wire.state, IsBit code))

/-- A gate of a known kind with as many inputs as this admits, whose ports denote bits of the wires.
A flip-flop stores a known level and any other gate stores nothing. -/
structure Gate.TwoValued (wires : List Wire) (gate : Gate) : Prop where
  admitted : ∃ kind ∈ GateKind.ofLabel? gate.kind, kind.arity.Admits gate.inputs.length
  inputs : ∀ p ∈ gate.inputs, (codeAt? wires p).isSome = true
  outputs : ∀ p ∈ gate.outputs, (codeAt? wires p).isSome = true
  flipFlop : GateKind.ofLabel? gate.kind = some .dff → ∃ code ∈ gate.stored, IsBit code
  others : GateKind.ofLabel? gate.kind ≠ some .dff → gate.stored = none

instance (wires : List Wire) (gate : Gate) : Decidable (gate.TwoValued wires) :=
  decidable_of_iff
    ((∃ kind ∈ GateKind.ofLabel? gate.kind, kind.arity.Admits gate.inputs.length) ∧
      (∀ p ∈ gate.inputs, (codeAt? wires p).isSome = true) ∧
      (∀ p ∈ gate.outputs, (codeAt? wires p).isSome = true) ∧
      (GateKind.ofLabel? gate.kind = some .dff → ∃ code ∈ gate.stored, IsBit code) ∧
      (GateKind.ofLabel? gate.kind ≠ some .dff → gate.stored = none))
    ⟨fun ⟨hadmitted, hinputs, houtputs, hflipFlop, hothers⟩ =>
      ⟨hadmitted, hinputs, houtputs, hflipFlop, hothers⟩,
     fun h => ⟨h.admitted, h.inputs, h.outputs, h.flipFlop, h.others⟩⟩

/-- Wires that hold bits are coded. -/
theorem TwoValued.coded {wires : List Wire} (h : TwoValued wires) : Coded wires :=
  fun wire hwire code hcode => (h wire hwire code hcode).isCode

/-- A bit of two-valued wires reads as a known level. -/
theorem TwoValued.isKnown_read {wires : List Wire} (h : TwoValued wires) {p : Port}
    (hp : (codeAt? wires p).isSome = true) {level : Signal} (hlevel : read wires p = .ok level) :
    level.isKnown = true := by
  obtain ⟨code, hcode⟩ := Option.isSome_iff_exists.1 hp
  have hbit := forall_code_iff.1 h p code hcode
  obtain ⟨known, rfl⟩ := hbit.isCode
  rw [read, hcode] at hlevel
  cases (levelOf_code known).symm.trans hlevel
  exact isBit_code.1 hbit

/-- Bits of two-valued wires read as known levels. -/
theorem TwoValued.isKnown_reads {wires : List Wire} (h : TwoValued wires) {ports : List Port}
    {levels : List Signal} (hports : ∀ p ∈ ports, (codeAt? wires p).isSome = true)
    (hreads : List.Forall₂ (fun p level => read wires p = .ok level) ports levels) :
    ∀ v ∈ levels, v.isKnown = true := by
  induction hreads with
  | nil => exact nofun
  | cons hread _ ih =>
    rw [List.forall_mem_cons] at hports ⊢
    exact ⟨h.isKnown_read hports.1 hread, ih hports.2⟩

namespace Gate.TwoValued

variable {wires : List Wire} {gate : Gate} (h : gate.TwoValued wires)
include h

/-- Flip-flops and no other gates store something, and it is a known level. -/
theorem stored : (∀ code ∈ gate.stored, IsBit code) ∧
    (gate.stored.isSome = true ↔ GateKind.ofLabel? gate.kind = some .dff) := by
  by_cases hkind : GateKind.ofLabel? gate.kind = some .dff
  · obtain ⟨code, hcode, hbit⟩ := h.flipFlop hkind
    rw [Option.mem_def.1 hcode]
    exact ⟨by rintro _ ⟨⟩; exact hbit, iff_of_true rfl hkind⟩
  · rw [h.others hkind]
    exact ⟨nofun, iff_of_false nofun hkind⟩

theorem coded : gate.Coded :=
  fun code hcode => (h.stored.1 code hcode).isCode

/-- A gate for known levels has an input. -/
theorem inputs_ne_nil : gate.inputs ≠ [] := by
  intro hnil
  obtain ⟨kind, -, hleast, -⟩ := h.admitted
  rw [hnil] at hleast
  cases kind <;> cases hleast

/-- Which bits there are depends on the shape of the wires only. -/
theorem of_shape {next : List Wire} (hshape : shape next = shape wires) : gate.TwoValued next where
  admitted := h.admitted
  inputs p hp := (isSome_codeAt?_of_shape hshape p).trans (h.inputs p hp)
  outputs p hp := (isSome_codeAt?_of_shape hshape p).trans (h.outputs p hp)
  flipFlop := h.flipFlop
  others := h.others

/-- A flip-flop captures a known level from two-valued wires. -/
theorem captured (hwires : Logic.TwoValued wires) : (gate.captured wires).TwoValued wires where
  admitted := by simpa using h.admitted
  inputs := by simpa using h.inputs
  outputs := by simpa using h.outputs
  flipFlop hkind := by
    rw [Gate.captured_kind] at hkind
    cases hinputs : gate.inputs with
    | nil => exact absurd hinputs h.inputs_ne_nil
    | cons p inputs =>
      rw [Gate.captured_of_flipFlop hkind hinputs]
      obtain ⟨code, hcode⟩ := Option.isSome_iff_exists.1 (h.inputs p (by simp [hinputs]))
      refine ⟨_, rfl, ?_⟩
      rw [Logic.sampled, hcode, Option.getD_some]
      exact forall_code_iff.1 hwires p code hcode
  others hkind := by
    rw [Gate.captured_kind] at hkind
    rw [Gate.captured_of_ne hkind]
    exact h.others hkind

/-- A flip-flop that stores a bit has a known level. -/
theorem isKnown_storedLevel (hkind : GateKind.ofLabel? gate.kind = some .dff) {level : Signal}
    (hlevel : storedLevel gate = .ok level) : level.isKnown = true := by
  obtain ⟨code, hcode, hbit⟩ := h.flipFlop hkind
  obtain ⟨known, rfl⟩ := hbit.isCode
  rw [storedLevel, hcode] at hlevel
  cases (levelOf_code known).symm.trans hlevel
  exact isBit_code.1 hbit

/-- A latch reads its own output while it holds, so that it must have one. -/
theorem isKnown_latchLevel (hwires : Logic.TwoValued wires) {p : Port} (hp : p ∈ gate.outputs)
    {levels : List Signal} (hlength : 2 ≤ levels.length) (hlevels : ∀ v ∈ levels, v.isKnown = true)
    {level : Signal} (hlevel : latchLevel wires gate levels = .ok level) :
    level.isKnown = true := by
  match levels, hlength, hlevels, hlevel with
  | data :: .high :: _, _, hlevels, hlevel =>
    cases hlevel
    exact hlevels _ List.mem_cons_self
  | _ :: .low :: _, _, _, hlevel =>
    cases houtputs : gate.outputs with
    | nil =>
      rw [houtputs] at hp
      cases hp
    | cons q outputs =>
      rw [latchLevel, houtputs] at hlevel
      exact hwires.isKnown_read (h.outputs q (by simp [houtputs])) hlevel
  | _ :: .unknown :: _, _, hlevels, _ =>
    exact absurd (hlevels .unknown (by simp)) (by decide)

/-- What a gate puts out on two-valued wires is known. -/
theorem evaluate_isKnown (hwires : Logic.TwoValued wires) {p : Port} (hp : p ∈ gate.outputs)
    {level : Signal} (hlevel : evaluate wires gate = .ok level) : level.isKnown = true := by
  obtain ⟨levels, hlevels⟩ := exists_mapM_eq_ok
    (fun p (_ : p ∈ gate.inputs) => hwires.coded.read_ok p)
  have hreads := mapM_eq_ok_iff.1 hlevels
  have hknown := hwires.isKnown_reads h.inputs hreads
  have hempty : levels.isEmpty = false := by
    rw [List.isEmpty_eq_false_iff, ← List.length_pos_iff, ← hreads.length_eq, List.length_pos_iff]
    exact h.inputs_ne_nil
  obtain ⟨kind, hkind, hadmits⟩ := h.admitted
  rw [hreads.length_eq] at hadmits
  rw [evaluate_of_reads hlevels, hempty, Option.mem_def.1 hkind] at hlevel
  cases kind with
  | dff => exact h.isKnown_storedLevel hkind hlevel
  | latch => exact h.isKnown_latchLevel hwires hp hadmits.1 hknown hlevel
  | _ =>
    cases hlevel
    exact combine_isKnown (by decide) (by decide) hadmits hknown

end Gate.TwoValued

/-! ## Rounds -/

section
variable {gates : List Gate} {wires : List Wire}

/-- Writing a known level keeps wires two-valued. -/
theorem twoValued_write (h : TwoValued wires) (p : Port) {level : Signal}
    (hlevel : level.isKnown = true) : TwoValued (write wires p level) := by
  refine forall_code_iff.2 (fun q code hcode => ?_)
  rw [codeAt?_write] at hcode
  split at hcode
  · obtain ⟨_, -, rfl⟩ := Option.map_eq_some_iff.1 hcode
    exact isBit_code.2 hlevel
  · exact forall_code_iff.1 h q code hcode

/-- A round leaves every bit low or high: a bit with a driver takes a known level, and any other
keeps its own. -/
theorem twoValued_advance (hgates : ∀ gate ∈ gates, gate.TwoValued wires) (h : TwoValued wires) :
    TwoValued (advance gates wires) := by
  have hcoded := fun gate hgate => (hgates gate hgate).coded
  refine forall_code_iff.2 (fun p code hcode => ?_)
  cases hp : driver? gates p with
  | none =>
    rw [codeAt?_advance_of_none hcoded h.coded hp] at hcode
    exact forall_code_iff.1 h p code hcode
  | some gate =>
    obtain ⟨level, hlevel, hwritten⟩ := codeAt?_advance_of_driver hcoded h.coded hp
    rw [hwritten] at hcode
    obtain ⟨_, -, rfl⟩ := Option.map_eq_some_iff.1 hcode
    exact isBit_code.2 ((hgates gate (mem_of_driver? hp)).evaluate_isKnown h
      (mem_outputs_of_driver? hp) hlevel)

/-- So does any number of rounds, and the wires keep their shape. -/
theorem twoValued_iterate (hgates : ∀ gate ∈ gates, gate.TwoValued wires) (h : TwoValued wires)
    (n : Nat) : TwoValued ((advance gates)^[n] wires) ∧
      shape ((advance gates)^[n] wires) = shape wires := by
  induction n with
  | zero => exact ⟨h, rfl⟩
  | succ n ih =>
    obtain ⟨hn, hshape⟩ := ih
    have hgates' := fun gate hgate => (hgates gate hgate).of_shape hshape
    rw [Function.iterate_succ_apply']
    exact ⟨twoValued_advance hgates' hn, (shape_advance
      (fun gate hgate => (hgates gate hgate).coded) hn.coded).trans hshape⟩

end

/-! ## Operations -/

/-- An operation sets no input to the unknown level. -/
def Action.SetsKnown : Action → Prop
  | .set _ value _ => Signal.ofJson? value ≠ some .unknown
  | _ => True

/-- An operation lets the circuit run. -/
def Action.Runs : Action → Prop
  | .propagate | .settle | .step | .run _ | .clock => True
  | _ => False

namespace Simulator

/-- A simulator of a circuit of well-formed gates in which every bit is low or high. -/
structure TwoValued (sim : Simulator) : Prop where
  wires : Logic.TwoValued sim.circuit.wires
  gates : ∀ gate ∈ sim.circuit.gates, gate.TwoValued sim.circuit.wires

namespace TwoValued

variable {sim : Simulator} (h : sim.TwoValued)
include h

/-- Every gate of a two-valued simulator is coded. -/
theorem gates_coded : ∀ gate ∈ sim.circuit.gates, gate.Coded :=
  fun gate hgate => (h.gates gate hgate).coded

/-- Other known levels on wires of the same shape. -/
theorem of_wires {next : Simulator} (hgates : next.circuit.gates = sim.circuit.gates)
    (hshape : shape next.circuit.wires = shape sim.circuit.wires)
    (hwires : Logic.TwoValued next.circuit.wires) : next.TwoValued where
  wires := hwires
  gates gate hgate := (h.gates gate (hgates ▸ hgate)).of_shape hshape

/-- A propagation keeps a simulator two-valued, and gives a result. -/
theorem propagate : ∃ next rounds, sim.propagate = (next, .ok rounds) ∧ next.TwoValued := by
  obtain ⟨_, _, rounds, hpropagate⟩ := propagate_eq_iterate h.gates_coded h.wires.coded
  obtain ⟨hwires, hshape⟩ := twoValued_iterate h.gates h.wires sim.cap.toNat
  exact ⟨_, rounds, hpropagate, h.of_wires rfl hshape hwires⟩

/-- A pulse keeps a simulator two-valued, and gives a result. -/
theorem clock : ∃ next, sim.clock = (next, .ok ()) ∧ next.TwoValued := by
  unfold Simulator.clock
  rw [capture_eq h.wires.coded]
  exact ⟨_, rfl, h.wires, List.forall_mem_map.2
    (fun gate hgate => (h.gates gate hgate).captured h.wires)⟩

/-- Settling keeps a simulator two-valued, and gives a report. -/
theorem settleStep : ∃ next report, sim.settleStep = (next, .ok report) ∧ next.TwoValued := by
  obtain ⟨next, rounds, hpropagate, hnext⟩ := h.propagate
  unfold Simulator.settleStep
  rw [hpropagate]
  exact ⟨next, _, rfl, hnext⟩

/-- A step keeps a simulator two-valued, and gives a report. -/
theorem step : ∃ next report, sim.step = (next, .ok report) ∧ next.TwoValued := by
  obtain ⟨settled, rounds, hsettle, hsettled⟩ := h.propagate
  obtain ⟨clocked, hclock, hclocked⟩ := hsettled.clock
  obtain ⟨next, more, hresettle, hnext⟩ := hclocked.propagate
  unfold Simulator.step
  rw [hsettle]
  dsimp only
  rw [hclock]
  dsimp only
  rw [hresettle]
  exact ⟨next, _, rfl, hnext⟩

omit h in
/-- Cycles keep a simulator two-valued, by induction on their number. -/
theorem cycles : ∀ (count : Nat) (last : StepReport) {sim : Simulator}, sim.TwoValued →
    ∃ next report, Simulator.cycles count sim last = (next, .ok report) ∧ next.TwoValued
  | 0, last, sim, h => ⟨sim, last, rfl, h⟩
  | count + 1, last, sim, h => by
    rw [Simulator.cycles]
    split
    · exact ⟨sim, last, rfl, h⟩
    · obtain ⟨next, report, hstep, hnext⟩ := h.step
      rw [hstep]
      exact cycles count report hnext

/-- A run keeps a simulator two-valued, and gives a report. -/
theorem run (count : Int) :
    ∃ next report, sim.run count = (next, .ok report) ∧ next.TwoValued := by
  obtain ⟨settled, first, hsettle, hsettled⟩ := h.settleStep
  rw [Simulator.run, hsettle]
  exact cycles count.toNat first hsettled

/-- An operation keeps all levels known, and is not refused if it lets the circuit run. -/
theorem perform {action : Action} (haction : action.SetsKnown) :
    (sim.perform action).1.TwoValued ∧
      (action.Runs → ∃ answer, (sim.perform action).2 = .ok answer) := by
  cases action with
  | set name value bit =>
    refine ⟨?_, False.elim⟩
    rw [Simulator.perform]
    rcases sim.setInput_cases name value bit with ⟨fault, hset⟩ | ⟨p, level, -, hvalue, hset⟩
    · rw [hset]
      exact h
    · rw [hset]
      have hlevel : level.isKnown = true := by
        cases level with
        | unknown => exact absurd hvalue haction
        | low | high => rfl
      exact h.of_wires rfl (shape_write _ p level) (twoValued_write h.wires p hlevel)
  | get name bit => exact ⟨h, False.elim⟩
  | propagate =>
    obtain ⟨next, rounds, hpropagate, hnext⟩ := h.propagate
    rw [Simulator.perform, hpropagate]
    exact ⟨hnext, fun _ => ⟨_, rfl⟩⟩
  | settle =>
    obtain ⟨next, report, hsettle, hnext⟩ := h.settleStep
    rw [Simulator.perform, hsettle]
    exact ⟨hnext, fun _ => ⟨_, rfl⟩⟩
  | step =>
    obtain ⟨next, report, hstep, hnext⟩ := h.step
    rw [Simulator.perform, hstep]
    exact ⟨hnext, fun _ => ⟨_, rfl⟩⟩
  | run count =>
    obtain ⟨next, report, hrun, hnext⟩ := h.run count
    rw [Simulator.perform, hrun]
    exact ⟨hnext, fun _ => ⟨_, rfl⟩⟩
  | clock =>
    obtain ⟨next, hclock, hnext⟩ := h.clock
    rw [Simulator.perform, hclock]
    exact ⟨hnext, fun _ => ⟨_, rfl⟩⟩
  | evaluate place =>
    refine ⟨?_, False.elim⟩
    rw [Simulator.perform]
    split <;> exact h
  | snapshot => exact ⟨h, False.elim⟩

/-- A session keeps a simulator two-valued if all its inputs are set to known levels. -/
theorem performAll {actions : List Action} (hactions : ∀ action ∈ actions, action.SetsKnown) :
    (sim.performAll actions).TwoValued := by
  induction actions generalizing sim with
  | nil => exact h
  | cons action actions ih =>
    rw [List.forall_mem_cons] at hactions
    exact ih (h.perform hactions.1).1 hactions.2

end TwoValued

/-- No session makes an unknown level. In a circuit of gates of known kinds, each with as many
inputs as its kind admits, whose ports all denote bits, whose bits are low or high, and whose
flip-flops and nothing else store a known level, every bit is still low or high after operations
that set no input to the unknown level, and so is every level stored; and the circuit can always be
run further. Whether gates feed each other in loops, drive the same bit, or run into the cap does
not matter. -/
theorem session_twoValued {sim : Simulator} (h : sim.TwoValued) {actions : List Action}
    (hactions : ∀ action ∈ actions, action.SetsKnown) :
    (∀ wire ∈ (sim.performAll actions).circuit.wires, ∀ code ∈ wire.state, IsBit code) ∧
    (∀ gate ∈ (sim.performAll actions).circuit.gates,
      (∀ code ∈ gate.stored, IsBit code) ∧
      (gate.stored.isSome = true ↔ GateKind.ofLabel? gate.kind = some .dff)) ∧
    ∀ action : Action, action.Runs →
      ∃ answer, ((sim.performAll actions).perform action).2 = .ok answer := by
  have hafter := h.performAll hactions
  refine ⟨hafter.wires, fun gate hgate => ?_, fun action haction => ?_⟩
  · exact (hafter.gates gate hgate).stored
  · have hknown : action.SetsKnown := by
      cases action with
      | set => cases haction
      | _ => trivial
    exact (hafter.perform hknown).2 haction

/-- A ring of one inverter, two gates that drive one bit from it, a latch that reads its own output
between the ring and a flip-flop, and a multiplexer that the flip-flop feeds. -/
def tangled : Simulator where
  circuit := {
    wires := [{ id := 0, name := "a", width := 1, isInput := true, state := [1] },
      { id := 1, name := "ring", width := 2, state := [0, 1] },
      { id := 2, name := "held", width := 3, state := [0, 1, 0] }]
    gates := [
      { id := 0, name := "turn", kind := "NOT", inputs := [⟨1, 0⟩], outputs := [⟨1, 0⟩] },
      { id := 1, name := "odd", kind := "XOR", inputs := [⟨0, 0⟩, ⟨1, 0⟩, ⟨2, 0⟩, ⟨2, 2⟩]
        outputs := [⟨1, 1⟩] },
      { id := 2, name := "both", kind := "NAND", inputs := [⟨0, 0⟩, ⟨1, 1⟩], outputs := [⟨1, 1⟩] },
      { id := 3, name := "hold", kind := "LATCH", inputs := [⟨1, 1⟩, ⟨1, 0⟩]
        outputs := [⟨2, 0⟩] },
      { id := 4, name := "take", kind := "DFF", inputs := [⟨2, 0⟩, ⟨0, 0⟩], outputs := [⟨2, 1⟩]
        stored := some 1 },
      { id := 5, name := "pick", kind := "MUX", inputs := [⟨2, 1⟩, ⟨1, 0⟩, ⟨2, 2⟩]
        outputs := [⟨2, 2⟩] }] }
  cap := 3

/-- The ring runs every propagation into the cap and one setting is refused, but no level becomes
unknown. -/
theorem session_tangled :
    let actions : List Action :=
      [.propagate, .set "a" (.int 0) 0, .set "b" (.int 1) 0, .clock, .step, .run 2]
    tangled.TwoValued ∧ (∀ action ∈ actions, action.SetsKnown) ∧
      (tangled.performAll actions).failed = true ∧
      (∀ wire ∈ (tangled.performAll actions).circuit.wires, ∀ code ∈ wire.state, IsBit code) ∧
      ∀ gate ∈ (tangled.performAll actions).circuit.gates, ∀ code ∈ gate.stored, IsBit code := by
  intro actions
  have hcircuit : tangled.TwoValued := { wires := by decide, gates := by decide +kernel }
  have hactions : ∀ action ∈ actions, action.SetsKnown := by
    simp [actions, Action.SetsKnown, Signal.ofJson?_int, Signal.ofCode?]
  obtain ⟨hwires, hgates, -⟩ := session_twoValued hcircuit hactions
  exact ⟨hcircuit, hactions, by decide +kernel, hwires, fun gate hgate => (hgates gate hgate).1⟩

end Simulator

end Logic

end Switchyard
