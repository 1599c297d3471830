import Switchyard.Proofs.Logic.Clocking
import Switchyard.Proofs.Logic.Information

/-!
# Unknown levels as an abstraction

A simulator is below another one if both simulate the same gates on the same wires and the levels of
the first, on the wires and in the flip-flops, are below those of the second
(`Simulator.Below`). A propagation leaves the wires where a full number of rounds does, whether it
stops early, and at which round, or not at all (`Simulator.propagate_eq_iterate`); so every
operation keeps two simulators in this order (`Action.Below.perform`), and so does every session
(`Simulator.performAll_below`). What a simulation says about some inputs that are left unknown is
therefore what it says about all levels they could have.
-/

namespace Switchyard.Logic

namespace Simulator

/-! ## Propagation as a full number of rounds -/

/-- Once an iterate is a fixed point, the later ones are all the same. -/
theorem iterate_of_fixed {α : Type} {f : α → α} {x : α} {k n : Nat} (h : f (f^[k] x) = f^[k] x)
    (hk : k ≤ n) : f^[n] x = f^[k] x := by
  obtain ⟨m, rfl⟩ := Nat.exists_eq_add_of_le' hk
  rw [Function.iterate_add_apply, Function.iterate_fixed h]

/-- A propagation on coded wires succeeds, and leaves the wires as the full number of rounds does.
-/
theorem propagate_eq_iterate {sim : Simulator} (hgates : ∀ gate ∈ sim.circuit.gates, gate.Coded)
    (hwires : Coded sim.circuit.wires) : ∃ stable failed rounds,
    sim.propagate = ({ sim with
        circuit := { sim.circuit with
          wires := (advance sim.circuit.gates)^[sim.cap.toNat] sim.circuit.wires
          stable }
        failed }, .ok rounds) := by
  unfold propagate
  rcases settle_eq hgates sim.cap.toNat 0 sim.circuit.wires hwires with
    ⟨k, hk, hfixed, -, hsettle⟩ | ⟨-, hsettle⟩
  · rw [hsettle, iterate_of_fixed hfixed hk.le]
    exact ⟨_, _, _, rfl⟩
  · rw [hsettle]
    exact ⟨_, _, _, rfl⟩

/-! ## Simulators in order -/

/-- Simulators of the same circuit, with the same cap, that differ in levels, which are in order. -/
structure Below (a b : Simulator) : Prop where
  cap_eq : a.cap = b.cap
  wires : WiresBelow a.circuit.wires b.circuit.wires
  gates : GatesBelow a.circuit.gates b.circuit.gates

end Simulator

/-- Operations that are the same but for the values of inputs set, which are in order or denote no
levels. -/
inductive Action.Below : Action → Action → Prop
  | set {value value' : Json} (name : String) (bit : Int) :
      Option.Rel (· ≤ ·) (Signal.ofJson? value) (Signal.ofJson? value') →
      Below (.set name value bit) (.set name value' bit)
  | propagate : Below .propagate .propagate
  | settle : Below .settle .settle
  | clock : Below .clock .clock
  | step : Below .step .step

/-! ## Operations -/

/-- Less is known of a sampled bit where less is known of the wires. -/
theorem sampled_mono {a b : List Wire} (h : WiresBelow a b) (p : Port) :
    CodeBelow (sampled a p) (sampled b p) := by
  have hcode := codeAt?_mono h p
  unfold sampled
  generalize codeAt? a p = m at hcode
  generalize codeAt? b p = n at hcode
  cases hcode with
  | none => exact codeBelow_iff.2 ⟨.unknown, .unknown, rfl, rfl, le_refl _⟩
  | some hcode => exact hcode

/-- Flip-flops that capture what wires in order carry store levels in order. -/
theorem captured_mono {a b : List Wire} {gates others : List Gate} (hwires : WiresBelow a b)
    (hgates : GatesBelow gates others) :
    GatesBelow (gates.map (Gate.captured a)) (others.map (Gate.captured b)) := by
  rw [GatesBelow, List.forall₂_map_left_iff, List.forall₂_map_right_iff]
  refine hgates.imp (fun g h hgate => ?_)
  unfold Gate.captured
  rw [hgate.kind_eq, hgate.inputs_eq]
  split
  · next p _ _ _ =>
    obtain ⟨hsame, -⟩ := hgate
    exact ⟨by rw [← hsame], sampled_mono hwires p⟩
  · exact hgate

namespace Simulator

namespace Below

variable {a b : Simulator} (h : a.Below b)
include h

/-- Both propagate, after however many rounds each, and the order is kept. -/
theorem propagate : ∃ next other m n, a.propagate = (next, .ok m) ∧ b.propagate = (other, .ok n) ∧
    next.Below other := by
  obtain ⟨_, _, m, hnext⟩ := propagate_eq_iterate h.gates.coded.1 h.wires.coded.1
  obtain ⟨_, _, n, hother⟩ := propagate_eq_iterate h.gates.coded.2 h.wires.coded.2
  refine ⟨_, _, m, n, hnext, hother, h.cap_eq, ?_, h.gates⟩
  rw [h.cap_eq]
  exact iterate_advance_mono h.gates h.wires _

/-- Both clock, and the order is kept. -/
theorem clock : ∃ next other, a.clock = (next, .ok ()) ∧ b.clock = (other, .ok ()) ∧
    next.Below other := by
  unfold Simulator.clock
  rw [capture_eq h.wires.coded.1, capture_eq h.wires.coded.2]
  exact ⟨_, _, rfl, rfl, h.cap_eq, h.wires, captured_mono h.wires h.gates⟩

/-- Both settle with a report, and the order is kept. -/
theorem settleStep : ∃ next other report report', a.settleStep = (next, .ok report) ∧
    b.settleStep = (other, .ok report') ∧ next.Below other := by
  obtain ⟨next, other, m, n, hnext, hother, hbelow⟩ := h.propagate
  unfold Simulator.settleStep
  rw [hnext, hother]
  exact ⟨_, _, _, _, rfl, rfl, hbelow⟩

/-- Both step with a report, and the order is kept. -/
theorem step : ∃ next other report report', a.step = (next, .ok report) ∧
    b.step = (other, .ok report') ∧ next.Below other := by
  obtain ⟨before, before', _, _, hbefore, hbefore', hsettled⟩ := h.propagate
  obtain ⟨clocked, clocked', hclocked, hclocked', hcaptured⟩ := hsettled.clock
  obtain ⟨next, other, _, _, hnext, hother, hbelow⟩ := hcaptured.propagate
  unfold Simulator.step
  rw [hbefore, hbefore']
  dsimp only
  rw [hclocked, hclocked']
  dsimp only
  rw [hnext, hother]
  exact ⟨_, _, _, _, rfl, rfl, hbelow⟩

/-- An input is set in both or in neither. -/
theorem setInput (name : String) (bit : Int) {value value' : Json}
    (hvalue : Option.Rel (· ≤ ·) (Signal.ofJson? value) (Signal.ofJson? value')) :
    (∃ fault fault', a.setInput name value bit = .error fault ∧
      b.setInput name value' bit = .error fault') ∨
    ∃ next other, a.setInput name value bit = .ok next ∧ b.setInput name value' bit = .ok other ∧
      next.Below other := by
  rcases a.setInput_cases name value bit with ⟨fault, ha⟩ | ⟨p, level, hp, hlevel, ha⟩
  · rcases b.setInput_cases name value' bit with ⟨fault', hb⟩ | ⟨p, level', hp, hlevel', hb⟩
    · exact .inl ⟨fault, fault', ha, hb⟩
    · -- the first simulator has the bit too, and its value denotes a level
      rw [hlevel'] at hvalue
      generalize hlevel : Signal.ofJson? value = found at hvalue
      cases hvalue with
      | some _ =>
        rw [(hp.of_shape h.wires.shape_eq).setInput_eq hlevel] at ha
        cases ha
  · rw [hlevel] at hvalue
    generalize hlevel' : Signal.ofJson? value' = found at hvalue
    cases hvalue with
    | some hle =>
      have hb := (hp.of_shape h.wires.shape_eq.symm).setInput_eq hlevel'
      exact .inr ⟨_, _, ha, hb, h.cap_eq, write_mono h.wires p hle, h.gates⟩

/-- A name denotes the same wire in both. -/
theorem wireFor {name : String} {place : Nat} {wire : Wire}
    (hwire : a.wireFor name = .ok (place, wire)) :
    ∃ other, b.wireFor name = .ok (place, other) ∧ wire.Below other := by
  obtain ⟨other, hother, -⟩ := wireFor_of_shape h.wires.shape_eq.symm hwire
  have hbelow := forall₂_getElem? h.wires place
  rw [wireFor_eq_ok hwire, wireFor_eq_ok hother] at hbelow
  cases hbelow with
  | some hbelow => exact ⟨other, hother, hbelow⟩

/-- A known bit is the same in both. -/
theorem getWire {name : String} {bit : Int} {level : Signal}
    (hlevel : a.getWire name bit = .ok level) (hknown : level ≠ .unknown) :
    b.getWire name bit = .ok level := by
  unfold Simulator.getWire at hlevel ⊢
  obtain ⟨⟨place, wire⟩, hwire, hbit⟩ := bind_eq_ok_iff.1 hlevel
  obtain ⟨other, hother, hbelow⟩ := h.wireFor hwire
  refine bind_eq_ok_iff.2 ⟨(place, other), hother, ?_⟩
  have hwidth : wire.width = other.width :=
    (congrArg Wire.width hbelow.shape_eq :)
  have hcode := forall₂_getElem? hbelow.2 bit.toNat
  dsimp only at hbit ⊢
  rw [← hwidth]
  split at hbit
  · cases hbit
    exact absurd rfl hknown
  · next hrange =>
    rw [if_neg hrange]
    generalize wire.state[bit.toNat]? = m at hbit hcode
    generalize other.state[bit.toNat]? = n at hcode
    cases hcode with
    | none => cases hbit
    | some hcode =>
      obtain ⟨x, y, rfl, rfl, hle⟩ := codeBelow_iff.1 hcode
      dsimp only at hbit ⊢
      rw [levelOf_code] at hbit ⊢
      cases hbit
      rw [Signal.eq_of_le hle hknown]

end Below

/-- An operation keeps simulators in order. -/
theorem Below.perform {a b : Simulator} (h : a.Below b) {action other : Action}
    (haction : action.Below other) : (a.perform action).1.Below (b.perform other).1 := by
  cases haction with
  | set name bit hvalue =>
    rw [Simulator.perform, Simulator.perform]
    rcases h.setInput name bit hvalue with ⟨fault, fault', ha, hb⟩ | ⟨next, next', ha, hb, hbelow⟩
    · rw [ha, hb]
      exact h
    · rw [ha, hb]
      exact hbelow
  | propagate =>
    obtain ⟨next, next', m, n, ha, hb, hbelow⟩ := h.propagate
    rw [Simulator.perform, Simulator.perform, ha, hb]
    exact hbelow
  | settle =>
    obtain ⟨next, next', m, n, ha, hb, hbelow⟩ := h.settleStep
    rw [Simulator.perform, Simulator.perform, ha, hb]
    exact hbelow
  | clock =>
    obtain ⟨next, next', ha, hb, hbelow⟩ := h.clock
    rw [Simulator.perform, Simulator.perform, ha, hb]
    exact hbelow
  | step =>
    obtain ⟨next, next', m, n, ha, hb, hbelow⟩ := h.step
    rw [Simulator.perform, Simulator.perform, ha, hb]
    exact hbelow

/-- The order is kept along two sessions whose operations are ordered one by one. -/
theorem Below.performAll {a b : Simulator} (h : a.Below b) {actions others : List Action}
    (hactions : List.Forall₂ Action.Below actions others) :
    (a.performAll actions).Below (b.performAll others) := by
  induction hactions generalizing a b with
  | nil => exact h
  | cons haction _ ih => exact ih (h.perform haction)

/-- Two simulators of one circuit that start in order, and of which the same operations are asked
with inputs in order, are in order after every operation. So a bit that is known where some levels
were left unknown has the same level whatever these are. -/
theorem sessions_below {a b : Simulator} (h : a.Below b) {actions others : List Action}
    (hactions : List.Forall₂ Action.Below actions others) (n : Nat) :
    (a.performAll (actions.take n)).Below (b.performAll (others.take n)) ∧
    ∀ name bit level, (a.performAll (actions.take n)).getWire name bit = .ok level →
      level ≠ .unknown → (b.performAll (others.take n)).getWire name bit = .ok level := by
  have hbelow := h.performAll (List.forall₂_take n hactions)
  exact ⟨hbelow, fun _ _ _ => hbelow.getWire⟩

/-- Two gates that hold each other, the second with an input that denotes no bit, and a flip-flop
behind the first; the wires between them and the flip-flop hold the given codes. -/
def crossed (q n : Int) (stored : Option Int) : Simulator where
  circuit := {
    wires := [{ id := 0, name := "s", width := 1, state := [2] },
      { id := 1, name := "r", width := 1, state := [2] },
      { id := 2, name := "q", width := 2, state := [q, 2] },
      { id := 3, name := "n", width := 1, state := [n] }]
    gates := [
      { id := 0, name := "set", kind := "NAND", inputs := [⟨0, 0⟩, ⟨3, 0⟩], outputs := [⟨2, 0⟩] },
      { id := 1, name := "reset", kind := "NAND", inputs := [⟨1, 0⟩, ⟨2, 0⟩, ⟨3, 7⟩]
        outputs := [⟨3, 0⟩] },
      { id := 2, name := "held", kind := "DFF", inputs := [⟨2, 0⟩], outputs := [⟨2, 1⟩], stored }] }
  cap := 3

/-- A low level at one gate of the pair settles it and the flip-flop, though the other input is left
unknown, and as well if that one is low and the pair was settled before. -/
theorem sessions_crossed :
    let actions (r : Signal) : List Action :=
      [.set "s" (.int 0) 0, .set "r" (.int r.code) 0, .settle, .step]
    (crossed 2 2 none).Below (crossed 0 1 (some 0)) ∧
      List.Forall₂ Action.Below (actions .unknown) (actions .low) ∧
      ((crossed 2 2 none).performAll ((actions .unknown).take 4)).getWire "q" 1 = .ok .high ∧
      ((crossed 0 1 (some 0)).performAll ((actions .low).take 4)).getWire "q" 1 = .ok .high := by
  intro actions
  have hbelow : (crossed 2 2 none).Below (crossed 0 1 (some 0)) :=
    { cap_eq := rfl, wires := by decide, gates := by decide }
  have hactions : List.Forall₂ Action.Below (actions .unknown) (actions .low) :=
    .cons (.set _ _ (.some (le_refl _))) (.cons (.set _ _ (.some (Signal.unknown_le _)))
      (.cons .settle (.cons .step .nil)))
  have hknown : ((crossed 2 2 none).performAll ((actions .unknown).take 4)).getWire "q" 1 =
      .ok .high := by
    decide +kernel
  exact ⟨hbelow, hactions, hknown,
    (sessions_below hbelow hactions 4).2 _ _ _ hknown (by decide)⟩

end Simulator

end Switchyard.Logic
