import Switchyard.Proofs.Hdl.Capitals
import Switchyard.Proofs.Logic.Building
import Switchyard.Proofs.Logic.Programs

/-!
# Sessions of a built program

A session comes down to settings, propagations and clock pulses: a step and a run are some of the
latter two (`Simulator.strokes`, `Simulator.performAll_strokes`). Each of these keeps what can be
said of the simulator of a built program (`Simulator.Tended`): its wires and gates are those that
were built but for levels, of which every wire has as many as its width and a gate has one if it is
a flip-flop, and the cycle counts the clock pulses. So a session never comes to a position outside a
list or to a code that is no level. An input is refused for its name, its bit or its value, a level
is not read for its name, nothing else is ever refused, and what is refused changes nothing
(`Simulator.session_of_program`).
-/

namespace Switchyard.Logic

/-! ## What sessions are made of -/

/-- The operation neither settles, steps nor runs. -/
def Action.IsStroke : Action → Prop
  | .settle | .step | .run _ => False
  | _ => True

namespace Simulator

/-- The strokes of at most the given number of cycles, none after the simulator has failed. -/
def cyclesStrokes : (count : Nat) → Simulator → List Action
  | 0, _ => []
  | count + 1, sim =>
    if sim.failed then []
    else [.propagate, .clock, .propagate] ++ cyclesStrokes count sim.step.1

/-- The strokes that an operation is made of. -/
def strokesOf (sim : Simulator) : Action → List Action
  | .settle => [.propagate]
  | .step => [.propagate, .clock, .propagate]
  | .run count => .propagate :: cyclesStrokes count.toNat sim.propagate.1
  | action => [action]

/-- The strokes that a session is made of. -/
def strokes (sim : Simulator) : List Action → List Action
  | [] => []
  | action :: actions => sim.strokesOf action ++ (sim.perform action).1.strokes actions

/-- Cycles are made of strokes. -/
theorem isStroke_cyclesStrokes (count : Nat) (sim : Simulator) :
    ∀ action ∈ cyclesStrokes count sim, action.IsStroke := by
  induction count generalizing sim with
  | zero => exact nofun
  | succ count ih =>
    rw [cyclesStrokes]
    split
    · exact nofun
    · exact List.forall_mem_append.2 ⟨by simp [Action.IsStroke], ih _⟩

/-- Every session is made of strokes. -/
theorem isStroke_strokes (sim : Simulator) (actions : List Action) :
    ∀ action ∈ sim.strokes actions, action.IsStroke := by
  induction actions generalizing sim with
  | nil => exact nofun
  | cons action actions ih =>
    refine List.forall_mem_append.2 ⟨?_, ih _⟩
    cases action with
    | settle | step => simp [strokesOf, Action.IsStroke]
    | run count =>
      exact List.forall_mem_cons.2 ⟨trivial, isStroke_cyclesStrokes _ _⟩
    | set | get | propagate | clock | evaluate | snapshot => simp [strokesOf, Action.IsStroke]

namespace Intact

variable {sim : Simulator} (h : sim.Intact)
include h

/-- A step is a propagation, a pulse and a propagation. -/
theorem step_eq_performAll : sim.step.1 = sim.performAll [.propagate, .clock, .propagate] := by
  obtain ⟨settled, rounds, hsettle, hsettled⟩ := h.propagate
  obtain ⟨clocked, hclock, hclocked⟩ := hsettled.intact.clock
  obtain ⟨next, more, hresettle, -⟩ := hclocked.intact.propagate
  change _ = sim.propagate.1.clock.1.propagate.1
  rw [Simulator.step, hsettle]
  dsimp only
  rw [hclock]
  dsimp only
  rw [hresettle]

omit h in
/-- Cycles are the strokes that they are made of, by induction on their number. -/
theorem cycles_eq_performAll : ∀ (count : Nat) {sim : Simulator} (last : StepReport), sim.Intact →
    (Simulator.cycles count sim last).1 = sim.performAll (cyclesStrokes count sim)
  | 0, _, _, _ => rfl
  | count + 1, sim, last, h => by
    rw [Simulator.cycles, cyclesStrokes]
    split
    · rfl
    · obtain ⟨next, report, hstep, -, hran⟩ := h.step
      rw [performAll_append, ← h.step_eq_performAll, hstep]
      exact cycles_eq_performAll count report hran.intact

/-- An operation does what its strokes do. -/
theorem performAll_strokesOf (action : Action) :
    sim.performAll (sim.strokesOf action) = (sim.perform action).1 := by
  obtain ⟨settled, rounds, hsettle, hran⟩ := h.propagate
  have hsettled : sim.settleStep = (settled, .ok (settled.report rounds settled.cappedOnce)) := by
    rw [Simulator.settleStep, hsettle]
  have hpropagate : (sim.perform .propagate).1 = settled := by
    rw [Simulator.perform, hsettle]
  cases action with
  | settle =>
    change (sim.perform .propagate).1 = sim.settleStep.1
    rw [hpropagate, hsettled]
  | step => exact h.step_eq_performAll.symm
  | run count =>
    change (sim.perform .propagate).1.performAll (cyclesStrokes _ sim.propagate.1) =
      (sim.run count).1
    rw [hpropagate, hsettle, Simulator.run, hsettled]
    exact (cycles_eq_performAll _ _ hran.intact).symm
  | set | get | propagate | clock | evaluate | snapshot => rfl

/-- So does a session. -/
theorem performAll_strokes (actions : List Action) :
    sim.performAll (sim.strokes actions) = sim.performAll actions := by
  induction actions generalizing sim with
  | nil => rfl
  | cons action actions ih =>
    obtain ⟨pulses, hran⟩ := h.perform action
    rw [strokes, performAll_append, h.performAll_strokesOf, ih hran.intact]
    rfl

end Intact

end Simulator

/-! ## What sessions keep -/

/-- The wire is the one before but for the levels of its bits, as many as its width. -/
structure Wire.Keeps (before after : Wire) : Prop where
  same : after = { before with state := after.state }
  length_eq : (after.state.length : Int) = before.width
  codes : ∀ code ∈ after.state, IsCode code

/-- The gate is the one before but for the level that it stores, which it does if and only if it is
a flip-flop. -/
structure Gate.Keeps (before after : Gate) : Prop where
  same : after = { before with stored := after.stored }
  stores : after.stored.isSome = true ↔ before.kind = "DFF"
  codes : after.Coded

/-- Gates that store a level if and only if they are spelled as flip-flops, and count as flip-flops
then only. -/
def Tidy (gates : List Gate) : Prop :=
  ∀ gate ∈ gates, (gate.stored.isSome = true ↔ gate.kind = "DFF") ∧
    (GateKind.ofLabel? gate.kind = some .dff → gate.kind = "DFF")

/-- A gate that kept what it is keeps it in a pulse, its new code being stored only by a flip-flop.
-/
theorem Gate.Keeps.captured {before after : Gate} (h : before.Keeps after)
    (hkind : GateKind.ofLabel? before.kind = some .dff → before.kind = "DFF") {wires : List Wire}
    (hwires : Logic.Coded wires) : before.Keeps (after.captured wires) := by
  have hsame : after.kind = before.kind := by rw [h.same]
  refine ⟨?_, ?_, h.codes.captured hwires⟩
  · unfold Gate.captured
    split
    · rw [h.same]
    · exact h.same
  · unfold Gate.captured
    split
    · next p inputs hdff _ => exact iff_of_true rfl (hkind (hsame ▸ hdff))
    · exact h.stores

/-- The gates of a built circuit are tidy: one stores a level exactly if its kind is spelled as that
of a flip-flop. -/
theorem tidy_ofProgram {program : Hdl.Program} {circuit : Circuit}
    (h : Circuit.ofProgram program = .ok circuit) : Tidy circuit.gates := by
  refine forall_mem_of_forall₂ (Circuit.builtFrom_ofProgram h).gates.flip
    (fun gate entry hgate => ?_)
  refine ⟨?_, fun hdff => ?_⟩
  · rw [hgate.stored_eq]
    split
    · next hkind => exact iff_of_true rfl hkind
    · next hkind => exact iff_of_false nofun hkind
  · rw [hgate.kind_eq] at hdff ⊢
    exact (GateKind.ofLabel?_upper_iff _).1 hdff

namespace Simulator

/-- What a session keeps of a simulator that began with a circuit, after so many clock pulses. -/
structure Tended (circuit : Circuit) (pulses : Nat) (sim : Simulator) : Prop where
  intact : sim.Intact
  shape_eq : shape sim.circuit.wires = shape circuit.wires
  gates : List.Forall₂ Gate.Keeps circuit.gates sim.circuit.gates
  cycle_eq : sim.circuit.cycle = pulses

/-- A propagation keeps the gates. -/
theorem gates_propagate (sim : Simulator) : sim.propagate.1.circuit.gates = sim.circuit.gates := by
  unfold propagate
  split <;> rfl

namespace Tended

variable {circuit : Circuit} {pulses : Nat} {sim : Simulator} (h : sim.Tended circuit pulses)
include h

/-- A pulse is counted and keeps the circuit. -/
theorem clock (htidy : Tidy circuit.gates) : sim.clock.1.Tended circuit (pulses + 1) := by
  obtain ⟨next, hclock, hran⟩ := h.intact.clock
  have hgates : next.circuit.gates = sim.circuit.gates.map (Gate.captured sim.circuit.wires) := by
    rw [← show sim.clock.1 = next from congrArg Prod.fst hclock, Simulator.clock,
      capture_eq h.intact.wires]
  rw [hclock]
  refine ⟨hran.intact, hran.shape_eq.trans h.shape_eq, ?_, ?_⟩
  · rw [hgates, List.forall₂_map_right_iff]
    exact ((List.forall₂_and_left _ _).2 ⟨htidy, h.gates⟩).imp
      (fun before after hboth => hboth.2.captured hboth.1.2 h.intact.wires)
  · rw [hran.cycle_eq, h.cycle_eq]
    rfl

/-- Setting an input keeps the circuit and is not counted. -/
theorem setInput {name : String} {value : Json} {bit : Int} {next : Simulator}
    (hset : sim.setInput name value bit = .ok next) : next.Tended circuit pulses := by
  have hran := h.intact.setInput hset
  refine ⟨hran.intact, hran.shape_eq.trans h.shape_eq, ?_, ?_⟩
  · rcases sim.setInput_cases name value bit with ⟨fault, hfault⟩ | ⟨p, level, -, -, hwritten⟩
    · rw [hfault] at hset
      cases hset
    · rw [hwritten] at hset
      cases hset
      exact h.gates
  · rw [hran.cycle_eq, h.cycle_eq]
    exact Int.add_zero _

/-- A propagation keeps the circuit and is not counted. -/
theorem propagate : sim.propagate.1.Tended circuit pulses := by
  obtain ⟨next, rounds, hpropagate, hran⟩ := h.intact.propagate
  refine ⟨?_, ?_, sim.gates_propagate ▸ h.gates, ?_⟩ <;> rw [hpropagate]
  · exact hran.intact
  · exact hran.shape_eq.trans h.shape_eq
  · rw [hran.cycle_eq, h.cycle_eq]
    exact Int.add_zero _

/-- A stroke keeps it, and only a clock pulse counts. -/
theorem perform (htidy : Tidy circuit.gates) {action : Action} (hstroke : action.IsStroke) :
    (sim.perform action).1.Tended circuit (pulses + if action = .clock then 1 else 0) := by
  cases action with
  | set name value bit =>
    rw [Simulator.perform]
    cases hset : sim.setInput name value bit with
    | error fault => exact h
    | ok next => exact h.setInput hset
  | propagate => exact h.propagate
  | clock => exact h.clock htidy
  | evaluate place =>
    have hsame : (sim.perform (.evaluate place)).1 = sim := by
      rw [Simulator.perform]
      split <;> rfl
    rw [hsame]
    exact h
  | get | snapshot => exact h
  | settle | step | run => exact hstroke.elim

/-- A session of strokes keeps the circuit, and its pulses are counted. -/
theorem performAll (htidy : Tidy circuit.gates) {actions : List Action}
    (hstrokes : ∀ action ∈ actions, action.IsStroke) :
    (sim.performAll actions).Tended circuit (pulses + actions.count .clock) := by
  induction actions generalizing sim pulses with
  | nil => exact h
  | cons action actions ih =>
    obtain ⟨hfirst, hrest⟩ := List.forall_mem_cons.1 hstrokes
    have hnext := ih (h.perform htidy hfirst) hrest
    rw [List.count_cons, Nat.add_comm (actions.count _), ← Nat.add_assoc]
    change ((sim.perform action).1.performAll actions).Tended circuit _
    simpa using hnext

/-- Every wire of a tended circuit is the one it was but for its state. -/
theorem wires (hnumbered : Numbered circuit.wires) :
    List.Forall₂ Wire.Keeps circuit.wires sim.circuit.wires := by
  have hshapes : List.Forall₂ (fun before after : Wire => before.shape = after.shape) circuit.wires
      sim.circuit.wires := by
    have heq := h.shape_eq.symm
    rwa [shape, shape, ← List.forall₂_eq_eq_eq, List.forall₂_map_left_iff,
      List.forall₂_map_right_iff] at heq
  have hwidths : ∀ wire ∈ circuit.wires, wire.width = wire.state.length := by
    intro wire hwire
    obtain ⟨i, hi⟩ := List.mem_iff_getElem?.1 hwire
    exact (hnumbered i wire hi).width_eq
  have hcoded := ((List.forall₂_and_left _ _).2 ⟨h.intact.wires, hshapes.flip⟩).flip
  refine ((List.forall₂_and_left _ _).2 ⟨hwidths, hcoded⟩).imp ?_
  rintro before after ⟨hwidth, hcodes, hshape⟩
  refine ⟨?_, ?_, hcodes⟩
  · calc after = { after.shape with state := after.state } := rfl
      _ = { before.shape with state := after.state } := by rw [hshape]
  · rw [hwidth, Wire.length_state_of_shape hshape]

/-- The last wire of a name is as wide as the program says. -/
theorem width_last {program : Hdl.Program} (hbuilt : circuit.BuiltFrom program) (name : String) :
    (sim.circuit.wires.reverse.find? (·.name = name)).map (·.width) =
      (program.wires.reverse.find? (·.name = name)).map (·.width) := by
  -- on either side the name is looked up among the pairs of names and widths
  have hpairs : ∀ {α : Type} (name? : α → String) (width : α → Int) (l : List α),
      (l.reverse.find? (name? · = name)).map width =
        ((l.map (fun a => (name? a, width a))).reverse.find? (·.1 = name)).map (·.2) := by
    intro α name? width l
    rw [← List.map_reverse, List.find?_map, Option.map_map]
    rfl
  have hshape : ∀ wires : List Wire, (shape wires).map (fun wire => (wire.name, wire.width)) =
      wires.map (fun wire => (wire.name, wire.width)) := by
    intro wires
    rw [shape, List.map_map]
    rfl
  have hwires : circuit.wires.map (fun wire => (wire.name, wire.width)) =
      program.wires.map (fun wire => (wire.name, wire.width)) := by
    rw [hbuilt.wires_eq, List.map_map, ← List.zipIdx_map_fst 0 program.wires, List.map_map,
      List.zipIdx_map_fst]
    rfl
  have hsame : sim.circuit.wires.map (fun wire => (wire.name, wire.width)) =
      program.wires.map (fun wire => (wire.name, wire.width)) := by
    rw [← hshape, h.shape_eq, hshape, hwires]
  exact (hpairs Wire.name Wire.width _).trans
    (hsame ▸ (hpairs Hdl.Wire.name Hdl.Wire.width program.wires).symm)

end Tended

/-! ## What is refused -/

/-- No last wire of a name is found exactly if no wire has the name. -/
theorem find?_reverse_eq_none_iff {wires : List Hdl.Wire} {name : String} :
    wires.reverse.find? (·.name = name) = none ↔ name ∉ wires.map (·.name) := by
  simp [List.find?_eq_none]

section
variable {program : Hdl.Program} {circuit : Circuit} {pulses : Nat} {sim : Simulator}
  (hbuilt : circuit.BuiltFrom program) (hnumbered : Numbered circuit.wires)
  (h : sim.Tended circuit pulses)
include hbuilt hnumbered h

/-- Setting an input is refused with a wording for its name, its bit or its value, and then changes
nothing. -/
theorem Tended.set_refused (name : String) (value : Json) (bit : Int) :
    ((∃ fault, (sim.perform (.set name value bit)).2 = .error fault) ↔
      name ∉ program.wires.map (·.name) ∨ Signal.ofJson? value = none ∨
        ∃ wire, program.wires.reverse.find? (·.name = name) = some wire ∧
          (bit < 0 ∨ wire.width ≤ bit)) ∧
    ∀ fault, (sim.perform (.set name value bit)).2 = .error fault →
      fault.message?.isSome = true ∧ (sim.perform (.set name value bit)).1 = sim := by
  have hwidth := h.width_last hbuilt name
  rw [Simulator.perform, ← find?_reverse_eq_none_iff]
  rcases (hnumbered.of_shape h.shape_eq).setInput_cases name value bit with
    ⟨hfind, hset⟩ | ⟨wire, hfind, hset⟩
  · rw [hfind, Option.map_none] at hwidth
    rw [hset]
    exact ⟨iff_of_true ⟨_, rfl⟩ (.inl (Option.map_eq_none_iff.1 hwidth.symm)),
      fun fault hfault => by cases hfault; exact ⟨rfl, rfl⟩⟩
  · rw [hfind, Option.map_some] at hwidth
    obtain ⟨declared, hdeclared, hsame⟩ := Option.map_eq_some_iff.1 hwidth.symm
    rw [hdeclared]
    rcases hset with ⟨hrange, hset⟩ | ⟨hrange, ⟨hvalue, hset⟩ | ⟨hvalue, next, hset⟩⟩
    · rw [hset]
      exact ⟨iff_of_true ⟨_, rfl⟩ (.inr (.inr ⟨declared, rfl, hsame ▸ hrange⟩)),
        fun fault hfault => by cases hfault; exact ⟨rfl, rfl⟩⟩
    · rw [hset]
      exact ⟨iff_of_true ⟨_, rfl⟩ (.inr (.inl hvalue)),
        fun fault hfault => by cases hfault; exact ⟨rfl, rfl⟩⟩
    · rw [hset]
      refine ⟨iff_of_false ?_ ?_, fun fault hfault => by cases hfault⟩
      · rintro ⟨fault, hfault⟩
        cases hfault
      · rintro (hnone | hnone | ⟨other, hother, houtside⟩)
        · cases hnone
        · rw [hnone] at hvalue
          cases hvalue
        · cases hother
          exact hrange (hsame ▸ houtside)

/-- Reading a level is refused for its name only. -/
theorem Tended.get_refused_iff (name : String) (bit : Int) (fault : Fault) :
    (sim.perform (.get name bit)).2 = .error fault ↔
      name ∉ program.wires.map (·.name) ∧ fault = .unknownWire name := by
  have hnow := hnumbered.of_shape h.shape_eq
  have hwidth := h.width_last hbuilt name
  rw [Simulator.perform, ← find?_reverse_eq_none_iff]
  rcases hnow.wireFor_cases name with ⟨hfind, hwire⟩ | ⟨place, wire, hfind, hwire⟩
  · have hfault : sim.getWire name bit = .error (.unknownWire name) := by
      rw [getWire, hwire]
      rfl
    rw [hfind, Option.map_none] at hwidth
    rw [hfault, Option.map_eq_none_iff.1 hwidth.symm]
    exact ⟨fun heq => ⟨rfl, (Except.error.inj heq).symm⟩, fun heq => congrArg _ heq.2.symm⟩
  · have hwire' : sim.circuit.wires[place]? = some wire := wireFor_eq_ok hwire
    obtain ⟨level, hlevel⟩ : ∃ level, sim.getWire name bit = .ok level := by
      rw [getWire, hwire]
      dsimp only [bind, Except.bind]
      by_cases hrange : bit < 0 ∨ wire.width ≤ bit
      · rw [if_pos hrange]
        exact ⟨_, rfl⟩
      · have hlength : bit.toNat < wire.state.length := by
          have := (hnow place wire hwire').width_eq
          omega
        obtain ⟨level, hcode⟩ := h.intact.wires wire (List.mem_of_getElem? hwire')
          wire.state[bit.toNat] (List.getElem_mem hlength)
        rw [if_neg hrange, List.getElem?_eq_getElem hlength, hcode]
        exact ⟨level, levelOf_code level⟩
    rw [hfind, Option.map_some] at hwidth
    obtain ⟨declared, hdeclared, -⟩ := Option.map_eq_some_iff.1 hwidth.symm
    rw [hlevel, hdeclared]
    constructor
    · intro hfault
      cases hfault
    · rintro ⟨hnone, -⟩
      cases hnone

end

/-- Propagations, clock pulses and what is made of them are never refused. -/
theorem Intact.exists_ok {sim : Simulator} (h : sim.Intact) {action : Action}
    (haction : action ∈ [Action.propagate, .settle, .clock, .step, .snapshot] ∨
      ∃ count, action = .run count) : ∃ answer, (sim.perform action).2 = .ok answer := by
  have hreported : ∀ {action : Action}, action.Reports →
      ∃ answer, (sim.perform action).2 = .ok answer := by
    intro action hreports
    obtain ⟨next, report, -, hperform, -⟩ := h.report hreports
    rw [hperform]
    exact ⟨_, rfl⟩
  cases action with
  | propagate =>
    obtain ⟨next, rounds, hpropagate, -⟩ := h.propagate
    rw [Simulator.perform, hpropagate]
    exact ⟨_, rfl⟩
  | clock =>
    obtain ⟨next, hclock, -⟩ := h.clock
    rw [Simulator.perform, hclock]
    exact ⟨_, rfl⟩
  | settle | step | run => exact hreported trivial
  | snapshot => exact ⟨_, rfl⟩
  | set | get | evaluate => simp at haction

/-- A built program under any session and any cap. Every wire keeps its number, name, flags and
width, and has as many bits as its width, each with a level; every gate keeps its number, name, kind
and ports, and stores a level if and only if it is a flip-flop. The cycle is the number of the clock
pulses that the session comes down to. Setting an input is refused, with a wording, if and only if
its name is not declared, its bit is not one of the last wire of that name, or its value is no
level; reading a level if and only if its name is not declared; either way the simulator stays as it
is. Propagations, clock pulses, steps, runs and snapshots are never refused. -/
theorem session_of_program {program : Hdl.Program} {circuit : Circuit}
    (h : Circuit.ofProgram program = .ok circuit) (cap : Int) (actions : List Action) :
    let start : Simulator := { circuit, cap }
    let sim := start.performAll actions
    List.Forall₂ Wire.Keeps circuit.wires sim.circuit.wires ∧
    List.Forall₂ Gate.Keeps circuit.gates sim.circuit.gates ∧
    (start.performAll (start.strokes actions) = sim ∧
      (∀ action ∈ start.strokes actions, action.IsStroke) ∧
      sim.circuit.cycle = (start.strokes actions).count .clock) ∧
    (∀ name value bit,
      ((∃ fault, (sim.perform (.set name value bit)).2 = .error fault) ↔
        name ∉ program.wires.map (·.name) ∨ Signal.ofJson? value = none ∨
          ∃ wire, program.wires.reverse.find? (·.name = name) = some wire ∧
            (bit < 0 ∨ wire.width ≤ bit)) ∧
      ∀ fault, (sim.perform (.set name value bit)).2 = .error fault →
        fault.message?.isSome = true ∧ (sim.perform (.set name value bit)).1 = sim) ∧
    (∀ name bit, (sim.perform (.get name bit)).1 = sim ∧
      ∀ fault, (sim.perform (.get name bit)).2 = .error fault ↔
        name ∉ program.wires.map (·.name) ∧ fault = .unknownWire name) ∧
    ∀ action, (action ∈ [Action.propagate, .settle, .clock, .step, .snapshot] ∨
        ∃ count, action = .run count) → ∃ answer, (sim.perform action).2 = .ok answer := by
  intro start sim
  have hbuilt := Circuit.builtFrom_ofProgram h
  have hnumbered := Circuit.numbered_ofProgram h
  have htidy := tidy_ofProgram h
  have hintact : start.Intact := Circuit.intact_ofProgram h cap
  have hstart : start.Tended circuit 0 :=
    ⟨hintact, rfl, List.forall₂_same.2 (fun gate hgate =>
      ⟨rfl, (htidy gate hgate).1, hintact.gates gate hgate⟩), hbuilt.cycle_eq⟩
  have hstrokes := isStroke_strokes start actions
  have hsame : start.performAll (start.strokes actions) = sim := hintact.performAll_strokes actions
  have htended := hstart.performAll htidy hstrokes
  rw [hsame, Nat.zero_add] at htended
  exact ⟨htended.wires hnumbered, htended.gates, ⟨hsame, hstrokes, htended.cycle_eq⟩,
    htended.set_refused hbuilt hnumbered,
    fun name bit => ⟨rfl, htended.get_refused_iff hbuilt hnumbered name bit⟩,
    fun action => htended.intact.exists_ok⟩

/-- Wires of one name, a gate without inputs, and a flip-flop with a bit that its wire does not
have: it stores the unknown level from the first pulse on. The last wire of the name has the bit
that the first one lacks. -/
theorem session_of_twoNamed :
    let program : Hdl.Program := {
      wires := [{ name := "a", width := 2, isInput := true }, { name := "q", isOutput := true },
        { name := "a", width := 3 }]
      gates := [{ kind := "dFf", name := "cell", inputs := [⟨"a", 7⟩], outputs := [⟨"q", 0⟩] },
        { kind := "nand", name := "bare", inputs := [], outputs := [⟨"a", 1⟩] }] }
    let circuit : Circuit := {
      wires := [{ id := 0, name := "a", width := 2, isInput := true, state := [0, 0] },
        { id := 1, name := "q", width := 1, isOutput := true, state := [0] },
        { id := 2, name := "a", width := 3, state := [0, 0, 0] }]
      gates := [{ id := 0, name := "cell", kind := "DFF", inputs := [⟨2, 7⟩], outputs := [⟨1, 0⟩]
                  stored := some 0 },
        { id := 1, name := "bare", kind := "NAND", outputs := [⟨2, 1⟩] }] }
    let sim := Simulator.performAll { circuit, cap := 4 }
      [.set "a" (.int 1) 2, .set "a" (.int 1) 3, .run 2, .get "b" 0, .clock]
    Circuit.ofProgram program = .ok circuit ∧
      sim.circuit.wires.map (·.state) = [[0, 0], [2], [0, 2, 1]] ∧
      List.Forall₂ Wire.Keeps circuit.wires sim.circuit.wires ∧
      List.Forall₂ Gate.Keeps circuit.gates sim.circuit.gates ∧ sim.circuit.cycle = 3 ∧
      (∃ fault, (sim.perform (.set "a" (.int 1) 3)).2 = .error fault) ∧
      (sim.perform (.get "b" 0)).2 = .error (.unknownWire "b") ∧
      ∃ answer, (sim.perform (.run 5)).2 = .ok answer := by
  intro program circuit sim
  have hbuilt : Circuit.ofProgram program = .ok circuit := by decide +kernel
  have hsim : sim = performAll { circuit, cap := 4 }
      [.set "a" (.int 1) 2, .set "a" (.int 1) 3, .run 2, .get "b" 0, .clock] := rfl
  obtain ⟨hwires, hgates, ⟨-, -, hcycle⟩, hset, hget, hrest⟩ := session_of_program hbuilt 4
    [.set "a" (.int 1) 2, .set "a" (.int 1) 3, .run 2, .get "b" 0, .clock]
  have hpulses : (strokes { circuit, cap := 4 } [.set "a" (.int 1) 2, .set "a" (.int 1) 3, .run 2,
      .get "b" 0, .clock]).count .clock = 3 := by
    decide +kernel
  have hstates : sim.circuit.wires.map (·.state) = [[0, 0], [2], [0, 2, 1]] := by decide +kernel
  -- The session stays folded: compared with the one in the general theorem it would be run.
  rw [hpulses, ← hsim] at hcycle
  rw [← hsim] at hwires hgates
  simp only [← hsim] at hset hget hrest
  clear_value sim
  refine ⟨hbuilt, hstates, hwires, hgates, hcycle, ?_, ?_, hrest _ (.inr ⟨5, rfl⟩)⟩
  · exact (hset "a" (.int 1) 3).1.2
      (.inr (.inr ⟨{ name := "a", width := 3 }, by decide +kernel, by decide⟩))
  · exact ((hget "b" 0).2 _).2 ⟨by decide +kernel, rfl⟩

end Simulator

end Switchyard.Logic
