import Switchyard.Proofs.Logic.Clocking

/-!
# Synchronous circuits and shift registers

In a chain of flip-flops each one reads the output of the one before (`Chain`), and the wires at
rest carry at every output what the flip-flop stores (`Chain.codeAt?_eq`). As all capture at once, a
step moves what is stored on by one place (`Chain.held_captured`). A circuit keeps its chains under
steps and settings of inputs (`Chain.of_alike`), so that a chain shifts in whatever is fed to its
first bit (`Simulator.ShiftRegister.feed_all`).
-/

namespace Switchyard.Logic

/-! ## Chains of flip-flops -/

/-- What the driver of a bit stores, the code of the unknown level if it stores nothing. -/
def held (gates : List Gate) (q : Port) : Int :=
  ((driver? gates q).bind (·.stored)).getD Signal.unknown.code

/-- The bits are put out by flip-flops, of which the first reads the given bit and every other one
that of the flip-flop before it. -/
inductive Chain (circuit : Circuit) : Port → List Port → Prop
  | nil (p : Port) : Chain circuit p []
  | cons {p q : Port} {qs : List Port} {gate : Gate} :
      (codeAt? circuit.wires q).isSome = true → driver? circuit.gates q = some gate →
      GateKind.ofLabel? gate.kind = some .dff → gate.inputs.head? = some p →
      Chain circuit q qs → Chain circuit p (q :: qs)

/-- A flip-flop with an input puts out what it stores. -/
theorem evaluate_flipFlop_held {gates : List Gate} {wires : List Wire} {gate : Gate} {p q : Port}
    (hwires : Coded wires) (hgate : gate.Coded) (hdriver : driver? gates q = some gate)
    (hkind : GateKind.ofLabel? gate.kind = some .dff) (hinput : gate.inputs.head? = some p) :
    ∃ level : Signal, evaluate wires gate = .ok level ∧ level.code = held gates q := by
  obtain ⟨inputs, hinputs⟩ := List.head?_eq_some_iff.1 hinput
  rw [evaluate_eq_storedLevel hwires hkind, hinputs, held, hdriver, Option.bind_some]
  unfold storedLevel
  cases hstored : gate.stored with
  | none => exact ⟨.unknown, rfl, rfl⟩
  | some code =>
    obtain ⟨level, rfl⟩ := hgate code hstored
    exact ⟨level, levelOf_code level, rfl⟩

namespace Chain

variable {circuit next : Circuit} {p : Port} {qs : List Port} (h : Chain circuit p qs)
include h

/-- A chain stays one when other levels are on the wires and in the flip-flops. -/
theorem of_alike (hshape : shape next.wires = shape circuit.wires)
    (hdrivers : ∀ q gate, driver? circuit.gates q = some gate → ∃ gate',
      driver? next.gates q = some gate' ∧ gate'.kind = gate.kind ∧ gate'.inputs = gate.inputs) :
    Chain next p qs := by
  induction h with
  | nil p => exact .nil p
  | cons hin hdriver hkind hinput _ ih =>
    obtain ⟨gate', hdriver', hkind', hinputs'⟩ := hdrivers _ _ hdriver
    rw [← hkind'] at hkind
    rw [← hinputs'] at hinput
    rw [← isSome_codeAt?_of_shape hshape] at hin
    exact .cons hin hdriver' hkind hinput ih

/-- At rest the wires carry at the outputs of a chain what its flip-flops store. -/
theorem codeAt?_eq (hgates : ∀ gate ∈ circuit.gates, gate.Coded) (hwires : Coded circuit.wires)
    {settled : List Wire} (hsettled : Solution circuit.gates circuit.wires settled) :
    ∀ q ∈ qs, codeAt? settled q = some (held circuit.gates q) := by
  induction h with
  | nil p => nofun
  | cons hin hdriver hkind hinput _ ih =>
    refine List.forall_mem_cons.2 ⟨?_, ih⟩
    obtain ⟨level, hlevel, hcode⟩ := evaluate_flipFlop_held (hsettled.coded hwires)
      (hgates _ (mem_of_driver? hdriver)) hdriver hkind hinput
    obtain ⟨level', hlevel', hcode'⟩ := hsettled.driven _ _ hdriver hin
    rw [hlevel, Except.ok.injEq] at hlevel'
    rw [hcode', ← hlevel', hcode]

/-- A clock pulse moves what the flip-flops of a chain store on by one place. -/
theorem held_captured {settled : List Wire}
    (hcarried : ∀ q ∈ qs, codeAt? settled q = some (held circuit.gates q)) :
    qs.map (held (circuit.gates.map (Gate.captured settled))) =
      (sampled settled p :: qs.map (held circuit.gates)).take qs.length := by
  induction h with
  | nil p => rfl
  | @cons p q qs gate _ hdriver hkind hinput _ ih =>
    obtain ⟨hq, hqs⟩ := List.forall_mem_cons.1 hcarried
    obtain ⟨inputs, hinputs⟩ := List.head?_eq_some_iff.1 hinput
    have hfirst : held (circuit.gates.map (Gate.captured settled)) q = sampled settled p := by
      rw [held, driver?_map_captured, hdriver, Option.map_some,
        Gate.captured_of_flipFlop hkind hinputs]
      rfl
    have hsecond : sampled settled q = held circuit.gates q := by
      rw [sampled, hq, Option.getD_some]
    rw [List.map_cons, hfirst, ih hqs, hsecond, List.length_cons, List.take_succ_cons,
      List.map_cons]

end Chain

namespace Simulator

/-! ## Feeding a chain -/

/-- The operations that set a bit to one level after the other, each time followed by a step. -/
def feeding (name : String) (bit : Int) (levels : List Signal) : List Action :=
  levels.flatMap (fun level => [.set name (.int level.code) bit, .step])

/-- A chain whose first flip-flop reads an input: the denoted bit, which has no driver. -/
structure ShiftRegister (sim : Simulator) (name : String) (bit : Int) (p : Port)
    (stages : List Port) : Prop where
  input : sim.Denotes name bit p
  undriven : driver? sim.circuit.gates p = none
  chain : Chain sim.circuit p stages

section
variable {sim next : Simulator} {name : String} {bit : Int} {p : Port} {stages : List Port}

/-- A shift register is one in wires of the same shape. -/
theorem ShiftRegister.of_wires (h : sim.ShiftRegister name bit p stages)
    (hgates : next.circuit.gates = sim.circuit.gates)
    (hshape : shape next.circuit.wires = shape sim.circuit.wires) :
    next.ShiftRegister name bit p stages where
  input := h.input.of_shape hshape
  undriven := hgates ▸ h.undriven
  chain := h.chain.of_alike hshape (fun _ gate hgate => ⟨gate, hgates ▸ hgate, rfl, rfl⟩)

/-- A shift register is one after its gates have captured. -/
theorem ShiftRegister.of_captured (h : sim.ShiftRegister name bit p stages) {settled : List Wire}
    (hgates : next.circuit.gates = sim.circuit.gates.map (Gate.captured settled))
    (hwires : next.circuit.wires = sim.circuit.wires) :
    next.ShiftRegister name bit p stages where
  input := h.input.of_shape (by rw [hwires])
  undriven := by rw [hgates, driver?_map_captured, h.undriven, Option.map_none]
  chain := h.chain.of_alike (by rw [hwires]) (fun q gate hgate => ⟨gate.captured settled,
    by rw [hgates, driver?_map_captured, hgate, Option.map_some], by simp, by simp⟩)

/-- Setting the input of a shift register puts the level on its bit and leaves what is stored. -/
theorem ShiftRegister.perform_set (h : sim.ShiftRegister name bit p stages) (level : Signal) :
    ∃ after, (sim.perform (.set name (.int level.code) bit)).1 = after ∧
      after.ShiftRegister name bit p stages ∧ after.circuit.gates = sim.circuit.gates ∧
      codeAt? after.circuit.wires p = some level.code := by
  refine ⟨sim.withWires (write sim.circuit.wires p level), ?_, ?_, rfl, ?_⟩
  · rw [perform, h.input.setInput_eq ((Signal.ofJson?_int _).trans (Signal.ofCode?_code level))]
  · exact h.of_wires rfl (shape_write _ p level)
  · obtain ⟨-, -, -, -, -, hin⟩ := h.input
    obtain ⟨code, hcode⟩ := Option.isSome_iff_exists.1 hin
    rw [withWires, codeAt?_write, if_pos rfl, hcode, Option.map_some]

/-- A step takes the input of a shift register in at the first stage and moves what was stored on by
one stage, where the wires carry it. -/
theorem ShiftRegister.perform_step (h : sim.ShiftRegister name bit p stages)
    (hsim : sim.Synchronous) {code : Int} (hcode : codeAt? sim.circuit.wires p = some code) :
    ∃ after, (sim.perform .step).1 = after ∧ after.ShiftRegister name bit p stages ∧
      stages.map (held after.circuit.gates) =
        (code :: stages.map (held sim.circuit.gates)).take stages.length ∧
      ∀ q ∈ stages, codeAt? after.circuit.wires q = some (held after.circuit.gates q) := by
  obtain ⟨settled, final, iterations, hstep, hsettled, hfinal⟩ := hsim.step_eq
  have hinput : sampled settled p = code := by
    rw [sampled, hsettled.1.kept p h.undriven, hcode, Option.getD_some]
  -- the flip-flops have captured, the wires have not yet followed
  have hcaptured : ShiftRegister
      { sim with circuit.gates := sim.circuit.gates.map (Gate.captured settled) } name bit p
      stages := h.of_captured rfl rfl
  have hcodes : Synchronous
      { sim with circuit.gates := sim.circuit.gates.map (Gate.captured settled) } :=
    hsim.of_captured (hsettled.1.coded hsim.wires_coded) rfl rfl rfl rfl
  refine ⟨sim.step.1, rfl, ?_, ?_, ?_⟩
  · rw [hstep]
    exact hcaptured.of_wires rfl hfinal.1.shape_eq
  · rw [hstep, ← hinput]
    exact h.chain.held_captured
      (h.chain.codeAt?_eq hsim.gates_coded hsim.wires_coded hsettled.1)
  · rw [hstep]
    exact hcaptured.chain.codeAt?_eq hcodes.gates_coded hcodes.wires_coded hfinal.1

/-- One level fed to a shift register moves into it. -/
theorem ShiftRegister.feed_one (h : sim.ShiftRegister name bit p stages)
    (hsim : sim.Synchronous) (level : Signal) :
    ∃ after, sim.performAll [.set name (.int level.code) bit, .step] = after ∧
      after.Synchronous ∧ after.ShiftRegister name bit p stages ∧
      stages.map (held after.circuit.gates) =
        (level.code :: stages.map (held sim.circuit.gates)).take stages.length ∧
      ∀ q ∈ stages, codeAt? after.circuit.wires q = some (held after.circuit.gates q) := by
  obtain ⟨set, hset, hregister, hgates, hcode⟩ := h.perform_set level
  have hready : set.Synchronous := hset ▸ hsim.perform_set name (.int level.code) bit
  obtain ⟨after, hafter, hregister', hheld, hcarried⟩ := hregister.perform_step hready hcode
  refine ⟨after, ?_, hafter ▸ hready.perform_step, hregister', hgates ▸ hheld, hcarried⟩
  rw [← hafter, ← hset]
  rfl

/-- Of a list with one more item in front only the first items count, as many as are taken. -/
theorem take_cons_take {α : Type} (x : α) (xs : List α) (n : Nat) :
    (x :: xs.take n).take n = (x :: xs).take n := by
  cases n with
  | zero => rfl
  | succ n =>
    rw [List.take_succ_cons, List.take_succ_cons, List.take_take, Nat.min_eq_left n.le_succ]

/-- A shift register holds the last levels that were fed to it, as many as it has stages and the
last one first, and behind them what it held before. -/
theorem ShiftRegister.feed_all (h : sim.ShiftRegister name bit p stages) (hsim : sim.Synchronous)
    (levels : List Signal) :
    ∃ after, sim.performAll (feeding name bit levels) = after ∧
      after.Synchronous ∧ after.ShiftRegister name bit p stages ∧
      stages.map (held after.circuit.gates) = ((levels.map Signal.code).reverse ++
        stages.map (held sim.circuit.gates)).take stages.length ∧
      (levels ≠ [] →
        ∀ q ∈ stages, codeAt? after.circuit.wires q = some (held after.circuit.gates q)) := by
  induction levels using List.reverseRecOn with
  | nil =>
    refine ⟨sim, rfl, hsim, h, ?_, fun hne => absurd rfl hne⟩
    rw [List.map_nil, List.reverse_nil, List.nil_append, List.take_of_length_le]
    rw [List.length_map]
  | append_singleton levels level ih =>
    obtain ⟨before, hbefore, hready, hregister, hheld, -⟩ := ih
    obtain ⟨after, hafter, hready', hregister', hheld', hcarried⟩ :=
      hregister.feed_one hready level
    refine ⟨after, ?_, hready', hregister', ?_, fun _ => hcarried⟩
    · rw [feeding, List.flatMap_append, performAll_append]
      change (sim.performAll (feeding name bit levels)).performAll _ = after
      rw [hbefore]
      exact hafter
    · rw [hheld', hheld, take_cons_take, List.map_append, List.reverse_append]
      rfl

/-- A synchronous circuit makes one transition of its machine with every step, after any settings of
bits without drivers and steps: all flip-flops take over at once what their inputs carry in the only
state that the wires can come to rest in, and the wires come to rest in the only state for what the
flip-flops store then; the cycle goes up by one, and the step is reported stable and without an
error. So levels fed to a chain of flip-flops shift through it. -/
theorem step_synchronous {start sim : Simulator} (hstart : start.Synchronous)
    (h : start.Clocked sim) :
    (∃ (settled final : List Wire) (iterations : Int),
      sim.step = ({ sim with circuit := { sim.circuit with
          cycle := sim.circuit.cycle + 1
          stable := true
          wires := final
          gates := sim.circuit.gates.map (Gate.captured settled) } },
        .ok { stable := true, iterations, cycle := sim.circuit.cycle + 1, error := none
              capped := 0 }) ∧
      OnlySolution sim.circuit.gates sim.circuit.wires settled ∧
      OnlySolution (sim.circuit.gates.map (Gate.captured settled)) sim.circuit.wires final) ∧
    ∀ name bit p stages, sim.ShiftRegister name bit p stages → ∀ levels,
      ∃ after, sim.performAll (feeding name bit levels) = after ∧
        stages.map (held after.circuit.gates) = ((levels.map Signal.code).reverse ++
          stages.map (held sim.circuit.gates)).take stages.length ∧
        (levels ≠ [] →
          ∀ q ∈ stages, codeAt? after.circuit.wires q = some (held after.circuit.gates q)) := by
  have hsim := h.synchronous hstart
  refine ⟨hsim.step_eq, fun name bit p stages hregister levels => ?_⟩
  obtain ⟨after, hafter, -, -, hheld, hcarried⟩ := hregister.feed_all hsim levels
  exact ⟨after, hafter, hheld, hcarried⟩

end

/-- Two flip-flops in a row, listed against the flow, and an inverter behind them. -/
def delayLine : Simulator where
  circuit := {
    wires := [{ id := 0, name := "d", width := 1, state := [0] },
      { id := 1, name := "q", width := 2, state := [2, 2] },
      { id := 2, name := "n", width := 1, state := [0] }]
    gates := [
      { id := 0, name := "out", kind := "NOT", inputs := [⟨1, 1⟩], outputs := [⟨2, 0⟩] },
      { id := 1, name := "second", kind := "DFF", inputs := [⟨1, 0⟩], outputs := [⟨1, 1⟩],
        stored := some 0 },
      { id := 2, name := "first", kind := "DFF", inputs := [⟨0, 0⟩], outputs := [⟨1, 0⟩],
        stored := some 0 }] }
  cap := 4

/-- After a high level in an earlier cycle, the line delays a low and a high one. -/
theorem step_delayLine :
    let sim := delayLine.performAll [.set "d" (.int 1) 0, .step]
    delayLine.Synchronous ∧ delayLine.Clocked sim ∧
      sim.ShiftRegister "d" 0 ⟨0, 0⟩ [⟨1, 0⟩, ⟨1, 1⟩] ∧
      sim.circuit.gates.map (·.stored) = [none, some 0, some 1] ∧
      (∃ report, sim.step.2 = .ok report ∧ report.stable = true ∧ report.cycle = 2 ∧
        report.error = none) ∧
      ∃ after, sim.performAll (feeding "d" 0 [.low, .high]) = after ∧
        codeAt? after.circuit.wires ⟨1, 0⟩ = some 1 ∧
        codeAt? after.circuit.wires ⟨1, 1⟩ = some 0 := by
  intro sim
  have hstart : delayLine.Synchronous := {
    wires_coded := by decide
    gates_coded := by decide
    no_latch := by decide +kernel
    acyclic := acyclic_of_rank (fun p => p.wire.toNat) (by decide +kernel) _
    cap_gt := by decide
    running := rfl }
  have hfree : ∀ p, delayLine.Denotes "d" 0 p → driver? delayLine.circuit.gates p = none := by
    rintro p ⟨place, wire, hwire, -, rfl, -⟩
    obtain ⟨found, hfound, hplace⟩ : ∃ found, delayLine.wireFor "d" = .ok found ∧
        found.1 = 0 := exists_of_toOption (by decide)
    cases hwire.symm.trans hfound
    rw [show place = 0 from hplace]
    decide
  have hclocked : delayLine.Clocked sim := .step (.set .start hfree)
  have hcycle : sim.circuit.cycle = 1 := by decide +kernel
  have hregister : sim.ShiftRegister "d" 0 ⟨0, 0⟩ [⟨1, 0⟩, ⟨1, 1⟩] := {
    input := ⟨0, _, rfl, by decide +kernel, rfl, by decide +kernel⟩
    undriven := by decide +kernel
    chain := .cons (by decide +kernel) rfl (by decide +kernel) (by decide +kernel)
      (.cons (by decide +kernel) rfl (by decide +kernel) (by decide +kernel) (.nil _)) }
  obtain ⟨⟨settled, final, iterations, hstep, -, -⟩, hshift⟩ := step_synchronous hstart hclocked
  obtain ⟨after, hafter, hheld, hcarried⟩ := hshift _ _ _ _ hregister [.low, .high]
  have hstored : [⟨1, 0⟩, ⟨1, 1⟩].map (held after.circuit.gates) = [1, 0] := by
    rw [hheld]
    decide +kernel
  have hfirst := hcarried (by decide) ⟨1, 0⟩ (by decide)
  have hsecond := hcarried (by decide) ⟨1, 1⟩ (by decide)
  rw [List.map_cons, List.map_cons, List.map_nil, List.cons.injEq, List.cons.injEq] at hstored
  refine ⟨hstart, hclocked, hregister, by decide +kernel, ⟨_, by rw [hstep], rfl, ?_, rfl⟩, after,
    hafter, hfirst.trans (congrArg some hstored.1), hsecond.trans (congrArg some hstored.2.1)⟩
  rw [hcycle]
  rfl

end Simulator

end Switchyard.Logic
