import Switchyard.Proofs.Logic.Acyclic

/-!
# Clocking synchronous circuits

A clock pulse on coded wires goes through the gates one by one (`Simulator.capture_eq`) and makes
each flip-flop store what its first input carries on these wires (`Gate.captured`). So all of them
capture at once, and as nothing else of a gate changes, drivers (`driver?_map_captured`) and feeds
(`feeds_captured`) stay as they are. A step of a synchronous circuit settles the logic for what the
flip-flops store, lets them capture that state, and settles it again for what they then store
(`Simulator.Synchronous.step_eq`). Setting inputs and steps keep a circuit synchronous
(`Simulator.Clocked.synchronous`).
-/

namespace Switchyard.Logic

/-! ## Clock pulses -/

/-- What a flip-flop takes from a bit: its code, and that of the unknown level if there is no such
bit. -/
def sampled (wires : List Wire) (p : Port) : Int :=
  (codeAt? wires p).getD Signal.unknown.code

/-- The gate after a clock pulse: a flip-flop with an input stores what it takes from the first. -/
def Gate.captured (wires : List Wire) (gate : Gate) : Gate :=
  match GateKind.ofLabel? gate.kind, gate.inputs with
  | some .dff, p :: _ => { gate with stored := some (sampled wires p) }
  | _, _ => gate

section
variable {wires : List Wire}

/-- Every bit that is read of coded wires has a level, and it is the sampled code. -/
theorem Coded.read_eq (h : Coded wires) (p : Port) :
    ∃ level : Signal, read wires p = .ok level ∧ level.code = Logic.sampled wires p := by
  unfold read Logic.sampled
  cases hcode : codeAt? wires p with
  | none => exact ⟨.unknown, rfl, rfl⟩
  | some code =>
    obtain ⟨level, rfl⟩ := h.isCode hcode
    exact ⟨level, levelOf_code level, rfl⟩

/-- A sampled bit of coded wires holds a code. -/
theorem Coded.sampled (h : Coded wires) (p : Port) : IsCode (sampled wires p) := by
  obtain ⟨level, -, hcode⟩ := h.read_eq p
  exact ⟨level, hcode.symm⟩

/-- A flip-flop captures what is sampled at its first input. -/
theorem Gate.captured_of_flipFlop {gate : Gate} {p : Port} {inputs : List Port}
    (hkind : GateKind.ofLabel? gate.kind = some .dff) (hinputs : gate.inputs = p :: inputs) :
    gate.captured wires = { gate with stored := some (Logic.sampled wires p) } := by
  rw [captured, hkind, hinputs]

/-- No other gate captures anything. -/
theorem Gate.captured_of_ne {gate : Gate} (h : GateKind.ofLabel? gate.kind ≠ some .dff) :
    gate.captured wires = gate := by
  unfold captured
  split
  · next hkind _ => exact absurd hkind h
  · rfl

/-- A clock pulse on coded wires: every flip-flop captures what the wires carry. -/
theorem Simulator.capture_eq (h : Coded wires) :
    ∀ gates, capture wires gates = (gates.map (Gate.captured wires), .ok ())
  | [] => rfl
  | gate :: gates => by
    rw [capture, capture_eq h gates, List.map_cons]
    by_cases hkind : GateKind.ofLabel? gate.kind = some .dff
    · rw [if_pos hkind]
      cases hinputs : gate.inputs with
      | nil => rw [Gate.captured, hkind, hinputs]
      | cons p inputs =>
        obtain ⟨level, hlevel, hcode⟩ := h.read_eq p
        rw [Gate.captured_of_flipFlop hkind hinputs]
        dsimp only
        rw [hlevel, ← hcode, hinputs]
    · rw [if_neg hkind, Gate.captured_of_ne hkind]

end

section
variable (wires : List Wire) (gate : Gate)

@[simp] theorem Gate.captured_kind : (gate.captured wires).kind = gate.kind := by
  unfold captured
  split <;> rfl

@[simp] theorem Gate.captured_inputs : (gate.captured wires).inputs = gate.inputs := by
  unfold captured
  split <;> rfl

@[simp] theorem Gate.captured_outputs : (gate.captured wires).outputs = gate.outputs := by
  unfold captured
  split <;> rfl

/-- Capturing keeps a gate coded. -/
theorem Gate.Coded.captured {wires : List Wire} {gate : Gate} (h : gate.Coded)
    (hwires : Logic.Coded wires) : (gate.captured wires).Coded := by
  unfold Gate.captured
  split
  · rintro code ⟨⟩
    exact hwires.sampled _
  · exact h

/-- Capturing keeps which gate drives a bit. -/
theorem driver?_map_captured (gates : List Gate) (p : Port) :
    driver? (gates.map (Gate.captured wires)) p =
      (driver? gates p).map (Gate.captured wires) := by
  have hsame : (fun gate : Gate => decide (p ∈ gate.outputs)) ∘ Gate.captured wires =
      fun gate => decide (p ∈ gate.outputs) := by
    funext gate
    rw [Function.comp_apply, Gate.captured_outputs]
  rw [driver?, driver?, ← List.map_reverse, List.find?_map, hsame]

/-- Which bits feed which does not depend on what the flip-flops store. -/
theorem feeds_captured (gates : List Gate) (settled : List Wire) :
    Feeds (gates.map (Gate.captured settled)) wires = Feeds gates wires := by
  funext p q
  simp [Feeds, driver?_map_captured]

end

/-! ## Synchronous circuits -/

/-- The wires come to rest in this state and in no other one. -/
def OnlySolution (gates : List Gate) (before after : List Wire) : Prop :=
  Solution gates before after ∧ ∀ other, Solution gates before other → other = after

namespace Simulator

/-- A simulator that has not failed, of a circuit without latches whose logic is acyclic between
flip-flops, with all codes those of levels and a cap above the number of gates. -/
structure Synchronous (sim : Simulator) : Prop where
  wires_coded : Coded sim.circuit.wires
  gates_coded : ∀ gate ∈ sim.circuit.gates, gate.Coded
  no_latch : ∀ gate ∈ sim.circuit.gates, GateKind.ofLabel? gate.kind ≠ some .latch
  acyclic : Acyclic sim.circuit.gates sim.circuit.wires
  cap_gt : (sim.circuit.gates.length : Int) + 1 ≤ sim.cap
  running : sim.failed = false

namespace Synchronous

variable {sim next : Simulator} (h : sim.Synchronous)
include h

/-- Wires of the same shape with other codes on them. -/
theorem of_wires (hgates : next.circuit.gates = sim.circuit.gates)
    (hshape : shape next.circuit.wires = shape sim.circuit.wires)
    (hcoded : Coded next.circuit.wires) (hcap : next.cap = sim.cap)
    (hfailed : next.failed = sim.failed) : next.Synchronous where
  wires_coded := hcoded
  gates_coded := hgates ▸ h.gates_coded
  no_latch := hgates ▸ h.no_latch
  acyclic := hgates ▸ h.acyclic.of_shape hshape.symm
  cap_gt := by rw [hgates, hcap]; exact h.cap_gt
  running := hfailed.trans h.running

/-- Flip-flops that have captured codes. -/
theorem of_captured {settled : List Wire} (hsettled : Coded settled)
    (hgates : next.circuit.gates = sim.circuit.gates.map (Gate.captured settled))
    (hwires : next.circuit.wires = sim.circuit.wires) (hcap : next.cap = sim.cap)
    (hfailed : next.failed = sim.failed) : next.Synchronous where
  wires_coded := hwires ▸ h.wires_coded
  gates_coded := by
    rw [hgates, List.forall_mem_map]
    exact fun gate hgate => (h.gates_coded gate hgate).captured hsettled
  no_latch := by
    rw [hgates, List.forall_mem_map]
    intro gate hgate
    rw [Gate.captured_kind]
    exact h.no_latch gate hgate
  acyclic := by
    rw [Acyclic, hgates, hwires, feeds_captured]
    exact h.acyclic
  cap_gt := by rw [hgates, List.length_map, hcap]; exact h.cap_gt
  running := hfailed.trans h.running

/-- Propagation leaves the wires in the only state they can come to rest in. -/
theorem propagate_eq : ∃ (final : List Wire) (rounds : Nat),
    sim.propagate = ({ sim with circuit := { sim.circuit with wires := final, stable := true } },
      .ok rounds) ∧
    OnlySolution sim.circuit.gates sim.circuit.wires final := by
  have hcap := h.cap_gt
  obtain ⟨final, rounds, hsettle, -, hsolution⟩ := settle_acyclic h.gates_coded h.no_latch
    h.wires_coded h.acyclic (show sim.circuit.gates.length < sim.cap.toNat by omega)
  exact ⟨final, rounds, sim.propagate_of_settle hsettle, hsolution, fun other hother =>
    hother.unique h.no_latch h.acyclic h.wires_coded hsolution⟩

/-- A solution for what the flip-flops store after they have captured another one is a solution for
the bits without drivers as they were before. -/
theorem onlySolution_captured {settled final : List Wire}
    (hsettled : Solution sim.circuit.gates sim.circuit.wires settled)
    (hfinal : Solution (sim.circuit.gates.map (Gate.captured settled)) settled final) :
    OnlySolution (sim.circuit.gates.map (Gate.captured settled)) sim.circuit.wires final := by
  have hclocked : Synchronous
      { sim with circuit.gates := sim.circuit.gates.map (Gate.captured settled) } :=
    h.of_captured (hsettled.coded h.wires_coded) rfl rfl rfl rfl
  have hsolution := hfinal.of_kept hsettled.shape_eq (fun p hp => by
    rw [driver?_map_captured, Option.map_eq_none_iff] at hp
    exact hsettled.kept p hp)
  exact ⟨hsolution, fun other hother =>
    hother.unique hclocked.no_latch hclocked.acyclic hclocked.wires_coded hsolution⟩

/-- A step: the wires come to rest, all flip-flops capture what they carry then, and the wires come
to rest for that. -/
theorem step_eq : ∃ (settled final : List Wire) (iterations : Int),
    sim.step = ({ sim with circuit := { sim.circuit with
        cycle := sim.circuit.cycle + 1
        stable := true
        wires := final
        gates := sim.circuit.gates.map (Gate.captured settled) } },
      .ok { stable := true, iterations, cycle := sim.circuit.cycle + 1, error := none
            capped := 0 }) ∧
    OnlySolution sim.circuit.gates sim.circuit.wires settled ∧
    OnlySolution (sim.circuit.gates.map (Gate.captured settled)) sim.circuit.wires final := by
  obtain ⟨settled, rounds, hsettle, hsettled⟩ := h.propagate_eq
  have hcoded := hsettled.1.coded h.wires_coded
  have hbefore : Synchronous
      { sim with circuit := { sim.circuit with wires := settled, stable := true } } :=
    h.of_wires rfl hsettled.1.shape_eq hcoded rfl rfl
  have hclocked : Synchronous { sim with circuit := {
      cycle := sim.circuit.cycle + 1
      stable := true
      wires := settled
      gates := sim.circuit.gates.map (Gate.captured settled) } } :=
    hbefore.of_captured hcoded rfl rfl rfl rfl
  obtain ⟨final, more, hresettle, hfinal⟩ := hclocked.propagate_eq
  refine ⟨settled, final, rounds + more, ?_, hsettled, h.onlySolution_captured hsettled.1 hfinal.1⟩
  rw [step, hsettle]
  dsimp only
  rw [clock]
  dsimp only
  rw [capture_eq hcoded]
  dsimp only
  rw [hresettle]
  dsimp only [report, error?, cappedOnce]
  rw [h.running]
  rfl

end Synchronous

/-! ## Setting inputs and stepping -/

/-- A session in two parts is the second part after the first. -/
theorem performAll_append (sim : Simulator) (first second : List Action) :
    sim.performAll (first ++ second) = (sim.performAll first).performAll second :=
  List.foldl_append

/-- The name and the number of a bit denote this bit: the wire of the name has it. -/
def Denotes (sim : Simulator) (name : String) (bit : Int) (p : Port) : Prop :=
  ∃ (place : Nat) (wire : Wire), sim.wireFor name = .ok (place, wire) ∧ bit < wire.width ∧
    p = ⟨place, bit⟩ ∧ (codeAt? sim.circuit.wires p).isSome = true

/-- A name denotes the wire at the place that the last wire of that name gives as its number. -/
theorem wireFor_eq_ok_iff {sim : Simulator} {name : String} {place : Nat} {wire : Wire} :
    sim.wireFor name = .ok (place, wire) ↔
      ∃ named, sim.circuit.wires.reverse.find? (·.name = name) = some named ∧
        place? sim.circuit.wires.length named.id = some place ∧
        sim.circuit.wires[place]? = some wire := by
  unfold wireFor
  cases sim.circuit.wires.reverse.find? (·.name = name) with
  | none => exact ⟨nofun, nofun⟩
  | some named =>
    dsimp only
    cases hplace : place? sim.circuit.wires.length named.id with
    | none =>
      refine ⟨nofun, ?_⟩
      rintro ⟨_, ⟨⟩, hother, -⟩
      rw [hplace] at hother
      cases hother
    | some found =>
      dsimp only
      cases hfound : sim.circuit.wires[found]? with
      | none =>
        refine ⟨nofun, ?_⟩
        rintro ⟨_, ⟨⟩, hother, hwire⟩
        rw [hplace] at hother
        cases hother
        rw [hfound] at hwire
        cases hwire
      | some other =>
        constructor
        · rintro ⟨⟩
          exact ⟨named, rfl, hplace, hfound⟩
        · rintro ⟨_, ⟨⟩, hother, hwire⟩
          rw [hplace] at hother
          cases hother
          rw [hfound] at hwire
          cases hwire
          rfl

/-- A wire found by name is the wire at the place it was found at. -/
theorem wireFor_eq_ok {sim : Simulator} {name : String} {place : Nat} {wire : Wire}
    (h : sim.wireFor name = .ok (place, wire)) : sim.circuit.wires[place]? = some wire := by
  obtain ⟨-, -, -, hwire⟩ := wireFor_eq_ok_iff.1 h
  exact hwire

/-- Setting an input is refused, or it sets the bit that the name and the number denote. -/
theorem setInput_cases (sim : Simulator) (name : String) (value : Json) (bit : Int) :
    (∃ fault, sim.setInput name value bit = .error fault) ∨
    ∃ p level, sim.Denotes name bit p ∧ Signal.ofJson? value = some level ∧
      sim.setInput name value bit = .ok (sim.withWires (write sim.circuit.wires p level)) := by
  unfold setInput
  cases hwire : sim.wireFor name with
  | error fault => exact .inl ⟨fault, rfl⟩
  | ok found =>
    obtain ⟨place, wire⟩ := found
    dsimp only [bind, Except.bind]
    split
    · exact .inl ⟨_, rfl⟩
    · next hrange =>
      rw [not_or, Int.not_lt, Int.not_le] at hrange
      dsimp only [pure, Except.pure]
      split
      · exact .inl ⟨_, rfl⟩
      · next level hlevel =>
        split
        · next hlength =>
          have hplace : 0 ≤ (place : Int) ∧ 0 ≤ bit := ⟨Int.natCast_nonneg _, hrange.1⟩
          refine .inr ⟨⟨place, bit⟩, level, ⟨place, wire, hwire, hrange.2, rfl, ?_⟩, hlevel, ?_⟩
          · rw [codeAt?, if_pos hplace, Int.toNat_natCast, wireFor_eq_ok hwire, Option.bind_some,
              List.getElem?_eq_getElem hlength]
            rfl
          · rw [write, if_pos hplace, Int.toNat_natCast]
        · exact .inl ⟨_, rfl⟩

section
variable {sim next : Simulator} {name : String} {bit : Int} {p : Port}

/-- What a name denotes does not depend on the levels. -/
theorem wireFor_of_shape (hshape : shape next.circuit.wires = shape sim.circuit.wires)
    {place : Nat} {wire : Wire} (h : sim.wireFor name = .ok (place, wire)) :
    ∃ wire', next.wireFor name = .ok (place, wire') ∧ wire'.shape = wire.shape := by
  have hfind : ∀ wires : List Wire, (shape wires).reverse.find? (·.name = name) =
      (wires.reverse.find? (·.name = name)).map Wire.shape := by
    intro wires
    rw [shape, ← List.map_reverse, List.find?_map]
    rfl
  obtain ⟨named, hnamed, hplace, hwire⟩ := wireFor_eq_ok_iff.1 h
  have hnext := hfind next.circuit.wires
  rw [hshape, hfind, hnamed, Option.map_some] at hnext
  obtain ⟨named', hnamed', hsame⟩ := Option.map_eq_some_iff.1 hnext.symm
  have hid : named'.shape.id = named.shape.id := by rw [hsame]
  have hlength : next.circuit.wires.length = sim.circuit.wires.length := by
    simpa [shape] using congrArg List.length hshape
  have hat := getElem?_of_shape hshape place
  rw [hwire, Option.map_some] at hat
  obtain ⟨wire', hwire', hsame'⟩ := Option.map_eq_some_iff.1 hat
  refine ⟨wire', wireFor_eq_ok_iff.2 ⟨named', hnamed', ?_, hwire'⟩, hsame'⟩
  rw [hlength, ← hplace]
  exact congrArg _ hid

/-- A name denotes the same bit in wires of the same shape. -/
theorem Denotes.of_shape (h : sim.Denotes name bit p)
    (hshape : shape next.circuit.wires = shape sim.circuit.wires) : next.Denotes name bit p := by
  obtain ⟨place, wire, hwire, hlt, hp, hin⟩ := h
  obtain ⟨wire', hwire', hsame⟩ := wireFor_of_shape hshape hwire
  have hwidth : wire'.shape.width = wire.shape.width := by rw [hsame]
  rw [← isSome_codeAt?_of_shape hshape] at hin
  exact ⟨place, wire', hwire', hlt.trans_eq hwidth.symm, hp, hin⟩

/-- A denoted bit can be set to every level. -/
theorem Denotes.setInput_eq (h : sim.Denotes name bit p) {value : Json} {level : Signal}
    (hvalue : Signal.ofJson? value = some level) :
    sim.setInput name value bit = .ok (sim.withWires (write sim.circuit.wires p level)) := by
  obtain ⟨place, wire, hwire, hlt, rfl, hin⟩ := h
  have hat := wireFor_eq_ok hwire
  unfold codeAt? at hin
  split at hin
  · next hplace =>
    have hlength : bit.toNat < wire.state.length := by simpa [hat] using hin
    rw [write, if_pos hplace, Int.toNat_natCast, setInput, hwire, hvalue]
    dsimp only [bind, Except.bind]
    rw [if_neg (not_or.2 ⟨Int.not_lt.2 hplace.2, Int.not_le.2 hlt⟩)]
    dsimp only [pure, Except.pure]
    rw [if_pos hlength]
  · cases hin

end

/-- The simulators that come from one by setting bits without drivers and by steps, in any order,
settings that are refused included. -/
inductive Clocked (start : Simulator) : Simulator → Prop
  | start : Clocked start start
  | set {sim : Simulator} {name : String} {value : Json} {bit : Int} : Clocked start sim →
      (∀ p, sim.Denotes name bit p → driver? sim.circuit.gates p = none) →
      Clocked start (sim.perform (.set name value bit)).1
  | step {sim : Simulator} : Clocked start sim → Clocked start (sim.perform .step).1

namespace Synchronous

variable {sim : Simulator} (h : sim.Synchronous)
include h

/-- Setting an input is synchronous: it captures nothing and keeps the cycle. -/
theorem perform_set (name : String) (value : Json) (bit : Int) :
    (sim.perform (.set name value bit)).1.Synchronous := by
  rw [perform]
  rcases sim.setInput_cases name value bit with ⟨fault, hset⟩ | ⟨p, level, -, -, hset⟩
  · rw [hset]
    exact h
  · rw [hset]
    exact h.of_wires rfl (shape_write _ p level) (h.wires_coded.write p level) rfl rfl

/-- A step is synchronous, whatever it started from. -/
theorem perform_step : (sim.perform .step).1.Synchronous := by
  obtain ⟨settled, final, iterations, hstep, hsettled, hfinal⟩ := h.step_eq
  rw [perform, hstep]
  have hcaptured : Synchronous
      { sim with circuit.gates := sim.circuit.gates.map (Gate.captured settled) } :=
    h.of_captured (hsettled.1.coded h.wires_coded) rfl rfl rfl rfl
  exact hcaptured.of_wires rfl hfinal.1.shape_eq (hfinal.1.coded h.wires_coded) rfl rfl

end Synchronous

/-- Along every clocked history a simulator stays one whose steps are synchronous. -/
theorem Clocked.synchronous {start sim : Simulator} (h : start.Clocked sim)
    (hstart : start.Synchronous) : sim.Synchronous := by
  induction h with
  | start => exact hstart
  | set _ _ ih => exact ih.perform_set _ _ _
  | step _ ih => exact ih.perform_step

end Simulator

end Switchyard.Logic
