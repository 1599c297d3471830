import Switchyard.Proofs.Grading.Columns
import Switchyard.Proofs.Relay.Monotone

/-!
# Gates that need a relay closed at rest

With relays that are all open at rest, and wiring that no inputs contest, outputs can only rise when
the inputs do (`Answers.holds_mono`). So such a circuit computes no gate that falls somewhere: no
inverter, and no gate with an inverter in it.
-/

namespace Switchyard.Grading

open Relay

variable {arrays : Arrays} {circuit : Circuit} {cap : Int}

/-! ## What an output sees -/

/-- The terminal at which the component of a name reads its level: its input port. -/
def sinkTerminal? (circuit : Circuit) (id : Ident) : Option Terminal :=
  (circuit.components.find? (·.id == id)).bind (fun c =>
    (c.ports.find? (· == inPort)).map (⟨c.id, ·⟩))

/-- After a step a component sees the level at its terminal. -/
theorem seenBy_step {sim : Simulator} (h : sim.Loaded circuit) {result : StepResult}
    (hresult : (sim.step circuit).2 = .ok result) (id : Ident) :
    seenBy (sim.step circuit).1.states id =
      (sinkTerminal? circuit id).map (sim.step circuit).1.netlist.signalAt := by
  obtain ⟨hnetlist, hstates, -⟩ := Simulator.step_of_ok hresult
  obtain ⟨f, hf, htame⟩ :=
    (Scene.Lawful.settle h sim.inputs sim.cap.toNat Int.toNat_of_nonpos).states
  have hrounds : (sim.rounds circuit).1.states = States.of circuit.components f := hf
  rw [hstates, hrounds, ← hnetlist, readPorts_of_all circuit.distinctIds, seenBy, States.of,
    Assoc.get?_map, sinkTerminal?]
  cases hfound : circuit.components.find? (·.id == id) with
  | none => rfl
  | some c =>
    have hports := (htame c (List.mem_of_find?_eq_some hfound)).ports
    rw [Option.map_some, Option.bind_some, Option.bind_some, ComponentState.readPorts_eq hports]
    dsimp only
    rw [Assoc.get?_map (fun port => port), Option.map_map]
    rfl

/-- An output that is high after one step is high after another one that has all terminals high
that the first has. -/
theorem getOutput_high {a b : Bench} (ha : a.Holds circuit cap) (hb : b.Holds circuit cap)
    {resultA resultB : StepResult} (hresultA : a.step.2 = .ok resultA)
    (hresultB : b.step.2 = .ok resultB)
    (hterminals : ∀ t, a.step.1.sim.netlist.signalAt t = .high →
      b.step.1.sim.netlist.signalAt t = .high)
    {id : Ident} (h : a.step.1.getOutput id = .ok .high) :
    b.step.1.getOutput id = .ok .high := by
  rw [ha.step_eq] at hresultA hterminals h
  rw [hb.step_eq] at hresultB hterminals ⊢
  have hseen : ∀ component,
      (seenBy (a.sim.step circuit).1.states component).getD .unknown = .high →
      (seenBy (b.sim.step circuit).1.states component).getD .unknown = .high := by
    intro component
    rw [seenBy_step ha.loaded hresultA, seenBy_step hb.loaded hresultB]
    cases sinkTerminal? circuit component with
    | none => exact nofun
    | some t => exact hterminals t
  rw [Bench.getOutput, ha.withStep.loaded?_eq] at h
  rw [Bench.getOutput, hb.withStep.loaded?_eq]
  dsimp only [Simulator.getOutput] at h ⊢
  split at h
  · next port hport =>
    obtain ⟨_, hscalar, hlevel⟩ := bind_eq_ok_iff.1 h
    exact bind_eq_ok_iff.2
      ⟨_, hscalar, congrArg Except.ok (hseen port.component (Except.ok.inj hlevel))⟩
  · cases h

/-! ## Rows of rising bits -/

/-- The levels of two bits that rise are known, and high in the second if so in the first. -/
theorem levels_of_le {bit other : Bool} (h : bit ≤ other) {v w : Signal}
    (hv : Signal.ofJson? (.int (bitValue bit)) = some v)
    (hw : Signal.ofJson? (.int (bitValue other)) = some w) :
    v ≠ .unknown ∧ w ≠ .unknown ∧ (v = .high → w = .high) := by
  cases bit <;> cases other <;> cases hv <;> cases hw <;> revert h <;> decide

/-- Where the bits of two rows rise, so do the inputs that are set to them. -/
theorem setAll_rising : ∀ {ids : List Ident} {x y : List Bool} {a b setA setB : Bench},
    List.Forall₂ (· ≤ ·) x y → a.Holds circuit cap → b.Holds circuit cap →
    Rising circuit a.sim.inputs b.sim.inputs →
    setAll a (ids.zip (x.map bitValue)) = .ok setA →
    setAll b (ids.zip (y.map bitValue)) = .ok setB →
    Rising circuit setA.sim.inputs setB.sim.inputs
  | [], _, _, _, _, _, _, _, _, _, hrising, hsetA, hsetB
  | _ :: _, _, _, _, _, _, _, .nil, _, _, hrising, hsetA, hsetB => by
    cases hsetA
    cases hsetB
    exact hrising
  | id :: ids, bit :: x, other :: y, a, b, setA, setB, .cons hbit hrest, ha, hb, hrising, hsetA,
    hsetB => by
    rw [List.map_cons, List.zip_cons_cons, setAll, ha.setInput_eq] at hsetA
    rw [List.map_cons, List.zip_cons_cons, setAll, hb.setInput_eq] at hsetB
    rcases Simulator.setInput_cases circuit id (.int (bitValue bit)) with
      ⟨fault, hrefused⟩ | ⟨component, v, hresolve, hv, hset⟩
    · rw [hrefused] at hsetA
      cases hsetA
    rcases Simulator.setInput_cases circuit id (.int (bitValue other)) with
      ⟨fault, hrefused⟩ | ⟨same, w, hresolveSame, hw, hsetOther⟩
    · rw [hrefused] at hsetB
      cases hsetB
    obtain rfl : component = same := by
      rw [hresolve] at hresolveSame
      exact Option.some.inj (Except.ok.inj hresolveSame)
    rw [hset] at hsetA
    rw [hsetOther] at hsetB
    obtain ⟨hvKnown, hwKnown, hvw⟩ := levels_of_le hbit hv hw
    exact setAll_rising hrest (ha.withInputs _) (hb.withInputs _)
      (hrising.put component hvKnown hwKnown hvw) hsetA hsetB

/-- If the bits rise and the circuit computes a gate for both, the gate does not fall. -/
theorem Answers.holds_mono {gate : Gate} {bench : Bench} {x y : List Bool}
    (hopen : NormallyOpen circuit)
    (hfree : ∀ inputs, KnownInputs circuit inputs → Uncontested circuit inputs)
    (hbench : bench.Holds circuit cap) (hknown : KnownInputs circuit bench.sim.inputs)
    (houtputs : circuit.outputs ≠ []) (hxy : List.Forall₂ (· ≤ ·) x y)
    (hx : Answers circuit gate x bench) (hy : Answers circuit gate y bench) :
    gate.Holds x → gate.Holds y := by
  intro hhigh
  obtain ⟨setA, resultA, hsetA, hresultA, -, hreadA⟩ := hx
  obtain ⟨setB, resultB, hsetB, hresultB, hconvergedB, hreadB⟩ := hy
  have ha := setAll_holds hbench hsetA
  have hb := setAll_holds hbench hsetB
  have hrising := setAll_rising hxy hbench hbench (.refl hknown) hsetA hsetB
  obtain ⟨port, hport⟩ := List.exists_mem_of_ne_nil _ houtputs
  have houtA := hreadA port hport
  have houtB := hreadB port hport
  rw [if_pos hhigh] at houtA
  have hrisen := getOutput_high ha hb hresultA hresultB
    (fun _ => ha.signalAt_of_rising hb hopen hrising (hfree _ hrising.known_left) hresultA hresultB
      hconvergedB) houtA
  rw [houtB] at hrisen
  by_contra hlow
  rw [if_neg hlow] at hrisen
  cases hrisen

/-! ## Gates that fall -/

/-- An inverter, and every gate with an inverter in it, falls somewhere when its inputs rise. -/
theorem Gate.exists_fall {gate : Gate} (h : gate ∈ [Gate.not, .nand, .nor, .xor]) :
    ∃ x y, x.length = (Table.standard arrays gate).inputs.length ∧ List.Forall₂ (· ≤ ·) x y ∧
      gate.Holds x ∧ ¬ gate.Holds y := by
  simp only [List.mem_cons, List.not_mem_nil, or_false] at h
  rcases h with rfl | rfl | rfl | rfl
  · exact ⟨[false], [true], rfl, .cons nofun .nil, by decide, by decide⟩
  · exact ⟨[false, true], [true, true], rfl, .cons nofun (.cons le_rfl .nil), by decide, by decide⟩
  · exact ⟨[false, false], [false, true], rfl, .cons le_rfl (.cons nofun .nil), by decide, by decide⟩
  · exact ⟨[false, true], [true, true], rfl, .cons nofun (.cons le_rfl .nil), by decide, by decide⟩

/-- A circuit of relays that are open at rest is monotone. Of two steps in wiring that the inputs of
neither contest, under caps above the number of nets, both come to rest; and if the inputs rise from
the first to the second, every net that ends high in the first ends high in the second, and every
coil that ends energized in the first does so in the second. If no inputs at low and high contest
the wiring, the circuit unlocks no inverter and no gate with one in it, under any cap. -/
theorem monotone_of_normallyOpen (hopen : NormallyOpen circuit) :
    (∀ {capA capB : Int} {a b : Bench}, Bench.Reached circuit capA a →
      Bench.Reached circuit capB b → Rising circuit a.sim.inputs b.sim.inputs →
      Uncontested circuit a.sim.inputs → Uncontested circuit b.sim.inputs →
      ((Netlist.ofWires circuit.wires).nets.length : Int) + 1 ≤ capA →
      ((Netlist.ofWires circuit.wires).nets.length : Int) + 1 ≤ capB →
      (circuit.components.all (·.kind.isScalar) = true ↔
        (∃ resultA, a.step.2 = .ok resultA) ∧ ∃ resultB, b.step.2 = .ok resultB) ∧
      ∀ resultA resultB, a.step.2 = .ok resultA → b.step.2 = .ok resultB →
        resultA.converged = true ∧ resultB.converged = true ∧
        (∀ net ∈ a.step.1.sim.netlist.nets, net.signal = .high →
          ∃ other ∈ b.step.1.sim.netlist.nets, other.reset = net.reset ∧ other.signal = .high) ∧
        ∀ c ∈ circuit.components, c.kind.isRelay = true →
          Energized resultA.states c.id → Energized resultB.states c.id) ∧
    ((∀ inputs, KnownInputs circuit inputs → Uncontested circuit inputs) →
      ∀ gate ∈ [Gate.not, .nand, .nor, .xor], ∀ (cap : Int) (name : Json),
        Gate.ofJson? name = some gate →
        ¬ ∃ verdict, unlockNamed arrays cap circuit name = .ok verdict ∧ verdict.passed = true) := by
  constructor
  · intro capA capB a b ha hb hrising hfreeA hfreeB hcapA hcapB
    have hholdsA := Bench.holds_of_reached ha
    have hholdsB := Bench.holds_of_reached hb
    refine ⟨?_, fun _ _ => hholdsA.rising_step hholdsB hopen hrising hfreeA hfreeB hcapA hcapB⟩
    rw [hholdsA.step_ok_iff, hholdsB.step_ok_iff, and_self]
  · intro hfree gate hgate cap name hname
    rw [unlockNamed, hname]
    dsimp only
    rw [unlock_passed_iff]
    rintro ⟨hinputs, houtputs, hload, hanswers⟩
    obtain ⟨x, y, hlength, hxy, hhigh, hlow⟩ := Gate.exists_fall hgate
    rw [← hinputs] at hlength
    have hsome : circuit.outputs ≠ [] := by
      rw [ne_eq, ← List.length_eq_zero_iff, houtputs, Table.outputs_standard]
      exact Nat.one_ne_zero
    have hmono := Answers.holds_mono hopen hfree (load_ofCircuit hload).2
      (knownInputs_lowInputs circuit circuit.inputs) hsome hxy (hanswers x hlength)
      (hanswers y (hxy.length_eq.symm.trans hlength))
    exact hlow (hmono hhigh)

/-- Two relays that pass the power on to an output, each for an input of its own, and a third one
that holds it there once it has come. -/
def either : Circuit where
  placed := [⟨.text "vcc", .power, .zero false, .zero false, .int 0, .null⟩,
    ⟨.text "a", .input, .zero false, .zero false, .int 0, .null⟩,
    ⟨.text "b", .input, .zero false, .zero false, .int 0, .null⟩,
    ⟨.text "hold", .relayNo, .zero false, .zero false, .int 0, .null⟩,
    ⟨.text "r", .relayNo, .zero false, .zero false, .int 0, .null⟩,
    ⟨.text "s", .relayNo, .zero false, .zero false, .int 0, .null⟩,
    ⟨.text "y", .output, .zero false, .zero false, .int 0, .null⟩].foldl Placement.put {}
  wires := [⟨.text "w1", ⟨.text "vcc", outPort⟩, ⟨.text "r", contactIn⟩⟩,
    ⟨.text "w2", ⟨.text "vcc", outPort⟩, ⟨.text "s", contactIn⟩⟩,
    ⟨.text "w3", ⟨.text "vcc", outPort⟩, ⟨.text "hold", contactIn⟩⟩,
    ⟨.text "w4", ⟨.text "a", outPort⟩, ⟨.text "r", coilIn⟩⟩,
    ⟨.text "w5", ⟨.text "b", outPort⟩, ⟨.text "s", coilIn⟩⟩,
    ⟨.text "w6", ⟨.text "r", contactOut⟩, ⟨.text "y", inPort⟩⟩,
    ⟨.text "w7", ⟨.text "s", contactOut⟩, ⟨.text "y", inPort⟩⟩,
    ⟨.text "w8", ⟨.text "hold", contactOut⟩, ⟨.text "y", inPort⟩⟩,
    ⟨.text "w9", ⟨.text "y", inPort⟩, ⟨.text "hold", coilIn⟩⟩]
  inputs := [⟨.text "in_0", .text "A", .str "input", .text "a"⟩,
    ⟨.text "in_1", .text "B", .str "input", .text "b"⟩]
  outputs := [⟨.text "out_0", .text "Y", .str "output", .text "y"⟩]

/-- No inputs contest the wiring: the nets of the inputs have no contacts on them. -/
theorem uncontested_either (inputs : List (Ident × Signal)) : Uncontested either inputs := by
  have hcontacts : ∀ c ∈ either.components, c.kind.isRelay = true →
      (Netlist.ofWires either.wires).numberAt? ⟨c.id, contactIn⟩ = some 0 ∧
        (Netlist.ofWires either.wires).numberAt? ⟨c.id, contactOut⟩ = some 3 := by decide +kernel
  have hspans : ∀ m n, Spans either (fun c => c.kind.isRelay = true) m n →
      (m = 0 ∧ n = 3) ∨ (m = 3 ∧ n = 0) := by
    rintro m n ⟨c, hc, hrelay, hends⟩
    obtain ⟨hin, hout⟩ := hcontacts c hc hrelay
    rw [hin, hout] at hends
    simp only [Option.some.injEq] at hends
    omega
  have hcoupled : ∀ m n, Coupled either m n → m = n ∨ (m = 0 ∨ m = 3) ∧ (n = 0 ∨ n = 3) := by
    intro m n h
    induction h with
    | refl => exact .inl rfl
    | tail _ hstep ih =>
      have hends := hspans _ _ hstep
      omega
  have hsources : ∀ c ∈ either.components, c.kind.IsSource →
      (Netlist.ofWires either.wires).numberAt? ⟨c.id, outPort⟩ ≠ some 3 ∧
      ∀ d ∈ either.components, d.kind.IsSource →
        (Netlist.ofWires either.wires).numberAt? ⟨c.id, outPort⟩ =
          (Netlist.ofWires either.wires).numberAt? ⟨d.id, outPort⟩ → c = d := by
    unfold Kind.IsSource
    decide +kernel
  rintro m n v w ⟨c, hc, hv, hm⟩ ⟨d, hd, hw, hn⟩ hmn
  have hc' := isSource_of_sourceLevel? hv
  have hd' := isSource_of_sourceLevel? hw
  have hsame : m = n := by
    have hm3 := (hsources c hc hc').1
    have hn3 := (hsources d hd hd').1
    rw [hm, ne_eq, Option.some.injEq] at hm3
    rw [hn, ne_eq, Option.some.injEq] at hn3
    have hends := hcoupled m n hmn
    omega
  obtain rfl := (hsources c hc hc').2 d hd hd' (by rw [hm, hn, hsame])
  rw [hv] at hw
  exact Option.some.inj hw

/-- With one input high the output comes on and the third relay holds it; with both high it does so
too. The circuit unlocks a gate with no inverter in it, and no gate with one. -/
theorem either_rises :
    let one := (Bench.ofCircuit either 10).load.1.performAll [.setInput (.text "a") (.int 1)]
    let both := one.performAll [.step, .setInput (.text "b") (.int 1)]
    NormallyOpen either ∧ Bench.Reached either 10 one ∧ Bench.Reached either 10 both ∧
      Rising either one.sim.inputs both.sim.inputs ∧
      (∀ inputs, KnownInputs either inputs → Uncontested either inputs) ∧
      (Netlist.ofWires either.wires).nets.length = 4 ∧
      (∃ resultA resultB, one.step.2 = .ok resultA ∧ both.step.2 = .ok resultB ∧
        resultA.converged = true ∧ resultB.converged = true ∧
        Energized resultA.states (.text "hold") ∧ Energized resultB.states (.text "hold")) ∧
      (∃ verdict, unlockNamed (.ofNesting 64) 10 either (.str "or") = .ok verdict ∧
        verdict.passed = true) ∧
      ¬ ∃ verdict, unlockNamed (.ofNesting 64) 10 either (.str "xor") = .ok verdict ∧
        verdict.passed = true := by
  intro one both
  have hopen : NormallyOpen either := by
    unfold NormallyOpen
    decide +kernel
  have hloaded : Bench.Reached either 10 (Bench.ofCircuit either 10).load.1 :=
    .load rfl rfl (by decide +kernel)
  have hone : Bench.Reached either 10 one := .perform hloaded trivial
  have hboth : Bench.Reached either 10 both := .perform (.perform hone trivial) trivial
  have hrising : Rising either one.sim.inputs both.sim.inputs := by
    have hknown : KnownInputs either one.sim.inputs ∧ KnownInputs either both.sim.inputs := by
      unfold KnownInputs
      decide +kernel
    exact ⟨hknown.1, hknown.2, by decide +kernel⟩
  have hlength : (Netlist.ofWires either.wires).nets.length = 4 := by decide +kernel
  have hfree : ∀ inputs, KnownInputs either inputs → Uncontested either inputs :=
    fun inputs _ => uncontested_either inputs
  obtain ⟨hsteps, hlocked⟩ := monotone_of_normallyOpen hopen
  have hcap : ((Netlist.ofWires either.wires).nets.length : Int) + 1 ≤ 10 := by
    rw [hlength]
    decide
  obtain ⟨hsome, hresults⟩ := hsteps hone hboth hrising (uncontested_either _)
    (uncontested_either _) hcap hcap
  obtain ⟨⟨resultA, hresultA⟩, resultB, hresultB⟩ := hsome.1 (by decide +kernel)
  obtain ⟨hconvergedA, hconvergedB, -, hcoils⟩ := hresults resultA resultB hresultA hresultB
  have henergized : Energized resultA.states (.text "hold") := by
    obtain ⟨other, hother, hstates⟩ : ∃ result, one.step.2 = .ok result ∧
        (Assoc.get? (.text "hold") result.states).map (·.coil) = some true :=
      exists_of_toOption (by decide +kernel)
    rw [hresultA] at hother
    cases hother
    obtain ⟨state, hstate, hcoil⟩ := Option.map_eq_some_iff.1 hstates
    exact ⟨state, hstate, hcoil⟩
  have hhold : ∃ c ∈ either.components, c.id = .text "hold" ∧ c.kind.isRelay = true := by
    decide +kernel
  obtain ⟨c, hc, hid, hrelay⟩ := hhold
  refine ⟨hopen, hone, hboth, hrising, hfree, hlength, ⟨resultA, resultB, hresultA, hresultB,
    hconvergedA, hconvergedB, henergized, ?_⟩, exists_of_toOption (by decide +kernel),
    hlocked hfree .xor (by decide) 10 (.str "xor") (by decide)⟩
  rw [← hid] at henergized ⊢
  exact hcoils c hc hrelay henergized

end Switchyard.Grading
