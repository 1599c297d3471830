import Switchyard.Proofs.Outcomes
import Switchyard.Proofs.Relay.Uncontested

/-!
# Where a high level comes from

What a step asserts is a level of a source on one of its nets, or a known level that the contacts of
a relay pass from net to net; nothing else ever joins two nets. So a level that is carried by some
net, even for a moment, is that of a source from which a path of contacts leads to the net
(`Simulator.assertAll_carried`, `Simulator.step_carried`), whether the step comes to rest, runs into
the cap, or is stopped. The circuit may have been edited since it was loaded: then the sources and
relays are those of the circuit now and the nets are those of the wires at the loading
(`Bench.exists_wires_performAll`).
-/

namespace Switchyard.Relay

/-- A set of nets that no relay leads out of, and on which no source has a level, has no net that
can carry the level. -/
theorem CanCarry.not_island {circuit : Circuit} {inputs : List (Ident × Signal)} {level : Signal}
    {island : Nat → Prop}
    (hclosed : ∀ m n, Spans circuit (fun c => c.kind.isRelay = true) m n → island m → island n)
    (hsources : ∀ n, island n → ¬ SourceOn circuit inputs n level) {n : Nat}
    (h : CanCarry circuit inputs n level) : ¬ island n := by
  obtain ⟨m, hsource, hpath⟩ := h
  intro hn
  refine hsources m ?_ hsource
  clear hsource
  induction hpath with
  | refl => exact hn
  | tail _ hspans ih => exact ih (hclosed _ _ hspans.symm hn)

/-- A net among those that obey carries a level that it may carry, or none. -/
theorem Netlist.Obeys.level {netlist : Netlist} {allowed : Nat → Signal → Prop}
    (h : netlist.Obeys allowed) {net : Net} (hnet : net ∈ netlist.nets) :
    allowed net.number net.signal ∨ net.signal = .unknown := by
  cases hd : net.driven with
  | true => exact .inl (h.driven net hnet hd)
  | false => exact .inr (h.idle net hnet hd)

namespace Simulator

variable {circuit : Circuit} {sim : Simulator} {wires : List Wire}
  (hshape : sim.netlist.reset = Netlist.ofWires wires)
include hshape

/-- During the rounds of a step a net carries what it can carry, or nothing. -/
theorem assertAll_carried {earlier : List Assertion} (hle : earlier <+: sim.assertions circuit)
    {net : Net} (hnet : net ∈ (sim.netlist.reset.assertAll earlier).nets) :
    CanCarry { circuit with wires } sim.inputs net.number net.signal ∨ net.signal = .unknown := by
  obtain ⟨hallows, -⟩ :=
    carried circuit hshape (carriable_canCarry { circuit with wires } sim.inputs)
  have hcoherent : sim.netlist.reset.Coherent := by
    rw [hshape]
    exact (Netlist.represents_ofWires wires).coherent
  have hobeys := (Netlist.blank_reset sim.netlist).obeys.assertAll hcoherent
    (fun a ha => hallows a (hle.subset ha))
  exact hobeys.level hnet

/-- The nets of a step that is stopped carry what they can carry, or are low or unknown. -/
theorem interrupted_carried {net : Net} (hnet : net ∈ (sim.interrupted circuit).netlist.nets) :
    CanCarry { circuit with wires } sim.inputs net.number net.signal ∨
      net.signal = .low ∨ net.signal = .unknown := by
  have hC := carriable_canCarry { circuit with wires } sim.inputs
  have hcoherent := (Netlist.represents_ofWires wires).coherent
  have hobeys : sim.netlist.reset.Obeys (CanCarry { circuit with wires } sim.inputs) :=
    (Netlist.blank_reset _).obeys
  have hreset : sim.netlist.reset.reset = Netlist.ofWires wires :=
    (Netlist.reset_reset _).trans hshape
  unfold interrupted at hnet
  dsimp only at hnet
  split_ifs at hnet
  · -- with a cap of zero no round is made
    exact (hobeys.ground hnet).imp_right .inl
  · -- one round
    let start : Scene := ⟨sim.netlist.reset, sim.states⟩
    have hround := hC.roundAssertions hcoherent (show start.netlist.reset = _ from hreset) hobeys
    rw [Scene.netlist_round] at hnet
    rw [← hshape] at hround hcoherent
    exact ((hobeys.assertAll hcoherent hround).level hnet).imp_right .inr
  all_goals
    -- the sources only
    have hsources := hC.sourceAssertions
    rw [netlist_driveSources] at hnet
    rw [← hshape] at hsources hcoherent
    exact ((hobeys.assertAll hcoherent hsources).level hnet).imp_right .inr

/-- After a step a net carries what it can carry, or it is low or unknown. -/
theorem step_carried {net : Net} (hnet : net ∈ (sim.step circuit).1.netlist.nets) :
    CanCarry { circuit with wires } sim.inputs net.number net.signal ∨
      net.signal = .low ∨ net.signal = .unknown := by
  unfold step at hnet
  split at hnet
  · exact interrupted_carried hshape hnet
  · obtain ⟨-, -, hobeys⟩ :=
      carried circuit hshape (carriable_canCarry { circuit with wires } sim.inputs)
    exact (hobeys.ground hnet).imp_right .inl

end Simulator

namespace Bench

/-- The nets of a simulator are those of some wires, which need not be there any more. -/
theorem exists_wires_performAll (circuit : Circuit) (cap : Int) (actions : List Action) :
    ∃ wires, ((ofCircuit circuit cap).performAll actions).sim.netlist.reset =
      Netlist.ofWires wires := by
  refine sim_performAll (P := fun sim => ∃ wires, sim.netlist.reset = Netlist.ofWires wires)
    (fun _ _ h => h) (fun sim loaded h => ?_) (fun sim loaded h => ?_) ⟨[], rfl⟩ actions
  · have hblank := (Netlist.blank_ofWires loaded.wires).reset_eq
    unfold Simulator.reload
    dsimp only
    split
    · exact h
    · split
      · exact ⟨loaded.wires, hblank⟩
      · exact ⟨loaded.wires, hblank⟩
  · rw [Simulator.reset_step]
    exact h

/-- No high level comes from nowhere. Whatever was performed on a bench, edits included, let the
nets of its simulator be those of some wires, and look at these wires with the components that the
loaded circuit has now. After a step, whether it came to rest, ran into the cap or was stopped, a
path of contacts of relays, in any position, leads to every high net from one that holds the output
of a power or of an input at high; and so it is after each assertion of the rounds, which leave the
nets that the step ends with. As nothing but contacts makes a path, no net of a set that they do not
lead out of is high unless the set has such a source. -/
theorem high_supplied (circuit : Circuit) (cap : Int) (actions : List Action) {loaded : Circuit}
    (hloaded : ((ofCircuit circuit cap).performAll actions).loaded? = some loaded) :
    let bench := (ofCircuit circuit cap).performAll actions
    ∃ wires, bench.sim.netlist.reset = Netlist.ofWires wires ∧
      (∀ net ∈ bench.step.1.sim.netlist.nets, net.signal = .high →
        ∃ m, SourceOn { loaded with wires } bench.sim.inputs m .high ∧
          Coupled { loaded with wires } m net.number) ∧
      (∀ result, bench.step.2 = .ok result → bench.step.1.sim.netlist =
        (bench.sim.netlist.reset.assertAll (bench.sim.assertions loaded)).ground) ∧
      (∀ earlier, earlier <+: bench.sim.assertions loaded →
        ∀ net ∈ (bench.sim.netlist.reset.assertAll earlier).nets, net.signal = .high →
          ∃ m, SourceOn { loaded with wires } bench.sim.inputs m .high ∧
            Coupled { loaded with wires } m net.number) ∧
      ∀ island : Nat → Prop,
        (∀ m n, Spans { loaded with wires } (fun c => c.kind.isRelay = true) m n →
          island m → island n) →
        (∀ n, island n → ¬ SourceOn { loaded with wires } bench.sim.inputs n .high) →
        ∀ net ∈ bench.step.1.sim.netlist.nets, island net.number → net.signal ≠ .high := by
  intro bench
  obtain ⟨wires, hshape⟩ := exists_wires_performAll circuit cap actions
  rw [step_of_loaded hloaded]
  have hhigh : ∀ net ∈ (bench.sim.step loaded).1.netlist.nets, net.signal = .high →
      CanCarry { loaded with wires } bench.sim.inputs net.number .high := by
    intro net hnet hsignal
    have hcarried := Simulator.step_carried hshape hnet
    rw [hsignal] at hcarried
    exact hcarried.resolve_right (by simp)
  refine ⟨wires, hshape, hhigh, fun result hresult => ?_, fun earlier hle net hnet hsignal => ?_,
    fun island hclosed hsources net hnet hin hsignal => ?_⟩
  · rw [(Simulator.step_of_ok hresult).1, Simulator.netlist_rounds]
  · have hcarried := Simulator.assertAll_carried hshape hle hnet
    rw [hsignal] at hcarried
    exact hcarried.resolve_right (by simp)
  · exact (hhigh net hnet hsignal).not_island hclosed hsources hin

/-- A power, a relay that is closed at rest, an inverter behind its contacts and a lamp behind the
inverter. -/
def passive : Circuit where
  placed := [⟨.text "vcc", .power, .zero false, .zero false, .int 0, .null⟩,
    ⟨.text "r", .relayNc, .zero false, .zero false, .int 0, .null⟩,
    ⟨.text "n", .notGate, .zero false, .zero false, .int 0, .null⟩,
    ⟨.text "lamp", .output, .zero false, .zero false, .int 0, .null⟩].foldl Placement.put {}
  wires := [⟨.text "w1", ⟨.text "vcc", outPort⟩, ⟨.text "r", contactIn⟩⟩,
    ⟨.text "w2", ⟨.text "r", contactOut⟩, ⟨.text "n", inPort⟩⟩,
    ⟨.text "w3", ⟨.text "n", outPort⟩, ⟨.text "lamp", inPort⟩⟩]

/-- The wire to the inverter is cut after the loading. The nets are those of the wires that were
there: the input of the inverter is high through the contacts of the relay, and its output is not
high. -/
theorem high_supplied_passive :
    let bench := (ofCircuit passive 10).performAll [.load, .step, .edit (.removeWire (.text "w2"))]
    ∃ loaded, bench.loaded? = some loaded ∧ loaded.wires.length = 2 ∧
      bench.step.1.sim.netlist.signalAt ⟨.text "n", inPort⟩ = .high ∧
      bench.step.1.sim.netlist.signalAt ⟨.text "n", outPort⟩ ≠ .high ∧
      ∃ wires, bench.sim.netlist.reset = Netlist.ofWires wires ∧
        ∀ net ∈ bench.step.1.sim.netlist.nets, net.signal = .high →
          ∃ m, SourceOn { loaded with wires } bench.sim.inputs m .high ∧
            Coupled { loaded with wires } m net.number := by
  intro bench
  obtain ⟨loaded, hloaded, hlength⟩ : ∃ loaded, bench.loaded? = some loaded ∧
      loaded.wires.length = 2 := ⟨bench.circuit, by decide +kernel, by decide +kernel⟩
  obtain ⟨wires, hwires, hhigh, -⟩ := high_supplied passive 10
    [.load, .step, .edit (.removeWire (.text "w2"))] hloaded
  exact ⟨loaded, hloaded, hlength, by decide +kernel, by decide +kernel, wires, hwires, hhigh⟩

end Bench

end Switchyard.Relay
