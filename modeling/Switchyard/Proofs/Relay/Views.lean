import Switchyard.Proofs.Relay.Consistency
import Switchyard.Proofs.Relay.Rewiring
import Switchyard.Proofs.Relay.Uncontested
import Switchyard.Proofs.Relay.WellFormed

/-!
# The views of a step agree

The result of a step tells levels twice: for every wire, which is looked up by its name, and for
every port of a component, which was copied from the nets after the idle ones were pulled low. Both
are the level of one net (`Simulator.Loaded.portLevel?_eq`, `Simulator.Loaded.get?_wires`), at the
end of the last round, whether it came to rest or not. So wires and the ports they end on are told
alike, and all wires that share a net. A net is unknown at the end only if a source asserted that,
and this is an input left unknown (`Simulator.Fits.exists_unknown`).
-/

namespace Switchyard.Relay

/-- The level that a result tells at a port of a component. -/
def StepResult.portLevel? (result : StepResult) (t : Terminal) : Option Signal :=
  (Assoc.get? t.component result.states).bind (fun state => Assoc.get? t.port state.ports)

/-! ## Circuits that pass an inspection -/

/-- A known kind can be looked up. -/
theorem Kind.isScalar_of_isKnown {kind : Kind} (h : kind.isKnown = true) :
    kind.isScalar = true := by
  cases kind with
  | other value => cases h
  | _ => rfl

/-- In a circuit that passes an inspection all kinds are known, and every wire ends on ports of
components. -/
theorem Circuit.of_passed {circuit : Circuit} {inspection : Inspection}
    (h : circuit.inspect = .ok inspection) (hpassed : inspection.passed = true) :
    (∀ c ∈ circuit.components, c.kind.isKnown = true) ∧
      ∀ wire ∈ circuit.wires, ∀ t ∈ wire.terminals, circuit.HasTerminal t := by
  have hproblems : circuit.problems = [] := by
    unfold inspect at h
    split at h
    · cases h
      cases hpassed
    · split at h
      · cases h
        exact List.isEmpty_iff.1 hpassed
      · cases h
  rw [problems, List.append_eq_nil_iff, List.append_eq_nil_iff, List.append_eq_nil_iff,
    List.map_eq_nil_iff, List.filter_eq_nil_iff, List.flatMap_eq_nil_iff] at hproblems
  obtain ⟨⟨⟨hkinds, hends⟩, -⟩, -⟩ := hproblems
  have hknown : ∀ c ∈ circuit.components, c.kind.isKnown = true :=
    fun c hc => by simpa using hkinds c hc
  refine ⟨hknown, fun wire hwire t ht => ?_⟩
  have hend := List.filterMap_eq_nil_iff.1 (hends wire hwire) t ht
  unfold endProblem? at hend
  split at hend
  · cases hend
  · next c hfound =>
    obtain ⟨hc, hid⟩ := (component?_eq_some_iff circuit).1 hfound
    rw [hknown c hc, Bool.true_and] at hend
    refine ⟨c, hc, hid, ?_⟩
    by_contra hport
    simp [hport] at hend

/-! ## Levels of a result -/

/-- The source of an unknown level is an input that is unknown. -/
theorem of_sourceLevel?_unknown {inputs : List (Ident × Signal)} {c : Component}
    (h : sourceLevel? inputs c = some .unknown) :
    c.kind = .input ∧ (Assoc.get? c.id inputs).getD .low = .unknown := by
  unfold sourceLevel? at h
  split at h
  · cases h
  · next hkind => exact ⟨hkind, Option.some.inj h⟩
  · cases h

/-- A net can be driven unknown by a source on it only, as contacts pass known levels on. -/
theorem carriable_unknown (circuit : Circuit) (inputs : List (Ident × Signal)) :
    Carriable circuit.components inputs (Netlist.ofWires circuit.wires)
      (fun n v => v = .unknown → SourceOn circuit inputs n .unknown) where
  sources c hc _ hlevel _ hn hunknown := ⟨c, hc, hunknown ▸ hlevel, hn⟩
  contacts _ _ _ _ hknown _ _ _ _ :=
    iff_of_true (fun hunknown => absurd hunknown hknown) (fun hunknown => absurd hunknown hknown)

namespace Simulator

variable {circuit : Circuit} {sim : Simulator} {result : StepResult}

/-- After a step the nets are those of the wires. -/
theorem Fits.reset_step (h : sim.Fits circuit) :
    (sim.step circuit).1.netlist.reset = Netlist.ofWires circuit.wires :=
  (Simulator.reset_step circuit sim).trans h.shape

/-- A net that is unknown after a step holds the output of an input that is unknown. -/
theorem Fits.exists_unknown (h : sim.Fits circuit) (hresult : (sim.step circuit).2 = .ok result)
    {net : Net} (hnet : net ∈ (sim.step circuit).1.netlist.nets) (hsignal : net.signal = .unknown) :
    ∃ c ∈ circuit.components, c.kind = .input ∧
      (Assoc.get? c.id sim.inputs).getD .low = .unknown ∧
      net.contains ⟨c.id, outPort⟩ = true := by
  have hshape := h.reset_step
  obtain ⟨-, -, hobeys⟩ := h.carried (carriable_unknown circuit sim.inputs)
  have hground : net ∈ (sim.rounds circuit).1.netlist.ground.nets := by
    rwa [← (step_of_ok hresult).1]
  have hallowed := (hobeys.ground hground).resolve_right (by rw [hsignal]; nofun)
  obtain ⟨c, hc, hlevel, hn⟩ := hallowed hsignal
  obtain ⟨hkind, hvalue⟩ := of_sourceLevel?_unknown hlevel
  refine ⟨c, hc, hkind, hvalue, ((coherent_of_reset_ofWires hshape).contains_iff hnet _).2 ?_⟩
  rwa [← hshape] at hn

/-- The level told at a port of a component is that of its net after the step. -/
theorem Loaded.portLevel?_eq (h : sim.Loaded circuit) (hresult : (sim.step circuit).2 = .ok result)
    {t : Terminal} (ht : circuit.HasTerminal t) :
    result.portLevel? t = some ((sim.step circuit).1.netlist.signalAt t) := by
  obtain ⟨c, hc, hid, hport⟩ := ht
  obtain ⟨port, hmem, hsame⟩ := List.contains_iff_exists_mem_beq.1 hport
  obtain ⟨hnetlist, hstates, hreported, -⟩ := step_of_ok hresult
  obtain ⟨f, hf, htame⟩ :=
    (Scene.Lawful.settle h sim.inputs sim.cap.toNat Int.toNat_of_nonpos).states
  have hrounds : (sim.rounds circuit).1.states = States.of circuit.components f := hf
  have hstate : Assoc.get? t.component result.states =
      some ((f c).readPorts (sim.step circuit).1.netlist c) := by
    rw [hreported, hstates, hrounds, ← hnetlist, ← Assoc.get?_congr hid]
    exact get?_readPorts circuit _ f hc
  obtain ⟨found, -, hname, hfound⟩ := Assoc.exists_get?_map id
    (fun port => (sim.step circuit).1.netlist.signalAt ⟨c.id, port⟩) ⟨port, hmem, BEq.symm hsame⟩
  rw [StepResult.portLevel?, hstate, Option.bind_some,
    ComponentState.readPorts_eq (htame c hc).ports]
  refine hfound.trans ?_
  exact congrArg some (Netlist.signalAt_congr _ (Terminal.beq_iff.2 ⟨hid, hname⟩))

/-- The level told for a wire is that at its source, after the step. -/
theorem Loaded.get?_wires (h : sim.Loaded circuit) (hresult : (sim.step circuit).2 = .ok result)
    (hids : circuit.wires.Pairwise (fun v w => (v.id == w.id) = false)) {wire : Wire}
    (hwire : wire ∈ circuit.wires) :
    Assoc.get? wire.id result.wires =
      some ((sim.step circuit).1.netlist.signalAt wire.source) := by
  rw [get?_wires_of_step_ok hresult hwire,
    Netlist.wireSignal_eq_of_distinct h.fits.reset_step hids hwire]

end Simulator

namespace Bench

/-- The views of a step agree. In a circuit that passes an inspection, whose wires have distinct
names, every step since the loading gives a result, and whether this converged or not: every wire is
told to have the level that the ports on both its ends are told to have; a port on which no wire
ends is unknown; wires that a chain of wires joins have one level; a wire is unknown only if its net
holds the output of an input that is unknown; so if no input is, every wire is low or high. -/
theorem step_views {circuit : Circuit} {cap : Int} {bench : Bench} (h : Reached circuit cap bench)
    {inspection : Inspection} (hinspect : circuit.inspect = .ok inspection)
    (hpassed : inspection.passed = true)
    (hids : circuit.wires.Pairwise (fun v w => (v.id == w.id) = false)) :
    ∃ result, bench.step.2 = .ok result ∧
      (∀ wire ∈ circuit.wires, ∃ level, Assoc.get? wire.id result.wires = some level ∧
        result.portLevel? wire.source = some level ∧ result.portLevel? wire.target = some level) ∧
      (∀ c ∈ circuit.components, ∀ port ∈ c.ports, ¬ IsEnd circuit.wires ⟨c.id, port⟩ →
        result.portLevel? ⟨c.id, port⟩ = some .unknown) ∧
      (∀ v ∈ circuit.wires, ∀ w ∈ circuit.wires, Linked circuit.wires v.source w.source →
        Assoc.get? v.id result.wires = Assoc.get? w.id result.wires) ∧
      (∀ wire ∈ circuit.wires, Assoc.get? wire.id result.wires = some .unknown →
        ∃ net ∈ bench.step.1.sim.netlist.nets, net.contains wire.source = true ∧
          ∃ c ∈ circuit.components, c.kind = .input ∧
            (Assoc.get? c.id bench.sim.inputs).getD .low = .unknown ∧
            net.contains ⟨c.id, outPort⟩ = true) ∧
      (KnownInputs circuit bench.sim.inputs → ∀ wire ∈ circuit.wires,
        Assoc.get? wire.id result.wires = some .low ∨
        Assoc.get? wire.id result.wires = some .high) := by
  have hb := holds_of_reached h
  obtain ⟨hkinds, hends⟩ := Circuit.of_passed hinspect hpassed
  obtain ⟨result, hresult⟩ := hb.step_ok_iff.2
    (List.all_eq_true.2 (fun c hc => Kind.isScalar_of_isKnown (hkinds c hc)))
  rw [hb.step_eq] at hresult ⊢
  have hshape := hb.loaded.fits.reset_step
  have hcoherent := coherent_of_reset_ofWires hshape
  have hwire := fun wire (hw : wire ∈ circuit.wires) => hb.loaded.get?_wires hresult hids hw
  have hport := fun t (ht : circuit.HasTerminal t) => hb.loaded.portLevel?_eq hresult ht
  have hlinked : ∀ {t u : Terminal}, IsEnd circuit.wires t → Linked circuit.wires t u →
      (bench.sim.step circuit).1.netlist.signalAt t =
        (bench.sim.step circuit).1.netlist.signalAt u :=
    Netlist.signalAt_eq_of_linked hshape
  have hunknown : ∀ wire ∈ circuit.wires, Assoc.get? wire.id result.wires = some .unknown →
      ∃ net ∈ (bench.sim.step circuit).1.netlist.nets, net.contains wire.source = true ∧
        ∃ c ∈ circuit.components, c.kind = .input ∧
          (Assoc.get? c.id bench.sim.inputs).getD .low = .unknown ∧
          net.contains ⟨c.id, outPort⟩ = true := by
    intro wire hw hlevel
    rw [hwire wire hw, Option.some.injEq] at hlevel
    obtain ⟨n, hn⟩ := Netlist.exists_number_of_isEnd hshape ⟨wire, hw, .inl BEq.rfl⟩
    obtain ⟨net, hnet, rfl, -, hsignal⟩ := hcoherent.exists_net hn
    refine ⟨net, hnet, (hcoherent.contains_iff hnet _).2 hn, ?_⟩
    exact hb.loaded.fits.exists_unknown hresult hnet (hsignal.symm.trans hlevel)
  refine ⟨result, hresult, fun wire hw => ⟨_, hwire wire hw, ?_, ?_⟩, fun c hc port hp hend => ?_,
    fun v hv w hw hvw => ?_, hunknown, fun hin wire hw => ?_⟩
  · exact hport _ (hends wire hw _ (by simp [Wire.terminals]))
  · rw [hport _ (hends wire hw _ (by simp [Wire.terminals]))]
    exact congrArg some (hlinked ⟨wire, hw, .inl BEq.rfl⟩ (.of_wire hw BEq.rfl BEq.rfl)).symm
  · rw [hport _ ⟨c, hc, BEq.rfl, List.contains_iff_exists_mem_beq.2 ⟨port, hp, BEq.rfl⟩⟩,
      Netlist.signalAt_of_not_isEnd hshape hend]
  · rw [hwire v hv, hwire w hw, hlinked ⟨v, hv, .inl BEq.rfl⟩ hvw]
  · have hlevel := hwire wire hw
    cases hsignal : (bench.sim.step circuit).1.netlist.signalAt wire.source with
    | low => exact .inl (hlevel.trans (congrArg some hsignal))
    | high => exact .inr (hlevel.trans (congrArg some hsignal))
    | unknown =>
      obtain ⟨-, -, -, c, hc, hkind, hvalue, -⟩ :=
        hunknown wire hw (hlevel.trans (congrArg some hsignal))
      exact absurd hvalue (hin c hc hkind)

/-- A power and an input at low that meet through a relay, and another input behind the coil, which
the lamp is wired to. -/
def contended : Circuit where
  placed := [⟨.text "vcc", .power, .zero false, .zero false, .int 0, .null⟩,
    ⟨.text "a", .input, .zero false, .zero false, .int 0, .null⟩,
    ⟨.text "b", .input, .zero false, .zero false, .int 0, .null⟩,
    ⟨.text "r", .relayNc, .zero false, .zero false, .int 0, .null⟩,
    ⟨.text "lamp", .output, .zero false, .zero false, .int 0, .null⟩].foldl Placement.put {}
  wires := [⟨.text "w1", ⟨.text "vcc", outPort⟩, ⟨.text "r", contactIn⟩⟩,
    ⟨.text "w2", ⟨.text "r", contactOut⟩, ⟨.text "a", outPort⟩⟩,
    ⟨.text "w3", ⟨.text "b", outPort⟩, ⟨.text "r", coilOut⟩⟩,
    ⟨.text "w4", ⟨.text "r", coilOut⟩, ⟨.text "lamp", inPort⟩⟩]

/-- The sources contend to the last round, and the input that is left unknown makes both wires
behind it unknown; still all views of the step agree. -/
theorem step_views_contended :
    let bench := (ofCircuit contended 5).load.1.performAll [.setInput (.text "b") (.int 2), .step]
    Reached contended 5 bench ∧
      (∃ inspection, contended.inspect = .ok inspection ∧ inspection.passed = true) ∧
      contended.wires.Pairwise (fun v w => (v.id == w.id) = false) ∧
      ∃ result, bench.step.2 = .ok result ∧ result.converged = false ∧
        (∀ wire ∈ contended.wires, ∃ level, Assoc.get? wire.id result.wires = some level ∧
          result.portLevel? wire.source = some level ∧
          result.portLevel? wire.target = some level) ∧
        result.portLevel? ⟨.text "r", coilIn⟩ = some .unknown ∧
        Assoc.get? (.text "w3") result.wires = Assoc.get? (.text "w4") result.wires ∧
        ∃ net ∈ bench.step.1.sim.netlist.nets, net.contains ⟨.text "b", outPort⟩ = true ∧
          ∃ c ∈ contended.components, c.kind = .input ∧
            (Assoc.get? c.id bench.sim.inputs).getD .low = .unknown ∧
            net.contains ⟨c.id, outPort⟩ = true := by
  intro bench
  have hreached : Reached contended 5 bench :=
    .perform (.perform (.load rfl rfl (by decide +kernel)) trivial) trivial
  obtain ⟨inspection, hinspect, hpassed⟩ : ∃ inspection, contended.inspect = .ok inspection ∧
      inspection.passed = true := exists_of_toOption (by decide +kernel)
  have hids : contended.wires.Pairwise (fun v w => (v.id == w.id) = false) := by decide +kernel
  obtain ⟨result, hresult, hends, hfree, hlinked, hunknown, -⟩ :=
    step_views hreached hinspect hpassed hids
  have htold : bench.step.2.toOption.map
      (fun result => (result.converged, Assoc.get? (.text "w3") result.wires)) =
      some (false, some .unknown) := by decide +kernel
  rw [hresult] at htold
  obtain ⟨hconverged, hlevel⟩ := Prod.mk.inj (Option.some.inj htold)
  let feed : Wire := ⟨.text "w3", ⟨.text "b", outPort⟩, ⟨.text "r", coilOut⟩⟩
  let lead : Wire := ⟨.text "w4", ⟨.text "r", coilOut⟩, ⟨.text "lamp", inPort⟩⟩
  have hfeed : feed ∈ contended.wires := by decide +kernel
  have hlead : lead ∈ contended.wires := by decide +kernel
  refine ⟨hreached, ⟨inspection, hinspect, hpassed⟩, hids, result, hresult, hconverged, hends, ?_,
    hlinked feed hfeed lead hlead (.of_wire hfeed BEq.rfl BEq.rfl), hunknown feed hfeed hlevel⟩
  refine hfree ⟨.text "r", .relayNc, .zero false, .zero false, .int 0, .null⟩ (by decide +kernel)
    coilIn (relay_mem_ports rfl).1 ?_
  unfold IsEnd
  decide +kernel

end Bench

end Switchyard.Relay
