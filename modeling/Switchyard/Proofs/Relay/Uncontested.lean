import Switchyard.Proofs.Relay.Assertions
import Switchyard.Proofs.Relay.Contacts

/-!
# Wiring without conflict

Two nets are coupled if relay contacts join them, wherever the switches are (`Coupled`); coils may
lie on any net, and relays may feed their own. If coupled sources have one level
(`Uncontested`), that level is the only one that the nets coupled to them can carry
(`Uncontested.labelling`). Then a step comes to rest after one round more than there are nets at
most, and within it a net that was driven once keeps its level to the end
(`Bench.uncontested_step`).
-/

namespace Switchyard.Relay

/-- Nets that are joined by the contacts of relays, be their switches open or closed. -/
def Coupled (circuit : Circuit) : Nat → Nat → Prop :=
  Relation.ReflTransGen (Spans circuit (fun c => c.kind.isRelay = true))

/-- Sources on coupled nets have one level. -/
def Uncontested (circuit : Circuit) (inputs : List (Ident × Signal)) : Prop :=
  ∀ m n v w, SourceOn circuit inputs m v → SourceOn circuit inputs n w → Coupled circuit m n → v = w

/-- A net is coupled to one with a source of a level. -/
def CanCarry (circuit : Circuit) (inputs : List (Ident × Signal)) (n : Nat) (level : Signal) :
    Prop :=
  ∃ m, SourceOn circuit inputs m level ∧ Coupled circuit m n

section
variable {circuit : Circuit} {inputs : List (Ident × Signal)}

/-- Nets on both sides of a relay can carry the same levels. -/
theorem canCarry_iff_of_relay {c : Component} (hc : c ∈ circuit.components)
    (hrelay : c.kind.isRelay = true) {m n : Nat}
    (hm : (Netlist.ofWires circuit.wires).numberAt? ⟨c.id, contactIn⟩ = some m)
    (hn : (Netlist.ofWires circuit.wires).numberAt? ⟨c.id, contactOut⟩ = some n) (v : Signal) :
    CanCarry circuit inputs m v ↔ CanCarry circuit inputs n v := by
  have hspans : Spans circuit (fun c => c.kind.isRelay = true) m n := ⟨c, hc, hrelay, .inl ⟨hm, hn⟩⟩
  constructor
  · rintro ⟨k, hk, hkm⟩
    exact ⟨k, hk, hkm.tail hspans⟩
  · rintro ⟨k, hk, hkn⟩
    exact ⟨k, hk, hkn.tail hspans.symm⟩

/-- The nets can carry what sources assert and relays hand on. -/
theorem carriable_canCarry (circuit : Circuit) (inputs : List (Ident × Signal)) :
    Carriable circuit.components inputs (Netlist.ofWires circuit.wires)
      (CanCarry circuit inputs) where
  sources c hc _ hlevel n hn := ⟨n, ⟨c, hc, hlevel, hn⟩, .refl⟩
  contacts _ hc hrelay v _ _ _ hm hn := canCarry_iff_of_relay hc hrelay hm hn v

/-- Without a contest a net can carry one level at most. -/
theorem Uncontested.functional (h : Uncontested circuit inputs) (n : Nat) (v w : Signal)
    (hv : CanCarry circuit inputs n v) (hw : CanCarry circuit inputs n w) : v = w := by
  obtain ⟨m, hm, hmn⟩ := hv
  obtain ⟨k, hk, hkn⟩ := hw
  exact h m k v w hm hk (hmn.trans (Spans.reverse hkn))

/-- Without a contest the nets are labelled with what they can carry. -/
theorem Uncontested.labelling (h : Uncontested circuit inputs) :
    Labelling circuit.components inputs (Netlist.ofWires circuit.wires)
      (CanCarry circuit inputs) where
  functional := h.functional
  sources := (carriable_canCarry circuit inputs).sources
  contacts _ _ _ _ _ hc hrelay _ _ _ v hm hn := canCarry_iff_of_relay hc hrelay hm hn v

end

/-- After the idle nets were pulled low, a net has a level that it may carry or is low. -/
theorem Netlist.Obeys.ground {netlist : Netlist} {allowed : Nat → Signal → Prop}
    (h : netlist.Obeys allowed) {net : Net} (hnet : net ∈ netlist.ground.nets) :
    allowed net.number net.signal ∨ net.signal = .low := by
  obtain ⟨old, hold, rfl⟩ := List.mem_map.1 hnet
  unfold Net.ground
  split
  · next hd => exact .inl (h.driven old hold hd)
  · exact .inr rfl

/-- Pulling the idle nets low leaves the driven ones. -/
theorem Netlist.mem_ground_of_driven {netlist : Netlist} {net : Net} (hnet : net ∈ netlist.nets)
    (hd : net.driven = true) : net ∈ netlist.ground.nets :=
  List.mem_map.2 ⟨net, hnet, if_pos hd⟩

namespace Bench

/-- A step of uncontested wiring under a cap above the number of nets gives a result if all kinds
can be looked up, and it converges within one round more than there are nets. From each of the
assertions of the step to any later one, and to the end of the step, the nets that are driven stay
as they are. At the end a net has the one level of the sources that it is coupled to, or is low. -/
theorem uncontested_step {circuit : Circuit} {cap : Int} {bench : Bench}
    (h : Reached circuit cap bench) (hfree : Uncontested circuit bench.sim.inputs)
    (hcap : ((Netlist.ofWires circuit.wires).nets.length : Int) + 1 ≤ cap) :
    ((∃ result, bench.step.2 = .ok result) ↔
      circuit.components.all (·.kind.isScalar) = true) ∧
    ∀ result, bench.step.2 = .ok result →
      result.converged = true ∧
      result.iterations ≤ (Netlist.ofWires circuit.wires).nets.length + 1 ∧
      bench.step.1.sim.netlist =
        (bench.sim.netlist.reset.assertAll (bench.sim.assertions circuit)).ground ∧
      (∀ earlier later, earlier <+: later → later <+: bench.sim.assertions circuit →
        ∀ net ∈ (bench.sim.netlist.reset.assertAll earlier).nets, net.driven = true →
          net ∈ (bench.sim.netlist.reset.assertAll later).nets ∧
          net ∈ bench.step.1.sim.netlist.nets) ∧
      ∀ net ∈ bench.step.1.sim.netlist.nets,
        (∃ m, SourceOn circuit bench.sim.inputs m net.signal ∧ Coupled circuit m net.number) ∨
        net.signal = .low := by
  have hb := holds_of_reached h
  refine ⟨hb.step_ok_iff, fun result hresult => ?_⟩
  rw [hb.step_eq] at hresult ⊢
  obtain ⟨hnetlist, -, -, hiterations, hconverged⟩ := Simulator.step_of_ok hresult
  obtain ⟨hrest, hcount⟩ := hb.loaded.settle_converges hfree.labelling (by rwa [hb.cap_eq])
  obtain ⟨hallows, -, hobeys⟩ :=
    hb.loaded.fits.carried (carriable_canCarry circuit bench.sim.inputs)
  have hblank := Netlist.blank_reset bench.sim.netlist
  have hcoherent : bench.sim.netlist.reset.Coherent := by
    rw [hb.loaded.fits.shape]
    exact (Netlist.represents_ofWires circuit.wires).coherent
  have hkeeps : ∀ earlier later, earlier <+: later → later <+: bench.sim.assertions circuit →
      ∀ net ∈ (bench.sim.netlist.reset.assertAll earlier).nets, net.driven = true →
        net ∈ (bench.sim.netlist.reset.assertAll later).nets := fun earlier later hle hlater =>
    Netlist.keeps_of_prefix hfree.functional hcoherent hblank.obeys hle
      (fun a ha => hallows a (hlater.subset ha))
  rw [hiterations, hconverged, hnetlist]
  refine ⟨hrest, hcount, by rw [Simulator.netlist_rounds], ?_, fun net hnet => hobeys.ground hnet⟩
  intro earlier later hle hlater net hnet hd
  refine ⟨hkeeps earlier later hle hlater net hnet hd, ?_⟩
  rw [Simulator.netlist_rounds]
  exact Netlist.mem_ground_of_driven
    (hkeeps earlier _ (hle.trans hlater) (List.prefix_refl _) net hnet hd) hd

/-- A relay that is closed at rest and interrupts its own coil. -/
def buzzer : Circuit where
  placed := [⟨.text "vcc", .power, .zero false, .zero false, .int 0, .null⟩,
    ⟨.text "r", .relayNc, .zero false, .zero false, .int 0, .null⟩].foldl Placement.put {}
  wires := [⟨.text "w1", ⟨.text "vcc", outPort⟩, ⟨.text "r", contactIn⟩⟩,
    ⟨.text "w2", ⟨.text "r", contactOut⟩, ⟨.text "r", coilIn⟩⟩]

/-- The relay opens during the step, and the net that fed its coil stays high for all that. -/
theorem step_buzzer :
    let bench := (ofCircuit buzzer 3).load.1
    Reached buzzer 3 bench ∧ Uncontested buzzer bench.sim.inputs ∧
      (Netlist.ofWires buzzer.wires).nets.length = 2 ∧
      ∃ result, bench.step.2 = .ok result ∧ result.converged = true ∧ result.iterations ≤ 3 ∧
        isClosed bench.step.1.sim.states (.text "r") = false ∧
        ∃ net ∈ bench.step.1.sim.netlist.nets, net.contains ⟨.text "r", coilIn⟩ = true ∧
          net.signal = .high ∧
          ∃ m, SourceOn buzzer bench.sim.inputs m .high ∧ Coupled buzzer m net.number := by
  intro bench
  have hreached : Reached buzzer 3 bench := .load rfl rfl (by decide +kernel)
  have hsource : ∀ n v, SourceOn buzzer bench.sim.inputs n v → v = .high := by
    rintro n v ⟨c, hc, hlevel, -⟩
    have hlevels : ∀ c ∈ buzzer.components,
        ∀ v ∈ sourceLevel? bench.sim.inputs c, v = .high := by decide +kernel
    exact hlevels c hc v hlevel
  have hfree : Uncontested buzzer bench.sim.inputs := fun m n v w hv hw _ =>
    (hsource m v hv).trans (hsource n w hw).symm
  have hlength : (Netlist.ofWires buzzer.wires).nets.length = 2 := by decide +kernel
  obtain ⟨hsome, hsteps⟩ := uncontested_step hreached hfree (by rw [hlength]; decide)
  obtain ⟨result, hresult⟩ := hsome.2 (by decide +kernel)
  obtain ⟨hconverged, hcount, -, -, hlevels⟩ := hsteps result hresult
  rw [hlength] at hcount
  have hcoil : ∃ net ∈ bench.step.1.sim.netlist.nets,
      net.contains ⟨.text "r", coilIn⟩ = true ∧ net.signal = .high := by decide +kernel
  obtain ⟨net, hnet, hcon, hhigh⟩ := hcoil
  refine ⟨hreached, hfree, hlength, result, hresult, hconverged, hcount, by decide +kernel, net,
    hnet, hcon, hhigh, ?_⟩
  have hlevel := hlevels net hnet
  rw [hhigh] at hlevel
  exact hlevel.resolve_right nofun

end Bench

end Switchyard.Relay
