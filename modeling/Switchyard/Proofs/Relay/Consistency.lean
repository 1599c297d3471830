import Switchyard.Proofs.Outcomes
import Switchyard.Proofs.Relay.Assertions
import Switchyard.Proofs.Relay.Contacts

/-!
# What holds where a step comes to rest

A step converges if one round changes nothing, and in such a round all phases agree with each other:
sources find their levels on their nets, coils and switches follow the nets, and closed contacts
have one level on both sides. Pulling the idle nets low afterwards disturbs none of this
(`Consistent`), whatever the coils and switches were before (`Simulator.Fits.consistent`). So a step
that ends with unlike sources on one net, or joined through closed contacts, did not converge
(`Simulator.step_consistent`).
-/

namespace Switchyard.Relay

/-- Nets and states of a circuit that want nothing changed: every source finds its level on its net,
every relay is where its coil's net wants it, and closed contacts have one level on both sides,
unless some input is unknown. -/
structure Consistent (circuit : Circuit) (inputs : List (Ident × Signal)) (netlist : Netlist)
    (states : States) : Prop where
  power : ∀ c ∈ circuit.components, c.kind = .power → ∀ net ∈ netlist.nets,
    net.contains ⟨c.id, outPort⟩ = true → net.signal = .high
  input : ∀ c ∈ circuit.components, c.kind = .input → ∀ net ∈ netlist.nets,
    net.contains ⟨c.id, outPort⟩ = true → net.signal = (Assoc.get? c.id inputs).getD .low
  relay : ∀ c ∈ circuit.components, c.kind.isRelay = true →
    ∃ state, Assoc.get? c.id states = some state ∧
      (state.coil = true ↔ ∃ net ∈ netlist.nets,
        net.contains ⟨c.id, coilIn⟩ = true ∧ net.signal = .high) ∧
      (c.kind = .relayNo → state.closed = state.coil) ∧
      (c.kind = .relayNc → state.closed = !state.coil)
  contacts : KnownInputs circuit inputs → ∀ c ∈ circuit.components, c.kind.isRelay = true →
    isClosed states c.id = true → ∀ a ∈ netlist.nets, ∀ b ∈ netlist.nets,
      a.contains ⟨c.id, contactIn⟩ = true → b.contains ⟨c.id, contactOut⟩ = true →
      a.signal = b.signal

/-- A relay of a circuit whose switch is closed. -/
def Closed (states : States) (component : Component) : Prop :=
  component.kind.isRelay = true ∧ isClosed states component.id = true

/-- Two sources of different level lie on one net or on nets that closed contacts join. -/
def Contested (circuit : Circuit) (inputs : List (Ident × Signal)) (states : States) : Prop :=
  ∃ m n v w, SourceOn circuit inputs m v ∧ SourceOn circuit inputs n w ∧ v ≠ w ∧
    Relation.ReflTransGen (Spans circuit (Closed states)) m n

/-! ## Pulling idle nets low -/

namespace Netlist

variable {netlist : Netlist}

/-- The grounded nets are the nets, each of them grounded. -/
theorem mem_ground {net : Net} :
    net ∈ netlist.ground.nets ↔ ∃ old ∈ netlist.nets, old.ground = net :=
  List.mem_map

/-- Grounding keeps the terminals of a net. -/
theorem contains_ground (net : Net) (t : Terminal) : net.ground.contains t = net.contains t := by
  unfold Net.ground
  split <;> rfl

/-- Where the idle nets have no level, pulling them low makes no net high. -/
theorem signalAt_high_iff (hcoherent : netlist.Coherent)
    (hidle : ∀ net ∈ netlist.nets, net.driven = false → net.signal = .unknown) (t : Terminal) :
    netlist.signalAt t = .high ↔
      ∃ net ∈ netlist.ground.nets, net.contains t = true ∧ net.signal = .high := by
  constructor
  · intro hhigh
    cases hat : netlist.netAt? t with
    | none =>
      rw [signalAt, hat] at hhigh
      cases hhigh
    | some net =>
      rw [signalAt, hat] at hhigh
      obtain ⟨hnet, hcon⟩ := hcoherent.netAt?_eq_some.1 hat
      have hdriven : net.driven = true := by
        by_contra hnot
        rw [Bool.not_eq_true] at hnot
        have hsignal : net.signal = .high := hhigh
        rw [hidle net hnet hnot] at hsignal
        cases hsignal
      exact ⟨net, mem_ground.2 ⟨net, hnet, if_pos hdriven⟩, hcon, hhigh⟩
  · rintro ⟨net, hnet, hcon, hhigh⟩
    obtain ⟨old, hold, rfl⟩ := mem_ground.1 hnet
    rw [contains_ground] at hcon
    rw [signalAt, hcoherent.netAt?_eq_some.2 ⟨hold, hcon⟩]
    unfold Net.ground at hhigh
    split at hhigh
    · exact hhigh
    · cases hhigh

end Netlist

/-! ## A quiet round -/

/-- A relay that is where its coil's net wants it. -/
theorem ComponentState.of_follow_eq {netlist : Netlist} {component : Component}
    {state : ComponentState} (h : state.follow netlist component = state)
    (hrelay : component.kind.isRelay = true) :
    state.coil = energized netlist component.id ∧
      (component.kind = .relayNo → state.closed = state.coil) ∧
      (component.kind = .relayNc → state.closed = !state.coil) := by
  have hcoil : state.coil = energized netlist component.id := by
    rw [← h, follow, if_pos hrelay]
  have hclosed : state.closed = (state.coil != decide (component.kind = .relayNc)) := by
    rw [hcoil, ← closed_follow_relay hrelay, h]
  refine ⟨hcoil, fun hkind => ?_, fun hkind => ?_⟩
  · rw [hclosed, hkind]
    exact Bool.bne_false _
  · rw [hclosed, hkind]
    exact Bool.bne_true _

/-- The state of a component after the levels at all ports were read. -/
theorem get?_readPorts (circuit : Circuit) (netlist : Netlist) (f : Component → ComponentState)
    {c : Component} (hc : c ∈ circuit.components) :
    Assoc.get? c.id (readPorts netlist circuit.components (States.of circuit.components f)) =
      some ((f c).readPorts netlist c) := by
  rw [readPorts_of circuit.distinctIds _ (List.Sublist.refl _),
    States.get?_of circuit.distinctIds hc, if_pos hc]

section
variable {circuit : Circuit} {inputs : List (Ident × Signal)} {netlist : Netlist}

/-- A source finds its level on its net also after the idle nets were pulled low. -/
theorem Sourced.ground (h : Sourced inputs circuit.components netlist)
    (hcoherent : netlist.Coherent) {c : Component} (hc : c ∈ circuit.components) {level : Signal}
    (hlevel : sourceLevel? inputs c = some level) {net : Net} (hnet : net ∈ netlist.ground.nets)
    (hcon : net.contains ⟨c.id, outPort⟩ = true) : net.signal = level := by
  obtain ⟨old, hold, rfl⟩ := Netlist.mem_ground.1 hnet
  rw [Netlist.contains_ground] at hcon
  obtain ⟨hsignal, hdriven⟩ :=
    h c hc level hlevel old (hcoherent.netAt?_eq_some.2 ⟨hold, hcon⟩)
  rw [Net.ground, if_pos hdriven]
  exact hsignal

/-- Balanced contacts have one level after the idle nets were pulled low, if the driven nets have
known levels. -/
theorem Balanced.ground {relay : Ident} (h : Balanced netlist relay) (hcoherent : netlist.Coherent)
    (hobeys : netlist.Obeys (fun _ v => v ≠ .unknown)) {a b : Net} (ha : a ∈ netlist.ground.nets)
    (hb : b ∈ netlist.ground.nets) (hain : a.contains ⟨relay, contactIn⟩ = true)
    (hbout : b.contains ⟨relay, contactOut⟩ = true) : a.signal = b.signal := by
  obtain ⟨x, hx, rfl⟩ := Netlist.mem_ground.1 ha
  obtain ⟨y, hy, rfl⟩ := Netlist.mem_ground.1 hb
  rw [Netlist.contains_ground] at hain hbout
  have hxat := hcoherent.netAt?_eq_some.2 ⟨hx, hain⟩
  have hyat := hcoherent.netAt?_eq_some.2 ⟨hy, hbout⟩
  obtain ⟨hout, hin⟩ := h
  rw [Netlist.signalAt, hxat] at hout
  rw [Netlist.signalAt, hyat] at hin
  -- a driven net has a known level, which the net on the other side must have too
  cases hxd : x.driven with
  | true =>
    obtain ⟨hsignal, hyd⟩ := hout (hobeys.driven x hx hxd) y hyat
    rw [Net.ground, Net.ground, if_pos hxd, if_pos hyd, hsignal]
    rfl
  | false =>
    cases hyd : y.driven with
    | true =>
      obtain ⟨-, hxd'⟩ := hin (hobeys.driven y hy hyd) x hxat
      rw [hxd] at hxd'
      cases hxd'
    | false => rw [Net.ground, Net.ground, if_neg (by simp [hxd]), if_neg (by simp [hyd])]

/-- The levels known to be driven: none is unknown while no input is. -/
theorem carriable_known (circuit : Circuit) (inputs : List (Ident × Signal)) :
    Carriable circuit.components inputs (Netlist.ofWires circuit.wires)
      (fun _ v => KnownInputs circuit inputs → v ≠ .unknown) where
  sources c hc _ hlevel _ hn hin := SourceOn.known hin ⟨c, hc, hlevel, hn⟩
  contacts _ _ _ _ _ _ _ _ _ := Iff.rfl

end

namespace Simulator

variable {circuit : Circuit} {sim : Simulator}

/-- A step that comes to rest leaves consistent nets and states, and closed contacts pass known
levels on. -/
theorem Fits.consistent (h : sim.Fits circuit) (hq : (sim.rounds circuit).2.2 = true) :
    let netlist := (sim.rounds circuit).1.netlist
    let states := readPorts netlist.ground circuit.components (sim.rounds circuit).1.states
    Consistent circuit sim.inputs netlist.ground states ∧
      netlist.reset = Netlist.ofWires circuit.wires ∧
      Sourced sim.inputs circuit.components netlist ∧
      ∀ c ∈ circuit.components, Closed states c → Balanced netlist c.id := by
  obtain ⟨-, -, hobeys⟩ := h.carried (carriable_known circuit sim.inputs)
  obtain ⟨final, g, hfinal, hreset, hsourced, hfollow, hbalanced⟩ := h.rounds_quiet hq
  have hcoherent := coherent_of_reset_ofWires hreset
  rw [hfinal] at hobeys ⊢
  intro netlist states
  have hget : ∀ c ∈ circuit.components, Assoc.get? c.id states =
      some ((g c).readPorts final.ground c) := fun _ => get?_readPorts circuit final.ground g
  have hclosed : ∀ c ∈ circuit.components, isClosed states c.id = (g c).closed := by
    intro c hc
    rw [isClosed, hget c hc]
    rfl
  refine ⟨⟨?_, ?_, ?_, ?_⟩, hreset, hsourced, ?_⟩
  · intro c hc hkind net hnet hcon
    refine hsourced.ground hcoherent hc ?_ hnet hcon
    rw [sourceLevel?, hkind]
  · intro c hc hkind net hnet hcon
    refine hsourced.ground hcoherent hc ?_ hnet hcon
    rw [sourceLevel?, hkind]
  · intro c hc hrelay
    obtain ⟨hcoil, hopen, hshut⟩ := ComponentState.of_follow_eq (hfollow c hc) hrelay
    refine ⟨_, hget c hc, ?_, hopen, hshut⟩
    rw [← Netlist.signalAt_high_iff hcoherent hobeys.idle]
    change (g c).coil = true ↔ _
    rw [hcoil, energized, decide_eq_true_iff]
  · intro hin c hc hrelay hswitch a ha b hb
    rw [hclosed c hc] at hswitch
    exact (hbalanced c hc hrelay hswitch).ground hcoherent
      ⟨fun net hnet hd => hobeys.driven net hnet hd hin, hobeys.idle⟩ ha hb
  · rintro c hc ⟨hrelay, hswitch⟩
    rw [hclosed c hc] at hswitch
    exact hbalanced c hc hrelay hswitch

/-- Where a step came to rest, sources that closed contacts join have one level. -/
theorem not_contested {netlist : Netlist} {states : States} {inputs : List (Ident × Signal)}
    (hreset : netlist.reset = Netlist.ofWires circuit.wires)
    (hsourced : Sourced inputs circuit.components netlist)
    (hbalanced : ∀ c ∈ circuit.components, Closed states c → Balanced netlist c.id) :
    ¬ Contested circuit inputs states := by
  rintro ⟨m, n, v, w, hv, hw, hne, hpath⟩
  -- the known one of the two levels is that of all nets on the path
  have hsame : ∀ {m n : Nat} {v w : Signal}, SourceOn circuit inputs m v →
      SourceOn circuit inputs n w → v ≠ .unknown →
      Relation.ReflTransGen (Spans circuit (Closed states)) m n → v = w := by
    intro m n v w hv hw hknown hpath
    obtain ⟨c, -, -, hn⟩ := id hw
    rw [numberAt?_ofWires hreset] at hn
    obtain ⟨net, hnet, rfl, -⟩ := (coherent_of_reset_ofWires hreset).exists_net hn
    have hdriven := Spans.driven hreset hbalanced hknown hpath
      (fun _ hnear hnumber => hv.driven hreset hsourced hnear hnumber) net hnet rfl
    exact hdriven.1.symm.trans (hw.driven hreset hsourced hnet rfl).1
  by_cases hknown : v = .unknown
  · exact hne (hsame hw hv (fun hunknown => hne (hknown.trans hunknown.symm))
      (Spans.reverse hpath)).symm
  · exact hne (hsame hv hw hknown hpath)

/-- A step of a loaded circuit that converges leaves consistent nets and states, whatever the inputs
and the cap, and wherever coils and switches were; and a step that ends with unlike sources on one
net, or joined through closed contacts, did not converge. -/
theorem step_consistent (h : sim.Fits circuit) {result : StepResult}
    (hresult : (sim.step circuit).2 = .ok result) :
    (result.converged = true → result.states = (sim.step circuit).1.states ∧
      Consistent circuit sim.inputs (sim.step circuit).1.netlist (sim.step circuit).1.states) ∧
    (Contested circuit sim.inputs (sim.step circuit).1.states → result.converged = false) := by
  obtain ⟨hnetlist, hstates, hreported, -, hconverged⟩ := step_of_ok hresult
  rw [hreported, hnetlist, hstates, hconverged]
  refine ⟨fun hq => ⟨rfl, (h.consistent hq).1⟩, fun hcontested => ?_⟩
  by_contra hq
  rw [Bool.not_eq_false] at hq
  obtain ⟨-, hreset, hsourced, hbalanced⟩ := h.consistent hq
  exact not_contested hreset hsourced hbalanced hcontested

/-- A power and an input at low, joined through a relay that is closed at rest. -/
def shorted : Circuit where
  placed := [⟨.text "vcc", .power, .zero false, .zero false, .int 0, .null⟩,
    ⟨.text "a", .input, .zero false, .zero false, .int 0, .null⟩,
    ⟨.text "r", .relayNc, .zero false, .zero false, .int 0, .null⟩].foldl Placement.put {}
  wires := [⟨.text "w1", ⟨.text "vcc", outPort⟩, ⟨.text "r", contactIn⟩⟩,
    ⟨.text "w2", ⟨.text "r", contactOut⟩, ⟨.text "a", outPort⟩⟩]

/-- With its input at high the circuit comes to rest, also from a state in which coil and switch are
not as the nets want them; with its input at low it does not. -/
theorem step_shorted :
    let loaded := Simulator.load 10 shorted
    let stuck : Simulator := { loaded with
      states := loaded.states.adjust (.text "r") (fun s => { s with coil := true, closed := false })
      inputs := [(.text "a", .high)] }
    stuck.Fits shorted ∧
      (∃ result, (stuck.step shorted).2 = .ok result ∧ result.converged = true ∧
        Consistent shorted stuck.inputs (stuck.step shorted).1.netlist
          (stuck.step shorted).1.states) ∧
      Contested shorted loaded.inputs (loaded.step shorted).1.states ∧
      ∃ result, (loaded.step shorted).2 = .ok result ∧ result.converged = false := by
  intro loaded stuck
  have hloaded : loaded.Fits shorted := (loaded_load 10 shorted).fits
  have hstuck : stuck.Fits shorted := by
    refine ⟨hloaded.shape, fun c => if c.id == .text "r" then
      { ComponentState.rest c with coil := true, closed := false } else .rest c, ?_⟩
    decide +kernel
  obtain ⟨result, hresult, hconverged⟩ : ∃ result, (stuck.step shorted).2 = .ok result ∧
      result.converged = true := exists_of_toOption (by decide +kernel)
  have hcontested : Contested shorted loaded.inputs (loaded.step shorted).1.states := by
    refine ⟨0, 1, .high, .low, ?_, ?_, nofun, .single ?_⟩
    · unfold SourceOn
      decide +kernel
    · unfold SourceOn
      decide +kernel
    · unfold Spans Closed
      decide +kernel
  obtain ⟨other, hother, -⟩ : ∃ other, (loaded.step shorted).2 = .ok other ∧
      other.iterations = 10 := exists_of_toOption (by decide +kernel)
  exact ⟨hstuck, ⟨result, hresult, hconverged, ((step_consistent hstuck hresult).1 hconverged).2⟩,
    hcontested, other, hother, (step_consistent hloaded hother).2 hcontested⟩

end Simulator

end Switchyard.Relay
