import Switchyard.Proofs.Relay.Consistency
import Switchyard.Proofs.Relay.Uncontested

/-!
# Relays that are open at rest

A relay that is open at rest closes only while its coil is high, so that a level can be passed on
only where more is high. Let the inputs rise (`Rising`), and let the second of two steps come to
rest. Then every net that the first step makes high, in any of its rounds, is high where the second
one ends: a source that is high in the first is high in the second, and a contact over which the
first passes high is closed where the second ends, for the net of its coil was high before
(`labelling_high`). This is no comparison round by round, for the two steps may close their relays
in different order and take different numbers of rounds.
-/

namespace Switchyard.Relay

/-- All relays of a circuit are open at rest. -/
def NormallyOpen (circuit : Circuit) : Prop :=
  ∀ c ∈ circuit.components, c.kind.isRelay = true → c.kind = .relayNo

/-- Values of the inputs of a circuit, all of them low or high, of which the second are high
wherever the first are. -/
structure Rising (circuit : Circuit) (a b : List (Ident × Signal)) : Prop where
  known_left : KnownInputs circuit a
  known_right : KnownInputs circuit b
  high : ∀ c ∈ circuit.components, c.kind = .input →
    (Assoc.get? c.id a).getD .low = .high → (Assoc.get? c.id b).getD .low = .high

/-- A source that is high stays so when the inputs rise. -/
theorem Rising.sourceLevel?_eq {circuit : Circuit} {a b : List (Ident × Signal)}
    (h : Rising circuit a b) {c : Component} (hc : c ∈ circuit.components)
    (hhigh : sourceLevel? a c = some .high) : sourceLevel? b c = some .high := by
  unfold sourceLevel? at hhigh ⊢
  split at hhigh
  · rfl
  · next hkind => rw [h.high c hc hkind (Option.some.inj hhigh)]
  · cases hhigh

section
variable {circuit : Circuit} {a b : List (Ident × Signal)}

/-- Setting an input to a known level leaves no input unknown. -/
theorem KnownInputs.put (h : KnownInputs circuit a) (id : Ident) {level : Signal}
    (hlevel : level ≠ .unknown) : KnownInputs circuit (Assoc.put id level a) := by
  intro c hc hkind
  rw [Assoc.get?_put]
  split
  · exact hlevel
  · exact h c hc hkind

/-- Inputs that are all low are known. -/
theorem knownInputs_lowInputs (circuit : Circuit) (ports : List Port) :
    KnownInputs circuit (Simulator.lowInputs ports) :=
  List.foldlRecOn ports _ (fun _ _ _ => (by decide : Signal.low ≠ .unknown))
    (fun _ hknown port _ => hknown.put port.component (by decide))

theorem Rising.refl (h : KnownInputs circuit a) : Rising circuit a a :=
  ⟨h, h, fun _ _ _ hhigh => hhigh⟩

/-- Inputs still rise when one of them is set in both, and higher in the second. -/
theorem Rising.put (h : Rising circuit a b) (id : Ident) {v w : Signal} (hv : v ≠ .unknown)
    (hw : w ≠ .unknown) (hvw : v = .high → w = .high) :
    Rising circuit (Assoc.put id v a) (Assoc.put id w b) := by
  refine ⟨h.known_left.put id hv, h.known_right.put id hw, fun c hc hkind => ?_⟩
  rw [Assoc.get?_put, Assoc.get?_put]
  split
  · exact hvw
  · exact h.high c hc hkind

end

/-! ## Nets that are high -/

namespace Netlist

/-- The net of a number is high. -/
def HighAt (netlist : Netlist) (n : Nat) : Prop :=
  ∃ net ∈ netlist.nets, net.number = n ∧ net.signal = .high

variable {netlist : Netlist}

/-- In a coherent netlist a net is high exactly if its terminals read high. -/
theorem Coherent.highAt_iff (h : netlist.Coherent) {t : Terminal} {n : Nat}
    (hn : netlist.numberAt? t = some n) : netlist.HighAt n ↔ netlist.signalAt t = .high := by
  obtain ⟨net, hnet, hnumber, -, hsignal⟩ := h.exists_net hn
  rw [hsignal]
  constructor
  · rintro ⟨other, hother, hon, hhigh⟩
    rwa [h.eq_of_number hnet hother (hnumber.trans hon.symm)]
  · exact fun hhigh => ⟨net, hnet, hnumber, hhigh⟩

/-- A terminal is high if and only if it belongs to a net that is. -/
theorem Coherent.signalAt_eq_high_iff (h : netlist.Coherent) {t : Terminal} :
    netlist.signalAt t = .high ↔ ∃ n, netlist.numberAt? t = some n ∧ netlist.HighAt n := by
  constructor
  · intro hhigh
    cases hn : netlist.numberAt? t with
    | none =>
      rw [signalAt, h.netAt?_eq_none.2 hn] at hhigh
      cases hhigh
    | some n => exact ⟨n, rfl, (h.highAt_iff hn).2 hhigh⟩
  · rintro ⟨n, hn, hhigh⟩
    exact (h.highAt_iff hn).1 hhigh

/-- Where the idle nets have no level, pulling them low makes no net high and none low that was
high. -/
theorem highAt_ground (hidle : ∀ net ∈ netlist.nets, net.driven = false → net.signal = .unknown)
    {n : Nat} : netlist.ground.HighAt n ↔ netlist.HighAt n := by
  constructor
  · rintro ⟨net, hnet, rfl, hhigh⟩
    obtain ⟨old, hold, rfl⟩ := mem_ground.1 hnet
    refine ⟨old, hold, old.number_ground.symm, ?_⟩
    unfold Net.ground at hhigh
    split at hhigh
    · exact hhigh
    · cases hhigh
  · rintro ⟨net, hnet, rfl, hhigh⟩
    have hdriven : net.driven = true := by
      by_contra hnot
      rw [Bool.not_eq_true] at hnot
      rw [hidle net hnet hnot] at hhigh
      cases hhigh
    exact ⟨net, mem_ground_of_driven hnet hdriven, rfl, hhigh⟩

/-- Where a netlist has high all that is high in another one of the same nets, it has the high nets
of that one. -/
theorem exists_high {a b : Netlist} (hreset : a.reset = b.reset) (hb : b.Coherent)
    (hmono : ∀ n, a.HighAt n → b.HighAt n) {net : Net} (hnet : net ∈ a.nets)
    (hhigh : net.signal = .high) :
    ∃ other ∈ b.nets, other.reset = net.reset ∧ other.signal = .high := by
  obtain ⟨other, hother, hnumber, hsignal⟩ := hmono net.number ⟨net, hnet, rfl, hhigh⟩
  have hnets : a.nets.map Net.reset = b.nets.map Net.reset := congrArg nets hreset
  obtain ⟨same, hsame, hsameReset⟩ := List.mem_map.1 (hnets ▸ List.mem_map_of_mem hnet)
  have hon : same.number = other.number := (congrArg Net.number hsameReset).trans hnumber.symm
  refine ⟨other, hother, ?_, hsignal⟩
  rw [← hb.eq_of_number hsame hother hon]
  exact hsameReset

end Netlist

/-- Balanced contacts are both high or neither. -/
theorem Balanced.highAt_iff {netlist : Netlist} {relay : Ident} (h : Balanced netlist relay)
    (hcoherent : netlist.Coherent) {m n : Nat}
    (hm : netlist.numberAt? ⟨relay, contactIn⟩ = some m)
    (hn : netlist.numberAt? ⟨relay, contactOut⟩ = some n) :
    netlist.HighAt m ↔ netlist.HighAt n := by
  obtain ⟨near, -, -, hnear, hnearSignal⟩ := hcoherent.exists_net hm
  obtain ⟨far, -, -, hfar, hfarSignal⟩ := hcoherent.exists_net hn
  rw [hcoherent.highAt_iff hm, hcoherent.highAt_iff hn]
  constructor
  · intro hhigh
    rw [hfarSignal, (h.1 (by rw [hhigh]; decide) far hfar).1, hhigh]
  · intro hhigh
    rw [hnearSignal, (h.2 (by rw [hhigh]; decide) near hnear).1, hhigh]

/-! ## Two steps -/

section
variable {circuit : Circuit} {a b : List (Ident × Signal)} {final : Netlist}

/-- If the inputs rise, the nets of the first step are labelled with what they can carry, and with
high only where the second step ends high. -/
theorem labelling_high (hopen : NormallyOpen circuit) (hrising : Rising circuit a b)
    (hfree : Uncontested circuit a) (hreset : final.reset = Netlist.ofWires circuit.wires)
    (hsourced : Sourced b circuit.components final)
    (hbalanced : ∀ c ∈ circuit.components, c.kind.isRelay = true →
      energized final c.id = true → Balanced final c.id) :
    Labelling circuit.components a (Netlist.ofWires circuit.wires)
      (fun n v => CanCarry circuit a n v ∧ (v = .high → final.HighAt n)) where
  functional n v w hv hw := hfree.functional n v w hv.1 hw.1
  sources c hc level hlevel n hn := by
    refine ⟨(carriable_canCarry circuit a).sources c hc level hlevel n hn, ?_⟩
    rintro rfl
    have hon : SourceOn circuit b n .high := ⟨c, hc, hrising.sourceLevel?_eq hc hlevel, hn⟩
    rw [numberAt?_ofWires hreset] at hn
    obtain ⟨net, hnet, hnumber, -⟩ := (coherent_of_reset_ofWires hreset).exists_net hn
    exact ⟨net, hnet, hnumber, (hon.driven hreset hsourced hnet hnumber).1⟩
  contacts netlist hnetlist hobeys _ c hc hrelay hclosed m n v hm hn := by
    -- the coil is high in the first step, hence where the second one ends
    have henergized : energized netlist c.id = true := by
      rw [ClosedBy, hopen c hc hrelay] at hclosed
      simpa using hclosed
    rw [energized, decide_eq_true_iff] at henergized
    have hcoherent := coherent_of_reset_ofWires hnetlist
    obtain ⟨k, hk, -, hhigh⟩ := hobeys.allowed_signalAt hcoherent (by rw [henergized]; decide)
    have hfinal := coherent_of_reset_ofWires hreset
    rw [← numberAt?_ofWires hnetlist, numberAt?_ofWires hreset] at hk
    have hcoil : energized final c.id = true := by
      rw [energized, decide_eq_true_iff]
      exact (hfinal.highAt_iff hk).1 (hhigh henergized)
    have hsame : CanCarry circuit a m v ↔ CanCarry circuit a n v :=
      canCarry_iff_of_relay hc hrelay hm hn v
    rw [numberAt?_ofWires hreset] at hm hn
    rw [hsame, (hbalanced c hc hrelay hcoil).highAt_iff hfinal hm hn]

end

namespace Simulator

variable {circuit : Circuit} {a b : Simulator}

/-- Whatever a step asserts, idle nets have no level. -/
theorem Fits.idle (h : a.Fits circuit) : ∀ net ∈ (a.rounds circuit).1.netlist.nets,
    net.driven = false → net.signal = .unknown :=
  (h.carried (carriable_known circuit a.inputs)).2.2.idle

/-- If the inputs rise and the second step comes to rest, what is high after the rounds of the
first step is high after those of the second. -/
theorem Fits.highAt_of_rising (ha : a.Fits circuit) (hb : b.Fits circuit)
    (hopen : NormallyOpen circuit) (hrising : Rising circuit a.inputs b.inputs)
    (hfree : Uncontested circuit a.inputs) (hq : (b.rounds circuit).2.2 = true) {n : Nat}
    (hhigh : (a.rounds circuit).1.netlist.HighAt n) : (b.rounds circuit).1.netlist.HighAt n := by
  obtain ⟨final, g, hfinal, hreset, hsourced, hfollow, hbalanced⟩ := hb.rounds_quiet hq
  have hopenBalanced : ∀ c ∈ circuit.components, c.kind.isRelay = true →
      energized final c.id = true → Balanced final c.id := by
    intro c hc hrelay hcoil
    refine hbalanced c hc hrelay ?_
    rw [← hfollow c hc, ComponentState.closed_follow_relay hrelay, hcoil, hopen c hc hrelay]
    rfl
  have hL := labelling_high hopen hrising hfree hreset hsourced hopenBalanced
  obtain ⟨f, hf⟩ := ha.states
  have hblank := Netlist.blank_ofWires circuit.wires
  have hobeys := (hL.settle_obeys circuit.distinctIds
    (Netlist.represents_ofWires circuit.wires).coherent a.cap.toNat 0 hblank.reset_eq hblank.obeys
    f).2
  rw [rounds, ha.shape, hf] at hhigh
  obtain ⟨net, hnet, rfl, hsignal⟩ := hhigh
  rw [hfinal]
  cases hdriven : net.driven with
  | true => exact (hobeys.driven net hnet hdriven).2 hsignal
  | false =>
    rw [hobeys.idle net hnet hdriven] at hsignal
    cases hsignal

end Simulator

/-- The coil of a component is energized. -/
def Energized (states : States) (id : Ident) : Prop :=
  ∃ state, Assoc.get? id states = some state ∧ state.coil = true

/-- In a consistent state a relay is energized exactly if its coil lies on a high net. -/
theorem Consistent.energized_iff {circuit : Circuit} {inputs : List (Ident × Signal)}
    {netlist : Netlist} {states : States} (h : Consistent circuit inputs netlist states)
    {c : Component} (hc : c ∈ circuit.components) (hrelay : c.kind.isRelay = true) :
    Energized states c.id ↔
      ∃ net ∈ netlist.nets, net.contains ⟨c.id, coilIn⟩ = true ∧ net.signal = .high := by
  obtain ⟨state, hstate, hcoil, -⟩ := h.relay c hc hrelay
  rw [← hcoil, Energized, hstate]
  constructor
  · rintro ⟨_, ⟨⟩, hon⟩
    exact hon
  · exact fun hon => ⟨state, rfl, hon⟩

namespace Bench

variable {circuit : Circuit} {capA capB : Int} {a b : Bench}

/-- After a step that gives a result the nets are those of the wires. -/
theorem Holds.reset_step (h : a.Holds circuit capA) :
    a.step.1.sim.netlist.reset = Netlist.ofWires circuit.wires := by
  rw [h.step_eq]
  exact h.withStep.loaded.shape

/-- If the inputs rise and the second step converges, what is high after the first step is high
after the second. -/
theorem Holds.highAt_of_rising (ha : a.Holds circuit capA) (hb : b.Holds circuit capB)
    (hopen : NormallyOpen circuit) (hrising : Rising circuit a.sim.inputs b.sim.inputs)
    (hfree : Uncontested circuit a.sim.inputs) {resultA resultB : StepResult}
    (hresultA : a.step.2 = .ok resultA) (hresultB : b.step.2 = .ok resultB)
    (hconverged : resultB.converged = true) {n : Nat} (hhigh : a.step.1.sim.netlist.HighAt n) :
    b.step.1.sim.netlist.HighAt n := by
  rw [ha.step_eq] at hresultA hhigh
  rw [hb.step_eq] at hresultB ⊢
  obtain ⟨hnetA, -⟩ := Simulator.step_of_ok hresultA
  obtain ⟨hnetB, -, -, -, hquiet⟩ := Simulator.step_of_ok hresultB
  rw [hnetA, Netlist.highAt_ground ha.loaded.fits.idle] at hhigh
  rw [hnetB, Netlist.highAt_ground hb.loaded.fits.idle]
  exact ha.loaded.fits.highAt_of_rising hb.loaded.fits hopen hrising hfree
    (hquiet.symm.trans hconverged) hhigh

/-- So is every terminal that is high after the first step. -/
theorem Holds.signalAt_of_rising (ha : a.Holds circuit capA) (hb : b.Holds circuit capB)
    (hopen : NormallyOpen circuit) (hrising : Rising circuit a.sim.inputs b.sim.inputs)
    (hfree : Uncontested circuit a.sim.inputs) {resultA resultB : StepResult}
    (hresultA : a.step.2 = .ok resultA) (hresultB : b.step.2 = .ok resultB)
    (hconverged : resultB.converged = true) {t : Terminal}
    (hhigh : a.step.1.sim.netlist.signalAt t = .high) :
    b.step.1.sim.netlist.signalAt t = .high := by
  rw [(coherent_of_reset_ofWires ha.reset_step).signalAt_eq_high_iff] at hhigh
  obtain ⟨n, hn, hhigh⟩ := hhigh
  rw [← numberAt?_ofWires ha.reset_step, numberAt?_ofWires hb.reset_step] at hn
  exact ((coherent_of_reset_ofWires hb.reset_step).highAt_iff hn).1
    (ha.highAt_of_rising hb hopen hrising hfree hresultA hresultB hconverged hhigh)

/-- Uncontested wiring comes to rest, with consistent nets and states. -/
theorem Holds.consistent_of_uncontested (h : a.Holds circuit capA)
    (hfree : Uncontested circuit a.sim.inputs)
    (hcap : ((Netlist.ofWires circuit.wires).nets.length : Int) + 1 ≤ capA) {result : StepResult}
    (hresult : a.step.2 = .ok result) :
    result.converged = true ∧
      Consistent circuit a.sim.inputs a.step.1.sim.netlist result.states := by
  rw [h.step_eq] at hresult ⊢
  obtain ⟨-, -, -, -, hquiet⟩ := Simulator.step_of_ok hresult
  have hconverged : result.converged = true :=
    hquiet.trans (h.loaded.settle_converges hfree.labelling (by rwa [h.cap_eq])).1
  obtain ⟨hstates, hconsistent⟩ :=
    (Simulator.step_consistent h.loaded.fits hresult).1 hconverged
  rw [hstates]
  exact ⟨hconverged, hconsistent⟩

/-- Of relays that are open at rest, in wiring that neither inputs contest, both steps come to rest
if the inputs rise, and the nets that end high and the coils that end energized in the first do so
in the second. -/
theorem Holds.rising_step (ha : a.Holds circuit capA) (hb : b.Holds circuit capB)
    (hopen : NormallyOpen circuit) (hrising : Rising circuit a.sim.inputs b.sim.inputs)
    (hfreeA : Uncontested circuit a.sim.inputs) (hfreeB : Uncontested circuit b.sim.inputs)
    (hcapA : ((Netlist.ofWires circuit.wires).nets.length : Int) + 1 ≤ capA)
    (hcapB : ((Netlist.ofWires circuit.wires).nets.length : Int) + 1 ≤ capB)
    {resultA resultB : StepResult} (hresultA : a.step.2 = .ok resultA)
    (hresultB : b.step.2 = .ok resultB) :
    resultA.converged = true ∧ resultB.converged = true ∧
      (∀ net ∈ a.step.1.sim.netlist.nets, net.signal = .high →
        ∃ other ∈ b.step.1.sim.netlist.nets, other.reset = net.reset ∧ other.signal = .high) ∧
      ∀ c ∈ circuit.components, c.kind.isRelay = true →
        Energized resultA.states c.id → Energized resultB.states c.id := by
  obtain ⟨hconvergedA, hconsistentA⟩ := ha.consistent_of_uncontested hfreeA hcapA hresultA
  obtain ⟨hconvergedB, hconsistentB⟩ := hb.consistent_of_uncontested hfreeB hcapB hresultB
  have hnets : ∀ net ∈ a.step.1.sim.netlist.nets, net.signal = .high →
      ∃ other ∈ b.step.1.sim.netlist.nets, other.reset = net.reset ∧ other.signal = .high := by
    intro net hnet
    exact Netlist.exists_high (ha.reset_step.trans hb.reset_step.symm)
      (coherent_of_reset_ofWires hb.reset_step)
      (fun _ => ha.highAt_of_rising hb hopen hrising hfreeA hresultA hresultB hconvergedB) hnet
  refine ⟨hconvergedA, hconvergedB, hnets, fun c hc hrelay => ?_⟩
  rw [hconsistentA.energized_iff hc hrelay, hconsistentB.energized_iff hc hrelay]
  rintro ⟨net, hnet, hcon, hhigh⟩
  obtain ⟨other, hother, hreset, hotherHigh⟩ := hnets net hnet hhigh
  refine ⟨other, hother, ?_, hotherHigh⟩
  rw [← Net.contains_reset, hreset, Net.contains_reset]
  exact hcon

end Bench

end Switchyard.Relay
