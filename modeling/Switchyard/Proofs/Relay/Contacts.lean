import Switchyard.Proofs.Relay.Labelling

/-!
# What a contact network computes

In a circuit of one stage every wired coil lies on a net with a source (`SingleStage`), so that the
sources alone decide which relays conduct (`Conducts`). A net is fed by the sources that it is
joined to through the contacts of conducting relays (`Fed`). If no net is fed with two levels,
feeding is a labelling of the nets (`ConflictFree.labelling`) and a step comes to rest; and wherever
a step comes to rest, every fed net is driven with the level it is fed with (`Fed.driven`). So the
final levels are those fed, and low elsewhere (`Bench.singleStage_step`).
-/

namespace Switchyard.Relay

/-! ## Feeding -/

/-- A source of a level lies on the net of a number. -/
def SourceOn (circuit : Circuit) (inputs : List (Ident × Signal)) (n : Nat) (level : Signal) :
    Prop :=
  ∃ c ∈ circuit.components, sourceLevel? inputs c = some level ∧
    (Netlist.ofWires circuit.wires).numberAt? ⟨c.id, outPort⟩ = some n

/-- The coil of a relay lies on a net with a source at high. -/
def CoilHigh (circuit : Circuit) (inputs : List (Ident × Signal)) (relay : Ident) : Prop :=
  ∃ n, (Netlist.ofWires circuit.wires).numberAt? ⟨relay, coilIn⟩ = some n ∧
    SourceOn circuit inputs n .high

/-- A relay whose contacts the sources close: one that is open at rest and whose coil is high, or
one that is closed at rest and whose coil is not. -/
def Conducts (circuit : Circuit) (inputs : List (Ident × Signal)) (component : Component) : Prop :=
  component.kind = .relayNo ∧ CoilHigh circuit inputs component.id ∨
    component.kind = .relayNc ∧ ¬ CoilHigh circuit inputs component.id

/-- The contacts of a relay of the given ones lie on the nets of two numbers. -/
def Spans (circuit : Circuit) (relay : Component → Prop) (m n : Nat) : Prop :=
  ∃ c ∈ circuit.components, relay c ∧
    ((Netlist.ofWires circuit.wires).numberAt? ⟨c.id, contactIn⟩ = some m ∧
        (Netlist.ofWires circuit.wires).numberAt? ⟨c.id, contactOut⟩ = some n ∨
      (Netlist.ofWires circuit.wires).numberAt? ⟨c.id, contactIn⟩ = some n ∧
        (Netlist.ofWires circuit.wires).numberAt? ⟨c.id, contactOut⟩ = some m)

/-- The contacts of a conducting relay lie on the nets of two numbers. -/
def Bridges (circuit : Circuit) (inputs : List (Ident × Signal)) (m n : Nat) : Prop :=
  ∃ c ∈ circuit.components, Conducts circuit inputs c ∧
    ((Netlist.ofWires circuit.wires).numberAt? ⟨c.id, contactIn⟩ = some m ∧
        (Netlist.ofWires circuit.wires).numberAt? ⟨c.id, contactOut⟩ = some n ∨
      (Netlist.ofWires circuit.wires).numberAt? ⟨c.id, contactIn⟩ = some n ∧
        (Netlist.ofWires circuit.wires).numberAt? ⟨c.id, contactOut⟩ = some m)

/-- Nets that a path of contacts of conducting relays joins. -/
def Joined (circuit : Circuit) (inputs : List (Ident × Signal)) : Nat → Nat → Prop :=
  Relation.ReflTransGen (Bridges circuit inputs)

/-- A net is joined to one with a source of a level. -/
def Fed (circuit : Circuit) (inputs : List (Ident × Signal)) (n : Nat) (level : Signal) : Prop :=
  ∃ m, SourceOn circuit inputs m level ∧ Joined circuit inputs m n

/-- No two sources of different level lie on one net or on nets that are joined. -/
def ConflictFree (circuit : Circuit) (inputs : List (Ident × Signal)) : Prop :=
  ∀ m n v w, SourceOn circuit inputs m v → SourceOn circuit inputs n w →
    Joined circuit inputs m n → v = w

/-- Every wired coil lies on a net with a source. -/
def SingleStage (circuit : Circuit) : Prop :=
  ∀ c ∈ circuit.components, c.kind.isRelay = true →
    ∀ n, (Netlist.ofWires circuit.wires).numberAt? ⟨c.id, coilIn⟩ = some n →
      ∃ s ∈ circuit.components, s.kind.IsSource ∧
        (Netlist.ofWires circuit.wires).numberAt? ⟨s.id, outPort⟩ = some n

/-- Every input is low or high. -/
def KnownInputs (circuit : Circuit) (inputs : List (Ident × Signal)) : Prop :=
  ∀ c ∈ circuit.components, c.kind = .input → (Assoc.get? c.id inputs).getD .low ≠ .unknown

section
variable {circuit : Circuit} {inputs : List (Ident × Signal)}

/-- A relay spans two nets either way round. -/
theorem Spans.symm {relay : Component → Prop} {m n : Nat} (h : Spans circuit relay m n) :
    Spans circuit relay n m := by
  obtain ⟨c, hc, hrelay, hends⟩ := h
  exact ⟨c, hc, hrelay, hends.symm⟩

/-- A path across relays can be walked backward. -/
theorem Spans.reverse {relay : Component → Prop} {m n : Nat}
    (h : Relation.ReflTransGen (Spans circuit relay) m n) :
    Relation.ReflTransGen (Spans circuit relay) n m := by
  induction h with
  | refl => exact .refl
  | tail _ hstep ih => exact .head hstep.symm ih

/-- A conducting relay bridges the nets that its contacts span. -/
theorem bridges_eq_spans : Bridges circuit inputs = Spans circuit (Conducts circuit inputs) := rfl

theorem Bridges.symm {m n : Nat} (h : Bridges circuit inputs m n) : Bridges circuit inputs n m :=
  Spans.symm h

theorem Joined.symm {m n : Nat} (h : Joined circuit inputs m n) : Joined circuit inputs n m :=
  Spans.reverse h

/-- A net with a source on it is fed by that source. -/
theorem SourceOn.fed {n : Nat} {v : Signal} (h : SourceOn circuit inputs n v) :
    Fed circuit inputs n v :=
  ⟨n, h, .refl⟩

/-- With known inputs every source has a known level. -/
theorem SourceOn.known (hin : KnownInputs circuit inputs) {n : Nat} {v : Signal}
    (h : SourceOn circuit inputs n v) : v ≠ .unknown := by
  obtain ⟨c, hc, hlevel, -⟩ := h
  unfold sourceLevel? at hlevel
  split at hlevel
  · cases hlevel
    exact nofun
  · next hkind =>
    cases hlevel
    exact hin c hc hkind
  · cases hlevel

/-- Without conflict a net is fed with one level. -/
theorem ConflictFree.functional (h : ConflictFree circuit inputs) {n : Nat} {v w : Signal}
    (hv : Fed circuit inputs n v) (hw : Fed circuit inputs n w) : v = w := by
  obtain ⟨m, hm, hmn⟩ := hv
  obtain ⟨k, hk, hkn⟩ := hw
  exact h m k v w hm hk (hmn.trans hkn.symm)

end

/-! ## Relays and nets -/

namespace Netlist

variable {netlist : Netlist}

/-- In a coherent netlist the number of a terminal is that of a net, which gives the terminal its
signal. -/
theorem Coherent.exists_net (h : netlist.Coherent) {t : Terminal} {n : Nat}
    (hn : netlist.numberAt? t = some n) :
    ∃ net ∈ netlist.nets, net.number = n ∧ netlist.netAt? t = some net ∧
      netlist.signalAt t = net.signal := by
  obtain ⟨net, hnet, hnumber, hcon⟩ := (h.member t n).1 hn
  have hat : netlist.netAt? t = some net := h.netAt?_eq_some.2 ⟨hnet, hcon⟩
  refine ⟨net, hnet, hnumber, hat, ?_⟩
  rw [signalAt, hat]
  rfl

end Netlist

section
variable {circuit : Circuit} {inputs : List (Ident × Signal)} {netlist : Netlist}
  (hreset : netlist.reset = Netlist.ofWires circuit.wires)
  (hsourced : Sourced inputs circuit.components netlist)
include hreset

/-- A netlist of the wires is coherent, whatever its levels. -/
theorem coherent_of_reset_ofWires : netlist.Coherent :=
  Netlist.coherent_of_reset (hreset ▸ (Netlist.represents_ofWires circuit.wires).coherent)

/-- It numbers terminals as the netlist of the wires does. -/
theorem numberAt?_ofWires (t : Terminal) :
    (Netlist.ofWires circuit.wires).numberAt? t = netlist.numberAt? t := by
  rw [← hreset]
  rfl

include hsourced

/-- The net of a source that finds its level there. -/
theorem SourceOn.driven {n : Nat} {v : Signal} (h : SourceOn circuit inputs n v) {net : Net}
    (hnet : net ∈ netlist.nets) (hn : net.number = n) : net.signal = v ∧ net.driven = true := by
  obtain ⟨c, hc, hlevel, hnumber⟩ := h
  have hcoherent := coherent_of_reset_ofWires hreset
  rw [numberAt?_ofWires hreset] at hnumber
  obtain ⟨other, hother, hon, hat, -⟩ := hcoherent.exists_net hnumber
  rw [hcoherent.eq_of_number hnet hother (hn.trans hon.symm)]
  exact hsourced c hc v hlevel other hat

/-- In one stage a coil is energized if and only if a source makes it high. -/
theorem energized_iff_coilHigh (hstage : SingleStage circuit) {c : Component}
    (hc : c ∈ circuit.components) (hrelay : c.kind.isRelay = true) :
    energized netlist c.id = true ↔ CoilHigh circuit inputs c.id := by
  have hcoherent := coherent_of_reset_ofWires hreset
  rw [energized, decide_eq_true_iff]
  constructor
  · intro hhigh
    cases hn : netlist.numberAt? ⟨c.id, coilIn⟩ with
    | none =>
      rw [Netlist.signalAt, hcoherent.netAt?_eq_none.2 hn] at hhigh
      cases hhigh
    | some n =>
      have hcoil := (numberAt?_ofWires hreset _).trans hn
      obtain ⟨s, hs, hsource, hsn⟩ := hstage c hc hrelay n hcoil
      obtain ⟨level, hlevel⟩ := Option.ne_none_iff_exists'.1
        (fun hnone => sourceLevel?_eq_none.1 hnone hsource : sourceLevel? inputs s ≠ none)
      obtain ⟨net, hnet, hnumber, -, hsignal⟩ := hcoherent.exists_net hn
      have hon : SourceOn circuit inputs n level := ⟨s, hs, hlevel, hsn⟩
      have hlevel' := (hon.driven hreset hsourced hnet hnumber).1
      rw [← hsignal, hhigh] at hlevel'
      exact ⟨n, hcoil, hlevel' ▸ hon⟩
  · rintro ⟨n, hcoil, hon⟩
    obtain ⟨net, hnet, hnumber, -, hsignal⟩ :=
      hcoherent.exists_net ((numberAt?_ofWires hreset _).symm.trans hcoil)
    rw [hsignal]
    exact (hon.driven hreset hsourced hnet hnumber).1

/-- In one stage a relay that followed the nets is closed if and only if it conducts. -/
theorem closedBy_iff_conducts (hstage : SingleStage circuit) {c : Component}
    (hc : c ∈ circuit.components) (hrelay : c.kind.isRelay = true) :
    ClosedBy netlist c ↔ Conducts circuit inputs c := by
  have henergized := energized_iff_coilHigh hreset hsourced hstage hc hrelay
  have hidle : energized netlist c.id = false ↔ ¬ CoilHigh circuit inputs c.id := by
    rw [← henergized, Bool.not_eq_true]
  unfold ClosedBy Conducts
  cases hkind : c.kind <;> simp_all [Kind.isRelay]

/-! ## Feeding and rounds -/

omit hreset hsourced

/-- Without conflict the nets of one stage are labelled with what they are fed with. -/
theorem ConflictFree.labelling (h : ConflictFree circuit inputs) (hstage : SingleStage circuit) :
    Labelling circuit.components inputs (Netlist.ofWires circuit.wires) (Fed circuit inputs) where
  functional _ _ _ := h.functional
  sources c hc level hlevel n hn := SourceOn.fed ⟨c, hc, hlevel, hn⟩
  contacts netlist hreset _ hsourced c hc hrelay hclosed m n v hm hn := by
    have hconducts := (closedBy_iff_conducts hreset hsourced hstage hc hrelay).1 hclosed
    have hbridges : Bridges circuit inputs m n := ⟨c, hc, hconducts, .inl ⟨hm, hn⟩⟩
    constructor
    · rintro ⟨k, hk, hkm⟩
      exact ⟨k, hk, hkm.tail hbridges⟩
    · rintro ⟨k, hk, hkn⟩
      exact ⟨k, hk, hkn.tail hbridges.symm⟩

/-- Along balanced contacts a known level is the same on all nets. -/
theorem Spans.driven {relay : Component → Prop}
    (hreset : netlist.reset = Netlist.ofWires circuit.wires)
    (hbalanced : ∀ c ∈ circuit.components, relay c → Balanced netlist c.id) {m n : Nat} {v : Signal}
    (hknown : v ≠ .unknown) (hpath : Relation.ReflTransGen (Spans circuit relay) m n)
    (hm : ∀ net ∈ netlist.nets, net.number = m → net.signal = v ∧ net.driven = true) :
    ∀ net ∈ netlist.nets, net.number = n → net.signal = v ∧ net.driven = true := by
  have hcoherent := coherent_of_reset_ofWires hreset
  induction hpath with
  | refl => exact hm
  | @tail k n _ hstep ih =>
    intro net hnet hn
    obtain ⟨c, hc, hrelay, hends⟩ := hstep
    obtain ⟨hout, hinto⟩ := hbalanced c hc hrelay
    simp only [numberAt?_ofWires hreset] at hends
    -- the level of the one contact, known by induction, is that of the other
    have hpass : ∀ {t u : Terminal}, netlist.numberAt? t = some k → netlist.numberAt? u = some n →
        (netlist.signalAt t ≠ .unknown → ∀ far, netlist.netAt? u = some far →
          far.signal = netlist.signalAt t ∧ far.driven = true) →
        net.signal = v ∧ net.driven = true := by
      intro t u ht hu hlevel
      obtain ⟨near, hnear, hnearNumber, -, hsignal⟩ := hcoherent.exists_net ht
      obtain ⟨far, hfar, hfarNumber, hat, -⟩ := hcoherent.exists_net hu
      rw [hsignal, (ih near hnear hnearNumber).1] at hlevel
      rw [hcoherent.eq_of_number hnet hfar (hn.trans hfarNumber.symm)]
      exact hlevel hknown far hat
    rcases hends with ⟨hk, hn'⟩ | ⟨hn', hk⟩
    · exact hpass hk hn' hout
    · exact hpass hk hn' hinto

/-- Where the sources are there and the closed contacts balanced, every net is driven with what it
is fed with. -/
theorem Fed.driven (hstage : SingleStage circuit) (hin : KnownInputs circuit inputs)
    (hreset : netlist.reset = Netlist.ofWires circuit.wires)
    (hsourced : Sourced inputs circuit.components netlist)
    (hbalanced : ∀ c ∈ circuit.components, c.kind.isRelay = true → ClosedBy netlist c →
      Balanced netlist c.id) {n : Nat} {v : Signal} (h : Fed circuit inputs n v) {net : Net}
    (hnet : net ∈ netlist.nets) (hn : net.number = n) : net.signal = v ∧ net.driven = true := by
  obtain ⟨m, hm, hjoined⟩ := h
  rw [Joined, bridges_eq_spans] at hjoined
  refine Spans.driven hreset (fun c hc hconducts => ?_) (hm.known hin) hjoined
    (fun near hnear hnumber => hm.driven hreset hsourced hnear hnumber) net hnet hn
  have hrelay : c.kind.isRelay = true := by
    rcases hconducts with ⟨hkind, -⟩ | ⟨hkind, -⟩ <;> rw [hkind] <;> rfl
  exact hbalanced c hc hrelay ((closedBy_iff_conducts hreset hsourced hstage hc hrelay).2 hconducts)

end

/-! ## Steps of one stage -/

/-- The nets of a netlist carry what they are fed with, and the others nothing. -/
def Carries (circuit : Circuit) (inputs : List (Ident × Signal)) (netlist : Netlist) : Prop :=
  ∀ net ∈ netlist.nets,
    (∀ v, Fed circuit inputs net.number v → net.signal = v ∧ net.driven = true) ∧
    ((∀ v, ¬ Fed circuit inputs net.number v) → net.signal = .unknown ∧ net.driven = false)

namespace Simulator.Loaded

variable {circuit : Circuit} {sim : Simulator} (h : sim.Loaded circuit)
  (hstage : SingleStage circuit) (hin : KnownInputs circuit sim.inputs)
include h hstage hin

/-- A step that comes to rest leaves every net driven with what it is fed with. -/
theorem driven_of_converged (hq : (sim.rounds circuit).2.2 = true) :
    (sim.rounds circuit).1.netlist.reset = Netlist.ofWires circuit.wires ∧
      ∀ net ∈ (sim.rounds circuit).1.netlist.nets, ∀ v, Fed circuit sim.inputs net.number v →
        net.signal = v ∧ net.driven = true := by
  obtain ⟨final, g, hfinal, hreset, hsourced, hfollow, hbalanced⟩ := h.fits.rounds_quiet hq
  rw [hfinal]
  refine ⟨hreset, fun net hnet v hfed => ?_⟩
  refine hfed.driven hstage hin hreset hsourced (fun c hc hrelay hclosed => ?_) hnet rfl
  refine hbalanced c hc hrelay ?_
  rw [← hfollow c hc, ComponentState.closed_follow_relay hrelay]
  exact hclosed

/-- A step comes to rest if and only if the sources are in no conflict. -/
theorem converged_iff
    (hcap : ((Netlist.ofWires circuit.wires).nets.length : Int) + 1 ≤ sim.cap) :
    (sim.rounds circuit).2.2 = true ↔ ConflictFree circuit sim.inputs := by
  constructor
  · intro hq m n v w hv hw hjoined
    obtain ⟨hreset, hdriven⟩ := h.driven_of_converged hstage hin hq
    obtain ⟨c, -, -, hn⟩ := id hw
    rw [numberAt?_ofWires hreset] at hn
    obtain ⟨net, hnet, rfl, -⟩ := (coherent_of_reset_ofWires hreset).exists_net hn
    exact (hdriven net hnet v ⟨m, hv, hjoined⟩).1.symm.trans (hdriven net hnet w hw.fed).1
  · intro hfree
    exact (h.settle_converges (hfree.labelling hstage) hcap).1

/-- A step without conflict ends with the levels that the nets are fed with. -/
theorem carries (hq : (sim.rounds circuit).2.2 = true) (hfree : ConflictFree circuit sim.inputs) :
    Carries circuit sim.inputs (sim.rounds circuit).1.netlist := by
  obtain ⟨hreset, hdriven⟩ := h.driven_of_converged hstage hin hq
  obtain ⟨hshape, f, hf, -⟩ := h
  have hobeys : (sim.rounds circuit).1.netlist.Obeys (Fed circuit sim.inputs) := by
    have hblank := Netlist.blank_ofWires circuit.wires
    rw [rounds, show sim.netlist.reset = _ from hshape, show sim.states = _ from hf]
    exact ((hfree.labelling hstage).settle_obeys circuit.distinctIds
      (Netlist.represents_ofWires circuit.wires).coherent _ _ hblank.reset_eq hblank.obeys f).2
  intro net hnet
  refine ⟨hdriven net hnet, fun hnone => ?_⟩
  cases hd : net.driven with
  | true => exact absurd (hobeys.driven net hnet hd) (hnone _)
  | false => exact ⟨hobeys.idle net hnet hd, rfl⟩

end Simulator.Loaded

/-- A net that carries what it is fed with, and else is pulled low, is high if and only if it is fed
with high, and low otherwise. -/
theorem Carries.ground {circuit : Circuit} {inputs : List (Ident × Signal)} {netlist : Netlist}
    (h : Carries circuit inputs netlist) (hin : KnownInputs circuit inputs) {net : Net}
    (hnet : net ∈ netlist.ground.nets) :
    (net.signal = .high ↔ Fed circuit inputs net.number .high) ∧
      (net.signal = .high ∨ net.signal = .low) := by
  obtain ⟨old, hold, rfl⟩ := List.mem_map.1 hnet
  obtain ⟨hfed, hunfed⟩ := h old hold
  rw [Net.number_ground]
  by_cases hany : ∃ v, Fed circuit inputs old.number v
  · obtain ⟨v, hv⟩ := hany
    obtain ⟨hsignal, hdriven⟩ := hfed v hv
    obtain ⟨m, hm, -⟩ := id hv
    have hknown := hm.known hin
    rw [Net.ground, if_pos hdriven]
    refine ⟨⟨fun hhigh => ?_, fun hhigh => (hfed _ hhigh).1⟩, ?_⟩
    · rw [← hhigh, hsignal]
      exact hv
    · rw [hsignal]
      cases v with
      | low => exact .inr rfl
      | high => exact .inl rfl
      | unknown => exact absurd rfl hknown
  · rw [not_exists] at hany
    obtain ⟨-, hidle⟩ := hunfed hany
    have hlow : old.ground.signal = .low := by rw [Net.ground, if_neg (by simp [hidle])]
    rw [hlow]
    exact ⟨⟨nofun, fun hhigh => absurd hhigh (hany _)⟩, .inr rfl⟩

/-- Two netlists of one circuit that carry the same are the same. -/
theorem Carries.unique {circuit : Circuit} {inputs : List (Ident × Signal)} {a b : Netlist}
    (ha : Carries circuit inputs a) (hb : Carries circuit inputs b) (hab : a.reset = b.reset) :
    a = b := by
  refine Netlist.eq_of_reset hab (fun x hx y hy hnumber => ?_)
  obtain ⟨hxfed, hxunfed⟩ := ha x hx
  obtain ⟨hyfed, hyunfed⟩ := hb y hy
  rw [← hnumber] at hyfed hyunfed
  by_cases hany : ∃ v, Fed circuit inputs x.number v
  · obtain ⟨v, hv⟩ := hany
    obtain ⟨hxs, hxd⟩ := hxfed v hv
    obtain ⟨hys, hyd⟩ := hyfed v hv
    exact ⟨hxs.trans hys.symm, hxd.trans hyd.symm⟩
  · rw [not_exists] at hany
    obtain ⟨hxs, hxd⟩ := hxunfed hany
    obtain ⟨hys, hyd⟩ := hyunfed hany
    exact ⟨hxs.trans hys.symm, hxd.trans hyd.symm⟩

/-! ## The order of the components -/

section
variable {circuit other : Circuit} {inputs values : List (Ident × Signal)}
  (hperm : other.components.Perm circuit.components) (hwires : other.wires = circuit.wires)
  (hsame : SameInputs circuit values inputs)
include hperm hwires hsame

/-- Where sources lie does not depend on the order of the components and inputs. -/
theorem sourceOn_of_perm {n : Nat} {v : Signal} :
    SourceOn other values n v ↔ SourceOn circuit inputs n v := by
  unfold SourceOn
  rw [hwires]
  refine exists_congr (fun c => ?_)
  rw [hperm.mem_iff]
  exact and_congr_right (fun hc => by rw [hsame.sourceLevel?_eq hc])

/-- Which nets are bridged does not depend on the order of the components and inputs. -/
theorem bridges_of_perm {m n : Nat} : Bridges other values m n ↔ Bridges circuit inputs m n := by
  unfold Bridges Conducts CoilHigh
  simp only [sourceOn_of_perm hperm hwires hsame, hwires, hperm.mem_iff]

/-- Which nets are joined does not depend on the order of the components and inputs. -/
theorem joined_of_perm : Joined other values = Joined circuit inputs := by
  have hbridges : Bridges other values = Bridges circuit inputs :=
    funext₂ (fun _ _ => propext (bridges_of_perm hperm hwires hsame))
  rw [Joined, Joined, hbridges]

/-- What nets are fed does not depend on the order of the components and inputs. -/
theorem fed_of_perm {n : Nat} {v : Signal} : Fed other values n v ↔ Fed circuit inputs n v := by
  unfold Fed
  simp only [sourceOn_of_perm hperm hwires hsame, joined_of_perm hperm hwires hsame]

/-- Freedom from conflicts does not depend on the order of the components and inputs. -/
theorem conflictFree_of_perm : ConflictFree other values ↔ ConflictFree circuit inputs := by
  unfold ConflictFree
  simp only [sourceOn_of_perm hperm hwires hsame, joined_of_perm hperm hwires hsame]

/-- What a netlist is to carry does not depend on the order of the components and inputs. -/
theorem carries_of_perm {netlist : Netlist} :
    Carries other values netlist ↔ Carries circuit inputs netlist := by
  unfold Carries
  simp only [fed_of_perm hperm hwires hsame]

omit hwires in
/-- Whether the inputs are known does not depend on the order of the components and inputs. -/
theorem knownInputs_of_perm : KnownInputs other values ↔ KnownInputs circuit inputs := by
  unfold KnownInputs
  refine forall_congr' (fun c => ?_)
  rw [hperm.mem_iff]
  exact forall₂_congr (fun hc hkind => by rw [hsame c hc hkind])

omit hsame in
/-- Whether a circuit has a single stage does not depend on the order of the components. -/
theorem singleStage_of_perm : SingleStage other ↔ SingleStage circuit := by
  unfold SingleStage
  simp only [hwires, hperm.mem_iff]

end

namespace Bench

variable {circuit : Circuit} {cap : Int} {bench : Bench}

/-- A step of a reachable bench that gives a result has made its rounds. -/
theorem Holds.step_eq_ok (h : Holds circuit cap bench) {result : StepResult}
    (hresult : bench.step.2 = .ok result) :
    result.converged = (bench.sim.rounds circuit).2.2 ∧
      bench.step.1.sim.netlist = (bench.sim.rounds circuit).1.netlist.ground := by
  rw [h.step_eq] at hresult ⊢
  obtain ⟨hnetlist, -, -, -, hconverged⟩ := Simulator.step_of_ok hresult
  exact ⟨hconverged, hnetlist⟩

/-- A step of a single-stage circuit with known inputs and a cap above the number of nets gives a
result if all kinds can be looked up. It converges if and only if no two sources of different level
lie on one net or are joined by contacts of conducting relays. If it converges, a net is high if it
is so joined to a source at high, and else low; and another order of the components gives the same
netlist. -/
theorem singleStage_step (h : Reached circuit cap bench) (hstage : SingleStage circuit)
    (hin : KnownInputs circuit bench.sim.inputs)
    (hcap : ((Netlist.ofWires circuit.wires).nets.length : Int) + 1 ≤ cap) :
    ((∃ result, bench.step.2 = .ok result) ↔
      circuit.components.all (·.kind.isScalar) = true) ∧
    ∀ result, bench.step.2 = .ok result →
      (result.converged = true ↔ ConflictFree circuit bench.sim.inputs) ∧
      (result.converged = true → ∀ net ∈ bench.step.1.sim.netlist.nets,
        (net.signal = .high ↔ Fed circuit bench.sim.inputs net.number .high) ∧
        (net.signal = .high ∨ net.signal = .low)) ∧
      ∀ (other : Circuit) (otherCap : Int) (otherBench : Bench),
        other.components.Perm circuit.components → other.wires = circuit.wires →
        Reached other otherCap otherBench →
        ((Netlist.ofWires circuit.wires).nets.length : Int) + 1 ≤ otherCap →
        SameInputs circuit otherBench.sim.inputs bench.sim.inputs →
        ∀ otherResult, otherBench.step.2 = .ok otherResult →
          otherResult.converged = result.converged ∧
          (result.converged = true →
            otherBench.step.1.sim.netlist = bench.step.1.sim.netlist) := by
  have hb := holds_of_reached h
  refine ⟨hb.step_ok_iff, fun result hresult => ?_⟩
  obtain ⟨hconverged, hnetlist⟩ := hb.step_eq_ok hresult
  have hiff := hb.loaded.converged_iff hstage hin (by rwa [hb.cap_eq])
  have hcarries := hb.loaded.carries hstage hin
  rw [hconverged, hnetlist]
  refine ⟨hiff, fun hq net hnet => (hcarries hq (hiff.1 hq)).ground hin hnet, ?_⟩
  intro other otherCap otherBench hperm hwires ho hocap hsame otherResult hotherResult
  have hob := holds_of_reached ho
  obtain ⟨hoconverged, honetlist⟩ := hob.step_eq_ok hotherResult
  have hostage := (singleStage_of_perm hperm hwires).2 hstage
  have hoin := (knownInputs_of_perm hperm hsame).2 hin
  have hoiff := hob.loaded.converged_iff hostage hoin (by rwa [hob.cap_eq, hwires])
  rw [conflictFree_of_perm hperm hwires hsame, ← hiff] at hoiff
  rw [hoconverged, honetlist]
  refine ⟨Bool.eq_iff_iff.2 hoiff, fun hq => congrArg Netlist.ground ?_⟩
  have hfree := hiff.1 hq
  have hocarries := hob.loaded.carries hostage hoin (hoiff.2 hq)
    ((conflictFree_of_perm hperm hwires hsame).2 hfree)
  rw [carries_of_perm hperm hwires hsame] at hocarries
  have hreset := (hb.loaded.driven_of_converged hstage hin hq).1
  have horeset := (hob.loaded.driven_of_converged hostage hoin (hoiff.2 hq)).1
  rw [hwires, ← hreset] at horeset
  exact hocarries.unique (hcarries hq hfree) horeset

/-- A lamp behind two contacts in series, of which the far one comes first in the order: one that
closes when its coil is high, and one that then opens. -/
def series : Circuit where
  placed := [⟨.text "far", .relayNc, .zero false, .zero false, .int 0, .null⟩,
    ⟨.text "near", .relayNo, .zero false, .zero false, .int 0, .null⟩,
    ⟨.text "vcc", .power, .zero false, .zero false, .int 0, .null⟩,
    ⟨.text "a", .input, .zero false, .zero false, .int 0, .null⟩,
    ⟨.text "b", .input, .zero false, .zero false, .int 0, .null⟩,
    ⟨.text "lamp", .output, .zero false, .zero false, .int 0, .null⟩].foldl Placement.put {}
  wires := [⟨.text "w1", ⟨.text "vcc", outPort⟩, ⟨.text "near", contactIn⟩⟩,
    ⟨.text "w2", ⟨.text "a", outPort⟩, ⟨.text "near", coilIn⟩⟩,
    ⟨.text "w3", ⟨.text "near", contactOut⟩, ⟨.text "far", contactIn⟩⟩,
    ⟨.text "w4", ⟨.text "b", outPort⟩, ⟨.text "far", coilIn⟩⟩,
    ⟨.text "w5", ⟨.text "far", contactOut⟩, ⟨.text "lamp", inPort⟩⟩]

/-- With its first input high and its second one low the lamp is joined to the power. -/
theorem step_series :
    let bench := ((ofCircuit series 6).load.1.perform (.setInput (.text "a") (.int 1))).bench
    Reached series 6 bench ∧ SingleStage series ∧ KnownInputs series bench.sim.inputs ∧
      (Netlist.ofWires series.wires).nets.length = 5 ∧
      ConflictFree series bench.sim.inputs ∧
      ∃ net ∈ bench.step.1.sim.netlist.nets, net.contains ⟨.text "lamp", inPort⟩ = true ∧
        net.signal = .high ∧ Fed series bench.sim.inputs net.number .high := by
  intro bench
  have hreached : Reached series 6 bench :=
    .perform (.load rfl rfl (by decide +kernel)) trivial
  have hstage : SingleStage series := by
    have hcoils : ∀ c ∈ series.components, c.kind.isRelay = true →
        ∀ n ∈ (Netlist.ofWires series.wires).numberAt? ⟨c.id, coilIn⟩,
          ∃ s ∈ series.components, (s.kind = .power ∨ s.kind = .input) ∧
            (Netlist.ofWires series.wires).numberAt? ⟨s.id, outPort⟩ = some n := by
      decide +kernel
    exact hcoils
  have hin : KnownInputs series bench.sim.inputs := by
    unfold KnownInputs
    decide +kernel
  have hlength : (Netlist.ofWires series.wires).nets.length = 5 := by decide +kernel
  obtain ⟨hsome, hsteps⟩ := singleStage_step hreached hstage hin (by rw [hlength]; decide)
  obtain ⟨result, hresult⟩ := hsome.2 (by decide +kernel)
  obtain ⟨hiff, hnets, -⟩ := hsteps result hresult
  have hconverged : result.converged = true := by
    have hsome : bench.step.2.toOption.map (·.converged) = some true := by decide +kernel
    rw [hresult] at hsome
    exact Option.some.inj hsome
  have hlamp : ∃ net ∈ bench.step.1.sim.netlist.nets,
      net.contains ⟨.text "lamp", inPort⟩ = true ∧ net.signal = .high := by decide +kernel
  obtain ⟨net, hnet, hcon, hhigh⟩ := hlamp
  exact ⟨hreached, hstage, hin, hlength, hiff.1 hconverged, net, hnet, hcon, hhigh,
    (hnets hconverged net hnet).1.1 hhigh⟩

end Bench

end Switchyard.Relay
