import Switchyard.Proofs.Relay.History

/-!
# Labelled nets

A labelling gives every net the levels that it may carry: at most one, that of the sources on it,
and the same on both sides of a contact that may close (`Labelling`). Rounds from the reset nets
then assert labels only (`Labelling.round_advance`), so that a net keeps the level it was first
driven with, and every round whose contacts change anything drives one more net. A round whose
contacts change nothing is followed by one that changes nothing at all; hence the rounds come to
rest, one after the last net was driven at the latest (`Labelling.settle_converges`).
-/

namespace Switchyard.Relay

/-! ## Sources that are there already -/

section
variable {inputs : List (Ident × Signal)}

/-- Sources for some components are sources for all but the first. -/
theorem Sourced.tail {c : Component} {rest : List Component} {netlist : Netlist}
    (h : Sourced inputs (c :: rest) netlist) : Sourced inputs rest netlist :=
  fun d hd => h d (List.mem_cons_of_mem _ hd)

/-- Sources that find their levels on their nets change nothing. -/
theorem Sourced.driveSources_eq {components : List Component} {netlist : Netlist}
    (h : Sourced inputs components netlist) (hcoherent : netlist.Coherent) :
    driveSources inputs components netlist = (netlist, false) := by
  induction components with
  | nil => rfl
  | cons c rest ih =>
    have hhead : driveSource inputs netlist c = (netlist, false) := by
      unfold driveSource
      split
      · next level hlevel =>
        cases hnet : netlist.netAt? ⟨c.id, outPort⟩ with
        | none => exact Netlist.drive_of_none hnet
        | some net =>
          obtain ⟨hs, hd⟩ := h c List.mem_cons_self level hlevel net hnet
          rw [Netlist.drive_of_some hnet,
            hcoherent.update_drive_eq_self (hcoherent.netAt?_eq_some.1 hnet).1 hs hd,
            Net.changes_eq_false.2 ⟨hs, hd⟩]
      · rfl
    dsimp only [driveSources]
    rw [hhead, ih h.tail]
    rfl

end

namespace Netlist

variable {netlist : Netlist} {t : Terminal} {level : Signal} {allowed : Nat → Signal → Prop}

/-- A level that was asserted is there. -/
theorem Coherent.netAt?_drive (h : netlist.Coherent) {net : Net}
    (hnet : (netlist.drive t level).1.netAt? t = some net) :
    net.signal = level ∧ net.driven = true := by
  have hnext : (netlist.drive t level).1.Coherent := h.of_reset (reset_drive _ _ _)
  obtain ⟨hmem, hcon⟩ := hnext.netAt?_eq_some.1 hnet
  cases ht : netlist.netAt? t with
  | none =>
    rw [drive_of_none ht, ht] at hnet
    cases hnet
  | some first =>
    obtain ⟨hfirst, hfcon⟩ := h.netAt?_eq_some.1 ht
    rw [drive_of_some ht] at hmem
    obtain ⟨old, hold, rfl⟩ := mem_update.1 hmem
    by_cases hn : old.number = first.number
    · rw [if_pos hn]
      exact ⟨rfl, rfl⟩
    · rw [if_neg hn] at hcon
      have hsame := h.netAt?_eq_some.2 ⟨hold, hcon⟩
      rw [ht, Option.some.injEq] at hsame
      exact absurd (congrArg Net.number hsame.symm) hn

/-- A known level at a terminal is one that its net may carry. -/
theorem Obeys.allowed_signalAt (h : netlist.Obeys allowed) (hcoherent : netlist.Coherent)
    (hknown : netlist.signalAt t ≠ .unknown) :
    ∃ n, netlist.numberAt? t = some n ∧ allowed n (netlist.signalAt t) := by
  cases ht : netlist.netAt? t with
  | none =>
    rw [signalAt, ht] at hknown
    exact absurd rfl hknown
  | some net =>
    obtain ⟨hnet, hcon⟩ := hcoherent.netAt?_eq_some.1 ht
    have hsignal : netlist.signalAt t = net.signal := by
      rw [signalAt, ht]
      rfl
    rw [hsignal] at hknown ⊢
    refine ⟨net.number, (hcoherent.contains_iff hnet t).1 hcon, ?_⟩
    cases hdriven : net.driven with
    | true => exact h.driven net hnet hdriven
    | false => exact absurd (h.idle net hnet hdriven) hknown

/-- A terminal without a net has none at other levels either. -/
theorem Coherent.netAt?_eq_none_of_reset {a b : Netlist} (ha : a.Coherent)
    (hab : b.reset = a.reset) (ht : a.netAt? t = none) : b.netAt? t = none := by
  rw [(ha.of_reset hab).netAt?_eq_none, numberAt?_of_reset hab]
  exact ha.netAt?_eq_none.1 ht

/-- Blank nets obey whatever they may carry. -/
theorem Blank.obeys (h : netlist.Blank) : netlist.Obeys allowed where
  driven net hnet hd := by
    rw [← h net hnet] at hd
    cases hd
  idle net hnet _ := (congrArg Net.signal (h net hnet)).symm

/-- Advancing keeps the net of a terminal once it is driven. -/
theorem Advance.netAt?_eq {next : Netlist × Bool} (h : Advance allowed netlist next)
    (hcoherent : netlist.Coherent) {net : Net} (hnet : netlist.netAt? t = some net)
    (hdriven : net.driven = true) : next.1.netAt? t = some net := by
  obtain ⟨hmem, hcon⟩ := hcoherent.netAt?_eq_some.1 hnet
  exact (hcoherent.of_reset h.shape).netAt?_eq_some.2 ⟨h.keeps net hmem hdriven, hcon⟩

end Netlist

open Netlist (Advance)

/-! ## Phases that assert labels -/

section
variable {inputs : List (Ident × Signal)} {allowed : Nat → Signal → Prop}

/-- A source finds its level on its net once it is driven. -/
theorem sourced_driveSource {netlist : Netlist} (h : netlist.Coherent) (c : Component) :
    Sourced inputs [c] (driveSource inputs netlist c).1 := by
  intro d hd level hlevel net hnet
  obtain rfl := List.mem_singleton.1 hd
  rw [driveSource, hlevel] at hnet
  exact h.netAt?_drive hnet

/-- Sources that are there stay there while the nets advance. -/
theorem Sourced.advance {components : List Component} {netlist : Netlist}
    {next : Netlist × Bool} (h : Sourced inputs components netlist) (hcoherent : netlist.Coherent)
    (hnext : Advance allowed netlist next) : Sourced inputs components next.1 := by
  intro c hc level hlevel net hnet
  cases hold : netlist.netAt? ⟨c.id, outPort⟩ with
  | none =>
    rw [hcoherent.netAt?_eq_none_of_reset hnext.shape hold] at hnet
    cases hnet
  | some old =>
    have hsourced := h c hc level hlevel old hold
    rw [hnext.netAt?_eq hcoherent hold hsourced.2] at hnet
    cases hnet
    exact hsourced

variable (hfun : ∀ n v w, allowed n v → allowed n w → v = w)
include hfun

/-- Driving a source at a level that its net may carry is an advance. -/
theorem advance_driveSource {netlist : Netlist} (h : netlist.Coherent)
    (hobeys : netlist.Obeys allowed) {c : Component}
    (hc : ∀ level, sourceLevel? inputs c = some level →
      ∀ n, netlist.numberAt? ⟨c.id, outPort⟩ = some n → allowed n level) :
    Advance allowed netlist (driveSource inputs netlist c) := by
  unfold driveSource
  split
  · next level hlevel => exact .drive h hfun hobeys (hc level hlevel)
  · exact .refl hobeys

/-- Sources that assert labels advance the netlist, and each of them finds its level there then. -/
theorem advance_driveSources {components : List Component} {netlist : Netlist}
    (h : netlist.Coherent) (hobeys : netlist.Obeys allowed)
    (hsources : ∀ c ∈ components, ∀ level, sourceLevel? inputs c = some level →
      ∀ n, netlist.numberAt? ⟨c.id, outPort⟩ = some n → allowed n level) :
    Advance allowed netlist (driveSources inputs components netlist) ∧
      Sourced inputs components (driveSources inputs components netlist).1 := by
  induction components generalizing netlist with
  | nil => exact ⟨.refl hobeys, nofun⟩
  | cons c rest ih =>
    have hhead := advance_driveSource hfun h hobeys (hsources c List.mem_cons_self)
    have hmid := h.of_reset hhead.shape
    obtain ⟨hadvance, hsourced⟩ := ih hmid hhead.obeys (fun d hd level hlevel n hn =>
      hsources d (List.mem_cons_of_mem _ hd) level hlevel n
        ((Netlist.numberAt?_of_reset hhead.shape _).symm.trans hn))
    refine ⟨hhead.trans hadvance, fun d hd level hlevel net hnet => ?_⟩
    rcases List.mem_cons.1 hd with rfl | hd
    · -- what the first source asserted is kept by the others
      have hfirst := (sourced_driveSource h d).advance hmid hadvance
      exact hfirst d (List.mem_singleton.2 rfl) level hlevel net hnet
    · exact hsourced d hd level hlevel net hnet

/-- Passing on a level that the target may carry is an advance. -/
theorem advance_pass {netlist : Netlist} (h : netlist.Coherent) (hobeys : netlist.Obeys allowed)
    {level : Signal} {target : Terminal}
    (hlevel : level ≠ .unknown → ∀ n, netlist.numberAt? target = some n → allowed n level) :
    Advance allowed netlist (pass netlist level target) := by
  unfold pass
  split
  · exact .refl hobeys
  · next hknown => exact .drive h hfun hobeys (hlevel hknown)

/-- A contact whose nets have the same labels advances the netlist. -/
theorem advance_passContact {states : States} {netlist : Netlist} (h : netlist.Coherent)
    (hobeys : netlist.Obeys allowed) {c : Component}
    (hc : c.kind.isRelay = true → isClosed states c.id = true → ∀ m n v,
      netlist.numberAt? ⟨c.id, contactIn⟩ = some m → netlist.numberAt? ⟨c.id, contactOut⟩ = some n →
      (allowed m v ↔ allowed n v)) :
    Advance allowed netlist (passContact states netlist c) := by
  by_cases hactive : (c.kind.isRelay && isClosed states c.id) = true
  · rw [passContact, if_pos hactive]
    rw [Bool.and_eq_true] at hactive
    have hsame := hc hactive.1 hactive.2
    have hfirst : Advance allowed netlist
        (pass netlist (netlist.signalAt ⟨c.id, contactIn⟩) ⟨c.id, contactOut⟩) := by
      refine advance_pass hfun h hobeys (fun hknown n hn => ?_)
      obtain ⟨m, hm, hallowed⟩ := hobeys.allowed_signalAt h hknown
      exact (hsame m n _ hm hn).1 hallowed
    refine hfirst.trans (advance_pass hfun (h.of_reset hfirst.shape) hfirst.obeys
      (fun hknown m hm => ?_))
    obtain ⟨n, hn, hallowed⟩ := hobeys.allowed_signalAt h hknown
    rw [Netlist.numberAt?_of_reset hfirst.shape] at hm
    exact (hsame m n _ hm hn).2 hallowed
  · rw [passContact, if_neg hactive]
    exact .refl hobeys

/-- Passing the contacts is an advance if both sides of every closed one may carry the same levels.
-/
theorem advance_passContacts {states : States} {components : List Component} {netlist : Netlist}
    (h : netlist.Coherent) (hobeys : netlist.Obeys allowed)
    (hcontacts : ∀ c ∈ components, c.kind.isRelay = true → isClosed states c.id = true → ∀ m n v,
      netlist.numberAt? ⟨c.id, contactIn⟩ = some m → netlist.numberAt? ⟨c.id, contactOut⟩ = some n →
      (allowed m v ↔ allowed n v)) :
    Advance allowed netlist (passContacts states components netlist) := by
  induction components generalizing netlist with
  | nil => exact .refl hobeys
  | cons c rest ih =>
    have hhead := advance_passContact hfun h hobeys (hcontacts c List.mem_cons_self)
    refine hhead.trans (ih (h.of_reset hhead.shape) hhead.obeys (fun d hd => ?_))
    simp only [Netlist.numberAt?_of_reset hhead.shape]
    exact hcontacts d (List.mem_cons_of_mem _ hd)

end

/-! ## Labellings -/

/-- Whether the switch of a relay that followed the nets is closed. -/
def ClosedBy (netlist : Netlist) (component : Component) : Prop :=
  (energized netlist component.id != decide (component.kind = .relayNc)) = true

/-- Levels that the nets of a circuit may carry: one for each net at most, those of the sources on
it, and the same ones on both sides of a relay that is closed while the sources are there and the
driven nets carry such levels. -/
structure Labelling (components : List Component) (inputs : List (Ident × Signal))
    (nets : Netlist) (allowed : Nat → Signal → Prop) : Prop where
  functional : ∀ n v w, allowed n v → allowed n w → v = w
  sources : ∀ c ∈ components, ∀ level, sourceLevel? inputs c = some level →
    ∀ n, nets.numberAt? ⟨c.id, outPort⟩ = some n → allowed n level
  contacts : ∀ netlist : Netlist, netlist.reset = nets → netlist.Obeys allowed →
    Sourced inputs components netlist →
    ∀ c ∈ components, c.kind.isRelay = true → ClosedBy netlist c → ∀ m n v,
      nets.numberAt? ⟨c.id, contactIn⟩ = some m → nets.numberAt? ⟨c.id, contactOut⟩ = some n →
      (allowed m v ↔ allowed n v)

namespace Labelling

variable {components : List Component} {inputs : List (Ident × Signal)} {nets : Netlist}
  {allowed : Nat → Signal → Prop} (hL : Labelling components inputs nets allowed)
  (hd : DistinctIds components) (hnets : nets.Coherent)
include hL hnets

omit hL in
/-- Nets that are those of the wires but for levels are coherent. -/
theorem coherent_of_reset {netlist : Netlist} (h : netlist.reset = nets) : netlist.Coherent :=
  Netlist.coherent_of_reset (h ▸ hnets)

/-- The sources advance the nets. -/
theorem driveSources_advance {netlist : Netlist} (h : netlist.reset = nets)
    (hobeys : netlist.Obeys allowed) :
    Advance allowed netlist (driveSources inputs components netlist) ∧
      Sourced inputs components (driveSources inputs components netlist).1 := by
  refine advance_driveSources hL.functional (coherent_of_reset hnets h) hobeys ?_
  intro c hc level hlevel n hn
  refine hL.sources c hc level hlevel n ?_
  rw [← h]
  exact hn

include hd

/-- The contacts of the relays that followed the driven nets advance these. -/
theorem passContacts_advance {netlist : Netlist} (h : netlist.reset = nets)
    (hobeys : netlist.Obeys allowed) (hsourced : Sourced inputs components netlist)
    (f : Component → ComponentState) :
    Advance allowed netlist (passContacts (States.of components (fun c => (f c).follow netlist c))
      components netlist) := by
  refine advance_passContacts hL.functional (coherent_of_reset hnets h) hobeys ?_
  intro c hc hrelay hclosed m n v hm hn
  rw [States.isClosed_of hd hc, ComponentState.closed_follow_relay hrelay] at hclosed
  refine hL.contacts netlist h hobeys hsourced c hc hrelay hclosed m n v ?_ ?_
  · rw [← h]
    exact hm
  · rw [← h]
    exact hn

/-- A round advances the nets twice: to those that the sources drive, and on to those that the
contacts of the relays pass levels to. -/
theorem round_advance {netlist : Netlist} (h : netlist.reset = nets)
    (hobeys : netlist.Obeys allowed) (f : Component → ComponentState) :
    let driven := driveSources inputs components netlist
    let passed := passContacts (States.of components (fun c => (f c).follow driven.1 c))
      components driven.1
    Advance allowed netlist driven ∧ Sourced inputs components driven.1 ∧
      Advance allowed driven.1 passed ∧ Sourced inputs components passed.1 := by
  intro driven passed
  obtain ⟨hdriven, hsourced⟩ := hL.driveSources_advance hnets h hobeys
  have hpassed := hL.passContacts_advance hd hnets (hdriven.shape.trans h) hdriven.obeys hsourced f
  have hcoherent := coherent_of_reset hnets (hdriven.shape.trans h)
  exact ⟨hdriven, hsourced, hpassed, hsourced.advance hcoherent hpassed⟩

/-- Rounds assert labels only. -/
theorem settle_obeys (fuel done : Nat) {netlist : Netlist} (h : netlist.reset = nets)
    (hobeys : netlist.Obeys allowed) (f : Component → ComponentState) :
    (Scene.settle components inputs fuel done
        ⟨netlist, States.of components f⟩).1.netlist.reset = nets ∧
      (Scene.settle components inputs fuel done
        ⟨netlist, States.of components f⟩).1.netlist.Obeys allowed := by
  let P (scene : Scene) : Prop := scene.netlist.reset = nets ∧ scene.netlist.Obeys allowed ∧
    ∃ g, scene.states = States.of components g
  have hround : ∀ scene, P scene → P (scene.round components inputs).1 := by
    rintro ⟨netlist, _⟩ ⟨h, hobeys, g, rfl⟩
    obtain ⟨hdriven, -, hpassed, -⟩ := hL.round_advance hd hnets h hobeys g
    rw [Scene.round_of hd]
    exact ⟨(hpassed.shape.trans hdriven.shape).trans h, hpassed.obeys, _, rfl⟩
  obtain ⟨hreset, hobeys', -⟩ := Scene.settle_induction hround fuel done
    ⟨netlist, States.of components f⟩ ⟨h, hobeys, f, rfl⟩
  exact ⟨hreset, hobeys'⟩

/-- Rounds come to rest after two more than there are nets that the sources leave idle. -/
theorem settle_converges : ∀ {fuel : Nat} (done : Nat) {netlist : Netlist}
    (f : Component → ComponentState), netlist.reset = nets → netlist.Obeys allowed →
    (driveSources inputs components netlist).1.idleCount + 2 ≤ fuel →
    (Scene.settle components inputs fuel done ⟨netlist, States.of components f⟩).2.2 = true ∧
      (Scene.settle components inputs fuel done ⟨netlist, States.of components f⟩).2.1 ≤
        done + ((driveSources inputs components netlist).1.idleCount + 2)
  | fuel + 1, done, netlist, f, h, hobeys, hfuel => by
    obtain ⟨hdriven, hsourced, hpassed, hsourced'⟩ := hL.round_advance hd hnets h hobeys f
    have hround := Scene.round_of (f := f) hd inputs netlist
    have hreset := hdriven.shape.trans h
    have hcoherent := coherent_of_reset hnets hreset
    rw [Scene.settle_succ, hround]
    dsimp only at hround ⊢
    generalize driveSources inputs components netlist = driven at *
    split
    swap
    · exact ⟨rfl, by dsimp only; omega⟩
    · cases hquiet : (passContacts (States.of components (fun c => (f c).follow driven.1 c))
          components driven.1).2 with
      | true =>
        -- the contacts drove a net, and the sources have nothing to add
        have hfewer := hpassed.fewer hquiet
        have hsources := hsourced'.driveSources_eq (hcoherent.of_reset hpassed.shape)
        have hfuel' : (driveSources inputs components (passContacts (States.of components
            (fun c => (f c).follow driven.1 c)) components driven.1).1).1.idleCount + 2 ≤ fuel := by
          rw [hsources]
          dsimp only
          omega
        have hrest := settle_converges (done + 1) (fun c => (f c).follow driven.1 c)
          (hpassed.shape.trans hreset) hpassed.obeys hfuel'
        rw [hsources] at hrest
        dsimp only at hrest
        exact ⟨hrest.1, by omega⟩
      | false =>
        -- the next round finds the sources, the relays and the contacts as they are
        have hnext : Scene.round components inputs
            ⟨driven.1, States.of components (fun c => (f c).follow driven.1 c)⟩ =
            (⟨driven.1, States.of components (fun c => (f c).follow driven.1 c)⟩, false) := by
          rw [Scene.round_of hd, hsourced.driveSources_eq hcoherent]
          dsimp only
          simp only [ComponentState.follow_follow]
          rw [hquiet, hpassed.quiet hquiet]
          simp
        obtain ⟨fuel, rfl⟩ : ∃ more, fuel = more + 1 := ⟨fuel - 1, by omega⟩
        rw [hpassed.quiet hquiet, Scene.settle_succ, hnext, if_neg Bool.false_ne_true]
        exact ⟨rfl, by dsimp only; omega⟩

end Labelling

/-- With labelled nets a step comes to rest after one round more than there are nets, at most. -/
theorem Simulator.Loaded.settle_converges {circuit : Circuit} {sim : Simulator}
    (h : sim.Loaded circuit) {allowed : Nat → Signal → Prop}
    (hL : Labelling circuit.components sim.inputs (Netlist.ofWires circuit.wires) allowed)
    (hcap : ((Netlist.ofWires circuit.wires).nets.length : Int) + 1 ≤ sim.cap) :
    (sim.rounds circuit).2.2 = true ∧
      (sim.rounds circuit).2.1 ≤ (Netlist.ofWires circuit.wires).nets.length + 1 := by
  obtain ⟨hshape, f, hf, htame⟩ := h
  have hshape' : sim.netlist.reset = Netlist.ofWires circuit.wires := hshape
  have hf' : sim.states = States.of circuit.components f := hf
  rw [rounds, hshape', hf']
  have hd := circuit.distinctIds
  have hblank := Netlist.blank_ofWires circuit.wires
  have hcoherent := (Netlist.represents_ofWires circuit.wires).coherent
  by_cases hwired : ∀ c ∈ circuit.components, c.kind.IsSource →
      (Netlist.ofWires circuit.wires).netAt? ⟨c.id, outPort⟩ = none
  · -- nothing moves, so that the first round is the last
    obtain ⟨fuel, hfuel⟩ : ∃ fuel, sim.cap.toNat = fuel + 1 := ⟨sim.cap.toNat - 1, by omega⟩
    rw [hfuel, Scene.settle_succ, Scene.round_unwired hd hblank hwired
      (fun c hc => (htame c hc).rest (.inr (.inr hwired))), if_neg Bool.false_ne_true]
    exact ⟨rfl, Nat.succ_le_succ (Nat.zero_le _)⟩
  · have hdriven := (hL.driveSources_advance hcoherent hblank.reset_eq hblank.obeys).1
    have hfewer := hdriven.fewer (driveSources_wired hcoherent hblank hwired)
    have hall : (Netlist.ofWires circuit.wires).idleCount ≤
        (Netlist.ofWires circuit.wires).nets.length := List.countP_le_length
    have hfuel : (driveSources sim.inputs circuit.components
        (Netlist.ofWires circuit.wires)).1.idleCount + 2 ≤ sim.cap.toNat := by omega
    obtain ⟨hrest, hcount⟩ := hL.settle_converges hd hcoherent 0 f hblank.reset_eq hblank.obeys hfuel
    exact ⟨hrest, by omega⟩

end Switchyard.Relay
