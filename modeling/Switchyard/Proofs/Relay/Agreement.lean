import Switchyard.Proofs.Relay.Rounds

/-!
# Netlists that agree

What a simulation asks of a netlist is which terminals share a net (`Netlist.Joins`) and what level
there is at a terminal (`Netlist.levelAt?`); how the nets are numbered and listed it never sees. Two
netlists agree on a set of terminals if they answer both questions alike there (`Netlist.Agree`).
Asserting a level at a terminal of the set changes something in both or in none and keeps them in
agreement (`Agree.drive`), and so does asserting one in the first netlist only, at a terminal that
shares no net with the set (`Agree.drive_left`); hence the same of what one component does in a
round (`Agree.driveSource`, `Agree.passContact`).

The level that is reported for a wire is that at its source, if its net is the last one with a wire
of that name (`Netlist.wireSignal_eq`), hence if no other wire has the name
(`Netlist.wireSignal_eq_of_distinct`). Ends of wires that are linked have one level
(`Netlist.signalAt_eq_of_linked`).
-/

namespace Switchyard.Relay

/-- Being an end of a wire does not depend on how a terminal is spelled. -/
theorem IsEnd.congr {wires : List Wire} {t u : Terminal} (h : t == u) (ht : IsEnd wires t) :
    IsEnd wires u := by
  obtain ⟨wire, hw, hend⟩ := ht
  exact ⟨wire, hw, hend.imp (fun hs => BEq.trans hs h) (fun hs => BEq.trans hs h)⟩

namespace Netlist

/-- Two terminals share a net. -/
def Joins (netlist : Netlist) (t u : Terminal) : Prop :=
  ∃ n, netlist.numberAt? t = some n ∧ netlist.numberAt? u = some n

/-- The level at a terminal and whether its net is driven, if it has a net. -/
def levelAt? (netlist : Netlist) (t : Terminal) : Option (Signal × Bool) :=
  (netlist.netAt? t).map (fun net => (net.signal, net.driven))

theorem Joins.symm {netlist : Netlist} {t u : Terminal} (h : netlist.Joins t u) :
    netlist.Joins u t := by
  obtain ⟨n, ht, hu⟩ := h
  exact ⟨n, hu, ht⟩

/-- Terminals share a net exactly if they have a number, and the same one. -/
theorem joins_iff_eq {netlist : Netlist} {t u : Terminal} :
    netlist.Joins t u ↔ netlist.numberAt? t ≠ none ∧ netlist.numberAt? t = netlist.numberAt? u := by
  unfold Joins
  cases netlist.numberAt? t <;> simp [eq_comm]

/-- Which terminals share a net does not depend on the levels of the nets. -/
theorem joins_of_reset {a b : Netlist} (h : a.reset = b.reset) (t u : Terminal) :
    a.Joins t u ↔ b.Joins t u := by
  unfold Joins
  simp only [numberAt?_of_reset h]

/-- The signal at a terminal is the level of its net, and unknown where there is none. -/
theorem signalAt_eq (netlist : Netlist) (t : Terminal) :
    netlist.signalAt t = ((netlist.levelAt? t).map (·.1)).getD .unknown := by
  rw [signalAt, levelAt?, Option.map_map]
  rfl

/-- Two ends of wires share a net if and only if they are linked. -/
theorem Represents.joins_iff {netlist : Netlist} {wires : List Wire}
    (h : netlist.Represents wires) {t u : Terminal} :
    netlist.Joins t u ↔ IsEnd wires t ∧ Linked wires t u := by
  constructor
  · rintro ⟨n, ht, hu⟩
    have hend : IsEnd wires t := (h.defined t).1 (by rw [ht]; rfl)
    exact ⟨hend, h.linked t u n ht hu⟩
  · rintro ⟨hend, hlinked⟩
    obtain ⟨n, ht⟩ := Option.isSome_iff_exists.1 ((h.defined t).2 hend)
    exact ⟨n, ht, ((h.numberAt?_eq_iff hend).2 hlinked).symm.trans ht⟩

/-! ## Levels after a change -/

section
variable {netlist : Netlist} {t u : Terminal}

/-- A terminal found on a net has its number. -/
theorem numberAt?_of_netAt? {net : Net} (h : netlist.netAt? t = some net) :
    netlist.numberAt? t = some net.number := by
  obtain ⟨n, hn, hnet⟩ := Option.bind_eq_some_iff.1 h
  have hnumber : net.number = n := by simpa using List.find?_some hnet
  rw [hn, hnumber]

/-- Changing every net, but not its number, changes the net at a terminal. -/
theorem netAt?_map_nets (netlist : Netlist) {change : Net → Net}
    (hc : ∀ net, (change net).number = net.number) (t : Terminal) :
    netAt? { netlist with nets := netlist.nets.map change } t =
      (netlist.netAt? t).map change := by
  have hnet : ∀ n, net? { netlist with nets := netlist.nets.map change } n =
      (netlist.net? n).map change := by
    intro n
    rw [net?, net?, List.find?_map]
    simp only [Function.comp_def, hc]
  rw [netAt?, netAt?, Option.map_bind]
  exact congrArg (Option.bind _) (funext hnet)

/-- After a reset every level is unknown and not driven. -/
theorem levelAt?_reset (netlist : Netlist) (t : Terminal) :
    netlist.reset.levelAt? t = (netlist.levelAt? t).map (fun _ => (.unknown, false)) := by
  rw [levelAt?, reset, netAt?_map_nets netlist Net.number_reset, levelAt?, Option.map_map,
    Option.map_map]
  rfl

/-- After grounding, a level that is not driven is low and every other is kept. -/
theorem levelAt?_ground (netlist : Netlist) (t : Terminal) :
    netlist.ground.levelAt? t =
      (netlist.levelAt? t).map (fun level => (if level.2 then level.1 else .low, level.2)) := by
  rw [levelAt?, ground, netAt?_map_nets netlist Net.number_ground, levelAt?, Option.map_map,
    Option.map_map]
  refine congrArg (Option.map · _) (funext (fun net => ?_))
  simp only [Function.comp_apply, Net.ground]
  split <;> simp_all

/-- Driving a terminal changes something exactly if its net has another level or none yet. -/
theorem changes_drive (netlist : Netlist) (t : Terminal) (level : Signal) :
    (netlist.drive t level).2 =
      ((netlist.levelAt? t).map (fun old => old.1 ≠ level || !old.2)).getD false := by
  rw [levelAt?]
  cases ht : netlist.netAt? t with
  | none => rw [drive_of_none ht]; rfl
  | some net => rw [drive_of_some ht]; rfl

/-- Driving a terminal sets the level of all terminals on its net and of no other. -/
theorem levelAt?_drive_of_some {net : Net} (ht : netlist.netAt? t = some net) (level : Signal)
    (u : Terminal) :
    (netlist.drive t level).1.levelAt? u = (netlist.netAt? u).map (fun other =>
      if other.number = net.number then (level, true) else (other.signal, other.driven)) := by
  rw [drive_of_some ht, levelAt?, update, netAt?_map_nets netlist (fun other => by split <;> rfl),
    Option.map_map]
  refine congrArg (Option.map · _) (funext (fun other => ?_))
  simp only [Function.comp_apply]
  split <;> rfl

/-- A terminal that shares the net takes the level. -/
theorem levelAt?_drive_of_joins (h : netlist.Joins t u) (level : Signal) :
    (netlist.drive t level).1.levelAt? u =
      (netlist.levelAt? u).map (fun _ => (level, true)) := by
  obtain ⟨n, ht, hu⟩ := h
  have hsame : netlist.netAt? t = netlist.netAt? u := by rw [netAt?, netAt?, ht, hu]
  cases hnet : netlist.netAt? u with
  | none => rw [drive_of_none (hsame.trans hnet), levelAt?, hnet]; rfl
  | some net =>
    rw [levelAt?_drive_of_some (hsame.trans hnet), levelAt?, hnet]
    simp

/-- A terminal that does not share the net keeps its level. -/
theorem levelAt?_drive_of_not_joins (h : ¬ netlist.Joins t u) (level : Signal) :
    (netlist.drive t level).1.levelAt? u = netlist.levelAt? u := by
  cases ht : netlist.netAt? t with
  | none => rw [drive_of_none ht]
  | some net =>
    rw [levelAt?_drive_of_some ht, levelAt?]
    cases hu : netlist.netAt? u with
    | none => rfl
    | some other =>
      have hne : other.number ≠ net.number := by
        intro hn
        exact h ⟨net.number, numberAt?_of_netAt? ht, (numberAt?_of_netAt? hu).trans (by rw [hn])⟩
      simp [hne]

end

/-- Before any level is asserted, the terminals with a net have no level. -/
theorem Coherent.levelAt?_of_blank {netlist : Netlist} (h : netlist.Coherent)
    (hblank : netlist.Blank) (t : Terminal) :
    netlist.levelAt? t = (netlist.numberAt? t).map (fun _ => (.unknown, false)) := by
  rw [← hblank.reset_eq, levelAt?_reset, levelAt?, Option.map_map]
  cases ht : netlist.netAt? t with
  | none => rw [show netlist.reset.numberAt? t = none from h.netAt?_eq_none.1 ht]; rfl
  | some net =>
    have hn := numberAt?_of_netAt? ht
    rw [show netlist.reset.numberAt? t = some net.number from hn]
    rfl

/-! ## Agreement -/

/-- Two netlists say the same of the terminals of a set: which of them share a net, and what level
each has. -/
structure Agree (on : Terminal → Prop) (a b : Netlist) : Prop where
  joins : ∀ t u, on t → on u → (a.Joins t u ↔ b.Joins t u)
  levels : ∀ t, on t → a.levelAt? t = b.levelAt? t

namespace Agree

variable {on : Terminal → Prop} {a b : Netlist} {t : Terminal}

/-- Agreeing is symmetric. -/
theorem symm (h : Agree on a b) : Agree on b a where
  joins t u ht hu := (h.joins t u ht hu).symm
  levels t ht := (h.levels t ht).symm

/-- Where two netlists agree they have the same signals. -/
theorem signalAt_eq (h : Agree on a b) (ht : on t) : a.signalAt t = b.signalAt t := by
  rw [Netlist.signalAt_eq, Netlist.signalAt_eq, h.levels t ht]

/-- Resetting both keeps them agreed. -/
theorem reset (h : Agree on a b) : Agree on a.reset b.reset where
  joins t u ht hu := by
    rw [joins_of_reset (reset_reset a), joins_of_reset (reset_reset b)]
    exact h.joins t u ht hu
  levels t ht := by rw [levelAt?_reset, levelAt?_reset, h.levels t ht]

/-- Grounding both keeps them agreed. -/
theorem ground (h : Agree on a b) : Agree on a.ground b.ground where
  joins t u ht hu := by
    rw [joins_of_reset (reset_ground a), joins_of_reset (reset_ground b)]
    exact h.joins t u ht hu
  levels t ht := by rw [levelAt?_ground, levelAt?_ground, h.levels t ht]

/-- Asserting a level at a terminal of the set. -/
theorem drive (h : Agree on a b) (ht : on t) (level : Signal) :
    (a.drive t level).2 = (b.drive t level).2 ∧
      Agree on (a.drive t level).1 (b.drive t level).1 := by
  refine ⟨by rw [changes_drive, changes_drive, h.levels t ht], fun u v hu hv => ?_, fun u hu => ?_⟩
  · rw [joins_of_reset (reset_drive a t level), joins_of_reset (reset_drive b t level)]
    exact h.joins u v hu hv
  · by_cases hj : a.Joins t u
    · have hj' : b.Joins t u := (h.joins t u ht hu).1 hj
      rw [levelAt?_drive_of_joins hj, levelAt?_drive_of_joins hj', h.levels u hu]
    · have hj' : ¬ b.Joins t u := fun hb => hj ((h.joins t u ht hu).2 hb)
      rw [levelAt?_drive_of_not_joins hj, levelAt?_drive_of_not_joins hj', h.levels u hu]

/-- Asserting a level at a terminal of the first netlist that shares no net with the set. -/
theorem drive_left (h : Agree on a b) (ht : ∀ u, on u → ¬ a.Joins t u) (level : Signal) :
    Agree on (a.drive t level).1 b where
  joins u v hu hv := by
    rw [joins_of_reset (reset_drive a t level)]
    exact h.joins u v hu hv
  levels u hu := by
    rw [levelAt?_drive_of_not_joins (ht u hu)]
    exact h.levels u hu

/-- Passing one level on to a terminal of the set changes both alike, and they stay agreed. -/
theorem pass (h : Agree on a b) (ht : on t) (level : Signal) :
    (pass a level t).2 = (pass b level t).2 ∧ Agree on (pass a level t).1 (pass b level t).1 := by
  unfold Relay.pass
  split
  · exact ⟨rfl, h⟩
  · exact h.drive ht level

/-- Passing a level on to a terminal that shares no net with the set keeps what the netlists agree
on. -/
theorem pass_left (h : Agree on a b) (ht : ∀ u, on u → ¬ a.Joins t u) (level : Signal) :
    Agree on (Relay.pass a level t).1 b := by
  unfold Relay.pass
  split
  · exact h
  · exact h.drive_left ht level

end Agree

/-- Before any level is asserted, netlists agree if they join alike. -/
theorem agree_of_blank {on : Terminal → Prop} {a b : Netlist} (ha : a.Coherent) (hb : b.Coherent)
    (hblank : a.Blank) (hblank' : b.Blank)
    (hjoins : ∀ t u, on t → on u → (a.Joins t u ↔ b.Joins t u)) : Agree on a b where
  joins := hjoins
  levels t ht := by
    have hself : ∀ netlist : Netlist, netlist.Joins t t ↔ (netlist.numberAt? t).isSome = true := by
      simp [Joins, Option.isSome_iff_exists]
    rw [ha.levelAt?_of_blank hblank, hb.levelAt?_of_blank hblank']
    have hiff := hjoins t t ht ht
    rw [hself, hself] at hiff
    cases hn : a.numberAt? t <;> cases hm : b.numberAt? t <;> simp_all

end Netlist

/-! ## The part of one component in a round -/

/-- The nets after every component of a list has acted on them, and whether anything changed. -/
def sweep (act : Netlist → Component → Netlist × Bool) :
    List Component → Netlist → Netlist × Bool
  | [], netlist => (netlist, false)
  | component :: rest, netlist =>
    let (netlist, changed) := act netlist component
    let (netlist, more) := sweep act rest netlist
    (netlist, changed || more)

/-- Driving the sources is a sweep of the components. -/
theorem driveSources_eq_sweep (inputs : List (Ident × Signal)) (components : List Component)
    (netlist : Netlist) :
    driveSources inputs components netlist = sweep (driveSource inputs) components netlist := by
  induction components generalizing netlist with
  | nil => rfl
  | cons c rest ih =>
    dsimp only [driveSources, sweep]
    rw [ih]

/-- Passing the contacts is a sweep of the components. -/
theorem passContacts_eq_sweep (states : States) (components : List Component)
    (netlist : Netlist) :
    passContacts states components netlist = sweep (passContact states) components netlist := by
  induction components generalizing netlist with
  | nil => rfl
  | cons c rest ih =>
    dsimp only [passContacts, sweep]
    rw [ih]

/-- The ports at which a component asserts a level or takes one in belong to its kind. -/
theorem outPort_mem_ports {inputs : List (Ident × Signal)} {c : Component} {level : Signal}
    (h : sourceLevel? inputs c = some level) : outPort ∈ c.ports := by
  unfold sourceLevel? at h
  rw [Component.ports]
  split at h <;> simp_all [Kind.ports]

/-- The coil and both contacts are ports of a relay. -/
theorem relay_mem_ports {c : Component} (h : c.kind.isRelay = true) :
    coilIn ∈ c.ports ∧ contactIn ∈ c.ports ∧ contactOut ∈ c.ports := by
  rw [Component.ports]
  cases hkind : c.kind <;> simp_all [Kind.isRelay, Kind.ports]

namespace Netlist.Agree

variable {on : Terminal → Prop} {a b : Netlist} {c : Component}

/-- A source all of whose ports are in the set drives both netlists alike. -/
theorem driveSource (h : Agree on a b) (hon : ∀ port ∈ c.ports, on ⟨c.id, port⟩)
    (inputs : List (Ident × Signal)) :
    (driveSource inputs a c).2 = (driveSource inputs b c).2 ∧
      Agree on (driveSource inputs a c).1 (driveSource inputs b c).1 := by
  unfold Relay.driveSource
  split
  · next level hlevel => exact h.drive (hon _ (outPort_mem_ports hlevel)) level
  · exact ⟨rfl, h⟩

/-- A source that shares no net with the set keeps what the netlists agree on. -/
theorem driveSource_left (h : Agree on a b)
    (hoff : ∀ port ∈ c.ports, ∀ u, on u → ¬ a.Joins ⟨c.id, port⟩ u)
    (inputs : List (Ident × Signal)) : Agree on (Relay.driveSource inputs a c).1 b := by
  unfold Relay.driveSource
  split
  · next level hlevel => exact h.drive_left (hoff _ (outPort_mem_ports hlevel)) level
  · exact h

/-- A relay all of whose ports are in the set passes alike on both, if its contacts are closed in
both or in neither. -/
theorem passContact (h : Agree on a b) (hon : ∀ port ∈ c.ports, on ⟨c.id, port⟩)
    {states states' : States} (hclosed : isClosed states c.id = isClosed states' c.id) :
    (passContact states a c).2 = (passContact states' b c).2 ∧
      Agree on (passContact states a c).1 (passContact states' b c).1 := by
  unfold Relay.passContact
  rw [← hclosed]
  split
  · next hactive =>
    have hrelay : c.kind.isRelay = true := (Bool.and_eq_true_iff.1 hactive).1
    obtain ⟨-, hin, hout⟩ := relay_mem_ports hrelay
    dsimp only
    rw [h.signalAt_eq (hon _ hin), h.signalAt_eq (hon _ hout)]
    obtain ⟨hchanged, hfirst⟩ := h.pass (hon _ hout) (b.signalAt ⟨c.id, contactIn⟩)
    obtain ⟨hmore, hsecond⟩ := hfirst.pass (hon _ hin) (b.signalAt ⟨c.id, contactOut⟩)
    exact ⟨by rw [hchanged, hmore], hsecond⟩
  · exact ⟨rfl, h⟩

/-- A relay that shares no net with the set keeps what the netlists agree on. -/
theorem passContact_left (h : Agree on a b)
    (hoff : ∀ port ∈ c.ports, ∀ u, on u → ¬ a.Joins ⟨c.id, port⟩ u) (states : States) :
    Agree on (Relay.passContact states a c).1 b := by
  unfold Relay.passContact
  split
  · next hactive =>
    have hrelay : c.kind.isRelay = true := (Bool.and_eq_true_iff.1 hactive).1
    obtain ⟨-, hin, hout⟩ := relay_mem_ports hrelay
    refine (h.pass_left (hoff _ hout) _).pass_left (fun u hu hj => ?_) _
    exact hoff _ hin u hu ((joins_of_reset (reset_pass _ _ _) _ _).1 hj)
  · exact h

end Netlist.Agree

/-! ## The level of a wire -/

namespace Netlist

/-- A name of wires is referred to the last net that has it, where nets are listed by number. -/
theorem get?_foldl_indexNet_last {id : Ident} {net : Net} : ∀ {nets : List Net}
    {index : List (Ident × Nat)}, nets.Pairwise (fun a b => a.number < b.number) → net ∈ nets →
    net.wires.contains id = true →
    (∀ other ∈ nets, other.wires.contains id = true → other.number ≤ net.number) →
    Assoc.get? id (nets.foldl indexNet index) = some net.number
  | first :: rest, index, hsorted, hnet, hid, hlast => by
    obtain ⟨hfirst, hsorted⟩ := List.pairwise_cons.1 hsorted
    rw [List.foldl_cons]
    rcases List.mem_cons.1 hnet with rfl | hnet
    · -- the nets behind it have greater numbers, so none of them has the name
      refine get?_foldl_indexNet (fun other hother hcon => ?_) (.inl ?_)
      · have hlt := hfirst other hother
        have hle := hlast other (List.mem_cons_of_mem _ hother) hcon
        omega
      · rw [get?_indexNet, if_pos hid]
    · exact get?_foldl_indexNet_last hsorted hnet hid
        (fun other hother => hlast other (List.mem_cons_of_mem _ hother))

/-- The level of a wire is that at its source, if no wire of the same name is in a later net. -/
theorem wireSignal_eq {netlist : Netlist} {wires : List Wire}
    (hshape : netlist.reset = ofWires wires)
    {wire : Wire} (hwire : wire ∈ wires)
    (hlast : ∀ other ∈ wires, (other.id == wire.id) = true → ∀ n m,
      netlist.numberAt? other.source = some n → netlist.numberAt? wire.source = some m → n ≤ m) :
    Simulator.wireSignal netlist wire.id = netlist.signalAt wire.source := by
  have h := represents_ofWires wires
  have hat : ∀ t, netlist.numberAt? t = (ofWires wires).numberAt? t :=
    fun t => congrArg (·.numberAt? t) hshape
  obtain ⟨net, hnet, hid, hsource⟩ := h.carried wire hwire
  have hnumber := (h.coherent.contains_iff hnet _).1 hsource
  have hreferred : Assoc.get? wire.id (ofWires wires).wireNets = some net.number := by
    refine get?_foldl_indexNet_last h.coherent.sorted hnet hid (fun later hlater hcon => ?_)
    obtain ⟨other, hother, hname, hin⟩ := h.named later hlater _ hcon
    have hlater' := (h.coherent.contains_iff hlater _).1 hin
    exact hlast other hother hname _ _ ((hat _).trans hlater') ((hat _).trans hnumber)
  rw [← hshape] at hreferred
  rw [Simulator.wireSignal, netOfWire?, show Assoc.get? wire.id netlist.wireNets = _ from hreferred,
    Netlist.signalAt, netAt?, hat, hnumber]

/-- A wire is found by its name, whatever compares equal with it. -/
theorem wireSignal_congr (netlist : Netlist) {id id' : Ident} (h : id == id') :
    Simulator.wireSignal netlist id = Simulator.wireSignal netlist id' := by
  rw [Simulator.wireSignal, Simulator.wireSignal, netOfWire?, netOfWire?, Assoc.get?_congr h]

/-! ## Levels at terminals of one net -/

section
variable {netlist : Netlist} {wires : List Wire} {t u : Terminal}

/-- Terminals of one number have one signal. -/
theorem signalAt_of_numberAt?_eq (h : netlist.numberAt? t = netlist.numberAt? u) :
    netlist.signalAt t = netlist.signalAt u := by
  rw [signalAt, signalAt, netAt?, netAt?, h]

/-- Terminals that are equal have one signal, however they are spelled. -/
theorem signalAt_congr (netlist : Netlist) (h : t == u) : netlist.signalAt t = netlist.signalAt u :=
  signalAt_of_numberAt?_eq (netlist.numberAt?_congr h)

section
variable (hshape : netlist.reset = ofWires wires)
include hshape

/-- Linked ends of wires have one level. -/
theorem signalAt_eq_of_linked (hend : IsEnd wires t) (hlinked : Linked wires t u) :
    netlist.signalAt t = netlist.signalAt u := by
  refine signalAt_of_numberAt?_eq ?_
  have hnumber := ((represents_ofWires wires).numberAt?_eq_iff hend).2 hlinked
  rwa [← hshape] at hnumber

/-- A terminal on which a wire ends lies on a net. -/
theorem exists_number_of_isEnd (hend : IsEnd wires t) : ∃ n, netlist.numberAt? t = some n := by
  have hdefined := ((represents_ofWires wires).defined t).2 hend
  rw [← hshape] at hdefined
  exact Option.isSome_iff_exists.1 hdefined

/-- A terminal on which no wire ends has no level. -/
theorem signalAt_of_not_isEnd (hend : ¬ IsEnd wires t) : netlist.signalAt t = .unknown := by
  have hnone : netlist.numberAt? t = none := by
    have hdefined := (represents_ofWires wires).defined t
    rw [← hshape] at hdefined
    exact Option.not_isSome_iff_eq_none.1 (fun hsome => hend (hdefined.1 hsome))
  rw [signalAt, netAt?, hnone]
  rfl

/-- A wire whose name no other one has is found in the net of its source. -/
theorem wireSignal_eq_of_distinct (hids : wires.Pairwise (fun v w => (v.id == w.id) = false))
    {wire : Wire} (hwire : wire ∈ wires) :
    Simulator.wireSignal netlist wire.id = netlist.signalAt wire.source := by
  refine wireSignal_eq hshape hwire (fun other hother hname n m hn hm => ?_)
  rw [Assoc.eq_of_key_beq hids hother hwire hname, hm] at hn
  exact Nat.le_of_eq (Option.some.inj hn).symm

end

end

end Netlist

end Switchyard.Relay
