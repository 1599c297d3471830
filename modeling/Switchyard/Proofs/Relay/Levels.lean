import Switchyard.Proofs.Relay.Connectivity
import Switchyard.Relay.Simulator

/-!
# Levels on a fixed netlist

A simulation asserts levels on the nets of a netlist and changes nothing else of it: resetting the
netlist gives the same one before and after (`Netlist.reset_drive`), so that coherence and the net
of every terminal are kept. If every asserted level is one that its net may carry, and a net may
carry one level only, then a driven net keeps its level, and whatever changes anything drives a net
that nothing drove (`Netlist.Advance`).
-/

namespace Switchyard.Relay

/-- Resetting twice is resetting once. -/
@[simp] theorem Net.reset_reset (net : Net) : net.reset.reset = net.reset := rfl

/-- Driving changes nothing that resetting would keep. -/
@[simp] theorem Net.reset_drive (net : Net) (level : Signal) :
    (net.drive level).reset = net.reset := rfl

/-- Grounding changes nothing that resetting would keep. -/
@[simp] theorem Net.reset_ground (net : Net) : net.ground.reset = net.reset := by
  unfold Net.ground
  split <;> rfl

/-- Resetting keeps the terminals of a net. -/
@[simp] theorem Net.contains_reset (net : Net) (t : Terminal) :
    net.reset.contains t = net.contains t := rfl

/-- A net that a level does not change carries it. -/
theorem Net.changes_eq_false {net : Net} {level : Signal} :
    net.changes level = false ↔ net.signal = level ∧ net.driven = true := by
  simp [Net.changes]

/-- Driving a net to the level that drives it already changes nothing. -/
theorem Net.drive_eq_self {net : Net} {level : Signal} (hs : net.signal = level)
    (hd : net.driven = true) : net.drive level = net := by
  obtain ⟨_, _, _, _, _⟩ := net
  simp_all [Net.drive]

namespace Netlist

/-! ## What levels leave alone -/

/-- A change of levels in every net changes nothing that resetting would keep. -/
theorem reset_map (netlist : Netlist) {change : Net → Net}
    (hc : ∀ net, (change net).reset = net.reset) :
    reset { netlist with nets := netlist.nets.map change } = netlist.reset := by
  simp [reset, hc]

/-- Resetting a netlist twice is resetting it once. -/
@[simp] theorem reset_reset (netlist : Netlist) : netlist.reset.reset = netlist.reset :=
  reset_map netlist Net.reset_reset

/-- Grounding a netlist changes levels only. -/
@[simp] theorem reset_ground (netlist : Netlist) : netlist.ground.reset = netlist.reset :=
  reset_map netlist Net.reset_ground

/-- Driving the net of a number changes levels only. -/
theorem reset_update_drive (netlist : Netlist) (n : Nat) (level : Signal) :
    (netlist.update n (·.drive level)).reset = netlist.reset :=
  reset_map netlist (fun net => by split <;> rfl)

/-- Driving a terminal changes levels only. -/
@[simp] theorem reset_drive (netlist : Netlist) (t : Terminal) (level : Signal) :
    (netlist.drive t level).1.reset = netlist.reset := by
  unfold drive
  split
  · rfl
  · exact reset_update_drive _ _ _

section
variable {a b : Netlist} (h : a.reset = b.reset)
include h

/-- Netlists that differ in levels only number terminals alike. -/
theorem numberAt?_of_reset (t : Terminal) : a.numberAt? t = b.numberAt? t :=
  congrArg (fun netlist => netlist.numberAt? t) h

/-- Netlists that differ in levels only have as many nets. -/
theorem length_nets_of_reset : a.nets.length = b.nets.length := by
  simpa [reset] using congrArg (fun netlist => netlist.nets.length) h

end

/-- Netlists that differ at most in levels and agree in these too are the same. -/
theorem eq_of_reset {a b : Netlist} (h : a.reset = b.reset)
    (hlevels : ∀ x ∈ a.nets, ∀ y ∈ b.nets, x.number = y.number →
      x.signal = y.signal ∧ x.driven = y.driven) : a = b := by
  have hmap : a.nets.map Net.reset = b.nets.map Net.reset := congrArg nets h
  have hnets : a.nets = b.nets := by
    refine List.ext_getElem (length_nets_of_reset h) (fun i hi hi' => ?_)
    have hreset := List.getElem_of_eq hmap (by simpa using hi : i < _)
    rw [List.getElem_map, List.getElem_map] at hreset
    have hlevel := hlevels _ (List.getElem_mem hi) _ (List.getElem_mem hi')
    generalize a.nets[i] = x at hreset hlevel
    generalize b.nets[i] = y at hreset hlevel
    obtain ⟨number, terminals, wires, signal, driven⟩ := x
    obtain ⟨number', terminals', wires', signal', driven'⟩ := y
    injection hreset with hnumber hterminals hwires
    subst hnumber hterminals hwires
    obtain ⟨rfl, rfl⟩ := hlevel rfl
    rfl
  obtain ⟨nets, terminalNets, wireNets, opened⟩ := a
  injection h with _ hterminalNets hwireNets hopened
  subst hnets hterminalNets hwireNets hopened
  rfl

/-- The nets of a reset netlist are the nets, each of them reset. -/
theorem mem_reset {netlist : Netlist} {net : Net} :
    net ∈ netlist.reset.nets ↔ ∃ old ∈ netlist.nets, old.reset = net :=
  List.mem_map

/-- Resetting keeps a netlist coherent. -/
theorem Coherent.reset {netlist : Netlist} (h : netlist.Coherent) : netlist.reset.Coherent where
  sorted := List.pairwise_map.2 h.sorted
  given net hnet := by
    obtain ⟨old, hold, rfl⟩ := mem_reset.1 hnet
    exact h.given old hold
  member t n := (h.member t n).trans <| by
    constructor
    · rintro ⟨net, hnet, hn⟩
      exact ⟨net.reset, mem_reset.2 ⟨net, hnet, rfl⟩, hn⟩
    · rintro ⟨net, hnet, hn⟩
      obtain ⟨old, hold, rfl⟩ := mem_reset.1 hnet
      exact ⟨old, hold, hn⟩
  inhabited net hnet := by
    obtain ⟨old, hold, rfl⟩ := mem_reset.1 hnet
    exact h.inhabited old hold

/-- Coherence does not depend on levels. -/
theorem coherent_of_reset {netlist : Netlist} (h : netlist.reset.Coherent) : netlist.Coherent where
  sorted := (List.pairwise_map (f := Net.reset)).1 h.sorted
  given net hnet := h.given net.reset (mem_reset.2 ⟨net, hnet, rfl⟩)
  member t n := (h.member t n).trans <| by
    constructor
    · rintro ⟨net, hnet, hn⟩
      obtain ⟨old, hold, rfl⟩ := mem_reset.1 hnet
      exact ⟨old, hold, hn⟩
    · rintro ⟨net, hnet, hn⟩
      exact ⟨net.reset, mem_reset.2 ⟨net, hnet, rfl⟩, hn⟩
  inhabited net hnet := h.inhabited net.reset (mem_reset.2 ⟨net, hnet, rfl⟩)

/-- Levels do not disturb coherence. -/
theorem Coherent.of_reset {a b : Netlist} (h : a.Coherent) (hab : b.reset = a.reset) :
    b.Coherent :=
  coherent_of_reset (hab ▸ h.reset)

/-- No net carries a level or is driven. -/
def Blank (netlist : Netlist) : Prop :=
  ∀ net ∈ netlist.nets, net.reset = net

/-- Resetting blank nets changes nothing. -/
theorem Blank.reset_eq {netlist : Netlist} (h : netlist.Blank) : netlist.reset = netlist := by
  rw [reset, List.map_congr_left (g := id) h, List.map_id]

/-- After a reset the nets are blank. -/
theorem blank_reset (netlist : Netlist) : netlist.reset.Blank := by
  intro net hnet
  obtain ⟨old, -, rfl⟩ := mem_reset.1 hnet
  rfl

/-- A change that leaves blank nets blank does so in a netlist. -/
theorem Blank.update {netlist : Netlist} (h : netlist.Blank) (n : Nat) (change : Net → Net)
    (hc : ∀ net, net.reset = net → (change net).reset = change net) :
    (netlist.update n change).Blank := by
  intro net hnet
  obtain ⟨old, hold, rfl⟩ := mem_update.1 hnet
  split
  · exact hc old (h old hold)
  · exact h old hold

/-- Merging blank nets leaves blank nets. -/
theorem Blank.mergeNets {netlist : Netlist} (h : netlist.Blank) (keep drop : Net) :
    (netlist.mergeNets keep drop).Blank := by
  intro net hnet
  rw [nets_mergeNets] at hnet
  exact h.update keep.number (·.merge drop) (fun net hnet => congrArg (·.merge drop) hnet) net
    (List.mem_filter.1 hnet).1

/-- A wire brings no level with it, so blank nets stay blank. -/
theorem Blank.addWire {netlist : Netlist} (h : netlist.Blank) (wire : Wire) :
    (netlist.addWire wire).Blank := by
  unfold Netlist.addWire
  split
  · intro net hnet
    rcases List.mem_append.1 hnet with hold | hnew
    · exact h net hold
    · obtain rfl := List.mem_singleton.1 hnew
      rfl
  · exact h.update _ (fun net => (net.addTerminal wire.source).addWire wire.id)
      (fun net hnet => congrArg (fun net => (net.addTerminal wire.source).addWire wire.id) hnet)
  · exact h.update _ (fun net => (net.addTerminal wire.target).addWire wire.id)
      (fun net hnet => congrArg (fun net => (net.addTerminal wire.target).addWire wire.id) hnet)
  · next a b _ _ =>
    have hwired := h.update a.number (·.addWire wire.id)
      (fun net hnet => congrArg (·.addWire wire.id) hnet)
    dsimp only
    split_ifs
    · exact hwired
    · exact hwired.mergeNets a b
    · exact hwired.mergeNets b (a.addWire wire.id)

/-- A netlist of wires has no levels yet. -/
theorem blank_ofWires (wires : List Wire) : (ofWires wires).Blank := by
  have hfold : ∀ (wires : List Wire) (netlist : Netlist), netlist.Blank →
      (wires.foldl Netlist.addWire netlist).Blank := by
    intro wires
    induction wires with
    | nil => exact fun _ h => h
    | cons wire wires ih => exact fun netlist h => ih _ (h.addWire wire)
  exact hfold wires {} nofun

/-! ## Asserting a level -/

variable {netlist : Netlist} {t : Terminal} {level : Signal}

/-- Driving a terminal without a net changes nothing. -/
theorem drive_of_none (ht : netlist.netAt? t = none) :
    netlist.drive t level = (netlist, false) := by
  rw [drive, ht]

/-- Driving a terminal drives its net, and reports whether that changed anything. -/
theorem drive_of_some {net : Net} (ht : netlist.netAt? t = some net) :
    netlist.drive t level = (netlist.update net.number (·.drive level), net.changes level) := by
  rw [drive, ht]

/-- Driving a net to the level that drives it already keeps the netlist. -/
theorem Coherent.update_drive_eq_self (h : netlist.Coherent) {net : Net} (hnet : net ∈ netlist.nets)
    (hs : net.signal = level) (hd : net.driven = true) :
    netlist.update net.number (·.drive level) = netlist := by
  have hmap : netlist.nets.map
      (fun other => if other.number = net.number then other.drive level else other) =
      netlist.nets := by
    rw [List.map_congr_left (g := id) (fun other hother => ?_), List.map_id]
    split
    · next hn =>
      rw [h.eq_of_number hother hnet hn]
      exact Net.drive_eq_self hs hd
    · rfl
  rw [Netlist.update, hmap]

/-- An assertion that reports no change makes none, and its net carried the level before. -/
theorem Coherent.drive_quiet (h : netlist.Coherent) (hq : (netlist.drive t level).2 = false) :
    (netlist.drive t level).1 = netlist ∧
      ∀ net, netlist.netAt? t = some net → net.signal = level ∧ net.driven = true := by
  cases ht : netlist.netAt? t with
  | none => exact ⟨by rw [drive_of_none ht], nofun⟩
  | some net =>
    rw [drive_of_some ht] at hq ⊢
    obtain ⟨hs, hd⟩ := Net.changes_eq_false.1 hq
    refine ⟨h.update_drive_eq_self (h.netAt?_eq_some.1 ht).1 hs hd, ?_⟩
    rintro other ⟨⟩
    exact ⟨hs, hd⟩

/-! ## Levels that nets may carry -/

/-- The nets that are driven carry levels that they may carry, the others none. -/
structure Obeys (allowed : Nat → Signal → Prop) (netlist : Netlist) : Prop where
  driven : ∀ net ∈ netlist.nets, net.driven = true → allowed net.number net.signal
  idle : ∀ net ∈ netlist.nets, net.driven = false → net.signal = .unknown

/-- How many nets nothing drives. -/
def idleCount (netlist : Netlist) : Nat :=
  netlist.nets.countP (!·.driven)

/-- What asserting allowed levels comes to: the driven nets are kept, and a reported change is a net
that was not driven and now is. -/
structure Advance (allowed : Nat → Signal → Prop) (netlist : Netlist) (next : Netlist × Bool) :
    Prop where
  shape : next.1.reset = netlist.reset
  obeys : next.1.Obeys allowed
  keeps : ∀ net ∈ netlist.nets, net.driven = true → net ∈ next.1.nets
  quiet : next.2 = false → next.1 = netlist
  fewer : next.2 = true → next.1.idleCount < netlist.idleCount

namespace Advance

variable {allowed : Nat → Signal → Prop}

theorem refl (h : netlist.Obeys allowed) : Advance allowed netlist (netlist, false) :=
  ⟨rfl, h, fun _ hnet _ => hnet, fun _ => rfl, nofun⟩

/-- An advance leaves no more nets undriven. -/
theorem idleCount_le {next : Netlist × Bool} (h : Advance allowed netlist next) :
    next.1.idleCount ≤ netlist.idleCount := by
  cases hc : next.2 with
  | false => exact Nat.le_of_eq (congrArg idleCount (h.quiet hc))
  | true => exact Nat.le_of_lt (h.fewer hc)

/-- Two advances in a row are one, which reports a change if either does. -/
theorem trans {mid last : Netlist × Bool} (h : Advance allowed netlist mid)
    (h' : Advance allowed mid.1 last) : Advance allowed netlist (last.1, mid.2 || last.2) where
  shape := h'.shape.trans h.shape
  obeys := h'.obeys
  keeps net hnet hd := h'.keeps net (h.keeps net hnet hd) hd
  quiet hq := by
    rw [Bool.or_eq_false_iff] at hq
    exact (h'.quiet hq.2).trans (h.quiet hq.1)
  fewer hc := by
    rcases Bool.or_eq_true_iff.1 hc with hc | hc
    · exact Nat.lt_of_le_of_lt h'.idleCount_le (h.fewer hc)
    · exact Nat.lt_of_lt_of_le (h'.fewer hc) h.idleCount_le

end Advance

/-- A stronger condition that fails for one more item holds for fewer. -/
theorem countP_lt_countP {α : Type} {p q : α → Bool} {l : List α} (hle : ∀ x ∈ l, q x → p x)
    {x : α} (hx : x ∈ l) (hp : p x = true) (hq : q x = false) : l.countP q < l.countP p := by
  induction l with
  | nil => cases hx
  | cons y l ih =>
    have htail : ∀ x ∈ l, q x → p x := fun x hx => hle x (List.mem_cons_of_mem _ hx)
    rw [List.countP_cons, List.countP_cons]
    cases hx with
    | head =>
      have hmono := List.countP_mono_left htail
      simp only [hp, hq, if_true, Bool.false_eq_true, if_false]
      omega
    | tail _ hx =>
      have hlt := ih htail hx
      have hy := hle y List.mem_cons_self
      have hhead : (if q y then 1 else 0) ≤ if p y then 1 else 0 := by
        split
        · next hqy => exact Nat.le_of_eq (if_pos (hy hqy)).symm
        · exact Nat.zero_le _
      omega

/-- Driving a net that was not driven leaves one idle net less. -/
theorem idleCount_update_drive {net : Net} (hnet : net ∈ netlist.nets) (hd : net.driven = false)
    (level : Signal) :
    (netlist.update net.number (·.drive level)).idleCount < netlist.idleCount := by
  rw [idleCount, idleCount, update, List.countP_map]
  refine countP_lt_countP (fun other _ hother => ?_) hnet (by simp [hd]) (by simp [Net.drive])
  by_cases hn : other.number = net.number
  · simp [hn, Net.drive] at hother
  · simpa [hn] using hother

/-- Asserting a level that the net may carry, if no net may carry two levels. -/
theorem Advance.drive {allowed : Nat → Signal → Prop} (h : netlist.Coherent)
    (hfun : ∀ n v w, allowed n v → allowed n w → v = w) (hobeys : netlist.Obeys allowed)
    (hlevel : ∀ n, netlist.numberAt? t = some n → allowed n level) :
    Advance allowed netlist (netlist.drive t level) := by
  cases ht : netlist.netAt? t with
  | none => rw [drive_of_none ht]; exact .refl hobeys
  | some net =>
    obtain ⟨hnet, hcon⟩ := h.netAt?_eq_some.1 ht
    have hallowed := hlevel _ ((h.contains_iff hnet t).1 hcon)
    rw [drive_of_some ht]
    cases hd : net.driven with
    | true =>
      have hs : net.signal = level := hfun _ _ _ (hobeys.driven net hnet hd) hallowed
      rw [h.update_drive_eq_self hnet hs hd, Net.changes_eq_false.2 ⟨hs, hd⟩]
      exact .refl hobeys
    | false =>
      refine ⟨reset_update_drive _ _ _, ⟨fun other hother hod => ?_, fun other hother hod => ?_⟩,
        fun other hother hod => ?_, fun hq => ?_, fun _ => idleCount_update_drive hnet hd level⟩
      · obtain ⟨old, hold, rfl⟩ := mem_update.1 hother
        by_cases hn : old.number = net.number
        · rw [if_pos hn]
          exact hn ▸ hallowed
        · rw [if_neg hn] at hod ⊢
          exact hobeys.driven old hold hod
      · obtain ⟨old, hold, rfl⟩ := mem_update.1 hother
        by_cases hn : old.number = net.number
        · rw [if_pos hn] at hod
          cases hod
        · rw [if_neg hn] at hod ⊢
          exact hobeys.idle old hold hod
      · refine mem_update.2 ⟨other, hother, ?_⟩
        rw [if_neg]
        intro hn
        rw [h.eq_of_number hother hnet hn, hd] at hod
        cases hod
      · rw [(Net.changes_eq_false.1 hq).2] at hd
        cases hd

end Netlist

end Switchyard.Relay
