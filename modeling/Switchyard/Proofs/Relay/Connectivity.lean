import Mathlib.Data.List.Nodup
import Mathlib.Logic.Relation
import Mathlib.Tactic.Common
import Switchyard.Relay.Netlist

/-!
# Nets are electrical connectivity

Two terminals are linked if a chain of wires joins them (`Linked`). A netlist is coherent if its
list of nets and its map from terminals to nets agree (`Netlist.Coherent`), and it represents a list
of wires if moreover its nets are the classes of linked ends of these wires (`Netlist.Represents`).
Adding a wire sends the terminals of at most two nets, and the ends of the wire, to one net, and
leaves all others where they are (`Netlist.gathered_addWire`); so it keeps both properties, and the
netlist of a list of wires represents it (`Netlist.represents_ofWires`).
-/

namespace Switchyard.Relay

/-- Some wire of the list leads from one terminal to the other. -/
def Wired (wires : List Wire) (t u : Terminal) : Prop :=
  ∃ wire ∈ wires, (wire.source == t) = true ∧ (wire.target == u) = true

/-- Terminals that a chain of wires joins: the equivalence relation that the wires generate. -/
def Linked (wires : List Wire) : Terminal → Terminal → Prop :=
  Relation.EqvGen (Wired wires)

/-- A terminal on which some wire of the list ends. -/
def IsEnd (wires : List Wire) (t : Terminal) : Prop :=
  ∃ wire ∈ wires, (wire.source == t) = true ∨ (wire.target == t) = true

namespace Linked

variable {wires : List Wire} {t u : Terminal}

/-- Every terminal is linked to itself. -/
theorem refl (t : Terminal) : Linked wires t t := Relation.EqvGen.refl t

theorem symm (h : Linked wires t u) : Linked wires u t := Relation.EqvGen.symm _ _ h

theorem trans {v : Terminal} (h : Linked wires t u) (h' : Linked wires u v) : Linked wires t v :=
  Relation.EqvGen.trans _ _ _ h h'

/-- More wires link more. -/
theorem mono {more : List Wire} (hsub : ∀ wire ∈ wires, wire ∈ more) (h : Linked wires t u) :
    Linked more t u :=
  Relation.EqvGen.mono (fun _ _ ⟨wire, hw, h⟩ => ⟨wire, hsub wire hw, h⟩) _ _ h

/-- A wire links what is the same terminal as its source to what is the same as its target. -/
theorem of_wire {wire : Wire} (hw : wire ∈ wires) (ht : wire.source == t) (hu : wire.target == u) :
    Linked wires t u :=
  .rel _ _ ⟨wire, hw, ht, hu⟩

/-- Two forms of one terminal on which a wire ends are linked. -/
theorem of_beq (h : t == u) (ht : IsEnd wires t) : Linked wires t u := by
  rcases ht with ⟨wire, hw, hs | hs⟩
  · exact (of_wire hw hs BEq.rfl).trans (of_wire hw (BEq.trans hs h) BEq.rfl).symm
  · exact (of_wire hw BEq.rfl hs).symm.trans (of_wire hw BEq.rfl (BEq.trans hs h))

end Linked

namespace Netlist

/-! ## The net of a terminal -/

/-- Terminals that are equal have one number. -/
theorem numberAt?_congr (netlist : Netlist) {t u : Terminal} (h : t == u) :
    netlist.numberAt? t = netlist.numberAt? u :=
  Assoc.get?_congr h _

/-- Referring a terminal to a number changes the number of that terminal only. -/
theorem numberAt?_refer (netlist : Netlist) (number : Nat) (terminal t : Terminal) :
    (netlist.refer number terminal).numberAt? t =
      if terminal == t then some number else netlist.numberAt? t :=
  Assoc.get?_put t terminal number netlist.terminalNets

/-- Referring terminals to a number changes the number of these terminals only. -/
theorem numberAt?_foldl_refer (number : Nat) (terminals : List Terminal) (netlist : Netlist)
    (t : Terminal) :
    (terminals.foldl (fun netlist => netlist.refer number) netlist).numberAt? t =
      if terminals.contains t then some number else netlist.numberAt? t := by
  induction terminals generalizing netlist with
  | nil => simp
  | cons u terminals ih =>
    rw [List.foldl_cons, ih, numberAt?_refer, List.contains_cons, BEq.comm]
    by_cases hu : t == u <;> simp [hu]

/-- Referring terminals keeps the nets. -/
@[simp] theorem nets_foldl_refer (number : Nat) (terminals : List Terminal) (netlist : Netlist) :
    (terminals.foldl (fun netlist => netlist.refer number) netlist).nets = netlist.nets := by
  induction terminals generalizing netlist with
  | nil => rfl
  | cons u terminals ih => exact ih _

/-- Referring terminals opens no net. -/
@[simp] theorem opened_foldl_refer (number : Nat) (terminals : List Terminal) (netlist : Netlist) :
    (terminals.foldl (fun netlist => netlist.refer number) netlist).opened = netlist.opened := by
  induction terminals generalizing netlist with
  | nil => rfl
  | cons u terminals ih => exact ih _

/-- The list of nets and the map from terminals to nets say the same: nets are listed by number, all
numbers were given out, a terminal is referred to the net that contains it, and no net is empty. -/
structure Coherent (netlist : Netlist) : Prop where
  sorted : netlist.nets.Pairwise (fun a b => a.number < b.number)
  given : ∀ net ∈ netlist.nets, net.number < netlist.opened
  member : ∀ t n, netlist.numberAt? t = some n ↔
    ∃ net ∈ netlist.nets, net.number = n ∧ net.contains t = true
  inhabited : ∀ net ∈ netlist.nets, net.terminals ≠ []

namespace Coherent

variable {netlist : Netlist} (h : netlist.Coherent)
include h

/-- In a coherent netlist the numbers of the nets are distinct. -/
theorem nodup : (netlist.nets.map (·.number)).Nodup :=
  List.pairwise_map.2 (h.sorted.imp (fun hlt => Nat.ne_of_lt hlt))

/-- A net is determined by its number. -/
theorem eq_of_number {a b : Net} (ha : a ∈ netlist.nets) (hb : b ∈ netlist.nets)
    (hn : a.number = b.number) : a = b :=
  List.inj_on_of_nodup_map h.nodup ha hb hn

/-- In a coherent netlist the net of a number is found by it. -/
theorem net?_eq_some {n : Nat} {net : Net} :
    netlist.net? n = some net ↔ net ∈ netlist.nets ∧ net.number = n := by
  constructor
  · intro hnet
    exact ⟨List.mem_of_find?_eq_some hnet, by simpa using List.find?_some hnet⟩
  · rintro ⟨hmem, rfl⟩
    cases hfound : netlist.net? net.number with
    | none =>
      have := List.find?_eq_none.1 hfound net hmem
      simp at this
    | some other =>
      have hnumber : other.number = net.number := by simpa using List.find?_some hfound
      rw [h.eq_of_number (List.mem_of_find?_eq_some hfound) hmem hnumber]

/-- The net that a terminal is referred to is a listed net that contains it, and the only one. -/
theorem netAt?_eq_some {t : Terminal} {net : Net} :
    netlist.netAt? t = some net ↔ net ∈ netlist.nets ∧ net.contains t = true := by
  rw [netAt?, Option.bind_eq_some_iff]
  constructor
  · rintro ⟨n, hn, hnet⟩
    obtain ⟨hmem, hnumber⟩ := h.net?_eq_some.1 hnet
    obtain ⟨other, hother, hon, hcon⟩ := (h.member t n).1 hn
    exact ⟨hmem, h.eq_of_number hother hmem (hon.trans hnumber.symm) ▸ hcon⟩
  · rintro ⟨hmem, hcon⟩
    exact ⟨net.number, (h.member t _).2 ⟨net, hmem, rfl, hcon⟩, h.net?_eq_some.2 ⟨hmem, rfl⟩⟩

/-- In a coherent netlist a terminal has no net exactly if it has no number. -/
theorem netAt?_eq_none {t : Terminal} : netlist.netAt? t = none ↔ netlist.numberAt? t = none := by
  constructor
  · intro hnone
    by_contra hsome
    obtain ⟨n, hn⟩ := Option.ne_none_iff_exists'.1 hsome
    obtain ⟨net, hmem, -, hcon⟩ := (h.member t n).1 hn
    rw [h.netAt?_eq_some.2 ⟨hmem, hcon⟩] at hnone
    cases hnone
  · intro hnone
    rw [netAt?, hnone, Option.bind_none]

end Coherent

/-! ## One more wire -/

/-- The nets after an update are those before it, with the one of the number changed. -/
theorem mem_update {netlist : Netlist} {n : Nat} {change : Net → Net} {net : Net} :
    net ∈ (netlist.update n change).nets ↔
      ∃ old ∈ netlist.nets, net = if old.number = n then change old else old := by
  simp only [update, List.mem_map, eq_comm]

/-- A change that keeps numbers keeps them wherever it is made. -/
theorem number_ite (n : Nat) (change : Net → Net) (hc : ∀ net, (change net).number = net.number)
    (old : Net) : (if old.number = n then change old else old).number = old.number := by
  split
  · exact hc old
  · rfl

/-- Changing one net in its wires only, or in its level, keeps the netlist coherent. -/
theorem Coherent.update {netlist : Netlist} (h : netlist.Coherent) (n : Nat) {change : Net → Net}
    (hc : ∀ net, (change net).number = net.number ∧ (change net).terminals = net.terminals) :
    (netlist.update n change).Coherent := by
  have hkeep : ∀ old : Net, (if old.number = n then change old else old).number = old.number ∧
      (if old.number = n then change old else old).terminals = old.terminals := by
    intro old
    split
    · exact hc old
    · exact ⟨rfl, rfl⟩
  refine ⟨?_, ?_, fun t m => ?_, ?_⟩
  · rw [Netlist.update, List.pairwise_map]
    exact h.sorted.imp (fun hlt => by rwa [(hkeep _).1, (hkeep _).1])
  · intro net hnet
    obtain ⟨old, hold, rfl⟩ := mem_update.1 hnet
    rw [(hkeep old).1]
    exact h.given old hold
  · refine (h.member t m).trans ⟨?_, ?_⟩
    · rintro ⟨old, hold, hm, hcon⟩
      refine ⟨_, mem_update.2 ⟨old, hold, rfl⟩, (hkeep old).1.trans hm, ?_⟩
      rw [Net.contains, (hkeep old).2]
      exact hcon
    · rintro ⟨net, hnet, hm, hcon⟩
      obtain ⟨old, hold, rfl⟩ := mem_update.1 hnet
      rw [Net.contains, (hkeep old).2] at hcon
      exact ⟨old, hold, (hkeep old).1.symm.trans hm, hcon⟩
  · intro net hnet
    obtain ⟨old, hold, rfl⟩ := mem_update.1 hnet
    rw [(hkeep old).2]
    exact h.inhabited old hold

/-- The net that a wire opens. -/
def freshNet (netlist : Netlist) (wire : Wire) : Net :=
  (((Net.mk netlist.opened [] [] .unknown false).addTerminal wire.source).addTerminal
    wire.target).addWire wire.id

/-- A fresh net contains the two ends of its wire. -/
theorem contains_freshNet (netlist : Netlist) (wire : Wire) (t : Terminal) :
    (netlist.freshNet wire).contains t = (wire.source == t || wire.target == t) := by
  rw [freshNet, Net.contains_addWire, Net.contains_addTerminal, Net.contains_addTerminal]
  rfl

/-- Opening a net appends it to the nets. -/
theorem nets_openNet (netlist : Netlist) (wire : Wire) :
    (netlist.openNet wire).nets = netlist.nets ++ [netlist.freshNet wire] := rfl

/-- Opening a net numbers both ends of its wire with it. -/
theorem numberAt?_openNet (netlist : Netlist) (wire : Wire) (t : Terminal) :
    (netlist.openNet wire).numberAt? t =
      if wire.source == t || wire.target == t then some netlist.opened
      else netlist.numberAt? t := by
  have h : (netlist.openNet wire).numberAt? t =
      if wire.target == t then some netlist.opened
      else if wire.source == t then some netlist.opened else netlist.numberAt? t := by
    rw [openNet, numberAt?_refer, numberAt?_refer]
    rfl
  rw [h]
  by_cases hs : wire.source == t <;> by_cases ht : wire.target == t <;> simp [hs, ht]

/-- Opening a net for a wire none of whose ends has one keeps a netlist coherent. -/
theorem Coherent.openNet {netlist : Netlist} (h : netlist.Coherent) {wire : Wire}
    (hs : netlist.numberAt? wire.source = none) (ht : netlist.numberAt? wire.target = none) :
    (netlist.openNet wire).Coherent := by
  have hmem : ∀ net, net ∈ (netlist.openNet wire).nets ↔
      net ∈ netlist.nets ∨ net = netlist.freshNet wire := by
    simp [nets_openNet]
  refine ⟨?_, fun net hnet => ?_, fun t n => ?_, fun net hnet => ?_⟩
  · rw [nets_openNet, List.pairwise_append]
    refine ⟨h.sorted, List.pairwise_singleton _ _, fun a ha b hb => ?_⟩
    rw [List.mem_singleton.1 hb]
    exact h.given a ha
  · rcases (hmem net).1 hnet with hold | rfl
    · exact Nat.lt_succ_of_lt (h.given net hold)
    · exact Nat.lt_succ_self _
  · rw [numberAt?_openNet]
    by_cases hend : (wire.source == t || wire.target == t) = true
    · -- the ends of the wire were in no net, so only the new net contains them
      have hnone : netlist.numberAt? t = none := by
        rcases Bool.or_eq_true_iff.1 hend with hst | htt
        · rwa [← netlist.numberAt?_congr hst]
        · rwa [← netlist.numberAt?_congr htt]
      rw [if_pos hend]
      constructor
      · intro hn
        cases hn
        exact ⟨_, (hmem _).2 (.inr rfl), rfl, by rw [contains_freshNet, hend]⟩
      · rintro ⟨net, hnet, rfl, hcon⟩
        rcases (hmem net).1 hnet with hold | rfl
        · rw [(h.member t _).2 ⟨net, hold, rfl, hcon⟩] at hnone
          cases hnone
        · rfl
    · rw [if_neg hend, h.member t n]
      constructor
      · rintro ⟨net, hold, hn⟩
        exact ⟨net, (hmem net).2 (.inl hold), hn⟩
      · rintro ⟨net, hnet, rfl, hcon⟩
        rcases (hmem net).1 hnet with hold | rfl
        · exact ⟨net, hold, rfl, hcon⟩
        · rw [contains_freshNet] at hcon
          exact absurd hcon hend
  · rcases (hmem net).1 hnet with hold | rfl
    · exact h.inhabited net hold
    · exact insertNew_ne_nil _ _

/-- Extending a net by a terminal gives the terminal its number. -/
theorem numberAt?_extendNet (netlist : Netlist) (n : Nat) (terminal t : Terminal) (wire : Ident) :
    (netlist.extendNet n terminal wire).numberAt? t =
      if terminal == t then some n else netlist.numberAt? t :=
  numberAt?_refer _ _ _ _

/-- Extending a net changes that net only. -/
theorem mem_extendNet {netlist : Netlist} {n : Nat} {terminal : Terminal} {wire : Ident}
    {net : Net} :
    net ∈ (netlist.extendNet n terminal wire).nets ↔
      ∃ old ∈ netlist.nets,
        net = if old.number = n then (old.addTerminal terminal).addWire wire else old :=
  mem_update

/-- One net of the listed ones takes terminals in, and a net stays if it holds none of them: with
the taken terminals referred to that net, the map still says what the list says. -/
theorem Coherent.member_of_taken {netlist next : Netlist} (h : netlist.Coherent) {n : Nat}
    {grow : Net → Net} (taken : Terminal → Bool) (stays : Net → Prop)
    (hnumber : ∀ old, (grow old).number = old.number)
    (hcontains : ∀ old t, (grow old).contains t = (old.contains t || old.number == n && taken t))
    (hmem : ∀ net, net ∈ next.nets ↔ ∃ old ∈ netlist.nets, stays old ∧ net = grow old)
    (hat : ∀ t, next.numberAt? t = if taken t then some n else netlist.numberAt? t)
    (hn : ∃ net ∈ netlist.nets, stays net ∧ net.number = n)
    (hstays : ∀ old ∈ netlist.nets, ∀ t, old.contains t = true → (stays old ↔ taken t = false))
    (t : Terminal) (m : Nat) :
    next.numberAt? t = some m ↔ ∃ net ∈ next.nets, net.number = m ∧ net.contains t = true := by
  rw [hat]
  cases htaken : taken t with
  | true =>
    -- no net that stays held the terminal, so only the growing one holds it now
    rw [if_pos rfl, Option.some.injEq]
    constructor
    · rintro rfl
      obtain ⟨net, hnet, hstay, hnet'⟩ := hn
      refine ⟨grow net, (hmem _).2 ⟨net, hnet, hstay, rfl⟩, (hnumber net).trans hnet', ?_⟩
      rw [hcontains, hnet', htaken]
      simp
    · rintro ⟨net, hnet, hm, hcon⟩
      obtain ⟨old, hold, hstay, rfl⟩ := (hmem net).1 hnet
      rw [hcontains, Bool.or_eq_true, Bool.and_eq_true, beq_iff_eq] at hcon
      rcases hcon with hcon | ⟨hcon, -⟩
      · rw [(hstays old hold t hcon).1 hstay] at htaken
        cases htaken
      · rw [← hm, hnumber, hcon]
  | false =>
    rw [if_neg Bool.false_ne_true, h.member t m]
    constructor
    · rintro ⟨old, hold, hm, hcon⟩
      have hstay := (hstays old hold t hcon).2 htaken
      refine ⟨grow old, (hmem _).2 ⟨old, hold, hstay, rfl⟩, (hnumber old).trans hm, ?_⟩
      rw [hcontains, hcon, Bool.true_or]
    · rintro ⟨net, hnet, hm, hcon⟩
      obtain ⟨old, hold, -, rfl⟩ := (hmem net).1 hnet
      rw [hcontains, htaken, Bool.and_false, Bool.or_false] at hcon
      exact ⟨old, hold, (hnumber old).symm.trans hm, hcon⟩

/-- Extending a net by a terminal without one keeps a netlist coherent. -/
theorem Coherent.extendNet {netlist : Netlist} (h : netlist.Coherent) {n : Nat}
    {terminal : Terminal} {wire : Ident} (hn : ∃ net ∈ netlist.nets, net.number = n)
    (hnone : netlist.numberAt? terminal = none) :
    (netlist.extendNet n terminal wire).Coherent := by
  have hnumber := number_ite n (fun net => (net.addTerminal terminal).addWire wire) (fun _ => rfl)
  have hout : ∀ old ∈ netlist.nets, ∀ t, old.contains t = true → (terminal == t) = false := by
    intro old hold t hcon
    by_contra hend
    have hold' := (h.member t _).2 ⟨old, hold, rfl, hcon⟩
    rw [← netlist.numberAt?_congr (Bool.not_eq_false _ ▸ hend), hnone] at hold'
    cases hold'
  refine ⟨?_, fun net hnet => ?_, ?_, fun net hnet => ?_⟩
  · rw [show (netlist.extendNet n terminal wire).nets = netlist.nets.map _ from rfl,
      List.pairwise_map]
    exact h.sorted.imp (fun hlt => by rwa [hnumber, hnumber])
  · obtain ⟨old, hold, rfl⟩ := mem_extendNet.1 hnet
    rw [hnumber]
    exact h.given old hold
  · obtain ⟨net, hnet, hnet'⟩ := hn
    refine h.member_of_taken (terminal == ·) (fun _ => True) hnumber ?_ ?_
      (numberAt?_extendNet netlist n terminal · wire) ⟨net, hnet, trivial, hnet'⟩ ?_
    · intro old t
      split <;> simp_all
    · intro net
      simp only [mem_extendNet, true_and]
    · intro old hold t hcon
      exact iff_of_true trivial (hout old hold t hcon)
  · obtain ⟨old, hold, rfl⟩ := mem_extendNet.1 hnet
    split
    · exact insertNew_ne_nil _ _
    · exact h.inhabited old hold

/-- Merging refers the terminals of the dropped net to the kept one. -/
theorem numberAt?_mergeNets (netlist : Netlist) (keep drop : Net) (t : Terminal) :
    (netlist.mergeNets keep drop).numberAt? t =
      if drop.contains t then some keep.number else netlist.numberAt? t :=
  numberAt?_foldl_refer keep.number drop.terminals (netlist.update keep.number (·.merge drop)) t

/-- Merging leaves all nets but the dropped one, with the kept one grown. -/
theorem nets_mergeNets (netlist : Netlist) (keep drop : Net) :
    (netlist.mergeNets keep drop).nets =
      (netlist.update keep.number (·.merge drop)).nets.filter (·.number ≠ drop.number) := by
  rw [mergeNets]
  simp only [nets_foldl_refer]

/-- The nets after merging are those of other numbers, the kept one grown. -/
theorem mem_mergeNets {netlist : Netlist} {keep drop net : Net} :
    net ∈ (netlist.mergeNets keep drop).nets ↔
      ∃ old ∈ netlist.nets, old.number ≠ drop.number ∧
        net = if old.number = keep.number then old.merge drop else old := by
  rw [nets_mergeNets, List.mem_filter, mem_update, decide_eq_true_iff]
  constructor
  · rintro ⟨⟨old, hold, rfl⟩, hne⟩
    rw [number_ite keep.number (·.merge drop) (fun _ => rfl)] at hne
    exact ⟨old, hold, hne, rfl⟩
  · rintro ⟨old, hold, hne, rfl⟩
    rw [number_ite keep.number (·.merge drop) (fun _ => rfl)]
    exact ⟨⟨old, hold, rfl⟩, hne⟩

/-- Merging two nets of a coherent netlist keeps it coherent. -/
theorem Coherent.mergeNets {netlist : Netlist} (h : netlist.Coherent) {keep drop : Net}
    (hkeep : keep ∈ netlist.nets) (hdrop : drop ∈ netlist.nets)
    (hne : keep.number ≠ drop.number) : (netlist.mergeNets keep drop).Coherent := by
  have hnumber := number_ite keep.number (·.merge drop) (fun _ => rfl)
  -- the terminals of the dropped net are in no other one
  have hstays : ∀ old ∈ netlist.nets, ∀ t, old.contains t = true →
      (old.number ≠ drop.number ↔ drop.contains t = false) := by
    intro old hold t hcon
    rw [← Bool.not_eq_true, not_iff_not]
    constructor
    · intro heq
      exact h.eq_of_number hold hdrop heq ▸ hcon
    · intro hin
      have hold' := h.netAt?_eq_some.2 ⟨hold, hcon⟩
      rw [h.netAt?_eq_some.2 ⟨hdrop, hin⟩] at hold'
      exact congrArg Net.number (Option.some.inj hold').symm
  refine ⟨?_, fun net hnet => ?_, ?_, fun net hnet => ?_⟩
  · rw [nets_mergeNets, Netlist.update]
    refine (List.pairwise_map.2 ?_).filter _
    exact h.sorted.imp (fun hlt => by rwa [hnumber, hnumber])
  · obtain ⟨old, hold, -, rfl⟩ := mem_mergeNets.1 hnet
    rw [hnumber, Netlist.mergeNets]
    simp only [opened_foldl_refer]
    exact h.given old hold
  · refine h.member_of_taken drop.contains (·.number ≠ drop.number) hnumber ?_
      (fun net => mem_mergeNets) (numberAt?_mergeNets netlist keep drop)
      ⟨keep, hkeep, hne, rfl⟩ hstays
    intro old t
    split <;> simp_all
  · obtain ⟨old, hold, -, rfl⟩ := mem_mergeNets.1 hnet
    split
    · intro hnil
      obtain ⟨t, ht⟩ := List.exists_mem_of_ne_nil _ (h.inhabited old hold)
      have hcon : (old.merge drop).contains t = true := by
        rw [Net.contains_merge, show old.contains t = true from List.contains_iff_exists_mem_beq.2
          ⟨t, ht, BEq.rfl⟩, Bool.true_or]
      rw [Net.contains, hnil] at hcon
      simp at hcon
    · exact h.inhabited old hold

/-- A terminal of a net is one that is referred to it. -/
theorem Coherent.contains_iff {netlist : Netlist} (h : netlist.Coherent) {net : Net}
    (hnet : net ∈ netlist.nets) (t : Terminal) :
    net.contains t = true ↔ netlist.numberAt? t = some net.number := by
  rw [h.member t]
  constructor
  · exact fun hcon => ⟨net, hnet, rfl, hcon⟩
  · rintro ⟨other, hother, hn, hcon⟩
    exact h.eq_of_number hother hnet hn ▸ hcon

/-- Merging two nets of a coherent netlist renumbers the terminals of the dropped one and no other.
-/
theorem Coherent.numberAt?_mergeNets {netlist : Netlist} (h : netlist.Coherent) {keep drop : Net}
    (hdrop : drop ∈ netlist.nets) (t : Terminal) :
    (netlist.mergeNets keep drop).numberAt? t =
      if netlist.numberAt? t = some drop.number then some keep.number else netlist.numberAt? t := by
  rw [Netlist.numberAt?_mergeNets]
  simp only [h.contains_iff hdrop]

/-- The terminals that a wire brings together: its ends, and those of the nets that it touches. -/
def Gathers (netlist : Netlist) (wire : Wire) (t : Terminal) : Prop :=
  (wire.source == t) = true ∨ (wire.target == t) = true ∨
    ∃ n, netlist.numberAt? t = some n ∧
      (netlist.numberAt? wire.source = some n ∨ netlist.numberAt? wire.target = some n)

/-- Terminals of one net are brought together with the same ones. -/
theorem Gathers.of_eq {netlist : Netlist} {wire : Wire} {t u : Terminal} {n : Nat}
    (ht : netlist.numberAt? t = some n) (hu : netlist.numberAt? u = some n)
    (hg : netlist.Gathers wire t) : netlist.Gathers wire u := by
  rcases hg with hs | hs | ⟨m, hm, hends⟩
  · exact .inr (.inr ⟨n, hu, .inl ((netlist.numberAt?_congr hs).trans ht)⟩)
  · exact .inr (.inr ⟨n, hu, .inr ((netlist.numberAt?_congr hs).trans ht)⟩)
  · rw [ht, Option.some.injEq] at hm
    exact .inr (.inr ⟨n, hu, hm ▸ hends⟩)

/-- The netlist after a change has sent the terminals that a wire brings together to the net of one
number, to which no other terminal belongs, and no other terminal elsewhere. -/
structure Gathered (netlist : Netlist) (wire : Wire) (next : Netlist) (k : Nat) : Prop where
  coherent : next.Coherent
  gathered : ∀ t, netlist.Gathers wire t → next.numberAt? t = some k
  kept : ∀ t, ¬ netlist.Gathers wire t → next.numberAt? t = netlist.numberAt? t
  apart : ∀ t, ¬ netlist.Gathers wire t → netlist.numberAt? t ≠ some k

variable {netlist : Netlist} {wire : Wire}

/-- A net opened for a wire gathers its two ends. -/
theorem Gathered.openNet (h : netlist.Coherent) (hs : netlist.numberAt? wire.source = none)
    (ht : netlist.numberAt? wire.target = none) :
    netlist.Gathered wire (netlist.openNet wire) netlist.opened where
  coherent := h.openNet hs ht
  gathered t hg := by
    rw [numberAt?_openNet, if_pos]
    rcases hg with hst | htt | ⟨n, -, hn | hn⟩
    · simp [hst]
    · simp [htt]
    · rw [hs] at hn
      cases hn
    · rw [ht] at hn
      cases hn
  kept t hg := by
    rw [numberAt?_openNet, if_neg]
    rw [Bool.or_eq_true]
    exact fun hend => hg (hend.imp_right .inl)
  apart t _ hn := by
    obtain ⟨net, hnet, hnumber, -⟩ := (h.member t _).1 hn
    exact absurd (h.given net hnet) (by omega)

/-- Extending the net at one end of a wire by its other end, whichever way the wire runs. -/
theorem Gathered.extendNet (h : netlist.Coherent) {near far : Terminal} {net : Net}
    (hends : wire.source = far ∧ wire.target = near ∨ wire.source = near ∧ wire.target = far)
    (hnet : netlist.netAt? near = some net) (hfar : netlist.numberAt? far = none) :
    netlist.Gathered wire (netlist.extendNet net.number far wire.id) net.number := by
  obtain ⟨hmem, hcon⟩ := h.netAt?_eq_some.1 hnet
  have hnear : netlist.numberAt? near = some net.number := (h.contains_iff hmem near).1 hcon
  have hg : ∀ t, netlist.Gathers wire t ↔
      (far == t) = true ∨ netlist.numberAt? t = some net.number := by
    intro t
    constructor
    · have hat : (near == t) = true → netlist.numberAt? t = some net.number :=
        fun hnt => (netlist.numberAt?_congr hnt).symm.trans hnear
      rcases hends with ⟨hs, ht⟩ | ⟨hs, ht⟩ <;> rw [Gathers, hs, ht, hnear, hfar]
      · rintro (hft | hnt | ⟨n, hn, hn' | hn'⟩)
        · exact .inl hft
        · exact .inr (hat hnt)
        · cases hn'
        · exact .inr (hn.trans hn'.symm)
      · rintro (hnt | hft | ⟨n, hn, hn' | hn'⟩)
        · exact .inr (hat hnt)
        · exact .inl hft
        · exact .inr (hn.trans hn'.symm)
        · cases hn'
    · rcases hends with ⟨hs, ht⟩ | ⟨hs, ht⟩ <;> rw [Gathers, hs, ht]
      · exact Or.imp_right (fun hn => .inr ⟨_, hn, .inr hnear⟩)
      · rintro (hft | hn)
        · exact .inr (.inl hft)
        · exact .inr (.inr ⟨_, hn, .inl hnear⟩)
  refine ⟨h.extendNet ⟨net, hmem, rfl⟩ hfar, fun t ht => ?_, fun t ht => ?_, fun t ht hn => ?_⟩
  · rw [numberAt?_extendNet]
    split
    · rfl
    · next hft => exact ((hg t).1 ht).resolve_left hft
  · rw [numberAt?_extendNet, if_neg]
    exact fun hft => ht ((hg t).2 (.inl hft))
  · exact ht ((hg t).2 (.inr hn))

/-- What a wire between two nets brings together are the terminals of these nets. -/
theorem gathers_iff_of_some {a b : Nat} (ha : netlist.numberAt? wire.source = some a)
    (hb : netlist.numberAt? wire.target = some b) (t : Terminal) :
    netlist.Gathers wire t ↔ netlist.numberAt? t = some a ∨ netlist.numberAt? t = some b := by
  rw [Gathers, ha, hb]
  constructor
  · rintro (hs | ht | ⟨n, hn, hn' | hn'⟩)
    · exact .inl ((netlist.numberAt?_congr hs).symm.trans ha)
    · exact .inr ((netlist.numberAt?_congr ht).symm.trans hb)
    · exact .inl (hn.trans hn'.symm)
    · exact .inr (hn.trans hn'.symm)
  · rintro (hn | hn)
    · exact .inr (.inr ⟨a, hn, .inl rfl⟩)
    · exact .inr (.inr ⟨b, hn, .inr rfl⟩)

/-- Merging the nets at the two ends of a wire, whichever is kept. -/
theorem Gathered.mergeNets (keep drop : Net) {next : Netlist}
    (hnext : next.Coherent) (hsame : ∀ t, next.numberAt? t = netlist.numberAt? t)
    (hkeep : keep ∈ next.nets) (hdrop : drop ∈ next.nets) (hne : keep.number ≠ drop.number)
    (hg : ∀ t, netlist.Gathers wire t ↔
      netlist.numberAt? t = some keep.number ∨ netlist.numberAt? t = some drop.number) :
    netlist.Gathered wire (next.mergeNets keep drop) keep.number := by
  refine ⟨hnext.mergeNets hkeep hdrop hne, fun t ht => ?_, fun t ht => ?_, fun t ht hn => ?_⟩
  · rw [hnext.numberAt?_mergeNets hdrop, hsame]
    split
    · rfl
    · next hn => exact ((hg t).1 ht).resolve_right hn
  · rw [hnext.numberAt?_mergeNets hdrop, hsame, if_neg]
    exact fun hn => ht ((hg t).2 (.inr hn))
  · exact ht ((hg t).2 (.inl hn))

/-- A net that is given one more wire is listed with it, and the others are listed as they were. -/
theorem Coherent.update_addWire (h : netlist.Coherent) {a b : Net} (ha : a ∈ netlist.nets)
    (hb : b ∈ netlist.nets) (id : Ident) :
    (netlist.update a.number (·.addWire id)).Coherent ∧
      a.addWire id ∈ (netlist.update a.number (·.addWire id)).nets ∧
      (a.number ≠ b.number → b ∈ (netlist.update a.number (·.addWire id)).nets) := by
  refine ⟨h.update _ (fun _ => ⟨rfl, rfl⟩), mem_update.2 ⟨a, ha, ?_⟩, fun hne => ?_⟩
  · rw [if_pos rfl]
  · exact mem_update.2 ⟨b, hb, (if_neg hne.symm).symm⟩

/-- Adding a wire gathers the terminals of its ends' nets in one net. -/
theorem gathered_addWire (h : netlist.Coherent) (wire : Wire) :
    ∃ k, netlist.Gathered wire (netlist.addWire wire) k := by
  unfold addWire
  split
  · next hs ht =>
    exact ⟨_, .openNet h (h.netAt?_eq_none.1 hs) (h.netAt?_eq_none.1 ht)⟩
  · next net hs ht =>
    exact ⟨_, .extendNet h (.inl ⟨rfl, rfl⟩) ht (h.netAt?_eq_none.1 hs)⟩
  · next net hs ht =>
    exact ⟨_, .extendNet h (.inr ⟨rfl, rfl⟩) hs (h.netAt?_eq_none.1 ht)⟩
  · next a b hs ht =>
    obtain ⟨ha, hsa⟩ := h.netAt?_eq_some.1 hs
    obtain ⟨hb, htb⟩ := h.netAt?_eq_some.1 ht
    have hg := gathers_iff_of_some ((h.contains_iff ha _).1 hsa) ((h.contains_iff hb _).1 htb)
    obtain ⟨hwired, haw, hbw⟩ := h.update_addWire ha hb wire.id
    dsimp only
    split_ifs with heq hlt
    · -- both ends were in one net already
      refine ⟨a.number, hwired, fun t ht => ?_, fun _ _ => rfl, fun t ht hn => ?_⟩
      · rcases (hg t).1 ht with hn | hn
        · exact hn
        · exact heq ▸ hn
      · exact ht ((hg t).2 (.inl hn))
    · exact ⟨a.number, .mergeNets (a.addWire wire.id) b hwired (fun _ => rfl) haw (hbw heq) heq hg⟩
    · exact ⟨b.number, .mergeNets b (a.addWire wire.id) hwired (fun _ => rfl) (hbw heq) haw
        (Ne.symm heq) (fun t => (hg t).trans or_comm)⟩

/-! ## The wires of a net -/

/-- The nets after a change hold the terminals and wires of those before it, with one wire more at
the net of its source, and no wire without the terminals of a net that held it. -/
structure Extended (netlist : Netlist) (wire : Wire) (next : Netlist) : Prop where
  grows : ∀ net ∈ netlist.nets, ∃ later ∈ next.nets,
    (∀ id, net.wires.contains id = true → later.wires.contains id = true) ∧
      ∀ t, net.contains t = true → later.contains t = true
  added : ∃ net ∈ next.nets, net.wires.contains wire.id = true ∧ net.contains wire.source = true
  named : ∀ later ∈ next.nets, ∀ id, later.wires.contains id = true →
    (wire.id == id) = true ∧ later.contains wire.source = true ∨
      ∃ net ∈ netlist.nets, net.wires.contains id = true ∧
        ∀ t, net.contains t = true → later.contains t = true

/-- A net opened for a wire adds the wire to the nets there were. -/
theorem Extended.openNet : netlist.Extended wire (netlist.openNet wire) := by
  have hwires : ∀ id, (netlist.freshNet wire).wires.contains id = (wire.id == id) := by
    intro id
    rw [freshNet, Net.contains_wires_addWire]
    rfl
  have hsource : (netlist.freshNet wire).contains wire.source = true := by
    rw [contains_freshNet, BEq.rfl, Bool.true_or]
  refine ⟨fun net hnet => ?_, ?_, fun later hlater id hid => ?_⟩
  · exact ⟨net, List.mem_append_left _ hnet, fun _ hid => hid, fun _ ht => ht⟩
  · exact ⟨_, List.mem_append_right _ (List.mem_singleton.2 rfl), (hwires _).trans BEq.rfl, hsource⟩
  · rcases List.mem_append.1 hlater with hold | hnew
    · exact .inr ⟨later, hold, hid, fun _ ht => ht⟩
    · obtain rfl := List.mem_singleton.1 hnew
      exact .inl ⟨(hwires id).symm.trans hid, hsource⟩

/-- Changing the net of one number so that it grows, by the wire and by nothing else that has a
name, if that net then contains the source of the wire. -/
theorem Extended.update (n : Nat) (change : Net → Net)
    (hwires : ∀ net id, (change net).wires.contains id = (net.wires.contains id || wire.id == id))
    (hgrow : ∀ net t, net.contains t = true → (change net).contains t = true)
    (hn : ∃ net ∈ netlist.nets, net.number = n)
    (hsource : ∀ net ∈ netlist.nets, net.number = n → (change net).contains wire.source = true)
    {next : Netlist} (hnext : next.nets = (netlist.update n change).nets) :
    netlist.Extended wire next := by
  refine ⟨fun net hnet => ?_, ?_, fun later hlater id hid => ?_⟩
  · refine ⟨_, hnext ▸ mem_update.2 ⟨net, hnet, rfl⟩, fun id hid => ?_, fun t ht => ?_⟩
    · split
      · rw [hwires, hid, Bool.true_or]
      · exact hid
    · split
      · exact hgrow net t ht
      · exact ht
  · obtain ⟨net, hnet, hnumber⟩ := hn
    refine ⟨_, hnext ▸ mem_update.2 ⟨net, hnet, rfl⟩, ?_, ?_⟩
    · rw [if_pos hnumber, hwires, BEq.rfl, Bool.or_true]
    · rw [if_pos hnumber]
      exact hsource net hnet hnumber
  · obtain ⟨net, hnet, rfl⟩ := mem_update.1 (hnext ▸ hlater)
    by_cases hnumber : net.number = n
    · rw [if_pos hnumber, hwires, Bool.or_eq_true] at hid
      rw [if_pos hnumber]
      rcases hid with hid | hid
      · exact .inr ⟨net, hnet, hid, hgrow net⟩
      · exact .inl ⟨hid, hsource net hnet hnumber⟩
    · rw [if_neg hnumber] at hid ⊢
      exact .inr ⟨net, hnet, hid, fun _ ht => ht⟩

/-- Merging two nets loses no wire that was added before. -/
theorem Extended.mergeNets {next : Netlist} (h : netlist.Extended wire next)
    (hnext : next.Coherent) (keep drop : Net) (hkeep : keep ∈ next.nets) (hdrop : drop ∈ next.nets)
    (hne : keep.number ≠ drop.number) : netlist.Extended wire (next.mergeNets keep drop) := by
  -- every net is found again, the dropped one in the kept one
  have hlater : ∀ net ∈ next.nets, ∃ later ∈ (next.mergeNets keep drop).nets,
      (∀ id, net.wires.contains id = true → later.wires.contains id = true) ∧
        ∀ t, net.contains t = true → later.contains t = true := by
    intro net hnet
    by_cases hd : net.number = drop.number
    · obtain rfl := hnext.eq_of_number hnet hdrop hd
      refine ⟨_, mem_mergeNets.2 ⟨keep, hkeep, hne, rfl⟩, fun id hid => ?_, fun t ht => ?_⟩
      · rw [if_pos rfl, Net.contains_wires_merge, hid, Bool.or_true]
      · rw [if_pos rfl, Net.contains_merge, ht, Bool.or_true]
    · refine ⟨_, mem_mergeNets.2 ⟨net, hnet, hd, rfl⟩, fun id hid => ?_, fun t ht => ?_⟩
      · split
        · rw [Net.contains_wires_merge, hid, Bool.true_or]
        · exact hid
      · split
        · rw [Net.contains_merge, ht, Bool.true_or]
        · exact ht
  refine ⟨fun net hnet => ?_, ?_, fun later hmem id hid => ?_⟩
  · obtain ⟨mid, hmid, hwires, hterms⟩ := h.grows net hnet
    obtain ⟨later, hmem, hwires', hterms'⟩ := hlater mid hmid
    exact ⟨later, hmem, fun id hid => hwires' id (hwires id hid),
      fun t ht => hterms' t (hterms t ht)⟩
  · obtain ⟨mid, hmid, hid, hsource⟩ := h.added
    obtain ⟨later, hmem, hwires, hterms⟩ := hlater mid hmid
    exact ⟨later, hmem, hwires _ hid, hterms _ hsource⟩
  · obtain ⟨old, hold, -, rfl⟩ := mem_mergeNets.1 hmem
    have hfrom : ∃ mid ∈ next.nets, mid.wires.contains id = true ∧ ∀ t, mid.contains t = true →
        (if old.number = keep.number then old.merge drop else old).contains t = true := by
      split at hid
      · next hk =>
        rw [Net.contains_wires_merge, Bool.or_eq_true] at hid
        rcases hid with hid | hid
        · exact ⟨old, hold, hid, fun t ht => by
            rw [if_pos hk, Net.contains_merge, ht, Bool.true_or]⟩
        · exact ⟨drop, hdrop, hid, fun t ht => by
            rw [if_pos hk, Net.contains_merge, ht, Bool.or_true]⟩
      · next hk => exact ⟨old, hold, hid, fun t ht => by rw [if_neg hk]; exact ht⟩
    obtain ⟨mid, hmid, hid', hterms⟩ := hfrom
    rcases h.named mid hmid id hid' with ⟨hw, hsource⟩ | ⟨net, hnet, hid'', hterms'⟩
    · exact .inl ⟨hw, hterms _ hsource⟩
    · exact .inr ⟨net, hnet, hid'', fun t ht => hterms t (hterms' t ht)⟩

/-- Adding a wire puts it into the net that then holds its ends. -/
theorem extended_addWire (h : netlist.Coherent) (wire : Wire) :
    netlist.Extended wire (netlist.addWire wire) := by
  unfold addWire
  split
  · exact .openNet
  · next net hs ht =>
    obtain ⟨hnet, -⟩ := h.netAt?_eq_some.1 ht
    exact .update net.number (fun net => (net.addTerminal wire.source).addWire wire.id)
      (fun net id => (net.addTerminal wire.source).contains_wires_addWire wire.id id)
      (fun net t hcon => by rw [Net.contains_addWire, Net.contains_addTerminal, hcon, Bool.true_or])
      ⟨net, hnet, rfl⟩ (fun other _ _ => by simp) rfl
  · next net hs ht =>
    obtain ⟨hnet, hcon⟩ := h.netAt?_eq_some.1 hs
    refine .update net.number (fun net => (net.addTerminal wire.target).addWire wire.id)
      (fun net id => (net.addTerminal wire.target).contains_wires_addWire wire.id id)
      (fun net t hcon => by rw [Net.contains_addWire, Net.contains_addTerminal, hcon, Bool.true_or])
      ⟨net, hnet, rfl⟩ (fun other hother hnumber => ?_) rfl
    rw [h.eq_of_number hother hnet hnumber, Net.contains_addWire, Net.contains_addTerminal, hcon,
      Bool.true_or]
  · next a b hs ht =>
    obtain ⟨ha, hsa⟩ := h.netAt?_eq_some.1 hs
    obtain ⟨hb, -⟩ := h.netAt?_eq_some.1 ht
    obtain ⟨hwired, haw, hbw⟩ := h.update_addWire ha hb wire.id
    have hext : netlist.Extended wire (netlist.update a.number (·.addWire wire.id)) := by
      refine .update a.number (·.addWire wire.id)
        (fun net id => net.contains_wires_addWire wire.id id) (fun _ _ hcon => hcon)
        ⟨a, ha, rfl⟩ (fun other hother hnumber => ?_) rfl
      rw [h.eq_of_number hother ha hnumber, Net.contains_addWire, hsa]
    dsimp only
    split_ifs with heq hlt
    · exact hext
    · exact hext.mergeNets hwired (a.addWire wire.id) b haw (hbw heq) heq
    · exact hext.mergeNets hwired b (a.addWire wire.id) (hbw heq) haw (Ne.symm heq)

/-! ## All wires -/

/-- A coherent netlist whose nets are the classes of linked ends of the given wires, each with the
names of its wires. -/
structure Represents (netlist : Netlist) (wires : List Wire) : Prop where
  coherent : netlist.Coherent
  defined : ∀ t, (netlist.numberAt? t).isSome = true ↔ IsEnd wires t
  joined : ∀ wire ∈ wires, netlist.numberAt? wire.source = netlist.numberAt? wire.target
  linked : ∀ t u n, netlist.numberAt? t = some n → netlist.numberAt? u = some n → Linked wires t u
  carried : ∀ wire ∈ wires, ∃ net ∈ netlist.nets,
    net.wires.contains wire.id = true ∧ net.contains wire.source = true
  named : ∀ net ∈ netlist.nets, ∀ id, net.wires.contains id = true →
    ∃ wire ∈ wires, (wire.id == id) = true ∧ net.contains wire.source = true

/-- The empty netlist represents no wires. -/
theorem represents_nil : ({} : Netlist).Represents [] where
  coherent := ⟨.nil, nofun, fun _ _ => ⟨nofun, fun ⟨_, h, _⟩ => nomatch h⟩, nofun⟩
  defined _ := ⟨nofun, fun ⟨_, h, _⟩ => nomatch h⟩
  joined := nofun
  linked _ _ _ := nofun
  carried := nofun
  named := nofun

/-- The terminals that a wire brings together are linked to its source once it is there. -/
theorem Represents.linked_of_gathers {wires : List Wire} (h : netlist.Represents wires)
    {t : Terminal} (hg : netlist.Gathers wire t) : Linked (wires ++ [wire]) wire.source t := by
  have hsub : ∀ w ∈ wires, w ∈ wires ++ [wire] := fun w hw => List.mem_append_left _ hw
  have hnew : wire ∈ wires ++ [wire] := List.mem_append_right _ (List.mem_singleton.2 rfl)
  have hends : Linked (wires ++ [wire]) wire.source wire.target := .of_wire hnew BEq.rfl BEq.rfl
  rcases hg with hs | ht | ⟨n, hn, hs | ht⟩
  · exact .of_beq hs ⟨wire, hnew, .inl BEq.rfl⟩
  · exact .of_wire hnew BEq.rfl ht
  · exact (h.linked _ _ n hs hn).mono hsub
  · exact hends.trans ((h.linked _ _ n ht hn).mono hsub)

/-- One more wire is represented by adding it. -/
theorem Represents.addWire {wires : List Wire} (h : netlist.Represents wires) (wire : Wire) :
    (netlist.addWire wire).Represents (wires ++ [wire]) := by
  obtain ⟨k, hk⟩ := gathered_addWire h.coherent wire
  have hext := extended_addWire h.coherent wire
  have hsub : ∀ w ∈ wires, w ∈ wires ++ [wire] := fun w hw => List.mem_append_left _ hw
  have hnew : wire ∈ wires ++ [wire] := List.mem_append_right _ (List.mem_singleton.2 rfl)
  refine ⟨hk.coherent, fun t => ?_, fun w hw => ?_, fun t u n ht hu => ?_, fun w hw => ?_,
    fun later hlater id hid => ?_⟩
  · by_cases hg : netlist.Gathers wire t
    · rw [hk.gathered t hg]
      refine iff_of_true rfl ?_
      rcases hg with hs | ht | ⟨n, hn, -⟩
      · exact ⟨wire, hnew, .inl hs⟩
      · exact ⟨wire, hnew, .inr ht⟩
      · obtain ⟨w, hw, hend⟩ := (h.defined t).1 (by rw [hn]; rfl)
        exact ⟨w, hsub w hw, hend⟩
    · rw [hk.kept t hg, h.defined t]
      constructor
      · rintro ⟨w, hw, hend⟩
        exact ⟨w, hsub w hw, hend⟩
      · rintro ⟨w, hw, hend⟩
        rcases List.mem_append.1 hw with hw | hw
        · exact ⟨w, hw, hend⟩
        · obtain rfl := List.mem_singleton.1 hw
          exact absurd (hend.imp_right .inl) hg
  · rcases List.mem_append.1 hw with hw | hw
    · obtain ⟨n, hn⟩ := Option.isSome_iff_exists.1 ((h.defined w.source).2 ⟨w, hw, .inl BEq.rfl⟩)
      have hn' : netlist.numberAt? w.target = some n := (h.joined w hw).symm.trans hn
      by_cases hg : netlist.Gathers wire w.source
      · rw [hk.gathered _ hg, hk.gathered _ (hg.of_eq hn hn')]
      · rw [hk.kept _ hg, hk.kept _ (fun hg' => hg (hg'.of_eq hn' hn)), hn, hn']
    · obtain rfl := List.mem_singleton.1 hw
      rw [hk.gathered _ (.inl BEq.rfl), hk.gathered _ (.inr (.inl BEq.rfl))]
  · by_cases hgt : netlist.Gathers wire t <;> by_cases hgu : netlist.Gathers wire u
    · exact (h.linked_of_gathers hgt).symm.trans (h.linked_of_gathers hgu)
    · rw [hk.gathered t hgt] at ht
      rw [hk.kept u hgu, ← ht] at hu
      exact absurd hu (hk.apart u hgu)
    · rw [hk.gathered u hgu] at hu
      rw [hk.kept t hgt, ← hu] at ht
      exact absurd ht (hk.apart t hgt)
    · rw [hk.kept t hgt] at ht
      rw [hk.kept u hgu] at hu
      exact (h.linked t u n ht hu).mono hsub
  · rcases List.mem_append.1 hw with hw | hw
    · obtain ⟨net, hnet, hid, hsource⟩ := h.carried w hw
      obtain ⟨later, hlater, hwires, hterms⟩ := hext.grows net hnet
      exact ⟨later, hlater, hwires _ hid, hterms _ hsource⟩
    · obtain rfl := List.mem_singleton.1 hw
      exact hext.added
  · rcases hext.named later hlater id hid with ⟨hid, hsource⟩ | ⟨net, hnet, hid', hterms⟩
    · exact ⟨wire, hnew, hid, hsource⟩
    · obtain ⟨w, hw, hwid, hsource⟩ := h.named net hnet id hid'
      exact ⟨w, hsub w hw, hwid, hterms _ hsource⟩

/-- Adding wires one after the other represents them all, by induction on the wires. -/
theorem represents_foldl (wires : List Wire) : ∀ (earlier : List Wire) (netlist : Netlist),
    netlist.Represents earlier → (wires.foldl addWire netlist).Represents (earlier ++ wires) := by
  induction wires with
  | nil => simp
  | cons wire wires ih =>
    intro earlier netlist h
    have := ih (earlier ++ [wire]) (netlist.addWire wire) (h.addWire wire)
    rwa [List.append_assoc] at this

/-! ## The index of wires -/

/-- Indexing a net enters its number under each of its wires. -/
theorem get?_indexNet (index : List (Ident × Nat)) (net : Net) (id : Ident) :
    Assoc.get? id (indexNet index net) =
      if net.wires.contains id then some net.number else Assoc.get? id index := by
  unfold indexNet
  generalize net.wires = ids
  induction ids generalizing index with
  | nil => simp
  | cons first ids ih =>
    rw [List.foldl_cons, ih, Assoc.get?_put, List.contains_cons, BEq.comm]
    by_cases hf : id == first <;> simp [hf]

/-- A wire that is in the nets of one number only is referred to it. -/
theorem get?_foldl_indexNet {id : Ident} {n : Nat} : ∀ {nets : List Net}
    {index : List (Ident × Nat)},
    (∀ net ∈ nets, net.wires.contains id = true → net.number = n) →
    (Assoc.get? id index = some n ∨ ∃ net ∈ nets, net.wires.contains id = true) →
    Assoc.get? id (nets.foldl indexNet index) = some n
  | [], _, _, h => h.resolve_right (fun ⟨_, hnet, _⟩ => nomatch hnet)
  | net :: nets, index, hall, h => by
    rw [List.foldl_cons]
    refine get?_foldl_indexNet (fun other hother => hall other (List.mem_cons_of_mem _ hother)) ?_
    rw [get?_indexNet]
    by_cases hid : net.wires.contains id = true
    · rw [if_pos hid, hall net List.mem_cons_self hid]
      exact .inl rfl
    · rw [if_neg hid]
      refine h.imp_right (fun ⟨other, hother, hcon⟩ => ?_)
      rcases List.mem_cons.1 hother with rfl | hother
      · exact absurd hcon hid
      · exact ⟨other, hother, hcon⟩

/-- The netlist of a list of wires represents it. -/
theorem represents_ofWires (wires : List Wire) : (ofWires wires).Represents wires :=
  have h := represents_foldl wires [] {} represents_nil
  ⟨⟨h.coherent.sorted, h.coherent.given, h.coherent.member, h.coherent.inhabited⟩, h.defined,
    h.joined, h.linked, h.carried, h.named⟩

namespace Represents

variable {wires : List Wire} (h : netlist.Represents wires)
include h

/-- Two ends of wires are in the same net if and only if they are linked. -/
theorem numberAt?_eq_iff {t u : Terminal} (ht : IsEnd wires t) :
    netlist.numberAt? t = netlist.numberAt? u ↔ Linked wires t u := by
  constructor
  · intro heq
    obtain ⟨n, hn⟩ := Option.isSome_iff_exists.1 ((h.defined t).2 ht)
    exact h.linked t u n hn (heq.symm.trans hn)
  · intro hlinked
    clear ht
    induction hlinked with
    | rel t u hwired =>
      obtain ⟨wire, hwire, hs, ht⟩ := hwired
      rw [← netlist.numberAt?_congr hs, ← netlist.numberAt?_congr ht, h.joined wire hwire]
    | refl => rfl
    | symm _ _ _ ih => exact ih.symm
    | trans _ _ _ _ _ ih ih' => exact ih.trans ih'

/-- A wire whose name no other one has is in no other net than that of its source. -/
theorem number_of_contains (hids : wires.Pairwise (fun a b => (a.id == b.id) = false))
    {wire : Wire} (hwire : wire ∈ wires) {net : Net} (hnet : net ∈ netlist.nets)
    (hid : net.wires.contains wire.id = true) :
    netlist.numberAt? wire.source = some net.number := by
  obtain ⟨other, hother, hname, hsource⟩ := h.named net hnet _ hid
  rw [← Assoc.eq_of_key_beq hids hother hwire hname]
  exact (h.coherent.contains_iff hnet _).1 hsource

end Represents

/-- The nets of a list of wires are its electrical connectivity. The terminals with a net are the
ends of the wires; two of them have the same one if and only if a chain of wires joins them; the net
that a terminal is referred to is listed and lists the terminal; the nets have terminals, share
none, and have all ends and nothing else; and if the wires have distinct names, every wire is
referred to the net of both its ends. -/
theorem nets_are_connectivity (wires : List Wire) :
    let netlist := ofWires wires
    (∀ t, (netlist.numberAt? t).isSome = true ↔ IsEnd wires t) ∧
    (∀ t u, IsEnd wires t → IsEnd wires u →
      (netlist.numberAt? t = netlist.numberAt? u ↔ Linked wires t u)) ∧
    (∀ t n, netlist.numberAt? t = some n →
      ∃ net ∈ netlist.nets, netlist.net? n = some net ∧ net.contains t = true) ∧
    (∀ net ∈ netlist.nets, net.terminals ≠ []) ∧
    netlist.nets.Pairwise (fun a b => ∀ t, ¬ (a.contains t = true ∧ b.contains t = true)) ∧
    (∀ t, (∃ net ∈ netlist.nets, net.contains t = true) ↔ IsEnd wires t) ∧
    (wires.Pairwise (fun a b => (a.id == b.id) = false) → ∀ wire ∈ wires,
      ∃ n, Assoc.get? wire.id netlist.wireNets = some n ∧
        netlist.numberAt? wire.source = some n ∧ netlist.numberAt? wire.target = some n) := by
  intro netlist
  have h : netlist.Represents wires := represents_ofWires wires
  refine ⟨h.defined, fun t u ht _ => h.numberAt?_eq_iff ht, fun t n hn => ?_,
    h.coherent.inhabited, ?_, fun t => ?_, fun hids wire hwire => ?_⟩
  · obtain ⟨net, hnet, hnumber, hcon⟩ := (h.coherent.member t n).1 hn
    exact ⟨net, hnet, h.coherent.net?_eq_some.2 ⟨hnet, hnumber⟩, hcon⟩
  · refine h.coherent.sorted.imp_of_mem (fun ha hb hlt t ⟨hat, hbt⟩ => ?_)
    rw [h.coherent.contains_iff ha] at hat
    rw [h.coherent.contains_iff hb, hat, Option.some.injEq] at hbt
    omega
  · rw [← h.defined t, Option.isSome_iff_exists]
    constructor
    · rintro ⟨net, hnet, hcon⟩
      exact ⟨net.number, (h.coherent.contains_iff hnet t).1 hcon⟩
    · rintro ⟨n, hn⟩
      obtain ⟨net, hnet, -, hcon⟩ := (h.coherent.member t n).1 hn
      exact ⟨net, hnet, hcon⟩
  · obtain ⟨net, hnet, hid, hsource⟩ := h.carried wire hwire
    have hn := (h.coherent.contains_iff hnet _).1 hsource
    refine ⟨net.number, get?_foldl_indexNet (fun other hother hcon => ?_) (.inr ⟨net, hnet, hid⟩),
      hn, (h.joined wire hwire).symm.trans hn⟩
    have hother' := h.number_of_contains hids hwire hother hcon
    rw [hn, Option.some.injEq] at hother'
    exact hother'.symm

/-- Two wires and one that bridges the nets of the earlier two. -/
def bridge : List Wire :=
  [⟨.text "w1", ⟨.text "a", .text "out"⟩, ⟨.text "b", .text "in"⟩⟩,
    ⟨.text "w2", ⟨.text "c", .text "out"⟩, ⟨.text "d", .text "in"⟩⟩,
    ⟨.text "w3", ⟨.text "b", .text "in"⟩, ⟨.text "c", .text "out"⟩⟩]

/-- A bridged net is one net: its far ends are linked, and the wire of the net that was dropped is
referred to the one that was kept. -/
theorem nets_of_bridge :
    bridge.Pairwise (fun a b => (a.id == b.id) = false) ∧
    Linked bridge ⟨.text "a", .text "out"⟩ ⟨.text "d", .text "in"⟩ ∧
    ∃ n, Assoc.get? (.text "w2") (ofWires bridge).wireNets = some n ∧
      (ofWires bridge).numberAt? ⟨.text "a", .text "out"⟩ = some n := by
  have hids : bridge.Pairwise (fun a b => (a.id == b.id) = false) := by decide +kernel
  obtain ⟨-, hjoined, -, -, -, -, hwires⟩ := nets_are_connectivity bridge
  have hends : IsEnd bridge ⟨.text "a", .text "out"⟩ ∧ IsEnd bridge ⟨.text "d", .text "in"⟩ := by
    unfold IsEnd
    decide +kernel
  have hsame : (ofWires bridge).numberAt? ⟨.text "c", .text "out"⟩ =
      (ofWires bridge).numberAt? ⟨.text "a", .text "out"⟩ := by decide +kernel
  obtain ⟨n, hn, hsource, -⟩ := hwires hids _ (List.mem_cons_of_mem _ List.mem_cons_self)
  exact ⟨hids, (hjoined _ _ hends.1 hends.2).1 (by decide +kernel), n, hn, hsame.symm.trans hsource⟩

end Netlist

end Switchyard.Relay
