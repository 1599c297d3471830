import Mathlib.Order.Basic
import Switchyard.Proofs.Relay.Embedding

/-!
# The numbers of nets

A wire opens a net if it touches no terminal of an earlier one, and nets are numbered as they are
opened. Of the nets that a wire joins the one with the least number stays, so no number is above the
openings before any wire of its net, and every number is that of the openings before one of them
(`Netlist.Ranked`, kept by every wire). Hence a net is numbered by the openings before the first
wire of its group (`Netlist.Ranked.numberAt?_first`): the nets are listed in the order of these
wires, and as later wires do not change what comes before them, a net keeps its number or is
absorbed by a net with a smaller one (`Netlist.nets_in_order`).
-/

namespace Switchyard.Relay

instance (wires : List Wire) (t : Terminal) : Decidable (IsEnd wires t) :=
  inferInstanceAs (Decidable (∃ wire ∈ wires, _))

/-! ## Openings -/

/-- The wire at a place touches no terminal of an earlier one. -/
def opensAt (wires : List Wire) (i : Nat) : Bool :=
  wires[i]?.any (fun wire =>
    ¬ IsEnd (wires.take i) wire.source ∧ ¬ IsEnd (wires.take i) wire.target)

/-- How many wires before a place touch no terminal of an earlier one. -/
def openings (wires : List Wire) (k : Nat) : Nat :=
  (List.range k).countP (opensAt wires)

/-- The more wires, the more nets they open. -/
theorem openings_mono (wires : List Wire) {j k : Nat} (h : j ≤ k) :
    openings wires j ≤ openings wires k :=
  (List.range_sublist.2 h).countP_le

/-- Whether a wire opens a net does not depend on the wires after it. -/
theorem opensAt_append {wires : List Wire} (more : List Wire) {i : Nat} (h : i < wires.length) :
    opensAt (wires ++ more) i = opensAt wires i := by
  rw [opensAt, opensAt, List.getElem?_append_left h, List.take_append_of_le_length (Nat.le_of_lt h)]

/-- Wires that are appended change nothing before them. -/
theorem openings_append {wires : List Wire} (more : List Wire) {k : Nat} (h : k ≤ wires.length) :
    openings (wires ++ more) k = openings wires k :=
  List.countP_congr (fun i hi => by
    rw [opensAt_append more (Nat.lt_of_lt_of_le (List.mem_range.1 hi) h)])

/-- One more wire opens one more net exactly if neither of its ends was there before. -/
theorem openings_concat (wires : List Wire) (wire : Wire) :
    openings (wires ++ [wire]) (wires ++ [wire]).length = openings wires wires.length +
      if ¬ IsEnd wires wire.source ∧ ¬ IsEnd wires wire.target then 1 else 0 := by
  have hlast : opensAt (wires ++ [wire]) wires.length =
      decide (¬ IsEnd wires wire.source ∧ ¬ IsEnd wires wire.target) := by
    rw [opensAt, List.getElem?_concat_length, List.take_left, Option.any_some]
  rw [List.length_append, List.length_singleton, openings, List.range_succ, List.countP_append,
    List.countP_singleton, hlast, ← openings, openings_append [wire] Nat.le.refl]
  simp only [decide_eq_true_eq]

/-! ## The first wire of a group -/

/-- The wire at a place, which no earlier one is linked to. -/
structure FirstAt (wires : List Wire) (k : Nat) (first : Wire) : Prop where
  found : wires[k]? = some first
  earliest : ∀ j < k, ∀ wire, wires[j]? = some wire → ¬ Linked wires wire.source first.source

namespace FirstAt

variable {wires : List Wire} {k : Nat} {first : Wire}

/-- The source of a first wire is an end of a wire. -/
theorem isEnd (h : FirstAt wires k first) : IsEnd wires first.source :=
  ⟨first, List.mem_of_getElem? h.found, .inl BEq.rfl⟩

/-- Linked wires have one first wire. -/
theorem unique {j : Nat} {other : Wire} (h : FirstAt wires k first) (h' : FirstAt wires j other)
    (hlinked : Linked wires first.source other.source) : k = j := by
  rcases Nat.lt_trichotomy k j with hlt | heq | hlt
  · exact absurd hlinked (h'.earliest k hlt first h.found)
  · exact heq
  · exact absurd hlinked.symm (h.earliest j hlt other h'.found)

/-- What is first with more wires behind, is first without them. -/
theorem of_append {more : List Wire} (h : FirstAt (wires ++ more) k first)
    (hk : k < wires.length) : FirstAt wires k first where
  found := by rw [← List.getElem?_append_left hk, h.found]
  earliest j hj wire hwire hlinked := by
    refine h.earliest j hj wire ?_ (hlinked.mono (fun _ => List.mem_append_left more))
    rw [List.getElem?_append_left (Nat.lt_trans hj hk), hwire]

end FirstAt

/-- Every terminal on which a wire ends is linked to some first wire. -/
theorem exists_firstAt {wires : List Wire} {t : Terminal} (h : IsEnd wires t) :
    ∃ k first, FirstAt wires k first ∧ Linked wires first.source t := by
  classical
  have hplace : ∃ k : Nat, ∃ wire, wires[k]? = some wire ∧ Linked wires wire.source t := by
    obtain ⟨wire, hwire, hend⟩ := h
    obtain ⟨k, hk⟩ := List.mem_iff_getElem?.1 hwire
    refine ⟨k, wire, hk, ?_⟩
    rcases hend with hs | ht
    · exact .of_beq hs ⟨wire, hwire, .inl BEq.rfl⟩
    · exact .of_wire hwire BEq.rfl ht
  obtain ⟨first, hfirst, hlinked⟩ := Nat.find_spec hplace
  refine ⟨Nat.find hplace, first, ⟨hfirst, fun j hj wire hwire hlinked' => ?_⟩, hlinked⟩
  exact Nat.find_min hplace hj ⟨wire, hwire, hlinked'.trans hlinked⟩

/-- A net holds the group of a wire: the terminals that are linked to it, and the names of the wires
that end there. -/
structure Net.Holds (net : Net) (wires : List Wire) (first : Wire) : Prop where
  contains_iff : ∀ t, net.contains t = true ↔ Linked wires first.source t
  names_iff : ∀ id, net.wires.contains id = true ↔
    ∃ wire ∈ wires, (wire.id == id) = true ∧ Linked wires first.source wire.source

/-- The terminals and wires of one net are among those of another. -/
structure Net.Includes (net other : Net) : Prop where
  contains : ∀ t, other.contains t = true → net.contains t = true
  names : ∀ id, other.wires.contains id = true → net.wires.contains id = true

/-- More wires make a group larger. -/
theorem Net.Holds.includes {net later : Net} {wires more : List Wire} {first first' : Wire}
    (h : net.Holds wires first) (h' : later.Holds (wires ++ more) first')
    (hlinked : Linked (wires ++ more) first'.source first.source) : later.Includes net where
  contains t ht := (h'.contains_iff t).2
    (hlinked.trans (((h.contains_iff t).1 ht).mono (fun _ => List.mem_append_left more)))
  names id hid := by
    obtain ⟨wire, hwire, hname, hwired⟩ := (h.names_iff id).1 hid
    exact (h'.names_iff id).2 ⟨wire, List.mem_append_left more hwire, hname,
      hlinked.trans (hwired.mono (fun _ => List.mem_append_left more))⟩

namespace Netlist

variable {netlist : Netlist} {wires : List Wire}

/-! ## Numbers and openings -/

/-- The number that a wire leaves is the next one, or that of one of its ends. -/
theorem joint_cases (h : netlist.Coherent) (wire : Wire) :
    (netlist.numberAt? wire.source = none ∧ netlist.numberAt? wire.target = none ∧
      netlist.joint wire = netlist.opened) ∨
    netlist.numberAt? wire.source = some (netlist.joint wire) ∨
    netlist.numberAt? wire.target = some (netlist.joint wire) := by
  unfold joint
  cases hs : netlist.numberAt? wire.source with
  | none =>
    cases ht : netlist.numberAt? wire.target with
    | none => simp
    | some m =>
      have hlt := h.lt_opened ht
      simp [Nat.min_eq_right (Nat.le_of_lt hlt)]
  | some n =>
    cases ht : netlist.numberAt? wire.target with
    | none =>
      have hlt := h.lt_opened hs
      simp [Nat.min_eq_left (Nat.le_of_lt hlt)]
    | some m =>
      rcases Nat.le_total n m with hle | hle
      · simp [Nat.min_eq_left hle]
      · simp [Nat.min_eq_right hle]

/-- A wire leaves no number that is above one that it touches. -/
theorem joint_le {wire : Wire} {t : Terminal} {n : Nat} (hg : netlist.Gathers wire t)
    (hn : netlist.numberAt? t = some n) : netlist.joint wire ≤ n := by
  have hend : netlist.numberAt? wire.source = some n ∨ netlist.numberAt? wire.target = some n := by
    rcases hg with hs | ht | ⟨m, hm, hends⟩
    · exact .inl ((netlist.numberAt?_congr hs).trans hn)
    · exact .inr ((netlist.numberAt?_congr ht).trans hn)
    · rw [hn, Option.some.injEq] at hm
      exact hm ▸ hends
  unfold joint
  rcases hend with hs | ht
  · rw [hs]
    exact Nat.min_le_left _ _
  · rw [ht]
    exact Nat.min_le_right _ _

/-- The nets are numbered by openings: as many are opened as wires open one, the number of a net is
at most that of the openings before any wire of it, and it is that of the openings before one of
them. -/
structure Ranked (netlist : Netlist) (wires : List Wire) : Prop where
  opened : netlist.opened = openings wires wires.length
  atMost : ∀ k wire n, wires[k]? = some wire → netlist.numberAt? wire.source = some n →
    n ≤ openings wires k
  attained : ∀ t n, netlist.numberAt? t = some n →
    ∃ k wire, wires[k]? = some wire ∧ n = openings wires k ∧ Linked wires wire.source t

/-- The empty netlist is ranked, there being no group. -/
theorem ranked_nil : ({} : Netlist).Ranked [] where
  opened := rfl
  atMost _ _ _ := nofun
  attained _ _ := nofun

/-- The net that a wire leaves has the number of an opening before it or at it. -/
theorem Ranked.exists_joint (h : netlist.Ranked wires) (hrep : netlist.Represents wires)
    (wire : Wire) : ∃ k first, (wires ++ [wire])[k]? = some first ∧
      netlist.joint wire = openings (wires ++ [wire]) k ∧
      Linked (wires ++ [wire]) first.source wire.source := by
  have hold : ∀ e, netlist.Gathers wire e → netlist.numberAt? e = some (netlist.joint wire) →
      ∃ k first, (wires ++ [wire])[k]? = some first ∧
        netlist.joint wire = openings (wires ++ [wire]) k ∧
        Linked (wires ++ [wire]) first.source wire.source := by
    intro e hg he
    obtain ⟨k, first, hfirst, hnumber, hlinked⟩ := h.attained e _ he
    obtain ⟨hk, -⟩ := List.getElem?_eq_some_iff.1 hfirst
    refine ⟨k, first, by rw [List.getElem?_append_left hk, hfirst], ?_, ?_⟩
    · rw [hnumber, openings_append _ (Nat.le_of_lt hk)]
    · exact (hlinked.mono (fun _ => List.mem_append_left [wire])).trans
        (hrep.linked_of_gathers hg).symm
  rcases joint_cases hrep.coherent wire with ⟨-, -, hnew⟩ | hs | ht
  · refine ⟨wires.length, wire, List.getElem?_concat_length, ?_, .refl _⟩
    rw [hnew, h.opened, openings_append _ Nat.le.refl]
  · exact hold _ (.inl BEq.rfl) hs
  · exact hold _ (.inr (.inl BEq.rfl)) ht

/-- One more wire. -/
theorem Ranked.addWire (h : netlist.Ranked wires) (hrep : netlist.Represents wires) (wire : Wire) :
    (netlist.addWire wire).Ranked (wires ++ [wire]) := by
  have hjoint := gathered_joint hrep.coherent wire
  refine ⟨?_, fun k other n hother hn => ?_, fun t n hn => ?_⟩
  · have hnone : ∀ t, (netlist.numberAt? t).isNone = true ↔ ¬ IsEnd wires t := by
      intro t
      rw [← hrep.defined t, ← Option.not_isSome]
      simp
    rw [opened_addWire hrep.coherent, openings_concat, h.opened]
    simp only [Bool.and_eq_true, hnone]
  · by_cases hk : k < wires.length
    · rw [List.getElem?_append_left hk] at hother
      rw [openings_append _ (Nat.le_of_lt hk)]
      obtain ⟨m, hm⟩ := Option.isSome_iff_exists.1
        ((hrep.defined other.source).2 ⟨other, List.mem_of_getElem? hother, .inl BEq.rfl⟩)
      have hle := h.atMost k other m hother hm
      by_cases hg : netlist.Gathers wire other.source
      · rw [hjoint.gathered _ hg, Option.some.injEq] at hn
        exact hn ▸ (joint_le hg hm).trans hle
      · rw [hjoint.kept _ hg, hm, Option.some.injEq] at hn
        exact hn ▸ hle
    · -- the new wire leaves no number above the next one
      obtain ⟨hlt, -⟩ := List.getElem?_eq_some_iff.1 hother
      rw [List.length_append, List.length_singleton] at hlt
      obtain rfl : k = wires.length := by omega
      rw [List.getElem?_concat_length, Option.some.injEq] at hother
      subst hother
      rw [hjoint.gathered _ (.inl BEq.rfl), Option.some.injEq] at hn
      rw [← hn, openings_append _ Nat.le.refl, ← h.opened]
      rcases joint_cases hrep.coherent wire with ⟨-, -, hnew⟩ | hs | ht
      · exact Nat.le_of_eq hnew
      · exact Nat.le_of_lt (hrep.coherent.lt_opened hs)
      · exact Nat.le_of_lt (hrep.coherent.lt_opened ht)
  · by_cases hg : netlist.Gathers wire t
    · rw [hjoint.gathered t hg, Option.some.injEq] at hn
      subst hn
      obtain ⟨k, first, hfirst, hnumber, hlinked⟩ := h.exists_joint hrep wire
      exact ⟨k, first, hfirst, hnumber, hlinked.trans (hrep.linked_of_gathers hg)⟩
    · rw [hjoint.kept t hg] at hn
      obtain ⟨k, first, hfirst, hnumber, hlinked⟩ := h.attained t n hn
      obtain ⟨hk, -⟩ := List.getElem?_eq_some_iff.1 hfirst
      refine ⟨k, first, by rw [List.getElem?_append_left hk, hfirst], ?_,
        hlinked.mono (fun _ => List.mem_append_left [wire])⟩
      rw [hnumber, openings_append _ (Nat.le_of_lt hk)]

/-- All wires. -/
theorem ranked_foldl (wires : List Wire) : ∀ (earlier : List Wire) (netlist : Netlist),
    netlist.Represents earlier → netlist.Ranked earlier →
      (wires.foldl Netlist.addWire netlist).Ranked (earlier ++ wires) := by
  induction wires with
  | nil =>
    intro earlier netlist _ h
    rwa [List.append_nil]
  | cons wire wires ih =>
    intro earlier netlist hrep h
    have := ih (earlier ++ [wire]) (netlist.addWire wire) (hrep.addWire wire) (h.addWire hrep wire)
    rwa [List.append_assoc] at this

/-- The netlist of any wires is ranked. -/
theorem ranked_ofWires (wires : List Wire) : (ofWires wires).Ranked wires :=
  have h := ranked_foldl wires [] {} represents_nil ranked_nil
  ⟨h.opened, h.atMost, h.attained⟩

/-- The first wire of a group gives its net the number of the openings before it. -/
theorem Ranked.numberAt?_first (h : netlist.Ranked wires) (hrep : netlist.Represents wires)
    {k : Nat} {first : Wire} (hfirst : FirstAt wires k first) :
    netlist.numberAt? first.source = some (openings wires k) := by
  obtain ⟨n, hn⟩ := Option.isSome_iff_exists.1 ((hrep.defined first.source).2 hfirst.isEnd)
  obtain ⟨j, wire, hwire, rfl, hlinked⟩ := h.attained _ _ hn
  have hle : k ≤ j := Nat.le_of_not_lt (fun hlt => hfirst.earliest j hlt wire hwire hlinked)
  rw [hn, Nat.le_antisymm (h.atMost k first _ hfirst.found hn) (openings_mono wires hle)]

/-- The net to which a wire is referred holds the group of the wire. -/
theorem Represents.holds (h : netlist.Represents wires) {net : Net} (hnet : net ∈ netlist.nets)
    {first : Wire} (hfirst : first ∈ wires)
    (hnumber : netlist.numberAt? first.source = some net.number) : net.Holds wires first := by
  have hcontains : ∀ t, net.contains t = true ↔ Linked wires first.source t := by
    intro t
    rw [h.coherent.contains_iff hnet, ← h.numberAt?_eq_iff ⟨first, hfirst, .inl BEq.rfl⟩, hnumber,
      eq_comm]
  refine ⟨hcontains, fun id => ⟨fun hid => ?_, ?_⟩⟩
  · obtain ⟨wire, hwire, hname, hsource⟩ := h.named net hnet id hid
    exact ⟨wire, hwire, hname, (hcontains _).1 hsource⟩
  · rintro ⟨wire, hwire, hname, hlinked⟩
    obtain ⟨other, hother, hid, hsource⟩ := h.carried wire hwire
    -- the net that carries the wire holds its source, as this one does
    have hsame : other = net := by
      refine h.coherent.eq_of_number hother hnet (Option.some.inj ?_)
      rw [← (h.coherent.contains_iff hother _).1 hsource,
        (h.coherent.contains_iff hnet _).1 ((hcontains _).2 hlinked)]
    rw [List.contains_iff_exists_mem_beq] at hid ⊢
    obtain ⟨found, hfound, hbeq⟩ := hid
    exact ⟨found, hsame ▸ hfound, BEq.trans (BEq.symm hname) hbeq⟩

/-! ## The nets of a list of wires -/

/-- A net of a list of wires with the first wire of its group. -/
structure LedBy (wires : List Wire) (k : Nat) (net : Net) (first : Wire) : Prop where
  firstAt : FirstAt wires k first
  number_eq : net.number = openings wires k
  holds : net.Holds wires first

/-- Every first wire has a net. -/
theorem exists_net_of_firstAt {k : Nat} {first : Wire} (h : FirstAt wires k first) :
    ∃ net ∈ (ofWires wires).nets, LedBy wires k net first := by
  have hrep := represents_ofWires wires
  have hnumber := (ranked_ofWires wires).numberAt?_first hrep h
  obtain ⟨net, hnet, hn, -⟩ := (hrep.coherent.member _ _).1 hnumber
  exact ⟨net, hnet, h, hn, hrep.holds hnet (List.mem_of_getElem? h.found) (hn ▸ hnumber)⟩

/-- Every net has a first wire. -/
theorem exists_ledBy {net : Net} (hnet : net ∈ (ofWires wires).nets) :
    ∃ k first, LedBy wires k net first := by
  have hrep := represents_ofWires wires
  obtain ⟨t, ht⟩ := List.exists_mem_of_ne_nil _ (hrep.coherent.inhabited net hnet)
  have hcontains : net.contains t = true := List.contains_iff_exists_mem_beq.2 ⟨t, ht, BEq.rfl⟩
  have hat := (hrep.coherent.contains_iff hnet t).1 hcontains
  obtain ⟨k, first, hfirst, hlinked⟩ := exists_firstAt ((hrep.defined t).1 (by rw [hat]; rfl))
  have hnumber := ((hrep.numberAt?_eq_iff hfirst.isEnd).2 hlinked).trans hat
  refine ⟨k, first, hfirst, ?_, hrep.holds hnet (List.mem_of_getElem? hfirst.found) hnumber⟩
  rw [(ranked_ofWires wires).numberAt?_first hrep hfirst, Option.some.injEq] at hnumber
  exact hnumber.symm

/-- The first wire of a net is one of the wires. -/
theorem LedBy.lt_length {k : Nat} {net : Net} {first : Wire} (h : LedBy wires k net first) :
    k < wires.length := by
  obtain ⟨hk, -⟩ := List.getElem?_eq_some_iff.1 h.firstAt.found
  exact hk

/-- A net of more wires that is led by one of the first ones has grown from the net led by it. -/
theorem LedBy.of_append {more : List Wire} {k : Nat} {later : Net} {first : Wire}
    (h : LedBy (wires ++ more) k later first) (hk : k < wires.length) :
    ∃ net ∈ (ofWires wires).nets, net.number = later.number ∧ later.Includes net := by
  obtain ⟨net, hnet, hled⟩ := exists_net_of_firstAt (h.firstAt.of_append hk)
  refine ⟨net, hnet, ?_, hled.holds.includes h.holds (.refl _)⟩
  rw [hled.number_eq, h.number_eq, openings_append _ (Nat.le_of_lt hk)]

/-- A net whose number was given out before more wires were added has grown from the net that had
this number. -/
theorem exists_net_of_number {more : List Wire} {later : Net}
    (hlater : later ∈ (ofWires (wires ++ more)).nets)
    (hnumber : later.number < openings wires wires.length) :
    ∃ net ∈ (ofWires wires).nets, net.number = later.number ∧ later.Includes net := by
  obtain ⟨k, first, hled⟩ := exists_ledBy hlater
  refine hled.of_append (Nat.lt_of_not_le (fun hle => ?_))
  have hopened := openings_mono (wires ++ more) hle
  rw [openings_append _ Nat.le.refl, ← hled.number_eq] at hopened
  omega

/-- Every entry of one of two related lists is related to one of the other. -/
theorem exists_related {α β : Type} {R : α → β → Prop} {xs : List α} {ys : List β}
    (h : List.Forall₂ R xs ys) :
    (∀ x ∈ xs, ∃ y ∈ ys, R x y) ∧ ∀ y ∈ ys, ∃ x ∈ xs, R x y := by
  induction h with
  | nil => exact ⟨nofun, nofun⟩
  | @cons x y xs ys hxy _ ih =>
    obtain ⟨hleft, hright⟩ := ih
    refine ⟨List.forall_mem_cons.2 ⟨⟨y, List.mem_cons_self, hxy⟩, fun x' hx => ?_⟩,
      List.forall_mem_cons.2 ⟨⟨x, List.mem_cons_self, hxy⟩, fun y' hy => ?_⟩⟩
    · obtain ⟨y', hy, hrel⟩ := hleft x' hx
      exact ⟨y', List.mem_cons_of_mem y hy, hrel⟩
    · obtain ⟨x', hx, hrel⟩ := hright y' hy
      exact ⟨x', List.mem_cons_of_mem x hx, hrel⟩

/-- The places of the first wires of groups, in order, beside the nets that they lead. -/
theorem exists_places (wires : List Wire) : ∃ places : List Nat, places.Pairwise (· < ·) ∧
    List.Forall₂ (fun k net => ∃ first, LedBy wires k net first) places (ofWires wires).nets := by
  have hsorted := (represents_ofWires wires).coherent.sorted
  have hled : ∀ net ∈ (ofWires wires).nets, ∃ k first, LedBy wires k net first :=
    fun net hnet => exists_ledBy hnet
  generalize (ofWires wires).nets = nets at hsorted hled
  induction nets with
  | nil => exact ⟨[], .nil, .nil⟩
  | cons net nets ih =>
    obtain ⟨hbefore, hsorted⟩ := List.pairwise_cons.1 hsorted
    obtain ⟨⟨k, first, hfirst⟩, hrest⟩ := List.forall_mem_cons.1 hled
    obtain ⟨places, hplaces, hnets⟩ := ih hsorted hrest
    refine ⟨k :: places, List.pairwise_cons.2 ⟨fun j hj => ?_, hplaces⟩,
      .cons ⟨first, hfirst⟩ hnets⟩
    -- later nets have larger numbers, so more openings lie before their first wires
    obtain ⟨other, hother, first', hfirst'⟩ := (exists_related hnets).1 j hj
    have hlt := hbefore other hother
    rw [hfirst.number_eq, hfirst'.number_eq] at hlt
    exact Nat.lt_of_not_le (fun hle => Nat.not_lt_of_le (openings_mono wires hle) hlt)

/-- A net keeps its number when more wires are added, or it is absorbed by the net that has a
smaller one. -/
theorem exists_later (more : List Wire) {net : Net} (hnet : net ∈ (ofWires wires).nets) :
    ∃ later ∈ (ofWires (wires ++ more)).nets, later.Includes net ∧
      (later.number = net.number ∨ later.number < net.number ∧
        ∃ older ∈ (ofWires wires).nets, older.number = later.number ∧ later.Includes older) := by
  obtain ⟨k, first, hled⟩ := exists_ledBy hnet
  have hsource : IsEnd (wires ++ more) first.source := by
    obtain ⟨wire, hwire, hend⟩ := hled.firstAt.isEnd
    exact ⟨wire, List.mem_append_left more hwire, hend⟩
  obtain ⟨j, first', hfirst', hlinked⟩ := exists_firstAt hsource
  obtain ⟨later, hlater, hled'⟩ := exists_net_of_firstAt hfirst'
  have hle : j ≤ k := by
    refine Nat.le_of_not_lt (fun hlt => hfirst'.earliest k hlt first ?_ hlinked.symm)
    rw [List.getElem?_append_left hled.lt_length, hled.firstAt.found]
  have hj : j < wires.length := Nat.lt_of_le_of_lt hle hled.lt_length
  have hnumber : later.number = openings wires j := by
    rw [hled'.number_eq, openings_append _ (Nat.le_of_lt hj)]
  refine ⟨later, hlater, hled.holds.includes hled'.holds hlinked, ?_⟩
  have hnumbers : later.number ≤ net.number := by
    rw [hnumber, hled.number_eq]
    exact openings_mono wires hle
  rcases Nat.lt_or_eq_of_le hnumbers with hlt | heq
  · exact .inr ⟨hlt, hled'.of_append hj⟩
  · exact .inl heq

/-- The nets of a list of wires are listed in the order of the first wires of their groups, and each
is numbered by how many wires before that first one touch no terminal of an earlier wire. More wires
rename no net: it keeps its number, or a net with a smaller one absorbs it, and no other net gets a
number that was given out. -/
theorem nets_in_order (wires more : List Wire) :
    (∃ places : List Nat, places.Pairwise (· < ·) ∧
      (∀ k, k ∈ places ↔ ∃ first, FirstAt wires k first) ∧
      List.Forall₂ (fun k net => net.number = openings wires k ∧
          net.name = s!"net_{openings wires k}" ∧
          ∃ first, FirstAt wires k first ∧ net.Holds wires first)
        places (ofWires wires).nets) ∧
    (ofWires wires).nets.Pairwise (fun a b => a.number < b.number) ∧
    (∀ net ∈ (ofWires wires).nets, ∃ later ∈ (ofWires (wires ++ more)).nets, later.Includes net ∧
      (later.number = net.number ∨
        later.number < net.number ∧
        (∃ older ∈ (ofWires wires).nets, older.number = later.number ∧ later.Includes older) ∧
        ∀ other ∈ (ofWires (wires ++ more)).nets, other.number ≠ net.number)) ∧
    (∀ later ∈ (ofWires (wires ++ more)).nets, later.number < openings wires wires.length →
      ∃ net ∈ (ofWires wires).nets, net.number = later.number ∧ later.Includes net) := by
  have hrep := represents_ofWires wires
  have hrep' := represents_ofWires (wires ++ more)
  refine ⟨?_, hrep.coherent.sorted, fun net hnet => ?_,
    fun later hlater => exists_net_of_number hlater⟩
  · obtain ⟨places, hplaces, hnets⟩ := exists_places wires
    refine ⟨places, hplaces, fun k => ⟨fun hk => ?_, ?_⟩, hnets.imp ?_⟩
    · obtain ⟨net, -, first, hled⟩ := (exists_related hnets).1 k hk
      exact ⟨first, hled.firstAt⟩
    · rintro ⟨first, hfirst⟩
      obtain ⟨net, hnet, hled⟩ := exists_net_of_firstAt hfirst
      obtain ⟨j, hj, first', hled'⟩ := (exists_related hnets).2 net hnet
      have hlinked : Linked wires first'.source first.source :=
        (hled'.holds.contains_iff _).1 ((hled.holds.contains_iff _).2 (.refl _))
      rwa [← hled'.firstAt.unique hfirst hlinked]
    · rintro k net ⟨first, hled⟩
      refine ⟨hled.number_eq, ?_, first, hled.firstAt, hled.holds⟩
      rw [Net.name, Net.nameOf, hled.number_eq]
  · obtain ⟨later, hlater, hincludes, hnumber⟩ := exists_later more hnet
    refine ⟨later, hlater, hincludes, hnumber.imp_right (fun ⟨hlt, holder⟩ => ⟨hlt, holder, ?_⟩)⟩
    intro other hother heq
    -- a net of that number would share the terminals of the absorbed one
    have hgiven : other.number < openings wires wires.length := by
      rw [heq, ← (ranked_ofWires wires).opened]
      exact hrep.coherent.given net hnet
    obtain ⟨net', hnet', hnumber', hincludes'⟩ := exists_net_of_number hother hgiven
    obtain rfl := hrep.coherent.eq_of_number hnet' hnet (hnumber'.trans heq)
    obtain ⟨t, ht⟩ := List.exists_mem_of_ne_nil _ (hrep.coherent.inhabited net' hnet)
    have hcontains : net'.contains t = true := List.contains_iff_exists_mem_beq.2 ⟨t, ht, BEq.rfl⟩
    have hone := (hrep'.coherent.contains_iff hother t).1 (hincludes'.contains t hcontains)
    rw [(hrep'.coherent.contains_iff hlater t).1 (hincludes.contains t hcontains),
      Option.some.injEq] at hone
    omega

/-- Three wires apart, and one that joins the last two. -/
def joined : List Wire :=
  [⟨.text "w1", ⟨.text "a", .text "p"⟩, ⟨.text "b", .text "p"⟩⟩,
    ⟨.text "w2", ⟨.text "c", .text "p"⟩, ⟨.text "d", .text "p"⟩⟩,
    ⟨.text "w3", ⟨.text "e", .text "p"⟩, ⟨.text "f", .text "p"⟩⟩,
    ⟨.text "w4", ⟨.text "f", .text "p"⟩, ⟨.text "d", .text "p"⟩⟩]

/-- One more wire apart, and one that joins what the earlier ones leave. -/
def joining : List Wire :=
  [⟨.text "w5", ⟨.text "g", .text "p"⟩, ⟨.text "h", .text "p"⟩⟩,
    ⟨.text "w6", ⟨.text "e", .text "p"⟩, ⟨.text "a", .text "p"⟩⟩]

/-- The third wire is in the net of the second one, which is numbered by the one opening before it.
Later that net is absorbed by the one that was opened first. -/
theorem nets_of_joined :
    ∃ net ∈ (ofWires joined).nets, net.name = "net_1" ∧
      net.contains ⟨.text "e", .text "p"⟩ = true ∧
      ∃ later ∈ (ofWires (joined ++ joining)).nets, later.number = 0 ∧ later.Includes net ∧
        ∀ other ∈ (ofWires (joined ++ joining)).nets, other.number ≠ net.number := by
  obtain ⟨⟨places, -, hplaces, hnets⟩, -, hlater, -⟩ := nets_in_order joined joining
  have hsecond : FirstAt joined 1 ⟨.text "w2", ⟨.text "c", .text "p"⟩, ⟨.text "d", .text "p"⟩⟩ := by
    refine ⟨rfl, fun j hj wire hwire hlinked => ?_⟩
    obtain rfl : j = 0 := by omega
    cases hwire
    have hends : IsEnd joined ⟨.text "a", .text "p"⟩ := by decide +kernel
    have hsame := ((represents_ofWires joined).numberAt?_eq_iff hends).2 hlinked
    revert hsame
    decide +kernel
  obtain ⟨net, hnet, hnumber, hname, -⟩ := (exists_related hnets).1 1 ((hplaces 1).2 ⟨_, hsecond⟩)
  have hone : openings joined 1 = 1 := by decide +kernel
  rw [hone] at hnumber hname
  have hheld : ∀ net ∈ (ofWires joined).nets, net.number = 1 →
      net.contains ⟨.text "e", .text "p"⟩ = true := by decide +kernel
  obtain ⟨later, hmem, hincludes, heq | ⟨hlt, -, hgone⟩⟩ := hlater net hnet
  · have habsorbed : ∀ later ∈ (ofWires (joined ++ joining)).nets, later.number ≠ 1 := by
      decide +kernel
    exact absurd (heq.trans hnumber) (habsorbed later hmem)
  · exact ⟨net, hnet, hname, hheld net hnet hnumber, later, hmem, by omega, hincludes, hgone⟩

end Netlist

end Switchyard.Relay
