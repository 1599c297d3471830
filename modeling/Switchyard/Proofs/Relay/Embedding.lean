import Mathlib.Data.Finset.Max
import Switchyard.Proofs.Relay.Agreement

/-!
# The nets of a part

Wires may be listed among others that end on none of their terminals (`Interleave`). In the netlist
of the whole list the nets of the part are then found again, under other numbers but in the same
order (`Netlist.Embeds`): a wire of the part joins the same nets in both, since the number that
stays is the least one and a new number is greater than all before it (`Embeds.addWire`), and a wire
of the others touches none of them (`Embeds.addWire_apart`). So the two netlists agree on the
terminals of the part (`agree_of_embeds`), and as the order of the nets decides which of several
wires of one name is reported, its wires are reported alike (`Embeds.wireSignal_eq`).
-/

namespace Switchyard.Relay

/-- The third list is made of the elements of the other two, those of each in their order. -/
inductive Interleave {α : Type} : List α → List α → List α → Prop where
  | nil : Interleave [] [] []
  | left {x : α} {xs ys zs : List α} : Interleave xs ys zs → Interleave (x :: xs) ys (x :: zs)
  | right {y : α} {xs ys zs : List α} : Interleave xs ys zs → Interleave xs (y :: ys) (y :: zs)

namespace Interleave

variable {α β : Type} {xs ys zs : List α}

/-- An interleaving is one with the two sides exchanged. -/
theorem swap (h : Interleave xs ys zs) : Interleave ys xs zs := by
  induction h with
  | nil => exact .nil
  | left _ ih => exact ih.right
  | right _ ih => exact ih.left

/-- The items of an interleaving are those of both sides. -/
theorem mem_iff (h : Interleave xs ys zs) {z : α} : z ∈ zs ↔ z ∈ xs ∨ z ∈ ys := by
  induction h with
  | nil => simp
  | left _ ih => rw [List.mem_cons, List.mem_cons, ih, or_assoc]
  | right _ ih => rw [List.mem_cons, List.mem_cons, ih, or_left_comm]

/-- Either side stands in the interleaving in its order. -/
theorem sublist_left (h : Interleave xs ys zs) : xs.Sublist zs := by
  induction h with
  | nil => exact .slnil
  | left _ ih => exact ih.cons_cons _
  | right _ ih => exact ih.cons _

/-- What holds of any two elements of the third list, holds between the other two. -/
theorem rel_of_pairwise {R : α → α → Prop} (hsymm : ∀ x y, R x y → R y x)
    (h : Interleave xs ys zs) (hz : zs.Pairwise R) : ∀ x ∈ xs, ∀ y ∈ ys, R x y := by
  induction h with
  | nil => exact nofun
  | left h ih =>
    obtain ⟨hfirst, hrest⟩ := List.pairwise_cons.1 hz
    intro x hx y hy
    rcases List.mem_cons.1 hx with rfl | hx
    · exact hfirst y (h.mem_iff.2 (.inr hy))
    · exact ih hrest x hx y hy
  | right h ih =>
    obtain ⟨hfirst, hrest⟩ := List.pairwise_cons.1 hz
    intro x hx y hy
    rcases List.mem_cons.1 hy with rfl | hy
    · exact hsymm _ _ (hfirst x (h.mem_iff.2 (.inl hx)))
    · exact ih hrest x hx y hy

/-- Mapping both sides maps their interleaving. -/
theorem map (h : Interleave xs ys zs) (f : α → β) :
    Interleave (xs.map f) (ys.map f) (zs.map f) := by
  induction h with
  | nil => exact .nil
  | left _ ih => exact ih.left
  | right _ ih => exact ih.right

/-- The elements of one list can be found again by a mark that those of the other lack. -/
theorem filter_eq (h : Interleave xs ys zs) {p : α → Bool} (hx : ∀ x ∈ xs, p x = true)
    (hy : ∀ y ∈ ys, p y = false) : zs.filter p = xs := by
  induction h with
  | nil => rfl
  | left _ ih =>
    rw [List.filter_cons_of_pos (hx _ List.mem_cons_self),
      ih (fun x hmem => hx x (List.mem_cons_of_mem _ hmem)) hy]
  | right _ ih =>
    rw [List.filter_cons_of_neg (by simp [hy _ List.mem_cons_self]),
      ih hx (fun y hmem => hy y (List.mem_cons_of_mem _ hmem))]

section
variable {κ : Type} [BEq κ]

/-- Setting a key that the second map lacks. -/
theorem put {k : κ} {v : β} {m n both : List (κ × β)} (h : Interleave m n both)
    (hk : ∀ entry ∈ n, (entry.1 == k) = false) :
    Interleave (Assoc.put k v m) n (Assoc.put k v both) := by
  induction h with
  | nil => exact .left .nil
  | @left entry _ _ _ h ih =>
    rw [Assoc.put, Assoc.put]
    split
    · exact h.left
    · exact (ih hk).left
  | right _ ih =>
    rw [Assoc.put, hk _ List.mem_cons_self]
    exact (ih (fun entry hentry => hk entry (List.mem_cons_of_mem _ hentry))).right

variable [EquivBEq κ] {xs ys zs : List (κ × β)}

/-- Putting interleaved entries into interleaved maps interleaves the maps, if no key of one side
equals one of the other. -/
theorem foldl_put (h : Interleave xs ys zs) : ∀ {m n both : List (κ × β)}, Interleave m n both →
    (∀ x ∈ m ++ xs, ∀ y ∈ n ++ ys, (x.1 == y.1) = false) →
    Interleave (xs.foldl (fun m (k, v) => Assoc.put k v m) m)
      (ys.foldl (fun m (k, v) => Assoc.put k v m) n)
      (zs.foldl (fun m (k, v) => Assoc.put k v m) both) := by
  induction h with
  | nil => exact fun h _ => h
  | @left x xs ys _ _ ih =>
    intro m n both h hkeys
    refine ih (h.put (fun y hy => ?_)) (fun x' hx' y hy => ?_)
    · rw [BEq.comm]
      exact hkeys x (by simp) y (List.mem_append_left _ hy)
    · rcases List.mem_append.1 hx' with hx' | hx'
      · rcases Assoc.mem_of_mem_put hx' with hx' | ⟨hsame, -⟩
        · exact hkeys x' (List.mem_append_left _ hx') y hy
        · rw [BEq.congr_left hsame]
          exact hkeys x (by simp) y hy
      · exact hkeys x' (by simp [hx']) y hy
  | @right y xs ys _ _ ih =>
    intro m n both h hkeys
    refine ih (h.swap.put (fun x hx => ?_)).swap (fun x hx y' hy' => ?_)
    · exact hkeys x (List.mem_append_left _ hx) y (by simp)
    · rcases List.mem_append.1 hy' with hy' | hy'
      · rcases Assoc.mem_of_mem_put hy' with hy' | ⟨hsame, -⟩
        · exact hkeys x hx y' (List.mem_append_left _ hy')
        · rw [BEq.congr_right hsame]
          exact hkeys x hx y (by simp)
      · exact hkeys x hx y' (by simp [hy'])

/-- Maps of pairs whose keys differ, among each other. -/
theorem ofPairs (h : Interleave xs ys zs) (hkeys : ∀ x ∈ xs, ∀ y ∈ ys, (x.1 == y.1) = false) :
    Interleave (Assoc.ofPairs xs) (Assoc.ofPairs ys) (Assoc.ofPairs zs) :=
  h.foldl_put .nil (by simpa using hkeys)

end

end Interleave

namespace Netlist

/-! ## The number that a wire leaves -/

/-- The number of the net that holds the ends of a wire once it is added: the least of those of the
nets that it touches, or the next one where it touches none. -/
def joint (netlist : Netlist) (wire : Wire) : Nat :=
  min ((netlist.numberAt? wire.source).getD netlist.opened)
    ((netlist.numberAt? wire.target).getD netlist.opened)

variable {netlist : Netlist} {wire : Wire}

/-- In a coherent netlist every number in use was opened. -/
theorem Coherent.lt_opened (h : netlist.Coherent) {t : Terminal} {n : Nat}
    (hn : netlist.numberAt? t = some n) : n < netlist.opened := by
  obtain ⟨net, hnet, rfl, -⟩ := (h.member t n).1 hn
  exact h.given net hnet

/-- A wire opens a net exactly if neither of its ends has one. -/
theorem opened_addWire (h : netlist.Coherent) (wire : Wire) :
    (netlist.addWire wire).opened = netlist.opened +
      if (netlist.numberAt? wire.source).isNone && (netlist.numberAt? wire.target).isNone then 1
      else 0 := by
  unfold addWire
  split
  · next hs ht =>
    rw [h.netAt?_eq_none.1 hs, h.netAt?_eq_none.1 ht]
    rfl
  · next net hs ht =>
    rw [numberAt?_of_netAt? ht, Option.isNone_some, Bool.and_false]
    rfl
  · next net hs ht =>
    rw [numberAt?_of_netAt? hs, Option.isNone_some, Bool.false_and]
    rfl
  · next a b hs ht =>
    rw [numberAt?_of_netAt? hs, Option.isNone_some, Bool.false_and, if_neg Bool.false_ne_true]
    split_ifs
    · rfl
    · exact opened_foldl_refer _ _ _
    · exact opened_foldl_refer _ _ _

/-- The number that stays is the least one. -/
theorem numberAt?_addWire_source (h : netlist.Coherent) (wire : Wire) :
    (netlist.addWire wire).numberAt? wire.source = some (netlist.joint wire) := by
  unfold addWire joint
  split
  · next hs ht =>
    rw [numberAt?_openNet, BEq.rfl, h.netAt?_eq_none.1 hs, h.netAt?_eq_none.1 ht, Bool.true_or,
      if_pos rfl, Option.getD_none, Nat.min_self]
  · next net hs ht =>
    have hn := numberAt?_of_netAt? ht
    have hlt := h.lt_opened hn
    rw [numberAt?_extendNet, if_pos BEq.rfl, h.netAt?_eq_none.1 hs, hn, Option.getD_none,
      Option.getD_some, Nat.min_eq_right (Nat.le_of_lt hlt)]
  · next net hs ht =>
    have hn := numberAt?_of_netAt? hs
    have hlt := h.lt_opened hn
    rw [numberAt?_extendNet, h.netAt?_eq_none.1 ht, hn, ite_self, Option.getD_some,
      Option.getD_none, Nat.min_eq_left (Nat.le_of_lt hlt)]
  · next a b hs ht =>
    have ha := numberAt?_of_netAt? hs
    have hb := numberAt?_of_netAt? ht
    obtain ⟨hmem, hcon⟩ := h.netAt?_eq_some.1 hs
    rw [ha, hb, Option.getD_some, Option.getD_some]
    dsimp only
    split_ifs with heq hlt
    · rw [← heq, Nat.min_self]
      exact ha
    · rw [numberAt?_mergeNets, Nat.min_eq_left (Nat.le_of_lt hlt)]
      split
      · rfl
      · exact ha
    · rw [numberAt?_mergeNets, Net.contains_addWire, if_pos hcon, Nat.min_eq_right (by omega)]

/-- Adding a wire, with the number that is left said. -/
theorem gathered_joint (h : netlist.Coherent) (wire : Wire) :
    netlist.Gathered wire (netlist.addWire wire) (netlist.joint wire) := by
  obtain ⟨k, hk⟩ := gathered_addWire h wire
  have hsource := hk.gathered wire.source (.inl BEq.rfl)
  rw [numberAt?_addWire_source h] at hsource
  exact Option.some.inj hsource ▸ hk

/-! ## Embedding -/

/-- The nets of a part, all of whose terminals are in a set, are those that a whole netlist has
there, under numbers that stand in the same order, and none of them holds another terminal. -/
structure Embeds (on : Terminal → Prop) (number : Nat → Nat) (part whole : Netlist) : Prop where
  coherent : part.Coherent
  found : ∀ t, on t → whole.numberAt? t = (part.numberAt? t).map number
  mono : ∀ n m, n < m → m < part.opened → number n < number m
  given : ∀ n, n < part.opened → number n < whole.opened
  apart : ∀ t u, on t → ¬ on u → ¬ whole.Joins t u

namespace Embeds

variable {on : Terminal → Prop} {number : Nat → Nat} {part whole : Netlist}

/-- An embedding gives distinct nets distinct numbers. -/
theorem injective (h : Embeds on number part whole) {n m : Nat} (hn : n < part.opened)
    (hm : m < part.opened) (heq : number n = number m) : n = m := by
  rcases Nat.lt_trichotomy n m with hlt | rfl | hlt
  · have := h.mono n m hlt hm
    omega
  · rfl
  · have := h.mono m n hlt hn
    omega

/-- Two terminals of the part have one number in both netlists, or in none. -/
theorem joins_iff (h : Embeds on number part whole) {t u : Terminal} (ht : on t) (hu : on u) :
    whole.Joins t u ↔ part.Joins t u := by
  unfold Joins
  rw [h.found t ht, h.found u hu]
  constructor
  · rintro ⟨n, hn, hm⟩
    obtain ⟨n, hpart, rfl⟩ := Option.map_eq_some_iff.1 hn
    obtain ⟨m, hpart', heq⟩ := Option.map_eq_some_iff.1 hm
    obtain rfl := h.injective (h.coherent.lt_opened hpart') (h.coherent.lt_opened hpart) heq
    exact ⟨m, hpart, hpart'⟩
  · rintro ⟨n, hn, hm⟩
    exact ⟨number n, by rw [hn]; rfl, by rw [hm]; rfl⟩

/-- The terminals that a wire brings together, by joints. -/
theorem gathers_iff (netlist : Netlist) (wire : Wire) (t : Terminal) :
    netlist.Gathers wire t ↔ (wire.source == t) = true ∨ (wire.target == t) = true ∨
      netlist.Joins wire.source t ∨ netlist.Joins wire.target t := by
  unfold Gathers Joins
  constructor
  · rintro (hs | ht | ⟨n, hn, hs | ht⟩)
    · exact .inl hs
    · exact .inr (.inl ht)
    · exact .inr (.inr (.inl ⟨n, hs, hn⟩))
    · exact .inr (.inr (.inr ⟨n, ht, hn⟩))
  · rintro (hs | ht | ⟨n, hs, hn⟩ | ⟨n, ht, hn⟩)
    · exact .inl hs
    · exact .inr (.inl ht)
    · exact .inr (.inr ⟨n, hn, .inl hs⟩)
    · exact .inr (.inr ⟨n, hn, .inr ht⟩)

/-- The numbers of a part with its next one, which becomes the next one of the whole. -/
def extend (number : Nat → Nat) (part whole : Netlist) (n : Nat) : Nat :=
  if n < part.opened then number n else whole.opened

/-- The next number of the part goes above all those it has. -/
theorem extend_lt (h : Embeds on number part whole) {n m : Nat} (hlt : n < m)
    (hle : m ≤ part.opened) : extend number part whole n < extend number part whole m := by
  unfold extend
  rw [if_pos (by omega : n < part.opened)]
  split
  · next hm => exact h.mono n m hlt hm
  · exact h.given n (by omega)

/-- The lower of two numbers goes to the lower one, the next number included. -/
theorem extend_min (h : Embeds on number part whole) {n m : Nat} (hn : n ≤ part.opened)
    (hm : m ≤ part.opened) : extend number part whole (min n m) =
      min (extend number part whole n) (extend number part whole m) := by
  rcases Nat.lt_trichotomy n m with hlt | rfl | hlt
  · have := h.extend_lt hlt hm
    rw [Nat.min_eq_left (Nat.le_of_lt hlt), Nat.min_eq_left (Nat.le_of_lt this)]
  · rw [Nat.min_self, Nat.min_self]
  · have := h.extend_lt hlt hn
    rw [Nat.min_eq_right (Nat.le_of_lt hlt), Nat.min_eq_right (Nat.le_of_lt this)]

/-- A wire of the part leaves the same net in both. -/
theorem joint_eq (h : Embeds on number part whole) {wire : Wire} (hs : on wire.source)
    (ht : on wire.target) : whole.joint wire = extend number part whole (part.joint wire) := by
  have hnext : ∀ t, on t → (part.numberAt? t).getD part.opened ≤ part.opened ∧
      (whole.numberAt? t).getD whole.opened =
        extend number part whole ((part.numberAt? t).getD part.opened) := by
    intro t ht
    rw [h.found t ht]
    cases hn : part.numberAt? t with
    | none => simp [extend]
    | some n =>
      have hlt := h.coherent.lt_opened hn
      simp [extend, hlt, Nat.le_of_lt hlt]
  obtain ⟨hle, heq⟩ := hnext _ hs
  obtain ⟨hle', heq'⟩ := hnext _ ht
  rw [joint, joint, heq, heq', h.extend_min hle hle']

variable (hon : ∀ t u : Terminal, (t == u) = true → on t → on u)
include hon

/-- A wire brings together terminals of its own side only. -/
theorem not_gathers (h : Embeds on number part whole) {wire : Wire} (hs : on wire.source)
    (ht : on wire.target) {u : Terminal} (hu : ¬ on u) : ¬ whole.Gathers wire u := by
  rw [gathers_iff]
  rintro (hsu | htu | hj | hj)
  · exact hu (hon _ _ hsu hs)
  · exact hu (hon _ _ htu ht)
  · exact h.apart _ _ hs hu hj
  · exact h.apart _ _ ht hu hj

/-- A wire with no end in the set gathers nothing of the set. -/
theorem not_gathers_apart (h : Embeds on number part whole) {wire : Wire} (hs : ¬ on wire.source)
    (ht : ¬ on wire.target) {u : Terminal} (hu : on u) : ¬ whole.Gathers wire u := by
  rw [gathers_iff]
  rintro (hsu | htu | hj | hj)
  · exact hs (hon _ _ (BEq.symm hsu) hu)
  · exact ht (hon _ _ (BEq.symm htu) hu)
  · exact h.apart _ _ hu hs hj.symm
  · exact h.apart _ _ hu ht hj.symm

/-- A wire of the part. -/
theorem addWire (h : Embeds on number part whole) (hwhole : whole.Coherent) {wire : Wire}
    (hs : on wire.source) (ht : on wire.target) :
    Embeds on (extend number part whole) (part.addWire wire) (whole.addWire wire) := by
  have hpart' := gathered_joint h.coherent wire
  have hwhole' := gathered_joint hwhole wire
  have hjoint := h.joint_eq hs ht
  have hopened := opened_addWire h.coherent wire
  have hopened' := opened_addWire hwhole wire
  rw [h.found _ hs, h.found _ ht, Option.isNone_map, Option.isNone_map] at hopened'
  refine ⟨hpart'.coherent, fun t ht' => ?_, fun n m hlt hm => ?_, fun n hn => ?_,
    fun t u ht' hu hj => ?_⟩
  · have hgathers : whole.Gathers wire t ↔ part.Gathers wire t := by
      rw [gathers_iff, gathers_iff, h.joins_iff hs ht', h.joins_iff ht ht']
    by_cases hg : part.Gathers wire t
    · rw [hpart'.gathered t hg, hwhole'.gathered t (hgathers.2 hg), hjoint]
      rfl
    · rw [hpart'.kept t hg, hwhole'.kept t (fun hw => hg (hgathers.1 hw)), h.found t ht']
      refine Option.map_congr (fun n hn => ?_)
      rw [extend, if_pos (h.coherent.lt_opened hn)]
  · refine h.extend_lt hlt ?_
    split at hopened <;> omega
  · by_cases hold : n < part.opened
    · rw [extend, if_pos hold]
      have := h.given n hold
      omega
    · rw [extend, if_neg hold]
      split at hopened
      · rw [hopened', if_pos ‹_›]
        omega
      · omega
  · have hu' := h.not_gathers hon hs ht hu
    obtain ⟨n, hn, hm⟩ := hj
    rw [hwhole'.kept u hu'] at hm
    by_cases hg : whole.Gathers wire t
    · rw [hwhole'.gathered t hg] at hn
      exact hwhole'.apart u hu' (hm.trans hn.symm)
    · rw [hwhole'.kept t hg] at hn
      exact h.apart t u ht' hu ⟨n, hn, hm⟩

/-- A wire of the others. -/
theorem addWire_apart (h : Embeds on number part whole) (hwhole : whole.Coherent) {wire : Wire}
    (hs : ¬ on wire.source) (ht : ¬ on wire.target) :
    Embeds on number part (whole.addWire wire) := by
  have hwhole' := gathered_joint hwhole wire
  have hkept : ∀ t, on t → (whole.addWire wire).numberAt? t = whole.numberAt? t :=
    fun t ht' => hwhole'.kept t (h.not_gathers_apart hon hs ht ht')
  have hopened := opened_addWire hwhole wire
  refine ⟨h.coherent, fun t ht' => (hkept t ht').trans (h.found t ht'), h.mono,
    fun n hn => ?_, fun t u ht' hu hj => ?_⟩
  · have := h.given n hn
    omega
  · obtain ⟨n, hn, hm⟩ := hj
    by_cases hg : whole.Gathers wire u
    · rw [hwhole'.gathered u hg] at hm
      exact hwhole'.apart t (h.not_gathers_apart hon hs ht ht')
        ((hkept t ht').symm.trans (hn.trans hm.symm))
    · rw [hwhole'.kept u hg] at hm
      rw [hkept t ht'] at hn
      exact h.apart t u ht' hu ⟨n, hn, hm⟩

/-- All wires of the part, among the others. -/
theorem foldl_addWire {xs ys zs : List Wire} (hz : Interleave xs ys zs) :
    ∀ {number : Nat → Nat} {part whole : Netlist}, Embeds on number part whole → whole.Coherent →
      (∀ wire ∈ xs, on wire.source ∧ on wire.target) →
      (∀ wire ∈ ys, ¬ on wire.source ∧ ¬ on wire.target) →
      ∃ number', Embeds on number' (xs.foldl Netlist.addWire part)
        (zs.foldl Netlist.addWire whole) := by
  induction hz with
  | nil => exact fun h _ _ _ => ⟨_, h⟩
  | left _ ih =>
    intro number part whole h hwhole hx hy
    obtain ⟨hs, ht⟩ := hx _ List.mem_cons_self
    exact ih (h.addWire hon hwhole hs ht) (gathered_joint hwhole _).coherent
      (fun wire hmem => hx wire (List.mem_cons_of_mem _ hmem)) hy
  | right _ ih =>
    intro number part whole h hwhole hx hy
    obtain ⟨hs, ht⟩ := hy _ List.mem_cons_self
    exact ih (h.addWire_apart hon hwhole hs ht) (gathered_joint hwhole _).coherent hx
      (fun wire hmem => hy wire (List.mem_cons_of_mem _ hmem))

end Embeds

section
variable {on : Terminal → Prop} {xs ys zs : List Wire}

/-- The nets of a part of the wires are found in the netlist of all of them. -/
theorem exists_embeds_ofWires (hon : ∀ t u : Terminal, (t == u) = true → on t → on u)
    (hz : Interleave xs ys zs) (hx : ∀ wire ∈ xs, on wire.source ∧ on wire.target)
    (hy : ∀ wire ∈ ys, ¬ on wire.source ∧ ¬ on wire.target) :
    ∃ number, Embeds on number (ofWires xs) (ofWires zs) := by
  have hstart : Embeds on id {} {} :=
    ⟨represents_nil.coherent, fun _ _ => rfl, fun _ _ hlt _ => hlt, fun _ hn => hn,
      fun _ _ _ _ ⟨_, hn, _⟩ => nomatch hn⟩
  obtain ⟨number, h⟩ := hstart.foldl_addWire hon hz represents_nil.coherent hx hy
  exact ⟨number, (represents_ofWires xs).coherent, h.found, h.mono, h.given, h.apart⟩

/-- They carry no level yet, so the two agree on the terminals of the part. -/
theorem agree_of_embeds {number : Nat → Nat} (h : Embeds on number (ofWires xs) (ofWires zs)) :
    Agree on (ofWires zs) (ofWires xs) :=
  agree_of_blank (represents_ofWires zs).coherent (represents_ofWires xs).coherent
    (blank_ofWires zs) (blank_ofWires xs) (fun _ _ ht hu => h.joins_iff ht hu)

/-- A wire of a part whose names no other wire has is reported alike. -/
theorem Embeds.wireSignal_eq {number : Nat → Nat}
    (h : Embeds on number (ofWires xs) (ofWires zs)) (hz : Interleave xs ys zs)
    (hx : ∀ wire ∈ xs, on wire.source) (hnames : ∀ v ∈ xs, ∀ w ∈ ys, (v.id == w.id) = false)
    {part whole : Netlist} (hpart : part.reset = ofWires xs) (hwhole : whole.reset = ofWires zs)
    (hagree : Agree on whole part) {wire : Wire} (hwire : wire ∈ xs) :
    Simulator.wireSignal whole wire.id = Simulator.wireSignal part wire.id := by
  have hpart' : ∀ t, part.numberAt? t = (ofWires xs).numberAt? t :=
    fun t => congrArg (·.numberAt? t) hpart
  have hwhole' : ∀ t, whole.numberAt? t = (ofWires zs).numberAt? t :=
    fun t => congrArg (·.numberAt? t) hwhole
  -- of the wires of this name, one in the last net of the part
  obtain ⟨last, hlast, hmax⟩ := Finset.exists_max_image
    (xs.filter (·.id == wire.id)).toFinset (fun v => (part.numberAt? v.source).getD 0)
    ⟨wire, by simp [hwire]⟩
  simp only [List.mem_toFinset, List.mem_filter, and_imp] at hlast hmax
  obtain ⟨hlast, hname⟩ := hlast
  have hlevel : Simulator.wireSignal part last.id = part.signalAt last.source := by
    refine Netlist.wireSignal_eq hpart hlast (fun other hother hsame n m hn hm => ?_)
    have hle := hmax other hother (BEq.trans hsame hname)
    rwa [hn, hm] at hle
  have hlevel' : Simulator.wireSignal whole last.id = whole.signalAt last.source := by
    refine Netlist.wireSignal_eq hwhole (hz.mem_iff.2 (.inl hlast))
      (fun other hother hsame n m hn hm => ?_)
    rcases hz.mem_iff.1 hother with hother | hother
    · rw [hwhole', h.found _ (hx other hother), Option.map_eq_some_iff] at hn
      rw [hwhole', h.found _ (hx last hlast), Option.map_eq_some_iff] at hm
      obtain ⟨n, hn, rfl⟩ := hn
      obtain ⟨m, hm, rfl⟩ := hm
      have hle := hmax other hother (BEq.trans hsame hname)
      rw [hpart', hpart', hn, hm] at hle
      rcases Nat.lt_or_eq_of_le hle with hlt | heq
      · exact Nat.le_of_lt (h.mono _ _ hlt (h.coherent.lt_opened hm))
      · exact Nat.le_of_eq (congrArg number heq)
    · rw [BEq.comm, hnames last hlast other hother] at hsame
      cases hsame
  rw [← wireSignal_congr whole hname, ← wireSignal_congr part hname, hlevel, hlevel',
    hagree.signalAt_eq (hx last hlast)]

end

end Netlist

end Switchyard.Relay
