import Switchyard.Proofs.Relay.Levels

/-!
# The states of the components

While a circuit is not edited, the states of a simulation are those of its components, one for each
in their order (`States.of`). What a phase does to the states is then said component by component:
the coil and the switch of a relay follow the nets (`ComponentState.follow`), and so do the levels
at the ports (`readPorts_of`). A round is its three parts: the sources, the relays, the contacts
(`Scene.round_of`).
-/

namespace Switchyard.Relay

/-- No two components have one name. -/
def DistinctIds (components : List Component) : Prop :=
  components.Pairwise (fun a b => (a.id == b.id) = false)

/-- The components of a circuit stand under distinct names, and each under its own. -/
theorem Circuit.distinctIds (circuit : Circuit) : DistinctIds circuit.components := by
  have hkeyed := circuit.placed.keyed
  refine List.pairwise_map.2 ((List.pairwise_map.1 hkeyed.distinct).imp_of_mem ?_)
  intro a b ha hb hab
  rw [← BEq.congr_left (hkeyed.own a ha), ← BEq.congr_right (hkeyed.own b hb)]
  exact hab

/-- The component of a name is found among the components in order. -/
theorem Circuit.component?_eq (circuit : Circuit) (id : Ident) :
    circuit.component? id = circuit.components.find? (·.id == id) := by
  have hown := circuit.placed.keyed.own
  rw [Circuit.component?, Circuit.components]
  generalize circuit.placed.entries = entries at hown
  induction entries with
  | nil => rfl
  | cons entry rest ih =>
    have hkey : (entry.1 == id) = (entry.2.id == id) :=
      BEq.congr_left (hown entry List.mem_cons_self)
    rw [Assoc.get?, List.map_cons, List.find?_cons, hkey,
      ih (fun other hother => hown other (List.mem_cons_of_mem _ hother))]
    cases entry.2.id == id <;> rfl

/-- The ports of a kind have distinct names. -/
theorem Kind.distinct_ports (kind : Kind) : kind.ports.Pairwise (fun a b => (a == b) = false) := by
  cases kind <;> first | exact .nil | decide

section
variable {components : List Component} (hd : DistinctIds components)
include hd

/-- A component is determined by its name. -/
theorem DistinctIds.eq_of_beq {a b : Component} (ha : a ∈ components) (hb : b ∈ components)
    (h : a.id == b.id) : a = b :=
  Assoc.eq_of_key_beq hd ha hb h

end

namespace States

/-- The states that a function gives to components. -/
def of (components : List Component) (f : Component → ComponentState) : States :=
  components.map (fun c => (c.id, f c))

variable {components : List Component} {f g : Component → ComponentState}

/-- States made by two functions are equal exactly if the functions agree on the components. -/
theorem of_eq_of_iff : of components f = of components g ↔ ∀ c ∈ components, f c = g c := by
  simp [of]

/-- Where ids are distinct, the state made for a component is found under its id. -/
theorem get?_of (hd : DistinctIds components) {c : Component} (hc : c ∈ components) :
    Assoc.get? c.id (of components f) = some (f c) := by
  induction hd with
  | nil => cases hc
  | @cons first rest hfirst _ ih =>
    rw [of, List.map_cons, Assoc.get?]
    cases hc with
    | head => rw [if_pos BEq.rfl]
    | tail _ hc =>
      rw [if_neg (by simp [hfirst c hc])]
      exact ih hc

/-- Every component has a state. -/
theorem has_of (hd : DistinctIds components) {c : Component} (hc : c ∈ components) :
    Assoc.has c.id (of components f) = true := by
  rw [Assoc.has, get?_of hd hc]
  rfl

/-- The contacts of a component are closed as its own state says. -/
theorem isClosed_of (hd : DistinctIds components) {c : Component} (hc : c ∈ components) :
    isClosed (of components f) c.id = (f c).closed := by
  rw [isClosed, get?_of hd hc]
  rfl

/-- Where ids are distinct, adjusting a state changes that of one component only. -/
theorem adjust_of (hd : DistinctIds components) {c : Component} (hc : c ∈ components)
    (change : ComponentState → ComponentState) :
    (of components f).adjust c.id change =
      of components (fun d => if d = c then change (f d) else f d) := by
  rw [adjust, of, of, List.map_map]
  refine List.map_congr_left (fun d hmem => ?_)
  by_cases hdc : d = c
  · subst hdc
    simp
  · have hne : (d.id == c.id) = false := by
      by_contra h
      exact hdc (hd.eq_of_beq hmem hc (by simpa using h))
    simp [hdc, hne]

/-- Changing the states of some of the components one after the other. -/
theorem foldl_adjust_of (hd : DistinctIds components)
    (change : Component → ComponentState → ComponentState) :
    ∀ {some : List Component} {f : Component → ComponentState}, some.Sublist components →
      some.foldl (fun states c => states.adjust c.id (change c)) (of components f) =
        of components (fun d => if d ∈ some then change d (f d) else f d)
  | [], _, _ => by simp
  | c :: rest, f, hsub => by
    have hc : c ∈ components := hsub.subset List.mem_cons_self
    have hrest : rest.Sublist components := (List.sublist_cons_self c rest).trans hsub
    have hnotin : c ∉ rest := by
      intro hmem
      have := (List.pairwise_cons.1 (hd.sublist hsub)).1 c hmem
      rw [BEq.rfl] at this
      cases this
    rw [List.foldl_cons, adjust_of hd hc, foldl_adjust_of hd change hrest, of_eq_of_iff]
    intro d _
    by_cases hdc : d = c
    · subst hdc
      simp [hnotin]
    · simp [hdc]

end States

/-- The state of a component after its coil and switch have followed the nets, if it is a relay. -/
def ComponentState.follow (netlist : Netlist) (component : Component) (state : ComponentState) :
    ComponentState :=
  if component.kind.isRelay then
    { state with
      coil := energized netlist component.id
      closed := switchOf component.kind { state with coil := energized netlist component.id } }
  else state

section
variable {components : List Component} {f : Component → ComponentState}

/-- Updating the coils sets the coil of every relay to what its net reads. -/
theorem updateCoils_of (hd : DistinctIds components) (netlist : Netlist) :
    updateCoils netlist components (States.of components f) =
      States.of components (fun c =>
        if c.kind.isRelay then { f c with coil := energized netlist c.id } else f c) := by
  rw [updateCoils, States.foldl_adjust_of hd
    (fun c s => { s with coil := energized netlist c.id }) List.filter_sublist,
    States.of_eq_of_iff]
  intro c hc
  simp [List.mem_filter, hc]

/-- Updating the switches sets the contacts of every relay as its coil says. -/
theorem updateSwitches_of (hd : DistinctIds components) :
    updateSwitches components (States.of components f) =
      States.of components (fun c =>
        if c.kind.isRelay then { f c with closed := switchOf c.kind (f c) } else f c) := by
  rw [updateSwitches, States.foldl_adjust_of hd
    (fun c s => { s with closed := switchOf c.kind s }) List.filter_sublist, States.of_eq_of_iff]
  intro c hc
  simp [List.mem_filter, hc]

/-- Updating coils and then switches makes the state of every component follow its nets. -/
theorem updateSwitches_updateCoils_of (hd : DistinctIds components) (netlist : Netlist) :
    updateSwitches components (updateCoils netlist components (States.of components f)) =
      States.of components (fun c => (f c).follow netlist c) := by
  rw [updateCoils_of hd, updateSwitches_of hd, States.of_eq_of_iff]
  intro c _
  unfold ComponentState.follow
  split <;> rfl

/-- If a relay that followed the nets is where it was, its coil alone did not move either. -/
theorem updateCoils_of_follow_eq (hd : DistinctIds components) {netlist : Netlist}
    (h : States.of components (fun c => (f c).follow netlist c) = States.of components f) :
    updateCoils netlist components (States.of components f) = States.of components f := by
  rw [updateCoils_of hd, States.of_eq_of_iff]
  intro c hc
  have hfollow := States.of_eq_of_iff.1 h c hc
  split
  · next hrelay =>
    rw [ComponentState.follow, if_pos hrelay] at hfollow
    have hcoil : energized netlist c.id = (f c).coil := congrArg ComponentState.coil hfollow
    rw [hcoil]
  · rfl

/-- The levels at the ports of some of the components, read from the nets. -/
theorem readPorts_of (hd : DistinctIds components) (netlist : Netlist) {some : List Component}
    (hsub : some.Sublist components) :
    readPorts netlist some (States.of components f) =
      States.of components (fun c => if c ∈ some then (f c).readPorts netlist c else f c) :=
  States.foldl_adjust_of hd (fun c s => s.readPorts netlist c) hsub

/-- Reading the ports of all components reads those of each. -/
theorem readPorts_of_all (hd : DistinctIds components) (netlist : Netlist) :
    readPorts netlist components (States.of components f) =
      States.of components (fun c => (f c).readPorts netlist c) := by
  rw [readPorts_of hd netlist (List.Sublist.refl _), States.of_eq_of_iff]
  exact fun c hc => if_pos hc

/-- A round is driving the sources, letting the relays follow, and passing levels at the contacts;
it changes something if the sources or contacts do or some relay moves. -/
theorem Scene.round_of (hd : DistinctIds components) (inputs : List (Ident × Signal))
    (netlist : Netlist) (f : Component → ComponentState) :
    Scene.round components inputs ⟨netlist, States.of components f⟩ =
      let driven := driveSources inputs components netlist
      let g := fun c => (f c).follow driven.1 c
      let passed := passContacts (States.of components g) components driven.1
      (⟨passed.1, States.of components g⟩,
        driven.2 || decide (States.of components g ≠ States.of components f) || passed.2) := by
  have hstates := updateSwitches_updateCoils_of (f := f) hd
    (driveSources inputs components netlist).1
  have hcoils : States.of components
      (fun c => (f c).follow (driveSources inputs components netlist).1 c) =
      States.of components f →
      updateCoils (driveSources inputs components netlist).1 components (States.of components f) =
        States.of components f := updateCoils_of_follow_eq hd
  dsimp only [Scene.round]
  rw [hstates]
  generalize updateCoils (driveSources inputs components netlist).1 components
    (States.of components f) = coils at hcoils ⊢
  generalize States.of components
    (fun c => (f c).follow (driveSources inputs components netlist).1 c) = switches at hcoils ⊢
  refine Prod.ext rfl ?_
  -- the states as a whole move if and only if the coils or the switches do
  have hmoved : (decide (coils ≠ States.of components f) || decide (switches ≠ coils)) =
      decide (switches ≠ States.of components f) := by
    rw [Bool.eq_iff_iff, Bool.or_eq_true, decide_eq_true_iff, decide_eq_true_iff,
      decide_eq_true_iff]
    constructor
    · rintro h heq
      have := hcoils heq
      rcases h with h | h
      · exact h this
      · exact h (heq.trans this.symm)
    · intro h
      by_contra hnone
      rw [not_or, not_not, not_not] at hnone
      exact h (hnone.2.trans hnone.1)
  simp only [← hmoved, Bool.or_assoc]

end

end Switchyard.Relay
