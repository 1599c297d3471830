import Switchyard.Proofs.Outcomes
import Switchyard.Proofs.Relay.History

/-!
# What setting inputs leaves behind

A name denotes the component of an external input, or else an input component by its own name
(`Simulator.resolve_eq_some`). Which component it sets, and whether it is refused, depends on the
circuit alone (`Simulator.setInput_cases`). So two lists of input values that agree beyond the
components of some names (`AgreeBeyond`) agree beyond those of the remaining ones once a name was
set alike in both (`AgreeBeyond.put_both`), and agree everywhere once all names were; operations
that set only these names keep the agreement (`AgreeBeyond.put`). With the same inputs two loaded
benches answer alike (`Bench.Holds.step_alike`).
-/

namespace Switchyard.Relay

/-! ## What a name denotes -/

namespace Simulator

variable {circuit : Circuit}

/-- A name denotes the component of an external input, or else an input component of the name. -/
theorem resolve_eq_some {id component : Ident}
    (h : resolve circuit id = .ok (some component)) :
    (∃ port ∈ circuit.inputs, port.component = component ∧
        (id == port.id || id == port.name || id == port.component) = true) ∨
      component = id ∧ id.isScalar = true ∧
        ∃ placed, circuit.component? id = some placed ∧ placed.kind = .input := by
  unfold resolve at h
  split at h
  · next port hport =>
    cases h
    have hanswers := List.find?_some hport
    exact .inl ⟨port, List.mem_of_find?_eq_some hport, rfl, hanswers⟩
  · obtain ⟨_, hrequired, hfound⟩ := bind_eq_ok_iff.1 h
    have hid : id.isScalar = true := by
      unfold requireScalar at hrequired
      split at hrequired
      · assumption
      · cases hrequired
    split at hfound
    · next placed hplaced =>
      split at hfound
      · next hkind =>
        cases hfound
        exact .inr ⟨rfl, hid, placed, hplaced, hkind⟩
      · cases hfound
    · cases hfound

/-- A name resolves to something that can be looked up. -/
theorem isScalar_of_resolve (hinputs : ∀ port ∈ circuit.inputs, port.component.isScalar = true)
    {id component : Ident} (h : resolve circuit id = .ok (some component)) :
    component.isScalar = true := by
  obtain ⟨port, hport, rfl, -⟩ | ⟨rfl, hid, -⟩ := resolve_eq_some h
  · exact hinputs port hport
  · exact hid

/-- A name that denotes a component is set to any level. -/
theorem setInput_of_resolve (sim : Simulator) {id component : Ident} {value : Json}
    {level : Signal} (hscalar : component.isScalar = true) (hpresent : component ≠ .null)
    (hresolve : resolve circuit id = .ok (some component))
    (hlevel : Signal.ofJson? value = some level) :
    sim.setInput circuit id value =
      .ok { sim with inputs := Assoc.put component level sim.inputs } := by
  unfold setInput
  rw [hresolve]
  dsimp only [bind, Except.bind]
  split
  · next hnone => cases hnone
  · next hnull => exact absurd (Option.some.inj hnull) hpresent
  · next found hfound =>
    cases hfound
    rw [hlevel]
    dsimp only
    rw [requireScalar, if_pos hscalar]
    rfl

end Simulator

/-! ## Agreement of inputs -/

/-- Values of inputs that agree beyond the components that some names denote. -/
def AgreeBeyond (circuit : Circuit) (ids : List Ident) (a b : List (Ident × Signal)) : Prop :=
  ∀ x, (∀ id ∈ ids, ∀ component, Simulator.resolve circuit id = .ok (some component) →
      (component == x) = false) →
    (Assoc.get? x a).getD .low = (Assoc.get? x b).getD .low

namespace AgreeBeyond

variable {circuit : Circuit} {ids : List Ident} {a b : List (Ident × Signal)}

theorem refl (circuit : Circuit) (ids : List Ident) (a : List (Ident × Signal)) :
    AgreeBeyond circuit ids a a :=
  fun _ _ => rfl

/-- Agreeing is symmetric. -/
theorem symm (h : AgreeBeyond circuit ids a b) : AgreeBeyond circuit ids b a :=
  fun x hx => (h x hx).symm

/-- Setting one of the names keeps the agreement. -/
theorem put (h : AgreeBeyond circuit ids a b) {id component : Ident} (hid : id ∈ ids)
    (hresolve : Simulator.resolve circuit id = .ok (some component)) (level : Signal) :
    AgreeBeyond circuit ids (Assoc.put component level a) b := by
  intro x hx
  rw [Assoc.get?_put, hx id hid component hresolve]
  exact h x hx

/-- Setting one of the names alike in both leaves the agreement beyond the others. -/
theorem put_both {id component : Ident} (h : AgreeBeyond circuit (id :: ids) a b)
    (hresolve : Simulator.resolve circuit id = .ok (some component)) (level : Signal) :
    AgreeBeyond circuit ids (Assoc.put component level a) (Assoc.put component level b) := by
  intro x hx
  rw [Assoc.get?_put, Assoc.get?_put]
  cases hsame : component == x with
  | true => rfl
  | false =>
    refine h x (fun other hother found hfound => ?_)
    rcases List.mem_cons.1 hother with rfl | hother
    · rw [hresolve] at hfound
      cases hfound
      exact hsame
    · exact hx other hother found hfound

/-- Inputs that agree beyond no name at all are the same. -/
theorem sameInputs (h : AgreeBeyond circuit [] a b) : SameInputs circuit a b :=
  fun c _ _ => h c.id nofun

end AgreeBeyond

/-! ## Operations that set some of the inputs -/

/-- The operation makes a step or sets only inputs of the given names, to levels. -/
def Action.SetsOnly (ids : List Ident) : Action → Prop
  | .step => True
  | .setInput id value => id ∈ ids ∧ (Signal.ofJson? value).isSome = true
  | .toggle id => id ∈ ids
  | .run inputs => ∀ pair ∈ inputs, pair.1 ∈ ids ∧ (Signal.ofJson? pair.2).isSome = true
  | _ => False

/-- An operation that only sets inputs keeps the circuit. -/
theorem Action.SetsOnly.keepsCircuit {ids : List Ident} :
    ∀ {action : Action}, action.SetsOnly ids → action.KeepsCircuit
  | .step, _ | .setInput _ _, _ | .toggle _, _ | .run _, _ => trivial

section
variable {circuit : Circuit} {ids : List Ident} {a : List (Ident × Signal)}

/-- Setting an input by one of the names keeps the agreement. -/
theorem setInput_agreeBeyond {sim next : Simulator} {id : Ident} {value : Json} (hid : id ∈ ids)
    (hnext : sim.setInput circuit id value = .ok next)
    (h : AgreeBeyond circuit ids sim.inputs a) : AgreeBeyond circuit ids next.inputs a := by
  rcases Simulator.setInput_cases circuit id value with
    ⟨fault, hrefused⟩ | ⟨component, level, hresolve, -, hset⟩
  · rw [hrefused] at hnext
    cases hnext
  · rw [hset] at hnext
    cases hnext
    exact h.put hid hresolve level

/-- Toggling an input by one of the names keeps the agreement. -/
theorem toggle_agreeBeyond {sim next : Simulator} {id : Ident} (hid : id ∈ ids)
    (hnext : sim.toggle circuit id = .ok next) (h : AgreeBeyond circuit ids sim.inputs a) :
    AgreeBeyond circuit ids next.inputs a := by
  obtain ⟨value, hset⟩ := Simulator.setInput_of_toggle hnext
  exact setInput_agreeBeyond hid hset h

/-- Setting inputs by some of the names keeps the agreement, by induction on the values. -/
theorem setInputs_agreeBeyond : ∀ {values : List (Ident × Json)} {sim : Simulator},
    (∀ pair ∈ values, pair.1 ∈ ids) → AgreeBeyond circuit ids sim.inputs a →
    AgreeBeyond circuit ids (sim.setInputs circuit values).1.inputs a
  | [], _, _, h => h
  | (id, value) :: rest, sim, hids, h => by
    obtain ⟨hid, hrest⟩ := List.forall_mem_cons.1 hids
    rw [Simulator.setInputs]
    split
    · next next hnext => exact setInputs_agreeBeyond hrest (setInput_agreeBeyond hid hnext h)
    · exact h

end

namespace Bench

variable {circuit : Circuit} {cap : Int}

namespace Holds

variable {bench other : Bench} (h : bench.Holds circuit cap)
include h

/-- A bench sets an input as its simulator does. -/
theorem setInput_eq (id : Ident) (value : Json) :
    bench.setInput id value =
      (bench.sim.setInput circuit id value).map ({ bench with sim := · }) := by
  rw [Bench.setInput, h.loaded?_eq]

/-- An operation that sets only inputs of the given names keeps what the inputs agree on. -/
theorem perform_agreeBeyond {ids : List Ident} {a : List (Ident × Signal)} {action : Action}
    (haction : action.SetsOnly ids) (ha : AgreeBeyond circuit ids bench.sim.inputs a) :
    AgreeBeyond circuit ids (bench.perform action).bench.sim.inputs a := by
  have hsettled : ∀ outcome : Except Fault Simulator,
      (∀ next, outcome = .ok next → AgreeBeyond circuit ids next.inputs a) →
      AgreeBeyond circuit ids
        (bench.settled (outcome.map ({ bench with sim := · }))).bench.sim.inputs a := by
    intro outcome hnext
    cases outcome with
    | error fault => exact ha
    | ok next => exact hnext next rfl
  cases action with
  | step =>
    rw [Bench.perform, h.step_eq]
    dsimp only
    rwa [(Simulator.step_frame circuit bench.sim).2]
  | setInput id value =>
    rw [Bench.perform, h.setInput_eq]
    exact hsettled _ (fun next hnext => setInput_agreeBeyond haction.1 hnext ha)
  | toggle id =>
    rw [Bench.perform, Bench.toggle, h.loaded?_eq]
    exact hsettled _ (fun next hnext => toggle_agreeBeyond haction hnext ha)
  | run inputs =>
    have hset := setInputs_agreeBeyond (fun pair hpair => (haction pair hpair).1) ha
    unfold Bench.perform Bench.run
    rw [h.loaded?_eq]
    dsimp only
    split
    · exact hset
    · dsimp only
      rwa [(Simulator.step_frame circuit _).2]
  | edit | getWire | replace | dump | inspect | load | reset | resolve | getInput | getOutput
  | state | states | nets => exact haction.elim

/-- What holds from a loading on, and the agreement of the inputs, through any operations that set
only inputs of the given names. -/
theorem performAll_agreeBeyond {ids : List Ident} {a : List (Ident × Signal)} :
    ∀ {actions : List Action}, (∀ action ∈ actions, action.SetsOnly ids) →
      AgreeBeyond circuit ids bench.sim.inputs a →
      (bench.performAll actions).Holds circuit cap ∧
        AgreeBeyond circuit ids (bench.performAll actions).sim.inputs a := by
  intro actions hactions ha
  induction actions generalizing bench with
  | nil => exact ⟨h, ha⟩
  | cons action rest ih =>
    obtain ⟨haction, hrest⟩ := List.forall_mem_cons.1 hactions
    exact ih (h.perform haction.keepsCircuit) hrest (h.perform_agreeBeyond haction ha)

/-- Two loaded benches with the same inputs make steps of one outcome, after which all outputs read
the same. -/
theorem step_alike (ho : other.Holds circuit cap)
    (hin : SameInputs circuit bench.sim.inputs other.sim.inputs) :
    bench.step.2 = other.step.2 ∧ ∀ result, bench.step.2 = .ok result →
      ∀ id, bench.step.1.getOutput id = other.step.1.getOutput id := by
  have houtcome : bench.step.2 = other.step.2 := by
    rw [h.step_eq, ho.step_eq]
    exact h.loaded.step_eq ho.loaded (h.cap_eq.trans ho.cap_eq.symm) hin
  refine ⟨houtcome, fun result hresult id => ?_⟩
  have hresult' := houtcome.symm.trans hresult
  rw [h.step_eq] at hresult
  rw [ho.step_eq] at hresult'
  have hstates : (bench.sim.step circuit).1.states = (other.sim.step circuit).1.states :=
    (Simulator.step_of_ok hresult).2.2.1.symm.trans (Simulator.step_of_ok hresult').2.2.1
  rw [h.step_eq, ho.step_eq, getOutput, getOutput, h.withStep.loaded?_eq, ho.withStep.loaded?_eq]
  dsimp only
  rw [Simulator.getOutput, Simulator.getOutput, hstates]

end Holds

end Bench

end Switchyard.Relay
