import Switchyard.Proofs.Relay.Editing
import Switchyard.Proofs.Relay.History

/-!
# Edits of a loaded circuit

A simulator looks at its circuit as it is now, and has a state for each component that was there at
the last loading. Only a loading changes the names of the states (`Simulator.keys_step`), so a
component is without one if and only if it came since (`Bench.Shares.knows_eq_false_iff`). As long
as the names and kinds in the circuit can be looked up, which edits keep
(`Circuit.Searchable.edit`), such a component is all that can stop a step
(`Circuit.Searchable.step_cases`), and the other operations fail of nothing but an input that is not
there or a value that is no level (`Circuit.Fails`). A loading never fails, and leaves nothing of
what was before (`Circuit.Searchable.reload_eq`).
-/

namespace Switchyard

/-- Whichever of two ids is taken can be looked up if both can. -/
theorem Ident.isScalar_orElse {a b : Ident} (ha : a.isScalar = true) (hb : b.isScalar = true) :
    (a.orElse b).isScalar = true := by
  unfold orElse
  split <;> assumption

namespace Relay

/-- An id that can be looked up passes the check for it. -/
theorem requireScalar_eq_ok {id : Ident} (h : id.isScalar = true) : requireScalar id = .ok () :=
  if_pos h

/-! ## Names of the states -/

namespace States

variable {states : States}

/-- Adjusting a state keeps which components have states. -/
theorem keys_adjust (id : Ident) (change : ComponentState → ComponentState) :
    (states.adjust id change).map (·.1) = states.map (·.1) := by
  rw [adjust, List.map_map]
  refine List.map_congr_left (fun entry _ => ?_)
  dsimp only [Function.comp]
  split <;> rfl

/-- Adjusting the states of components, one after the other, keeps which components have states. -/
theorem keys_foldl_adjust (change : Component → ComponentState → ComponentState)
    (components : List Component) (states : States) :
    (components.foldl (fun states c => states.adjust c.id (change c)) states).map (·.1) =
      states.map (·.1) := by
  induction components generalizing states with
  | nil => rfl
  | cons c rest ih => exact (ih _).trans (keys_adjust _ _)

end States

/-- Updating the coils keeps which components have states. -/
theorem keys_updateCoils (netlist : Netlist) (components : List Component) (states : States) :
    (updateCoils netlist components states).map (·.1) = states.map (·.1) :=
  States.keys_foldl_adjust (fun c s => { s with coil := energized netlist c.id }) _ _

/-- Updating the switches keeps which components have states. -/
theorem keys_updateSwitches (components : List Component) (states : States) :
    (updateSwitches components states).map (·.1) = states.map (·.1) :=
  States.keys_foldl_adjust (fun c s => { s with closed := switchOf c.kind s }) _ _

/-- Reading the ports keeps which components have states. -/
theorem keys_readPorts (netlist : Netlist) (components : List Component) (states : States) :
    (readPorts netlist components states).map (·.1) = states.map (·.1) :=
  States.keys_foldl_adjust (fun c s => s.readPorts netlist c) _ _

/-- A round keeps which components have states. -/
theorem Scene.keys_round (components : List Component) (inputs : List (Ident × Signal))
    (scene : Scene) :
    (scene.round components inputs).1.states.map (·.1) = scene.states.map (·.1) :=
  (keys_updateSwitches _ _).trans (keys_updateCoils _ _ _)

/-- Settling keeps which components have states. -/
theorem Scene.keys_settle (components : List Component) (inputs : List (Ident × Signal))
    (fuel done : Nat) (scene : Scene) :
    (scene.settle components inputs fuel done).1.states.map (·.1) = scene.states.map (·.1) :=
  settle_induction (P := fun next => next.states.map (·.1) = scene.states.map (·.1))
    (fun _ h => (keys_round _ _ _).trans h) fuel done scene rfl

/-- A step keeps the names under which there are states, however far it comes. -/
theorem Simulator.keys_step (circuit : Circuit) (sim : Simulator) :
    (sim.step circuit).1.states.map (·.1) = sim.states.map (·.1) := by
  unfold Simulator.step interrupted
  split
  · dsimp only
    split_ifs
    · exact keys_readPorts _ _ _
    · exact (keys_readPorts _ _ _).trans (Scene.keys_round _ _ _)
    · exact (keys_updateSwitches _ _).trans (keys_updateCoils _ _ _)
    · exact keys_updateCoils _ _ _
  · exact (keys_readPorts _ _ _).trans (Scene.keys_settle _ _ _ _ _)

/-- After a loading there are states under the names of the components. -/
theorem Simulator.keys_load (cap : Int) (circuit : Circuit) :
    (load cap circuit).states.map (·.1) = circuit.components.map (·.id) := by
  rw [load, restStates_of circuit.distinctIds, States.of, List.map_map]
  rfl

/-! ## Circuits that can be searched -/

/-- No component of the circuit has the name. -/
def Circuit.Lacks (circuit : Circuit) (id : Ident) : Prop :=
  ∀ c ∈ circuit.components, (c.id == id) = false

instance (circuit : Circuit) (id : Ident) : Decidable (circuit.Lacks id) :=
  inferInstanceAs (Decidable (∀ c ∈ circuit.components, (c.id == id) = false))

/-- Whatever the operations of a simulator look up on account of the circuit can be looked up. With
texts for names and kinds it can. -/
structure Circuit.Searchable (circuit : Circuit) : Prop where
  kinds : ∀ c ∈ circuit.components, c.kind.isScalar = true
  wires : ∀ wire ∈ circuit.wires, wire.isScalar = true
  inputs : ∀ port ∈ circuit.inputs, port.component.isScalar = true
  outputs : ∀ port ∈ circuit.outputs, port.component.isScalar = true ∧ port.id.isScalar = true

/-- What the edit adds can be looked up. -/
def Edit.Searchable : Edit → Prop
  | .addComponent component => component.kind.isScalar = true
  | .addWire wire => wire.id.isScalar = true
  | .addInput component _ _ => component.isScalar = true
  | .addOutput component _ id => component.isScalar = true ∧ (id.getD .null).isScalar = true
  | .removeComponent _ | .removeWire _ | .clear => True

namespace Circuit.Searchable

variable {circuit next : Circuit}

/-- Taking things away keeps a circuit searchable. -/
theorem of_subset (h : circuit.Searchable) (hcomponents : next.components ⊆ circuit.components)
    (hwires : next.wires ⊆ circuit.wires) (hinputs : next.inputs ⊆ circuit.inputs)
    (houtputs : next.outputs ⊆ circuit.outputs) : next.Searchable where
  kinds c hc := h.kinds c (hcomponents hc)
  wires wire hwire := h.wires wire (hwires hwire)
  inputs port hport := h.inputs port (hinputs hport)
  outputs port hport := h.outputs port (houtputs hport)

/-- Adding a component of a kind that can be looked up keeps a circuit searchable. -/
theorem addComponent (h : circuit.Searchable) {component : Component}
    (hkind : component.kind.isScalar = true) (hnext : circuit.addComponent component = .ok next) :
    next.Searchable := by
  obtain ⟨hid, -, hcomponents, hwires, hinputs, houtputs⟩ := addComponent_eq_ok hnext
  refine ⟨?_, hwires ▸ h.wires, ?_, ?_⟩
  · rw [hcomponents]
    exact List.forall_mem_append.2 ⟨h.kinds, List.forall_mem_singleton.2 hkind⟩
  · rcases hinputs with hsame | ⟨-, port, -, hport, hinputs⟩
    · exact hsame ▸ h.inputs
    · rw [hinputs]
      exact List.forall_mem_append.2 ⟨h.inputs, List.forall_mem_singleton.2 (hport ▸ hid)⟩
  · rcases houtputs with hsame | ⟨-, port, hown, hport, houtputs⟩
    · exact hsame ▸ h.outputs
    · rw [houtputs]
      exact List.forall_mem_append.2
        ⟨h.outputs, List.forall_mem_singleton.2 ⟨hport ▸ hid, hown ▸ hid⟩⟩

/-- Adding a wire that can be looked up keeps a circuit searchable. -/
theorem addWire (h : circuit.Searchable) {wire : Wire} (hname : wire.id.isScalar = true)
    (hnext : circuit.addWire wire = .ok next) : next.Searchable := by
  obtain ⟨hsource, htarget, rfl⟩ := addWire_eq_ok hnext
  refine ⟨h.kinds, List.forall_mem_append.2 ⟨h.wires, List.forall_mem_singleton.2 ?_⟩, h.inputs,
    h.outputs⟩
  rw [Wire.isScalar, hname, hsource, htarget]
  rfl

/-- Every edit that adds what can be looked up keeps a circuit searchable. -/
theorem edit (h : circuit.Searchable) {edit : Edit} (hedit : edit.Searchable) :
    (circuit.edit edit).Searchable := by
  cases edit with
  | addComponent component =>
    rw [Circuit.edit]
    split
    · next next hnext => exact h.addComponent hedit hnext
    · exact h
  | removeComponent id =>
    rw [Circuit.edit]
    rcases circuit.removeComponent_cases id with hsame | ⟨hcomponents, hwires, hinputs, houtputs⟩
    · rw [hsame]
      exact h
    · exact h.of_subset (hcomponents ▸ List.filter_sublist.subset)
        (hwires ▸ List.filter_sublist.subset) (hinputs ▸ List.filter_sublist.subset)
        (houtputs ▸ List.filter_sublist.subset)
  | addWire wire =>
    rw [Circuit.edit]
    split
    · next next hnext => exact h.addWire hedit hnext
    · exact h
  | removeWire id =>
    exact h.of_subset (List.Subset.refl _) (List.filter_sublist.subset) (List.Subset.refl _)
      (List.Subset.refl _)
  | addInput component name id =>
    exact ⟨h.kinds, h.wires, List.forall_mem_append.2 ⟨h.inputs, List.forall_mem_singleton.2 hedit⟩,
      h.outputs⟩
  | addOutput component name id =>
    exact ⟨h.kinds, h.wires, h.inputs, List.forall_mem_append.2 ⟨h.outputs,
      List.forall_mem_singleton.2 ⟨hedit.1, Ident.isScalar_orElse hedit.2 hedit.1⟩⟩⟩
  | clear =>
    exact ⟨List.forall_mem_nil _, List.forall_mem_nil _, List.forall_mem_nil _,
      List.forall_mem_nil _⟩

end Circuit.Searchable

/-! ## What an operation can fail of -/

/-- No input component answers to the name, be it as an external input or by its own name. -/
def Circuit.Unanswered (circuit : Circuit) (id : Ident) : Prop :=
  ∀ component, Simulator.resolve circuit id = .ok (some component) → component = .null

/-- Why an input is not set to the level of a value. -/
inductive Circuit.Refuses (circuit : Circuit) (id : Ident) (value : Json) : Fault → Prop
  | unknownInput : circuit.Unanswered id → Refuses circuit id value (.unknownInput id)
  | invalidLevel : Signal.ofJson? value = none → Refuses circuit id value (.invalidLevel value)

/-- What the operations of a simulator can fail of that has loaded a circuit as it was at one time
while the circuit is as it is now: a step comes to a component that was not there, or an input is
not set. -/
inductive Circuit.Fails (atLoad circuit : Circuit) : Action → Fault → Prop
  | step {c : Component} : c ∈ circuit.components → atLoad.Lacks c.id →
      Fails atLoad circuit .step (.noState c.id)
  | setInput {id : Ident} {value : Json} {fault : Fault} : circuit.Refuses id value fault →
      Fails atLoad circuit (.setInput id value) fault
  | toggle {id : Ident} : circuit.Unanswered id →
      Fails atLoad circuit (.toggle id) (.unknownInput id)
  | runInput {inputs : List (Ident × Json)} {id : Ident} {value : Json} {fault : Fault} :
      (id, value) ∈ inputs → circuit.Refuses id value fault →
      Fails atLoad circuit (.run inputs) fault
  | runStep {inputs : List (Ident × Json)} {c : Component} : c ∈ circuit.components →
      atLoad.Lacks c.id → Fails atLoad circuit (.run inputs) (.noState c.id)

/-- An operation of the simulator with names that can be looked up. -/
def Action.Simulates : Action → Prop
  | .load | .reset | .step => True
  | .setInput id _ | .toggle id | .getInput id | .getOutput id => id.isScalar = true
  | .run inputs => ∀ pair ∈ inputs, pair.1.isScalar = true
  | _ => False

namespace Circuit.Searchable

variable {circuit : Circuit} (h : circuit.Searchable)
include h

/-- A name is resolved, and what it denotes can be looked up. -/
theorem exists_resolve_eq_ok {id : Ident} (hid : id.isScalar = true) :
    ∃ found, Simulator.resolve circuit id = .ok found ∧ (found.getD .null).isScalar = true := by
  unfold Simulator.resolve
  split
  · next port hport => exact ⟨_, rfl, h.inputs port (List.mem_of_find?_eq_some hport)⟩
  · rw [requireScalar_eq_ok hid]
    dsimp only [bind, Except.bind]
    split
    · split
      · exact ⟨_, rfl, hid⟩
      · exact ⟨_, rfl, rfl⟩
    · exact ⟨_, rfl, rfl⟩

/-- An input of a searchable circuit can be read by every id that can be looked up. -/
theorem exists_getInput_eq_ok (sim : Simulator) {id : Ident} (hid : id.isScalar = true) :
    ∃ level, sim.getInput circuit id = .ok level := by
  obtain ⟨found, hfound, hscalar⟩ := h.exists_resolve_eq_ok hid
  unfold Simulator.getInput Simulator.inputLevel
  rw [hfound]
  dsimp only [bind, Except.bind]
  rw [requireScalar_eq_ok (Ident.isScalar_orElse hscalar hid)]
  exact ⟨_, rfl⟩

/-- An output of a searchable circuit can be read by any id. -/
theorem exists_getOutput_eq_ok (sim : Simulator) (id : Ident) :
    ∃ level, sim.getOutput circuit id = .ok level := by
  unfold Simulator.getOutput
  split
  · next port hport =>
    rw [requireScalar_eq_ok (h.outputs port (List.mem_of_find?_eq_some hport)).1]
    exact ⟨_, rfl⟩
  · exact ⟨_, rfl⟩

/-- The outputs of a searchable circuit can all be read. -/
theorem exists_outputs_eq_ok (sim : Simulator) : ∃ levels, sim.outputs circuit = .ok levels := by
  have hports : ∀ ports ⊆ circuit.outputs,
      ∃ levels, sim.outputLevels circuit ports = .ok levels := by
    intro ports hports
    induction ports with
    | nil => exact ⟨_, rfl⟩
    | cons port rest ih =>
      obtain ⟨hport, hrest⟩ := List.cons_subset.1 hports
      obtain ⟨level, hlevel⟩ := h.exists_getOutput_eq_ok sim port.id
      obtain ⟨levels, hlevels⟩ := ih hrest
      rw [Simulator.outputLevels, hlevel, requireScalar_eq_ok (h.outputs port hport).2, hlevels]
      exact ⟨_, rfl⟩
  obtain ⟨levels, hlevels⟩ := hports _ (List.Subset.refl _)
  rw [Simulator.outputs, hlevels]
  exact ⟨_, rfl⟩

/-- An input is not set for one of the two reasons. -/
theorem refuses_of_setInput (sim : Simulator) {id : Ident} (hid : id.isScalar = true) {value : Json}
    {fault : Fault} (hfault : sim.setInput circuit id value = .error fault) :
    circuit.Refuses id value fault := by
  obtain ⟨found, hfound, hscalar⟩ := h.exists_resolve_eq_ok hid
  unfold Simulator.setInput at hfault
  rw [hfound] at hfault
  dsimp only [bind, Except.bind] at hfault
  split at hfault
  · cases hfault
    refine .unknownInput (fun component hcomponent => ?_)
    rw [hfound] at hcomponent
    cases hcomponent
  · cases hfault
    refine .unknownInput (fun component hcomponent => ?_)
    rw [hfound] at hcomponent
    cases hcomponent
    rfl
  · split at hfault
    · next hlevel =>
      cases hfault
      exact .invalidLevel hlevel
    · next component _ _ _ _ =>
      have hcomponent : requireScalar component = .ok () := requireScalar_eq_ok hscalar
      rw [hcomponent] at hfault
      cases hfault

/-- Of several inputs one is refused, if they are not all set. -/
theorem refuses_of_setInputs {fault : Fault} : ∀ {values : List (Ident × Json)} {sim : Simulator},
    (∀ pair ∈ values, pair.1.isScalar = true) →
    (sim.setInputs circuit values).2 = .error fault →
    ∃ id value, (id, value) ∈ values ∧ circuit.Refuses id value fault
  | [], _, _, hfault => nomatch hfault
  | (id, value) :: rest, sim, hids, hfault => by
    obtain ⟨hid, hrest⟩ := List.forall_mem_cons.1 hids
    rw [Simulator.setInputs] at hfault
    split at hfault
    · obtain ⟨id, value, hmem, hrefuses⟩ := refuses_of_setInputs hrest hfault
      exact ⟨id, value, List.mem_cons_of_mem _ hmem, hrefuses⟩
    · next refusal hrefused =>
      cases hfault
      exact ⟨id, value, List.mem_cons_self, h.refuses_of_setInput sim hid hrefused⟩

/-- An input that is not turned over does not exist, the level being valid. -/
theorem unanswered_of_toggle (sim : Simulator) {id : Ident} (hid : id.isScalar = true)
    {fault : Fault} (hfault : sim.toggle circuit id = .error fault) :
    circuit.Unanswered id ∧ fault = .unknownInput id := by
  obtain ⟨level, hlevel⟩ := h.exists_getInput_eq_ok sim hid
  unfold Simulator.toggle at hfault
  rw [hlevel] at hfault
  cases h.refuses_of_setInput sim hid hfault with
  | unknownInput hunanswered => exact ⟨hunanswered, rfl⟩
  | invalidLevel hnone =>
    rw [Signal.ofJson?_int, Signal.ofCode?_code] at hnone
    cases hnone

/-- Loading succeeds, and gives what it would give a new simulator. -/
theorem reload_eq (sim : Simulator) :
    sim.reload circuit = (Simulator.load sim.cap circuit, .ok ()) := by
  unfold Simulator.reload
  rw [List.all_eq_true.2 h.wires, List.all_eq_true.2 h.inputs]
  rfl

/-- Every component that stops a step has no state, and one stops it unless all have one. -/
theorem obstacle?_cases (sim : Simulator) :
    (∃ c ∈ circuit.components, sim.obstacle? circuit = some c ∧ sim.knows c = false) ∨
    sim.obstacle? circuit = none ∧ ∀ c ∈ circuit.components, sim.knows c = true := by
  have hread : circuit.components.find? (!sim.canRead ·) =
      circuit.components.find? (!sim.knows ·) :=
    List.find?_congr (fun c hc => by rw [Simulator.canRead, h.kinds c hc, Bool.and_true])
  have hobstacle : sim.obstacle? circuit = if sim.cap ≤ 0 then
        circuit.components.find? (!sim.knows ·)
      else (circuit.components.find? (fun c => c.kind.isRelay && !sim.knows c)).or
        (circuit.components.find? (!sim.knows ·)) := by
    rw [Simulator.obstacle?, hread, Option.or_self]
  have hfound : ∀ c, circuit.components.find? (!sim.knows ·) = some c →
      c ∈ circuit.components ∧ sim.knows c = false :=
    fun c hc => ⟨List.mem_of_find?_eq_some hc, by simpa using List.find?_some hc⟩
  cases hunknown : circuit.components.find? (!sim.knows ·) with
  | none =>
    have hall : ∀ c ∈ circuit.components, sim.knows c = true := by simpa using hunknown
    have hrelays : circuit.components.find? (fun c => c.kind.isRelay && !sim.knows c) = none :=
      List.find?_eq_none.2 (fun c hc => by simp [hall c hc])
    rw [hobstacle, hunknown, hrelays, Option.or_none, ite_self]
    exact .inr ⟨rfl, hall⟩
  | some c =>
    obtain ⟨hc, hcUnknown⟩ := hfound c hunknown
    cases hrelay : circuit.components.find? (fun c => c.kind.isRelay && !sim.knows c) with
    | none =>
      rw [hobstacle, hunknown, hrelay, Option.none_or, ite_self]
      exact .inl ⟨c, hc, rfl, hcUnknown⟩
    | some relay =>
      have hmet := List.find?_some hrelay
      rw [Bool.and_eq_true, Bool.not_eq_true'] at hmet
      rw [hobstacle, hunknown, hrelay, Option.some_or]
      split
      · exact .inl ⟨c, hc, rfl, hcUnknown⟩
      · exact .inl ⟨relay, List.mem_of_find?_eq_some hrelay, rfl, hmet.2⟩

/-- A step is stopped by a component without a state and leaves the cycle, or all components have
one and it gives a result. -/
theorem step_cases (sim : Simulator) :
    (∃ c ∈ circuit.components, sim.knows c = false ∧
      (sim.step circuit).2 = .error (.noState c.id) ∧ (sim.step circuit).1.cycle = sim.cycle) ∨
    (∀ c ∈ circuit.components, sim.knows c = true) ∧
      ∃ result, (sim.step circuit).2 = .ok result := by
  rcases h.obstacle?_cases sim with ⟨c, hc, hobstacle, hunknown⟩ | ⟨hobstacle, hall⟩
  · have hstep : sim.step circuit = (sim.interrupted circuit, .error (.noState c.id)) := by
      rw [Simulator.step, hobstacle]
      dsimp only
      rw [Simulator.obstacleFault, hunknown]
      rfl
    have hcycle : (sim.interrupted circuit).cycle = sim.cycle := by
      unfold Simulator.interrupted
      dsimp only
      split_ifs <;> rfl
    rw [hstep]
    exact .inl ⟨c, hc, hunknown, rfl, hcycle⟩
  · have hwires : circuit.wires.all (·.id.isScalar) = true :=
      Simulator.wires_of_reload_ok (congrArg Prod.snd (h.reload_eq sim))
    exact .inr ⟨hall, _, Simulator.step_eq_ok_iff.2 ⟨hobstacle, hwires, rfl⟩⟩

end Circuit.Searchable

/-! ## Operations -/

/-- An operation that leaves the circuit on the bench; if it edits the circuit, what it adds can be
looked up. -/
def Action.Live : Action → Prop
  | .edit change => change.Searchable
  | .replace _ => False
  | _ => True

/-- A live operation is an edit or keeps the circuit. -/
theorem Action.Live.cases : ∀ {action : Action}, action.Live →
    (∃ change : Edit, action = .edit change ∧ change.Searchable) ∨ action.KeepsCircuit
  | .edit change, h => .inl ⟨change, rfl, h⟩
  | .replace _, h => h.elim
  | .getWire _, _ | .dump, _ | .inspect, _ | .load, _ | .reset, _ | .setInput _ _, _ | .toggle _, _
  | .resolve _, _ | .getInput _, _ | .getOutput _, _ | .step, _ | .run _, _ | .state _, _
  | .states, _ | .nets, _ => .inr trivial

/-- An operation that loads a circuit. -/
def Action.Loads : Action → Prop
  | .load | .reset => True
  | _ => False

namespace Bench

/-- No operation changes the cap. -/
theorem cap_performAll (bench : Bench) (actions : List Action) :
    (bench.performAll actions).sim.cap = bench.sim.cap := by
  refine sim_performAll (P := fun sim => sim.cap = bench.sim.cap) (fun _ _ h => h)
    (fun sim circuit h => ?_)
    (fun sim circuit h => (Simulator.step_frame circuit sim).1.trans h) rfl actions
  unfold Simulator.reload
  dsimp only
  split_ifs <;> exact h

/-- Operations that leave the circuit as it is leave the simulator attached as it was, or attach it
to this circuit. -/
theorem perform_frame (bench : Bench) {action : Action} (hkeep : action.KeepsCircuit) :
    (bench.perform action).bench.circuit = bench.circuit ∧
      ((bench.perform action).bench.attached = bench.attached ∨
        (bench.perform action).bench.attached = .current) := by
  rcases perform_cases bench hkeep with
    ⟨inputs, hnext⟩ | rfl | rfl | ⟨circuit, inputs, -, hnext⟩
  · rw [hnext]
    exact ⟨rfl, .inl rfl⟩
  · exact ⟨rfl, .inr rfl⟩
  · rw [perform, Bench.reset]
    split <;> exact ⟨rfl, .inl rfl⟩
  · rw [hnext]
    exact ⟨rfl, .inl rfl⟩

/-- A live operation keeps the circuit searchable, and loaded if it was or is just being loaded. -/
theorem live_perform {bench : Bench} (h : bench.circuit.Searchable) {action : Action}
    (hlive : action.Live) :
    (bench.perform action).bench.circuit.Searchable ∧
      (bench.attached = .current ∨ action = .load →
        (bench.perform action).bench.attached = .current) := by
  rcases hlive.cases with ⟨edit, rfl, hedit⟩ | hkeep
  · rw [perform, bench_performEdit]
    exact ⟨h.edit hedit, fun hattached => hattached.resolve_right (by simp)⟩
  · obtain ⟨hcircuit, hattached⟩ := perform_frame bench hkeep
    refine ⟨hcircuit ▸ h, ?_⟩
    rintro (hcurrent | rfl)
    · exact hattached.elim (·.trans hcurrent) id
    · rfl

/-- Live operations one after the other keep the circuit searchable, and loaded if it was or one of
them loads it. -/
theorem live_performAll {bench : Bench} (h : bench.circuit.Searchable) {actions : List Action}
    (hlive : ∀ action ∈ actions, action.Live) :
    (bench.performAll actions).circuit.Searchable ∧
      (bench.attached = .current ∨ .load ∈ actions →
        (bench.performAll actions).attached = .current) := by
  induction actions generalizing bench with
  | nil => exact ⟨h, fun hattached => hattached.resolve_right List.not_mem_nil⟩
  | cons action rest ih =>
    obtain ⟨haction, hrest⟩ := List.forall_mem_cons.1 hlive
    obtain ⟨hcircuit, hattached⟩ := live_perform h haction
    obtain ⟨hall, hcurrent⟩ := ih hcircuit hrest
    refine ⟨hall, fun hsome => hcurrent ?_⟩
    rcases hsome with hsome | hsome
    · exact .inl (hattached (.inl hsome))
    · exact (List.mem_cons.1 hsome).imp_left (fun hload => hattached (.inr hload.symm))

/-- The simulator has the circuit on the bench loaded, and states for the components that there were
at the last loading. -/
structure Shares (atLoad : Circuit) (bench : Bench) : Prop where
  attached : bench.attached = .current
  searchable : bench.circuit.Searchable
  keys : bench.sim.states.map (·.1) = atLoad.components.map (·.id)

/-- Loading a searchable circuit gives states for just its components. -/
theorem shares_load {bench : Bench} (h : bench.circuit.Searchable) :
    Shares bench.circuit bench.load.1 := by
  rw [Bench.load, h.reload_eq]
  exact ⟨rfl, h, Simulator.keys_load _ _⟩

namespace Shares

variable {atLoad : Circuit} {bench : Bench} (h : bench.Shares atLoad)
include h

/-- The circuit on the bench is the loaded one. -/
theorem loaded?_eq : bench.loaded? = some bench.circuit := by
  rw [Bench.loaded?, h.attached]

/-- A component has no state if and only if it was not there at the loading. -/
theorem knows_eq_false_iff {c : Component} : bench.sim.knows c = false ↔ atLoad.Lacks c.id := by
  rw [Simulator.knows, Assoc.has_eq_false_iff, h.keys, List.forall_mem_map, Circuit.Lacks]

/-- Operations that do not load keep the names of the states. -/
theorem perform {action : Action} (hlive : action.Live) (hloads : ¬ action.Loads) :
    Shares atLoad (bench.perform action).bench := by
  obtain ⟨hsearchable, hattached⟩ := live_perform h.searchable hlive
  refine ⟨hattached (.inl h.attached), hsearchable, ?_⟩
  rcases hlive.cases with ⟨edit, rfl, -⟩ | hkeep
  · rw [Bench.perform, bench_performEdit]
    exact h.keys
  rcases perform_cases bench hkeep with
    ⟨inputs, hnext⟩ | rfl | rfl | ⟨circuit, inputs, -, hnext⟩
  · rw [hnext]
    exact h.keys
  · exact absurd trivial hloads
  · exact absurd trivial hloads
  · rw [hnext]
    exact (Simulator.keys_step _ _).trans h.keys

/-- Operations that do not load keep the states to the components there were at the last loading. -/
theorem performAll {actions : List Action}
    (hactions : ∀ action ∈ actions, action.Live ∧ ¬ action.Loads) :
    Shares atLoad (bench.performAll actions) := by
  induction actions generalizing bench with
  | nil => exact h
  | cons action rest ih =>
    obtain ⟨⟨hlive, hloads⟩, hrest⟩ := List.forall_mem_cons.1 hactions
    exact ih (h.perform hlive hloads) hrest

/-- A reset loads the circuit as it now is, like a fresh load with the same cap. -/
theorem reset_eq :
    bench.reset = ((ofCircuit bench.circuit bench.sim.cap).load.1, .ok ()) := by
  rw [reset_eq_load h.attached, Bench.load, Bench.load, h.searchable.reload_eq,
    show (ofCircuit bench.circuit bench.sim.cap).circuit = bench.circuit from rfl,
    h.searchable.reload_eq]
  rfl

/-- A bench whose simulator shares its circuit steps as the simulator does. -/
theorem step_eq : bench.step = ({ bench with sim := (bench.sim.step bench.circuit).1 },
    (bench.sim.step bench.circuit).2) :=
  step_of_loaded h.loaded?_eq

/-- A step is stopped if and only if a component came since the loading. -/
theorem step_error_iff : (∃ id, bench.step.2 = .error (.noState id)) ↔
    ∃ c ∈ bench.circuit.components, atLoad.Lacks c.id := by
  rw [h.step_eq]
  constructor
  · rintro ⟨id, hstep⟩
    rcases h.searchable.step_cases bench.sim with ⟨c, hc, hunknown, -, -⟩ | ⟨-, result, hresult⟩
    · exact ⟨c, hc, h.knows_eq_false_iff.1 hunknown⟩
    · cases hresult.symm.trans hstep
  · rintro ⟨c, hc, hlacks⟩
    rcases h.searchable.step_cases bench.sim with ⟨d, -, -, hstep, -⟩ | ⟨hknown, -⟩
    · exact ⟨d.id, hstep⟩
    · cases (hknown c hc).symm.trans (h.knows_eq_false_iff.2 hlacks)

/-- A step that is stopped leaves the cycle, and its fault names a component that came since. -/
theorem of_step_error {sim : Simulator} (hstates : sim.states = bench.sim.states) {fault : Fault}
    (hfault : (sim.step bench.circuit).2 = .error fault) :
    (∃ c ∈ bench.circuit.components, atLoad.Lacks c.id ∧ fault = .noState c.id) ∧
      (sim.step bench.circuit).1.cycle = sim.cycle := by
  rcases h.searchable.step_cases sim with ⟨c, hc, hunknown, hstep, hcycle⟩ | ⟨-, result, hresult⟩
  · have hsame : sim.knows c = bench.sim.knows c := by
      rw [Simulator.knows, Simulator.knows, hstates]
    have hlacks := h.knows_eq_false_iff.1 (hsame.symm.trans hunknown)
    exact ⟨⟨c, hc, hlacks, Except.error.inj (hfault.symm.trans hstep)⟩, hcycle⟩
  · cases hresult.symm.trans hfault

/-- Setting inputs and making a step fail as a setting or the step does. -/
theorem run_error {inputs : List (Ident × Json)} (hids : ∀ pair ∈ inputs, pair.1.isScalar = true)
    {fault : Fault} (hfault : (bench.run inputs).2.1 = .error fault) :
    Circuit.Fails atLoad bench.circuit (.run inputs) fault ∧
      (bench.run inputs).1.sim.cycle = bench.sim.cycle := by
  obtain ⟨values, hvalues⟩ := Simulator.setInputs_eq bench.circuit inputs bench.sim
  have hstates : ({ bench.sim with inputs := values } : Simulator).states = bench.sim.states := rfl
  unfold Bench.run at hfault ⊢
  rw [h.loaded?_eq] at hfault ⊢
  dsimp only at hfault ⊢
  cases hset : (bench.sim.setInputs bench.circuit inputs).2 with
  | error refusal =>
    rw [hset, hvalues] at hfault
    rw [hvalues]
    cases hfault
    obtain ⟨id, value, hmem, hrefuses⟩ := h.searchable.refuses_of_setInputs hids hset
    exact ⟨.runInput hmem hrefuses, rfl⟩
  | ok done =>
    rw [hset, hvalues] at hfault
    rw [hvalues]
    dsimp only at hfault ⊢
    cases hstep : (Simulator.step bench.circuit { bench.sim with inputs := values }).2 with
    | error stop =>
      rw [hstep] at hfault
      cases hfault
      obtain ⟨⟨c, hc, hlacks, rfl⟩, hcycle⟩ := h.of_step_error hstates hstep
      exact ⟨.runStep hc hlacks, hcycle⟩
    | ok result =>
      obtain ⟨levels, hlevels⟩ := h.searchable.exists_outputs_eq_ok
        (Simulator.step bench.circuit { bench.sim with inputs := values }).1
      rw [hstep] at hfault
      cases hlevels.symm.trans hfault

/-- The faults of the operations of the simulator are those that are foreseen, and leave the
cycle. -/
theorem fails {action : Action} (haction : action.Simulates) {fault : Fault}
    (hfault : (bench.perform action).answer = .error fault) :
    Circuit.Fails atLoad bench.circuit action fault ∧
      (bench.perform action).bench.sim.cycle = bench.sim.cycle := by
  have hsettled : ∀ {outcome : Except Fault Simulator},
      (bench.settled (outcome.map ({ bench with sim := · }))).answer = .error fault →
      outcome = .error fault ∧
        (bench.settled (outcome.map ({ bench with sim := · }))).bench = bench := by
    intro outcome houtcome
    cases outcome with
    | error refusal => exact ⟨congrArg Except.error (Except.error.inj houtcome), rfl⟩
    | ok sim => cases houtcome
  cases action with
  | edit | getWire | replace | dump | inspect | resolve | state | states | nets =>
    exact haction.elim
  | load =>
    rw [Bench.perform, Bench.load, h.searchable.reload_eq] at hfault
    cases hfault
  | reset =>
    rw [Bench.perform, h.reset_eq] at hfault
    cases hfault
  | setInput id value =>
    rw [Bench.perform, Bench.setInput, h.loaded?_eq] at hfault ⊢
    obtain ⟨hset, hsame⟩ := hsettled hfault
    exact ⟨.setInput (h.searchable.refuses_of_setInput bench.sim haction hset),
      congrArg (fun next => next.sim.cycle) hsame⟩
  | toggle id =>
    rw [Bench.perform, Bench.toggle, h.loaded?_eq] at hfault ⊢
    obtain ⟨htoggle, hsame⟩ := hsettled hfault
    obtain ⟨hunanswered, rfl⟩ := h.searchable.unanswered_of_toggle bench.sim haction htoggle
    exact ⟨.toggle hunanswered, congrArg (fun next => next.sim.cycle) hsame⟩
  | getInput id =>
    obtain ⟨level, hlevel⟩ := h.searchable.exists_getInput_eq_ok bench.sim haction
    rw [Bench.perform, Bench.getInput, h.loaded?_eq] at hfault
    dsimp only at hfault
    rw [hlevel] at hfault
    cases hfault
  | getOutput id =>
    obtain ⟨level, hlevel⟩ := h.searchable.exists_getOutput_eq_ok bench.sim id
    rw [Bench.perform, Bench.getOutput, h.loaded?_eq] at hfault
    dsimp only at hfault
    rw [hlevel] at hfault
    cases hfault
  | step =>
    rw [Bench.perform, h.step_eq] at hfault ⊢
    cases hstep : (bench.sim.step bench.circuit).2 with
    | error stop =>
      rw [hstep] at hfault
      cases hfault
      obtain ⟨⟨c, hc, hlacks, rfl⟩, hcycle⟩ := h.of_step_error rfl hstep
      exact ⟨.step hc hlacks, hcycle⟩
    | ok result =>
      rw [hstep] at hfault
      cases hfault
  | run inputs =>
    change (bench.run inputs).2.1.map Answer.levels = .error fault at hfault
    cases hrun : (bench.run inputs).2.1 with
    | error stop =>
      rw [hrun] at hfault
      cases hfault
      exact h.run_error haction hrun
    | ok levels =>
      rw [hrun] at hfault
      cases hfault

end Shares

/-- Edits of a loaded circuit are safe but for one thing. Let a circuit be loaded, or reset once it
was loaded, and then be edited while the simulator is at work, in any order and under any cap, what
is refused or stopped included. A step is stopped for want of a state if and only if there is a
component by now whose name no component had at this loading, and of nothing else. Besides, an
operation of the simulator fails only where an input is set that does not exist, or to a value that
is no level; whatever it fails of, the cycle stays. A reset never fails and gives what a new
simulator has that loads the circuit as it is, before a step and after it alike. -/
theorem edits_while_loaded {start : Bench} (hstart : start.circuit.Searchable)
    {earlier since : List Action} {loading : Action}
    (hearlier : ∀ action ∈ earlier, action.Live)
    (hloading : loading = .load ∨ loading = .reset ∧ .load ∈ earlier)
    (hsince : ∀ action ∈ since, action.Live ∧ ¬ action.Loads) :
    let before := start.performAll earlier
    let bench := (before.perform loading).bench.performAll since
    ((∃ id, bench.step.2 = .error (.noState id)) ↔
      ∃ c ∈ bench.circuit.components, before.circuit.Lacks c.id) ∧
    (∀ action : Action, action.Simulates → ∀ fault, (bench.perform action).answer = .error fault →
      before.circuit.Fails bench.circuit action fault ∧
        (bench.perform action).bench.sim.cycle = bench.sim.cycle) ∧
    bench.reset = ((ofCircuit bench.circuit start.sim.cap).load.1, .ok ()) ∧
    bench.step.1.reset = bench.reset := by
  intro before bench
  obtain ⟨hsearchable, hattached⟩ := live_performAll hstart hearlier
  have hloaded : (before.perform loading).bench = before.load.1 := by
    rcases hloading with rfl | ⟨rfl, hload⟩
    · rfl
    · exact congrArg Prod.fst (reset_eq_load (hattached (.inr hload)))
  have h : bench.Shares before.circuit := by
    refine Shares.performAll ?_ hsince
    rw [hloaded]
    exact shares_load hsearchable
  have hcap : bench.sim.cap = start.sim.cap :=
    (cap_performAll _ since).trans
      ((cap_performAll before [loading]).trans (cap_performAll start earlier))
  have hstep : (bench.perform .step).bench.Shares before.circuit := h.perform trivial id
  change bench.step.1.Shares before.circuit at hstep
  refine ⟨h.step_error_iff, fun action haction fault => h.fails haction, ?_, ?_⟩
  · rw [h.reset_eq, hcap]
  · rw [hstep.reset_eq, h.reset_eq, h.step_eq, (Simulator.step_frame _ _).1]

/-- A lamp is added to the loaded latch, which stops the next step even if no round is made. After a
reset a power takes the name of the input and another one is added: it is the latter that stops the
next step, and the name of the former is no longer that of an input. -/
theorem edits_while_loaded_latch :
    let place (id : String) (kind : Kind) : Action := .edit (.addComponent { id := .text id, kind })
    let earlier := [.load, place "lamp" .output, .step]
    let since := [.step, .edit (.removeComponent (.text "set")), place "set" .power,
      place "spare" .power]
    let before := (ofCircuit latch 0).performAll earlier
    let bench := (before.perform .reset).bench.performAll since
    before.step.2 = .error (.noState (.text "lamp")) ∧ bench.sim.cycle = 1 ∧
      (∃ id, bench.step.2 = .error (.noState id)) ∧ bench.step.1.sim.cycle = 1 ∧
      before.circuit.Fails bench.circuit (.toggle (.text "set")) (.unknownInput (.text "set")) ∧
      bench.reset = ((ofCircuit bench.circuit 0).load.1, .ok ()) ∧
      bench.step.1.reset = bench.reset := by
  intro place earlier since before bench
  have hlatch : (ofCircuit latch 0).circuit.Searchable :=
    ⟨by decide +kernel, by decide +kernel, List.forall_mem_nil _, List.forall_mem_nil _⟩
  have hearlier : ∀ action ∈ earlier, action.Live := by
    simp [earlier, place, Action.Live, Edit.Searchable, Kind.isScalar]
  have hsince : ∀ action ∈ since, action.Live ∧ ¬ action.Loads := by
    simp [since, place, Action.Live, Action.Loads, Edit.Searchable, Kind.isScalar]
  obtain ⟨hstep, hfails, hreset, hagain⟩ :=
    edits_while_loaded hlatch hearlier (.inr ⟨rfl, List.mem_cons_self⟩) hsince
  have htoggle : (bench.perform (.toggle (.text "set"))).answer =
      .error (.unknownInput (.text "set")) := by decide +kernel
  exact ⟨by decide +kernel, by decide +kernel, hstep.2 (by decide +kernel), by decide +kernel,
    (hfails (.toggle (.text "set")) rfl _ htoggle).1, hreset, hagain⟩

end Bench

end Relay

end Switchyard
