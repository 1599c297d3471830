import Mathlib.Data.List.Find
import Switchyard.Proofs.Relay.Rounds
import Switchyard.Relay.Bench

/-!
# Steps do not depend on history

What a step of an unedited circuit tells depends on its inputs and the cap alone, whatever was
performed since the circuit was loaded. A step resets the nets, so only the states of the components
could carry something over (`Simulator.Loaded`). If a source is wired, the first round changes
something and erases what the relays were (`Scene.settle_alike`); if none is, or no round is made,
the relays never leave their rest (`Dormant`). Hence all loaded simulators with one cap and the same
inputs give one result (`Simulator.exists_result`). An operation that leaves the circuit as it is
sets inputs, loads it or makes a step (`Bench.perform_cases`), so that a simulator stays loaded
(`Bench.holds_of_reached`).
-/

namespace Switchyard.Relay

/-! ## Sources -/

/-- A kind that asserts a level at its output. -/
def Kind.IsSource (kind : Kind) : Prop :=
  kind = .power ∨ kind = .input

/-- A component has no source level exactly if it is no source. -/
theorem sourceLevel?_eq_none {inputs : List (Ident × Signal)} {component : Component} :
    sourceLevel? inputs component = none ↔ ¬ component.kind.IsSource := by
  unfold sourceLevel? Kind.IsSource
  split <;> simp_all

/-- A component with a source level is a source. -/
theorem isSource_of_sourceLevel? {inputs : List (Ident × Signal)} {component : Component}
    {level : Signal} (h : sourceLevel? inputs component = some level) :
    component.kind.IsSource := by
  by_contra hnot
  rw [sourceLevel?_eq_none.2 hnot] at h
  cases h

/-- Of the values of the inputs, those of the input components matter, and one that was never set is
low. -/
def SameInputs (circuit : Circuit) (a b : List (Ident × Signal)) : Prop :=
  ∀ c ∈ circuit.components, c.kind = .input →
    (Assoc.get? c.id a).getD .low = (Assoc.get? c.id b).getD .low

/-- The level of a source depends on the values of the inputs in the circuit only. -/
theorem SameInputs.sourceLevel?_eq {circuit : Circuit} {a b : List (Ident × Signal)}
    (h : SameInputs circuit a b) {c : Component} (hc : c ∈ circuit.components) :
    sourceLevel? a c = sourceLevel? b c := by
  unfold sourceLevel?
  split
  · rfl
  · next hkind => rw [h c hc hkind]
  · rfl

/-- On blank nets every terminal reads unknown. -/
theorem Netlist.Blank.signalAt {netlist : Netlist} (h : netlist.Blank) (t : Terminal) :
    netlist.signalAt t = .unknown := by
  rw [Netlist.signalAt]
  cases hnet : netlist.netAt? t with
  | none => rfl
  | some net =>
    obtain ⟨n, -, hfound⟩ := Option.bind_eq_some_iff.1 hnet
    have hreset : net.reset = net := h net (List.mem_of_find?_eq_some hfound)
    exact (congrArg Net.signal hreset).symm

section
variable {components : List Component} {inputs : List (Ident × Signal)} {netlist : Netlist}

/-- Sources of which none is wired change nothing. -/
theorem driveSources_unwired
    (h : ∀ c ∈ components, c.kind.IsSource → netlist.netAt? ⟨c.id, outPort⟩ = none) :
    driveSources inputs components netlist = (netlist, false) := by
  induction components with
  | nil => rfl
  | cons c rest ih =>
    have hhead : driveSource inputs netlist c = (netlist, false) := by
      unfold driveSource
      split
      · next level hlevel =>
        exact Netlist.drive_of_none (h c List.mem_cons_self (isSource_of_sourceLevel? hlevel))
      · rfl
    dsimp only [driveSources]
    rw [hhead, ih (fun d hd => h d (List.mem_cons_of_mem _ hd))]
    rfl

/-- A wired source changes a blank netlist. -/
theorem driveSources_wired (h : netlist.Coherent) (hblank : netlist.Blank)
    (hwired : ¬ ∀ c ∈ components, c.kind.IsSource → netlist.netAt? ⟨c.id, outPort⟩ = none) :
    (driveSources inputs components netlist).2 = true := by
  by_contra hquiet
  rw [Bool.not_eq_true] at hquiet
  push Not at hwired
  obtain ⟨c, hc, hsource, hnet⟩ := hwired
  obtain ⟨net, hnet⟩ := Option.ne_none_iff_exists'.1 hnet
  obtain ⟨level, hlevel⟩ := Option.ne_none_iff_exists'.1
    (fun hnone => sourceLevel?_eq_none.1 hnone hsource : sourceLevel? inputs c ≠ none)
  have hdriven := ((driveSources_quiet h hquiet).2 c hc level hlevel net hnet).2
  have hreset : net.reset = net := hblank net (h.netAt?_eq_some.1 hnet).1
  rw [← hreset] at hdriven
  cases hdriven

end

/-! ## Rest -/

namespace ComponentState

/-- The state of a component when its circuit is loaded. -/
def rest (component : Component) : ComponentState :=
  { closed := component.kind = .relayNc }

/-- A relay whose coil is not energized stays at rest. -/
theorem follow_rest {netlist : Netlist} {component : Component}
    (h : energized netlist component.id = false) :
    (rest component).follow netlist component = rest component := by
  cases hrelay : component.kind.isRelay with
  | false => exact follow_of_not_relay hrelay
  | true =>
    refine Alike.eq ⟨?_, ?_⟩ (ports_follow _ _ _)
    · rw [follow, if_pos hrelay]
      exact h
    · rw [closed_follow_relay hrelay, h]
      exact Bool.false_bne _

end ComponentState

/-- Where ids are distinct, the states at rest are one state at rest for each component. -/
theorem restStates_of {components : List Component} (hd : DistinctIds components) :
    Simulator.restStates components = States.of components .rest :=
  Assoc.foldl_put_new hd ComponentState.rest [] (fun _ _ _ h => absurd h List.not_mem_nil)

/-- Nothing passes a contact of blank nets, wherever the switches are. -/
theorem passContacts_blank {netlist : Netlist} (h : netlist.Blank) (states : States)
    (components : List Component) : passContacts states components netlist = (netlist, false) := by
  induction components with
  | nil => rfl
  | cons c rest ih =>
    have hhead : passContact states netlist c = (netlist, false) := by
      simp [passContact, pass, h.signalAt]
    dsimp only [passContacts]
    rw [hhead, ih]
    rfl

/-- No step can move a relay: it makes no round, or no source is wired. -/
def Dormant (cap : Int) (circuit : Circuit) : Prop :=
  cap ≤ 0 ∨ ∀ c ∈ circuit.components, c.kind.IsSource →
    (Netlist.ofWires circuit.wires).netAt? ⟨c.id, outPort⟩ = none

/-- Without a wired source a round from a blank netlist changes nothing. -/
theorem Scene.round_unwired {components : List Component} (hd : DistinctIds components)
    {inputs : List (Ident × Signal)} {netlist : Netlist} (hblank : netlist.Blank)
    (hwired : ∀ c ∈ components, c.kind.IsSource → netlist.netAt? ⟨c.id, outPort⟩ = none)
    {f : Component → ComponentState} (hf : ∀ c ∈ components, (f c).Alike (.rest c)) :
    Scene.round components inputs ⟨netlist, States.of components f⟩ =
      (⟨netlist, States.of components f⟩, false) := by
  have hfollow :
      States.of components (fun c => (f c).follow netlist c) = States.of components f := by
    refine States.of_eq_of_iff.2 (fun c hc => ?_)
    refine (ComponentState.follow_eq_iff_of_alike (hf c hc)).2 (ComponentState.follow_rest ?_)
    rw [energized, hblank.signalAt]
    rfl
  rw [Scene.round_of hd, driveSources_unwired hwired]
  dsimp only
  rw [hfollow, passContacts_blank hblank]
  simp

/-! ## Loaded simulators -/

/-- The rounds of a step: the scene they end in, their number, and whether they came to rest. -/
def Simulator.rounds (circuit : Circuit) (sim : Simulator) : Scene × Nat × Bool :=
  Scene.settle circuit.components sim.inputs sim.cap.toNat 0 ⟨sim.netlist.reset, sim.states⟩

/-- What every operation keeps of the state of a component: the levels at its ports are not read yet
or stand in the order of the ports, and its coil and switch are at rest if nothing can move them. -/
structure ComponentState.Tame (cap : Int) (circuit : Circuit) (component : Component)
    (state : ComponentState) : Prop where
  ports : state.ports = [] ∨ ∃ level : Ident → Signal,
    state.ports = component.ports.map (fun port => (port, level port))
  rest : component.kind.isRelay = false ∨ Dormant cap circuit → state.Alike (.rest component)

/-- Nets that are those of the wires but for their levels, and tame states, one for each component
in their order. -/
structure Scene.Lawful (cap : Int) (circuit : Circuit) (scene : Scene) : Prop where
  shape : scene.netlist.reset = Netlist.ofWires circuit.wires
  states : ∃ f, scene.states = States.of circuit.components f ∧
    ∀ c ∈ circuit.components, (f c).Tame cap circuit c

/-- Reading the ports of a state gives each port the level of its terminal, provided the state had
no ports or just these. -/
theorem ComponentState.readPorts_eq {state : ComponentState} {component : Component}
    (h : state.ports = [] ∨ ∃ level : Ident → Signal,
      state.ports = component.ports.map (fun port => (port, level port))) (netlist : Netlist) :
    state.readPorts netlist component = { state with
      ports := component.ports.map
        (fun port => (port, netlist.signalAt ⟨component.id, port⟩)) } := by
  have hd := component.kind.distinct_ports
  have hports : component.ports.foldl (fun ports port =>
      Assoc.put port (netlist.signalAt ⟨component.id, port⟩) ports) state.ports =
      component.ports.map (fun port => (port, netlist.signalAt ⟨component.id, port⟩)) := by
    rcases h with hnone | ⟨level, hsome⟩
    · rw [hnone]
      exact Assoc.foldl_put_new hd _ [] (fun _ _ _ h => absurd h List.not_mem_nil)
    · rw [hsome]
      exact Assoc.foldl_put_there hd _ level [] (fun _ _ _ h => absurd h List.not_mem_nil)
  rw [readPorts, hports]

namespace Scene

variable {cap : Int} {circuit : Circuit} {scene : Scene}

/-- Reading some of the ports keeps a scene lawful, so that an interrupted round leaves it so. -/
theorem Lawful.readPorts (h : scene.Lawful cap circuit) {netlist : Netlist}
    (hreset : netlist.reset = scene.netlist.reset) {some : List Component}
    (hsub : some.Sublist circuit.components) :
    Lawful cap circuit ⟨netlist, readPorts netlist some scene.states⟩ := by
  obtain ⟨f, hf, htame⟩ := h.states
  refine ⟨hreset.trans h.shape, _, (congrArg _ hf).trans
    (readPorts_of circuit.distinctIds netlist hsub), fun c hc => ?_⟩
  split
  · rw [ComponentState.readPorts_eq (htame c hc).ports]
    exact ⟨.inr ⟨_, rfl⟩, (htame c hc).rest⟩
  · exact htame c hc

/-- Rounds from the reset nets keep a scene lawful. -/
theorem Lawful.settle (h : scene.Lawful cap circuit) (inputs : List (Ident × Signal)) (fuel : Nat)
    (hfuel : cap ≤ 0 → fuel = 0) :
    Lawful cap circuit
      (Scene.settle circuit.components inputs fuel 0 ⟨scene.netlist.reset, scene.states⟩).1 := by
  obtain ⟨f, hf, htame⟩ := h.states
  have hd := circuit.distinctIds
  rw [h.shape, hf]
  by_cases hdormant : Dormant cap circuit
  · -- nothing moves: there is no round, or each leaves the scene as it is
    have hstill : (Scene.settle circuit.components inputs fuel 0
        ⟨Netlist.ofWires circuit.wires, States.of circuit.components f⟩).1 =
        ⟨Netlist.ofWires circuit.wires, States.of circuit.components f⟩ := by
      rcases hdormant with hcap | hwired
      · rw [hfuel hcap]
        rfl
      · refine settle_induction (P := fun scene =>
          scene = ⟨Netlist.ofWires circuit.wires, States.of circuit.components f⟩) ?_ _ _ _ rfl
        rintro _ rfl
        rw [round_unwired hd (Netlist.blank_ofWires _) hwired
          (fun c hc => (htame c hc).rest (.inr (.inr hwired)))]
    rw [hstill]
    exact ⟨(Netlist.blank_ofWires _).reset_eq, f, rfl, htame⟩
  · refine settle_induction (fun scene hlawful => ?_) _ _ _
      ⟨(Netlist.blank_ofWires _).reset_eq, f, rfl, htame⟩
    obtain ⟨hshape, g, hg, hgtame⟩ := hlawful
    obtain ⟨netlist, states⟩ := scene
    obtain rfl : states = States.of circuit.components g := hg
    refine ⟨(reset_round _ _ _).trans hshape, _,
      congrArg (fun next => next.1.states) (round_of hd inputs netlist g),
      fun c hc => ⟨?_, fun hrest => ?_⟩⟩
    · rw [ComponentState.ports_follow]
      exact (hgtame c hc).ports
    · rw [ComponentState.follow_of_not_relay (hrest.resolve_right hdormant)]
      exact (hgtame c hc).rest hrest

end Scene

namespace Simulator

variable {circuit : Circuit} {sim : Simulator}

/-- The circuit was loaded and not edited since. -/
def Loaded (circuit : Circuit) (sim : Simulator) : Prop :=
  Scene.Lawful sim.cap circuit ⟨sim.netlist, sim.states⟩

/-- The nets of a simulator are those of the wires of a circuit but for their levels, and its states
are those of the components, wherever coils and switches are. -/
structure Fits (circuit : Circuit) (sim : Simulator) : Prop where
  shape : sim.netlist.reset = Netlist.ofWires circuit.wires
  states : ∃ f, sim.states = States.of circuit.components f

/-- A simulator that has a circuit loaded fits it. -/
theorem Loaded.fits (h : sim.Loaded circuit) : sim.Fits circuit :=
  ⟨h.shape, h.states.imp (fun _ hf => hf.1)⟩

/-- Loading loads. -/
theorem loaded_load (cap : Int) (circuit : Circuit) : Loaded circuit (load cap circuit) where
  shape := (Netlist.blank_ofWires _).reset_eq
  states := ⟨.rest, restStates_of circuit.distinctIds, fun _ _ => ⟨.inl rfl, fun _ => ⟨rfl, rfl⟩⟩⟩

/-- A simulator that has a circuit loaded has a state for each of its components. -/
theorem Loaded.knows (h : sim.Loaded circuit) {c : Component} (hc : c ∈ circuit.components) :
    sim.knows c = true := by
  obtain ⟨f, hf, -⟩ := h.states
  rw [Simulator.knows, show sim.states = States.of circuit.components f from hf]
  exact States.has_of circuit.distinctIds hc

/-- Only a component of a kind that cannot be looked up stops a step. -/
theorem Loaded.obstacle?_eq (h : sim.Loaded circuit) :
    sim.obstacle? circuit = circuit.components.find? (!·.kind.isScalar) := by
  have hrelays : circuit.components.find? (fun c => c.kind.isRelay && !sim.knows c) = none :=
    List.find?_eq_none.2 (fun c hc => by simp [h.knows hc])
  have hunknown : circuit.components.find? (!sim.knows ·) = none :=
    List.find?_eq_none.2 (fun c hc => by simp [h.knows hc])
  have hunread : circuit.components.find? (!sim.canRead ·) =
      circuit.components.find? (!·.kind.isScalar) :=
    List.find?_congr (fun c hc => by rw [canRead, h.knows hc, Bool.true_and])
  rw [obstacle?, hrelays, hunknown, hunread]
  split <;> rfl

/-- An interrupted step leaves the circuit loaded. -/
theorem Loaded.interrupted (h : sim.Loaded circuit) : (sim.interrupted circuit).Loaded circuit := by
  have hall : circuit.components.all sim.knows = true :=
    List.all_eq_true.2 (fun c hc => h.knows hc)
  have hprefix := List.takeWhile_sublist sim.canRead (l := circuit.components)
  unfold Simulator.interrupted
  simp only [hall, if_true]
  split
  · exact Scene.Lawful.readPorts h
      ((Netlist.reset_ground _).trans (Netlist.reset_reset _)) hprefix
  · next hcap =>
    have hround := Scene.Lawful.settle h sim.inputs 1 (fun hle => absurd hle hcap)
    rw [Scene.settle_one] at hround
    exact Scene.Lawful.readPorts hround rfl hprefix

/-- A step changes neither the cap nor the values of the inputs. -/
theorem step_frame (circuit : Circuit) (sim : Simulator) :
    (sim.step circuit).1.cap = sim.cap ∧ (sim.step circuit).1.inputs = sim.inputs := by
  unfold Simulator.step Simulator.interrupted
  split
  · dsimp only
    split_ifs <;> exact ⟨rfl, rfl⟩
  · exact ⟨rfl, rfl⟩

/-- A step changes nothing of the nets but their levels, also one that is stopped. -/
theorem reset_step (circuit : Circuit) (sim : Simulator) :
    (sim.step circuit).1.netlist.reset = sim.netlist.reset := by
  unfold Simulator.step Simulator.interrupted
  split
  · dsimp only
    split_ifs
    · exact (Netlist.reset_ground _).trans (Netlist.reset_reset _)
    · exact (Scene.reset_round _ _ _).trans (Netlist.reset_reset _)
    · exact (reset_driveSources _ _ _).trans (Netlist.reset_reset _)
    · exact (reset_driveSources _ _ _).trans (Netlist.reset_reset _)
  · exact (Netlist.reset_ground _).trans
      ((Scene.reset_settle _ _ _ _ _).trans (Netlist.reset_reset _))

/-- A step keeps a simulator loaded, also one that is stopped. -/
theorem Loaded.step (h : sim.Loaded circuit) : (sim.step circuit).1.Loaded circuit := by
  unfold Simulator.step
  split
  · exact h.interrupted
  · exact Scene.Lawful.readPorts
      (Scene.Lawful.settle h sim.inputs sim.cap.toNat Int.toNat_of_nonpos)
      (Netlist.reset_ground _) (List.Sublist.refl _)

/-- All loaded simulators with one cap and the same inputs give one result of a step. -/
theorem exists_result (cap : Int) (circuit : Circuit) (inputs : List (Ident × Signal)) :
    ∃ result : StepResult, ∀ sim : Simulator, sim.Loaded circuit → sim.cap = cap →
      SameInputs circuit sim.inputs inputs → (sim.completeStep circuit).2 = result := by
  have hd := circuit.distinctIds
  obtain ⟨final, count, flag, g, hsettle⟩ := Scene.settle_alike hd inputs cap.toNat 0
    (Netlist.ofWires circuit.wires) ComponentState.rest
  let states := States.of circuit.components (fun c => { g c with
    ports := c.ports.map (fun port => (port, final.ground.signalAt ⟨c.id, port⟩)) })
  refine ⟨{ converged := flag, iterations := count, states
            wires := Assoc.ofPairs
              (circuit.wires.map (fun w => (w.id, wireSignal final.ground w.id)))
            error := if flag then none else some (unsettledMessage count) }, ?_⟩
  rintro sim ⟨hshape, f, hf, htame⟩ rfl hin
  have hshape' : sim.netlist.reset = Netlist.ofWires circuit.wires := hshape
  have hf' : sim.states = States.of circuit.components f := hf
  have hblank := Netlist.blank_ofWires circuit.wires
  have hcoherent := (Netlist.represents_ofWires circuit.wires).coherent
  -- the state of a relay that may have moved is erased by the sources, which change something
  have hstart : ∀ c ∈ circuit.components, (ComponentState.rest c).Alike (f c) ∨
      0 < sim.cap.toNat ∧ c.kind.isRelay = true ∧
        (driveSources inputs circuit.components (Netlist.ofWires circuit.wires)).2 = true := by
    intro c hc
    by_cases hrest : c.kind.isRelay = false ∨ Dormant sim.cap circuit
    · have halike := (htame c hc).rest hrest
      exact .inl ⟨halike.1.symm, halike.2.symm⟩
    · rw [Dormant, not_or, not_or, Bool.not_eq_false] at hrest
      obtain ⟨hrelay, hcap, hwired⟩ := hrest
      exact .inr ⟨by omega, hrelay, driveSources_wired hcoherent hblank hwired⟩
  have hports : readPorts final.ground circuit.components
      (States.of circuit.components (fun c => { g c with ports := (f c).ports })) = states := by
    rw [readPorts_of hd _ (List.Sublist.refl _), States.of_eq_of_iff]
    intro c hc
    rw [if_pos hc]
    exact @ComponentState.readPorts_eq { g c with ports := (f c).ports } c (htame c hc).ports _
  rw [completeStep, hshape', hf', Scene.settle_congr (fun c hc => hin.sourceLevel?_eq hc),
    hsettle f hstart]
  dsimp only
  rw [hports]

/-- The outcomes of steps under one cap with the same inputs are the same. -/
theorem Loaded.step_eq {a b : Simulator} (ha : a.Loaded circuit) (hb : b.Loaded circuit)
    (hcap : a.cap = b.cap) (hin : SameInputs circuit a.inputs b.inputs) :
    (a.step circuit).2 = (b.step circuit).2 := by
  obtain ⟨result, hresult⟩ := exists_result b.cap circuit b.inputs
  have hcomplete : (a.completeStep circuit).2 = (b.completeStep circuit).2 :=
    (hresult a ha hcap hin).trans (hresult b hb rfl (fun _ _ _ => rfl)).symm
  have hobstacle : a.obstacle? circuit = b.obstacle? circuit :=
    ha.obstacle?_eq.trans hb.obstacle?_eq.symm
  unfold Simulator.step
  rw [hobstacle]
  cases hfound : b.obstacle? circuit with
  | some component =>
    rw [hb.obstacle?_eq] at hfound
    have hc := List.mem_of_find?_eq_some hfound
    dsimp only
    rw [obstacleFault, obstacleFault, ha.knows hc, hb.knows hc]
  | none =>
    dsimp only
    rw [hcomplete]

/-- A step without a component that stops it gives a result, if the wires can be looked up. -/
theorem step_eq_ok_iff {result : StepResult} :
    (sim.step circuit).2 = .ok result ↔ sim.obstacle? circuit = none ∧
      circuit.wires.all (·.id.isScalar) = true ∧ (sim.completeStep circuit).2 = result := by
  unfold Simulator.step
  cases sim.obstacle? circuit with
  | some component => simp
  | none =>
    dsimp only
    split <;> simp_all

/-- A step that gives a result has made its rounds, pulled the idle nets low and read the ports. -/
theorem step_of_ok {result : StepResult} (hresult : (sim.step circuit).2 = .ok result) :
    (sim.step circuit).1.netlist = (sim.rounds circuit).1.netlist.ground ∧
      (sim.step circuit).1.states = readPorts (sim.rounds circuit).1.netlist.ground
        circuit.components (sim.rounds circuit).1.states ∧
      result.states = (sim.step circuit).1.states ∧
      result.iterations = (sim.rounds circuit).2.1 ∧
      result.converged = (sim.rounds circuit).2.2 := by
  obtain ⟨hobstacle, -, rfl⟩ := step_eq_ok_iff.1 hresult
  rw [Simulator.step, hobstacle]
  exact ⟨rfl, rfl, rfl, rfl, rfl⟩

/-- A step that converges has the same outcome under a greater cap. -/
theorem Loaded.step_eq_of_le {a b : Simulator} (ha : a.Loaded circuit) (hb : b.Loaded circuit)
    (hcap : a.cap ≤ b.cap) (hin : SameInputs circuit a.inputs b.inputs) {result : StepResult}
    (hresult : (a.step circuit).2 = .ok result) (hconverged : result.converged = true) :
    (b.step circuit).2 = .ok result := by
  obtain ⟨hobstacle, hwires, rfl⟩ := step_eq_ok_iff.1 hresult
  have hsettle : (a.rounds circuit).2.2 = true := hconverged
  have hpos : 0 < a.cap := by
    by_contra hle
    rw [rounds, Int.toNat_of_nonpos (by omega)] at hsettle
    cases hsettle
  -- the same simulator under the other cap
  let raised : Simulator := { a with cap := b.cap }
  have hraised : raised.Loaded circuit := by
    obtain ⟨hshape, f, hf, htame⟩ := ha
    refine ⟨hshape, f, hf, fun c hc => ⟨(htame c hc).ports, fun hrest => ?_⟩⟩
    refine (htame c hc).rest (hrest.imp_right (fun hdormant => .inr ?_))
    exact hdormant.resolve_left (not_le.2 (lt_of_lt_of_le hpos hcap))
  have hsame : (raised.completeStep circuit).2 = (a.completeStep circuit).2 := by
    have hle : a.cap.toNat ≤ b.cap.toNat := by omega
    have heq := Scene.settle_of_le hle hsettle
    dsimp only [completeStep, raised]
    rw [heq]
  rw [← hraised.step_eq hb rfl hin]
  exact step_eq_ok_iff.2 ⟨hraised.obstacle?_eq.trans (ha.obstacle?_eq.symm.trans hobstacle), hwires,
    hsame⟩

/-- A step that comes to rest ends where the sources find their levels on their nets, the relays are
where the nets want them, and the closed contacts are balanced. -/
theorem Fits.rounds_quiet (h : sim.Fits circuit) (hq : (sim.rounds circuit).2.2 = true) :
    ∃ (final : Netlist) (g : Component → ComponentState),
      (sim.rounds circuit).1 = ⟨final, States.of circuit.components g⟩ ∧
      final.reset = Netlist.ofWires circuit.wires ∧
      Sourced sim.inputs circuit.components final ∧
      (∀ c ∈ circuit.components, (g c).follow final c = g c) ∧
      ∀ c ∈ circuit.components, c.kind.isRelay = true → (g c).closed = true →
        Balanced final c.id := by
  obtain ⟨hshape, f, hf⟩ := h
  have hd := circuit.distinctIds
  have hcoherent := (Netlist.represents_ofWires circuit.wires).coherent
  rw [rounds, hshape, hf] at hq ⊢
  obtain ⟨final, g, hfinal, hreset, hquiet⟩ := Scene.settle_quiet hd hcoherent hq
  rw [(Netlist.blank_ofWires _).reset_eq] at hreset
  have hfinalCoherent : final.Coherent := Netlist.coherent_of_reset (hreset ▸ hcoherent)
  obtain ⟨-, hrest⟩ := Scene.round_quiet hd hfinalCoherent hquiet
  exact ⟨final, g, hfinal, hreset, hrest⟩

/-! ## Inputs -/

/-- Setting an input is refused by every simulator, or sets one and the same component. -/
theorem setInput_cases (circuit : Circuit) (id : Ident) (value : Json) :
    (∃ fault, ∀ sim : Simulator, sim.setInput circuit id value = .error fault) ∨
    ∃ component level, resolve circuit id = .ok (some component) ∧
      Signal.ofJson? value = some level ∧
      ∀ sim : Simulator, sim.setInput circuit id value =
        .ok { sim with inputs := Assoc.put component level sim.inputs } := by
  unfold setInput
  cases resolve circuit id with
  | error fault => exact .inl ⟨fault, fun _ => rfl⟩
  | ok found =>
    dsimp only [bind, Except.bind]
    split
    · exact .inl ⟨_, fun _ => rfl⟩
    · exact .inl ⟨_, fun _ => rfl⟩
    · next component _ =>
      split
      · exact .inl ⟨_, fun _ => rfl⟩
      · next level hlevel =>
        cases hscalar : requireScalar component with
        | error fault => exact .inl ⟨fault, fun _ => rfl⟩
        | ok _ => exact .inr ⟨component, level, rfl, hlevel, fun _ => rfl⟩

/-- Setting an input changes the inputs only. -/
theorem setInput_eq_ok {id : Ident} {value : Json} {next : Simulator}
    (h : sim.setInput circuit id value = .ok next) : ∃ inputs, next = { sim with inputs } := by
  rcases setInput_cases circuit id value with
    ⟨fault, hrefused⟩ | ⟨component, level, -, -, hset⟩
  · rw [hrefused] at h
    cases h
  · rw [hset] at h
    cases h
    exact ⟨_, rfl⟩

/-- Turning an input over sets it. -/
theorem setInput_of_toggle {id : Ident} {next : Simulator} (h : sim.toggle circuit id = .ok next) :
    ∃ value, sim.setInput circuit id value = .ok next := by
  unfold toggle at h
  cases hlevel : sim.getInput circuit id with
  | error fault =>
    rw [hlevel] at h
    cases h
  | ok level =>
    rw [hlevel] at h
    exact ⟨_, h⟩

/-- Setting several inputs changes the inputs only, also if one of them is refused. -/
theorem setInputs_eq (circuit : Circuit) : ∀ (values : List (Ident × Json)) (sim : Simulator),
    ∃ inputs, (sim.setInputs circuit values).1 = { sim with inputs }
  | [], sim => ⟨sim.inputs, rfl⟩
  | (id, value) :: rest, sim => by
    rw [setInputs]
    split
    · next next hnext =>
      obtain ⟨inputs, rfl⟩ := setInput_eq_ok hnext
      exact setInputs_eq circuit rest _
    · exact ⟨sim.inputs, rfl⟩

/-- Loading a circuit either succeeds whatever was loaded before or is refused. -/
theorem reload_eq_ok (h : (sim.reload circuit).2 = .ok ()) (other : Simulator) :
    other.reload circuit = (load other.cap circuit, .ok ()) := by
  unfold reload at h ⊢
  dsimp only at h ⊢
  split at h
  · cases h
  · next hwires =>
    split at h
    · cases h
    · next hinputs => rw [if_neg hwires, if_neg hinputs]

/-- The wires of a circuit that can be loaded can be looked up. -/
theorem wires_of_reload_ok (h : (sim.reload circuit).2 = .ok ()) :
    circuit.wires.all (·.id.isScalar) = true := by
  unfold reload at h
  dsimp only at h
  split at h
  · cases h
  · next hwires =>
    rw [Bool.not_eq_true', Bool.not_eq_false] at hwires
    refine List.all_eq_true.2 (fun wire hwire => ?_)
    have hscalar := List.all_eq_true.1 hwires wire hwire
    rw [Wire.isScalar, Bool.and_eq_true, Bool.and_eq_true] at hscalar
    exact hscalar.1.1

end Simulator

/-! ## Operations -/

/-- An operation that leaves the circuit on the bench as it is. -/
def Action.KeepsCircuit : Action → Prop
  | .edit _ | .replace _ => False
  | _ => True

namespace Bench

/-- A rejected operation leaves the bench as it was. -/
theorem bench_rejected (bench : Bench) (answer : Answer) (rejection : Rejection) :
    (bench.rejected answer rejection).bench = bench := by
  unfold rejected
  split <;> rfl

/-- An edit changes the circuit alone, and leaves it as it is if it is rejected. -/
theorem bench_performEdit (bench : Bench) (edit : Edit) :
    (bench.performEdit edit).bench = { bench with circuit := bench.circuit.edit edit } := by
  cases edit with
  | addComponent component =>
    rw [performEdit, Circuit.edit]
    cases bench.circuit.addComponent component with
    | ok next => rfl
    | error rejection => exact bench_rejected bench _ rejection
  | addWire wire =>
    rw [performEdit, Circuit.edit]
    cases bench.circuit.addWire wire with
    | ok next => rfl
    | error rejection => exact bench_rejected bench _ rejection
  | removeComponent | removeWire | addInput | addOutput | clear => rfl

/-- A step on a bench is a step of the simulator in the circuit that it has loaded. -/
theorem step_of_loaded {bench : Bench} {circuit : Circuit} (h : bench.loaded? = some circuit) :
    bench.step =
      ({ bench with sim := (bench.sim.step circuit).1 }, (bench.sim.step circuit).2) := by
  rw [Bench.step, h]

/-- What an operation does that leaves the circuit as it is: it sets inputs, or nothing at all; it
loads a circuit; or it makes a step of the loaded one, inputs being set before. -/
theorem perform_cases (bench : Bench) {action : Action} (hkeep : action.KeepsCircuit) :
    (∃ inputs, (bench.perform action).bench =
      { bench with sim := { bench.sim with inputs } }) ∨
    action = .load ∨ action = .reset ∨
    ∃ circuit inputs, bench.loaded? = some circuit ∧ (bench.perform action).bench =
      { bench with sim := (Simulator.step circuit { bench.sim with inputs }).1 } := by
  have hsettled : ∀ {outcome : Except Fault Simulator},
      (∀ sim, outcome = .ok sim → ∃ inputs, sim = { bench.sim with inputs }) →
      ∃ inputs, (bench.settled (outcome.map ({ bench with sim := · }))).bench =
        { bench with sim := { bench.sim with inputs } } := by
    intro outcome houtcome
    cases outcome with
    | error fault => exact ⟨_, rfl⟩
    | ok sim =>
      obtain ⟨inputs, rfl⟩ := houtcome sim rfl
      exact ⟨inputs, rfl⟩
  cases action with
  | edit | replace => exact hkeep.elim
  | getWire | dump | inspect | resolve | getInput | getOutput | state | states | nets =>
    exact .inl ⟨_, rfl⟩
  | load => exact .inr (.inl rfl)
  | reset => exact .inr (.inr (.inl rfl))
  | setInput id value =>
    rw [perform, Bench.setInput]
    split
    · exact .inl ⟨_, rfl⟩
    · exact .inl (hsettled (fun _ => Simulator.setInput_eq_ok))
  | toggle id =>
    rw [perform, Bench.toggle]
    split
    · cases requireScalar id <;> exact .inl ⟨_, rfl⟩
    · refine .inl (hsettled (fun _ htoggle => ?_))
      obtain ⟨value, hset⟩ := Simulator.setInput_of_toggle htoggle
      exact Simulator.setInput_eq_ok hset
  | step =>
    cases hloaded : bench.loaded? with
    | none =>
      have hstep : bench.step.1 = bench := by rw [Bench.step, hloaded]
      exact .inl ⟨_, hstep⟩
    | some circuit =>
      exact .inr (.inr (.inr ⟨circuit, _, rfl, congrArg Prod.fst (step_of_loaded hloaded)⟩))
  | run inputs =>
    change (∃ values, (bench.run inputs).1 = _) ∨ _ ∨ _ ∨
      ∃ circuit values, _ ∧ (bench.run inputs).1 = _
    unfold Bench.run
    split
    · cases inputs <;> exact .inl ⟨_, rfl⟩
    · next circuit hloaded =>
      obtain ⟨values, hvalues⟩ := Simulator.setInputs_eq circuit inputs bench.sim
      dsimp only
      rw [hvalues]
      split
      · exact .inl ⟨values, rfl⟩
      · exact .inr (.inr (.inr ⟨circuit, values, hloaded, rfl⟩))

/-- What settings of inputs, loadings and steps keep of a simulator, all operations keep. -/
theorem sim_performAll {P : Simulator → Prop}
    (hinputs : ∀ (sim : Simulator) inputs, P sim → P { sim with inputs })
    (hreload : ∀ (sim : Simulator) circuit, P sim → P (sim.reload circuit).1)
    (hstep : ∀ (sim : Simulator) circuit, P sim → P (sim.step circuit).1) {bench : Bench}
    (h : P bench.sim) (actions : List Action) : P (bench.performAll actions).sim := by
  have hnext : ∀ {bench : Bench} (action : Action), P bench.sim →
      P (bench.perform action).bench.sim := by
    intro bench action h
    by_cases hkeep : action.KeepsCircuit
    · rcases perform_cases bench hkeep with
        ⟨inputs, hnext⟩ | rfl | rfl | ⟨circuit, inputs, -, hnext⟩
      · rw [hnext]
        exact hinputs _ inputs h
      · exact hreload _ _ h
      · rw [perform, Bench.reset]
        split
        · exact hreload _ _ h
        · exact h
      · rw [hnext]
        exact hstep _ circuit (hinputs _ inputs h)
    · cases action with
      | edit edit =>
        rw [perform, bench_performEdit]
        exact h
      | replace => exact h
      | _ => exact absurd trivial hkeep
  induction actions generalizing bench with
  | nil => exact h
  | cons action actions ih => exact ih (hnext action h)

/-- What is attached to the circuit on the bench loads this circuit when it is reset. -/
theorem reset_eq_load {bench : Bench} (h : bench.attached = .current) :
    bench.reset = bench.load := by
  have hloaded : bench.loaded? = some bench.circuit := by rw [Bench.loaded?, h]
  rw [Bench.reset, hloaded, Bench.load, ← h]

/-- The benches that can be reached from a loading of a circuit by operations that do not edit it,
whether refused or not, under a cap on rounds. -/
inductive Reached (circuit : Circuit) (cap : Int) : Bench → Prop
  | load {bench : Bench} : bench.circuit = circuit → bench.sim.cap = cap →
      bench.load.2 = .ok () → Reached circuit cap bench.load.1
  | perform {bench : Bench} {action : Action} : Reached circuit cap bench → action.KeepsCircuit →
      Reached circuit cap (bench.perform action).bench

/-- What holds of a bench from a loading of its circuit on. -/
structure Holds (circuit : Circuit) (cap : Int) (bench : Bench) : Prop where
  circuit_eq : bench.circuit = circuit
  attached : bench.attached = .current
  cap_eq : bench.sim.cap = cap
  loaded : bench.sim.Loaded circuit
  loadable : ∃ sim : Simulator, (sim.reload circuit).2 = .ok ()

/-- A bench with a circuit that was just loaded. -/
def fresh (circuit : Circuit) (cap : Int) : Bench where
  circuit := circuit
  attached := .current
  sim := Simulator.load cap circuit

/-- A fresh bench with a circuit that can be loaded holds it. -/
theorem holds_fresh {circuit : Circuit} {cap : Int}
    (h : ∃ sim : Simulator, (sim.reload circuit).2 = .ok ()) :
    (fresh circuit cap).Holds circuit cap :=
  ⟨rfl, rfl, rfl, Simulator.loaded_load cap circuit, h⟩

/-- Loading forgets what was loaded before. -/
theorem load_eq_fresh {circuit : Circuit} {cap : Int} {bench : Bench}
    (hcircuit : bench.circuit = circuit) (hcap : bench.sim.cap = cap) {sim : Simulator}
    (hreload : (sim.reload circuit).2 = .ok ()) : bench.load = (fresh circuit cap, .ok ()) := by
  rw [Bench.load, hcircuit, Simulator.reload_eq_ok hreload bench.sim, hcap]
  rfl

namespace Holds

variable {circuit : Circuit} {cap : Int} {bench : Bench} (h : bench.Holds circuit cap)
include h

/-- A bench that holds a circuit has that circuit loaded. -/
theorem loaded?_eq : bench.loaded? = some circuit := by
  rw [Bench.loaded?, h.attached, h.circuit_eq]

/-- Operations that only set inputs keep what holds. -/
theorem withInputs (inputs : List (Ident × Signal)) :
    Holds circuit cap { bench with sim := { bench.sim with inputs } } :=
  ⟨h.circuit_eq, h.attached, h.cap_eq, h.loaded, h.loadable⟩

/-- A bench that holds a circuit holds it after a step. -/
theorem withStep : Holds circuit cap { bench with sim := (bench.sim.step circuit).1 } :=
  ⟨h.circuit_eq, h.attached, (Simulator.step_frame _ _).1.trans h.cap_eq, h.loaded.step, h.loadable⟩

/-- A bench that holds a circuit steps as its simulator does. -/
theorem step_eq : bench.step =
    ({ bench with sim := (bench.sim.step circuit).1 }, (bench.sim.step circuit).2) :=
  step_of_loaded h.loaded?_eq

/-- A step gives a result if and only if the kinds of all components can be looked up. -/
theorem step_ok_iff : (∃ result, bench.step.2 = .ok result) ↔
    circuit.components.all (·.kind.isScalar) = true := by
  obtain ⟨sim, hsim⟩ := h.loadable
  have hwires := Simulator.wires_of_reload_ok hsim
  have hobstacle : bench.sim.obstacle? circuit = none ↔
      circuit.components.all (·.kind.isScalar) = true := by
    rw [h.loaded.obstacle?_eq, List.find?_eq_none, List.all_eq_true]
    simp
  rw [h.step_eq, ← hobstacle]
  constructor
  · rintro ⟨result, hresult⟩
    exact (Simulator.step_eq_ok_iff.1 hresult).1
  · intro hnone
    exact ⟨_, Simulator.step_eq_ok_iff.2 ⟨hnone, hwires, rfl⟩⟩

/-- Loading such a bench again makes it a fresh one. -/
theorem load_eq : bench.load = (fresh circuit cap, .ok ()) := by
  obtain ⟨sim, hsim⟩ := h.loadable
  exact load_eq_fresh h.circuit_eq h.cap_eq hsim

/-- Resetting loads the circuit again. -/
theorem reset_eq : bench.reset = (fresh circuit cap, .ok ()) := by
  exact (reset_eq_load h.attached).trans h.load_eq

/-- Every operation that leaves the circuit as it is keeps what holds. -/
theorem perform {action : Action} (hkeep : action.KeepsCircuit) :
    Holds circuit cap (bench.perform action).bench := by
  rcases perform_cases bench hkeep with
    ⟨inputs, hnext⟩ | rfl | rfl | ⟨loaded, inputs, hloaded, hnext⟩
  · rw [hnext]
    exact h.withInputs inputs
  · rw [Bench.perform, h.load_eq]
    exact holds_fresh h.loadable
  · rw [Bench.perform, h.reset_eq]
    exact holds_fresh h.loadable
  · obtain rfl : loaded = circuit := Option.some.inj (hloaded.symm.trans h.loaded?_eq)
    rw [hnext]
    exact (h.withInputs inputs).withStep

end Holds

/-- What holds from a loading on holds of every bench that can be reached. -/
theorem holds_of_reached {circuit : Circuit} {cap : Int} {bench : Bench}
    (h : Reached circuit cap bench) : bench.Holds circuit cap := by
  induction h with
  | @load start hcircuit hcap hload =>
    have hreload : (start.sim.reload circuit).2 = .ok () := by
      rw [← hcircuit]
      exact hload
    rw [load_eq_fresh hcircuit hcap hreload]
    exact holds_fresh ⟨start.sim, hreload⟩
  | perform _ hkeep ih => exact ih.perform hkeep

/-- The outcome of a step depends on the inputs and the cap alone: it is the same on every bench
reached with the same inputs, again after the step, and for the circuit freshly loaded; it is a
result if the kinds of all components can be looked up; and a result that converged is the outcome
under every greater cap. -/
theorem step_independent_of_history {circuit : Circuit} {cap : Int} {bench : Bench}
    (h : Reached circuit cap bench) :
    (∀ other, Reached circuit cap other →
      SameInputs circuit bench.sim.inputs other.sim.inputs → other.step.2 = bench.step.2) ∧
    bench.step.1.step.2 = bench.step.2 ∧
    (Simulator.step circuit { Simulator.load cap circuit with inputs := bench.sim.inputs }).2 =
      bench.step.2 ∧
    ((∃ result, bench.step.2 = .ok result) ↔
      circuit.components.all (·.kind.isScalar) = true) ∧
    ∀ result, bench.step.2 = .ok result → result.converged = true →
      ∀ more, cap ≤ more → ∀ other, Reached circuit more other →
        SameInputs circuit bench.sim.inputs other.sim.inputs → other.step.2 = .ok result := by
  have hb := holds_of_reached h
  have hsame : ∀ other, Holds circuit cap other →
      SameInputs circuit bench.sim.inputs other.sim.inputs → other.step.2 = bench.step.2 := by
    intro other ho hin
    rw [ho.step_eq, hb.step_eq]
    exact (hb.loaded.step_eq ho.loaded (hb.cap_eq.trans ho.cap_eq.symm) hin).symm
  have hfresh : Holds circuit cap { bench with
      sim := { Simulator.load cap circuit with inputs := bench.sim.inputs } } :=
    ⟨hb.circuit_eq, hb.attached, rfl, Simulator.loaded_load cap circuit, hb.loadable⟩
  refine ⟨fun other ho => hsame other (holds_of_reached ho), ?_, ?_, hb.step_ok_iff, ?_⟩
  · have hnext : bench.step.1 = { bench with sim := (bench.sim.step circuit).1 } :=
      congrArg Prod.fst hb.step_eq
    rw [hnext]
    refine hsame _ hb.withStep ?_
    rw [(Simulator.step_frame circuit bench.sim).2]
    exact fun _ _ _ => rfl
  · have hstep := hsame _ hfresh (fun _ _ _ => rfl)
    rwa [hfresh.step_eq] at hstep
  · intro result hresult hconverged more hle other ho hin
    have hother := holds_of_reached ho
    rw [hb.step_eq] at hresult
    rw [hother.step_eq]
    refine hb.loaded.step_eq_of_le hother.loaded ?_ hin hresult hconverged
    rw [hb.cap_eq, hother.cap_eq]
    exact hle

/-- A relay that feeds its own coil from the power, with a second one that can start it. -/
def latch : Circuit where
  placed := [⟨.text "vcc", .power, .zero false, .zero false, .int 0, .null⟩,
    ⟨.text "set", .input, .zero false, .zero false, .int 0, .null⟩,
    ⟨.text "start", .relayNo, .zero false, .zero false, .int 0, .null⟩,
    ⟨.text "hold", .relayNo, .zero false, .zero false, .int 0, .null⟩].foldl Placement.put {}
  wires := [⟨.text "w1", ⟨.text "vcc", outPort⟩, ⟨.text "start", contactIn⟩⟩,
    ⟨.text "w2", ⟨.text "set", outPort⟩, ⟨.text "start", coilIn⟩⟩,
    ⟨.text "w3", ⟨.text "start", contactOut⟩, ⟨.text "hold", coilIn⟩⟩,
    ⟨.text "w4", ⟨.text "vcc", outPort⟩, ⟨.text "hold", contactIn⟩⟩,
    ⟨.text "w5", ⟨.text "hold", contactOut⟩, ⟨.text "hold", coilIn⟩⟩]

/-- A latch that was set in an earlier step does not hold over a step with its input low, which is
the step of the loaded latch, under a greater cap too. -/
theorem step_latch_released :
    let loaded := (ofCircuit latch 10).load.1
    let released := loaded.performAll
      [.setInput (.text "set") (.int 1), .step, .setInput (.text "set") (.int 0)]
    let raised := (ofCircuit latch 1000).load.1
    Reached latch 10 loaded ∧ Reached latch 10 released ∧ Reached latch 1000 raised ∧
      released.sim.states ≠ loaded.sim.states ∧ released.step.2 = loaded.step.2 ∧
      raised.step.2 = loaded.step.2 := by
  intro loaded released raised
  have hloaded : Reached latch 10 loaded := .load rfl rfl (by decide +kernel)
  have hreleased : Reached latch 10 released :=
    .perform (.perform (.perform hloaded trivial) trivial) trivial
  have hraised : Reached latch 1000 raised := .load rfl rfl (by decide +kernel)
  have hsame : SameInputs latch loaded.sim.inputs released.sim.inputs := by
    unfold SameInputs
    decide +kernel
  have hraisedSame : SameInputs latch loaded.sim.inputs raised.sim.inputs := by
    unfold SameInputs
    decide +kernel
  have hstep := step_independent_of_history hloaded
  obtain ⟨result, hresult⟩ := hstep.2.2.2.1.2 (by decide +kernel)
  have hconverged : result.converged = true := by
    have hsome : loaded.step.2.toOption.map (·.converged) = some true := by decide +kernel
    rw [hresult] at hsome
    exact Option.some.inj hsome
  refine ⟨hloaded, hreleased, hraised, by decide +kernel, hstep.1 released hreleased hsame, ?_⟩
  rw [hresult]
  exact hstep.2.2.2.2 result hresult hconverged 1000 (by decide) raised hraised hraisedSame

end Bench

end Switchyard.Relay
