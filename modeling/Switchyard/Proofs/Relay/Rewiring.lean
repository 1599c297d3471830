import Switchyard.Proofs.Relay.Agreement
import Switchyard.Proofs.Relay.Editing
import Switchyard.Proofs.Relay.History
import Switchyard.Proofs.Outcomes

/-!
# Only connectivity matters

Two lists of wires that end on the same terminals and link the same of them (`SameConnectivity`)
give netlists that agree everywhere, whatever the order, direction, names and number of the wires
(`agree_ofWires`). Every phase of a round then does the same in both (`Scene.round_agree`), and so
does every operation of the simulator: circuits that differ in no more than that are
indistinguishable by operating them (`Bench.rewired_performAll`). This is a bisimulation; the second
bench is at each time the first one with another circuit and other nets (`Bench.Twin`).
-/

namespace Switchyard.Relay

/-- Two lists of wires end on the same terminals and link the same of them. -/
structure SameConnectivity (wires others : List Wire) : Prop where
  ends : ∀ t, IsEnd wires t ↔ IsEnd others t
  links : ∀ t u, IsEnd wires t → IsEnd wires u → (Linked wires t u ↔ Linked others t u)

/-- The set of all terminals. -/
def Everywhere (_ : Terminal) : Prop := True

open Netlist (Agree Joins ofWires)

namespace SameConnectivity

variable {wires others : List Wire}

/-- Wires of the same connectivity give netlists that agree on every terminal. -/
theorem agree_ofWires (h : SameConnectivity wires others) :
    Agree Everywhere (ofWires wires) (ofWires others) := by
  have ha := Netlist.represents_ofWires wires
  have hb := Netlist.represents_ofWires others
  refine Netlist.agree_of_blank ha.coherent hb.coherent (Netlist.blank_ofWires _)
    (Netlist.blank_ofWires _) (fun t u _ _ => ?_)
  constructor
  · intro hj
    obtain ⟨ht, hlinked⟩ := ha.joins_iff.1 hj
    have hu := (ha.joins_iff.1 hj.symm).1
    exact hb.joins_iff.2 ⟨(h.ends t).1 ht, (h.links t u ht hu).1 hlinked⟩
  · intro hj
    obtain ⟨ht, hlinked⟩ := hb.joins_iff.1 hj
    have hu := (hb.joins_iff.1 hj.symm).1
    have ht' := (h.ends t).2 ht
    exact ha.joins_iff.2 ⟨ht', (h.links t u ht' ((h.ends u).2 hu)).2 hlinked⟩

/-- What the nets of one list join, every chain of wires between such joins links. -/
theorem isEnd_and_linked_of_joins
    (h : ∀ wire ∈ wires, (ofWires others).Joins wire.source wire.target) :
    (∀ t, IsEnd wires t → IsEnd others t) ∧
      ∀ t u, Linked wires t u → Linked others t u := by
  have hr := Netlist.represents_ofWires others
  constructor
  · rintro t ⟨wire, hw, hs | ht⟩
    · exact (hr.joins_iff.1 (h wire hw)).1.congr hs
    · exact (hr.joins_iff.1 (h wire hw).symm).1.congr ht
  · intro t u hlinked
    induction hlinked with
    | rel t u hwired =>
      obtain ⟨wire, hw, hs, ht⟩ := hwired
      obtain ⟨hsource, hlink⟩ := hr.joins_iff.1 (h wire hw)
      have htarget := (hr.joins_iff.1 (h wire hw).symm).1
      exact (Linked.of_beq hs hsource).symm.trans (hlink.trans (.of_beq ht htarget))
    | refl => exact .refl _
    | symm _ _ _ ih => exact ih.symm
    | trans _ _ _ _ _ ih ih' => exact ih.trans ih'

/-- Two lists connect alike if the nets of each join the ends of the wires of the other. -/
theorem of_joins (h : ∀ wire ∈ wires, (ofWires others).Joins wire.source wire.target)
    (h' : ∀ wire ∈ others, (ofWires wires).Joins wire.source wire.target) :
    SameConnectivity wires others := by
  obtain ⟨hends, hlinks⟩ := isEnd_and_linked_of_joins h
  obtain ⟨hends', hlinks'⟩ := isEnd_and_linked_of_joins h'
  exact ⟨fun t => ⟨hends t, hends' t⟩, fun t u _ _ => ⟨hlinks t u, hlinks' t u⟩⟩

end SameConnectivity

/-! ## Rounds on nets that agree -/

/-- Components that act alike on nets that agree, do so one after the other. -/
theorem sweep_agree (act : Netlist → Component → Netlist × Bool)
    (hact : ∀ (a b : Netlist) (c : Component), Agree Everywhere a b →
      (act a c).2 = (act b c).2 ∧ Agree Everywhere (act a c).1 (act b c).1) :
    ∀ (components : List Component) {a b : Netlist}, Agree Everywhere a b →
      (sweep act components a).2 = (sweep act components b).2 ∧
        Agree Everywhere (sweep act components a).1 (sweep act components b).1
  | [], _, _, h => ⟨rfl, h⟩
  | c :: rest, a, b, h => by
    obtain ⟨hchanged, hnext⟩ := hact a b c h
    obtain ⟨hmore, hlast⟩ := sweep_agree act hact rest hnext
    exact ⟨congrArg₂ (· || ·) hchanged hmore, hlast⟩

section
variable {a b : Netlist} (h : Agree Everywhere a b)
include h

/-- Driving the sources comes to the same on both netlists, and they stay agreed. -/
theorem driveSources_agree (inputs : List (Ident × Signal)) (components : List Component) :
    (driveSources inputs components a).2 = (driveSources inputs components b).2 ∧
      Agree Everywhere (driveSources inputs components a).1
        (driveSources inputs components b).1 := by
  rw [driveSources_eq_sweep, driveSources_eq_sweep]
  exact sweep_agree (driveSource inputs)
    (fun _ _ _ hab => hab.driveSource (fun _ _ => trivial) inputs) components h

/-- Passing the contacts comes to the same on both netlists, and they stay agreed. -/
theorem passContacts_agree (states : States) (components : List Component) :
    (passContacts states components a).2 = (passContacts states components b).2 ∧
      Agree Everywhere (passContacts states components a).1
        (passContacts states components b).1 := by
  rw [passContacts_eq_sweep, passContacts_eq_sweep]
  exact sweep_agree (passContact states)
    (fun _ _ _ hab => hab.passContact (fun _ _ => trivial) rfl) components h

/-- Both netlists give every terminal the same signal. -/
theorem signalAt_agree : a.signalAt = b.signalAt :=
  funext (fun _ => h.signalAt_eq trivial)

/-- Both netlists move the coils alike. -/
theorem updateCoils_agree (components : List Component) (states : States) :
    updateCoils a components states = updateCoils b components states := by
  unfold updateCoils energized
  rw [signalAt_agree h]

/-- Both netlists give the ports the same levels. -/
theorem readPorts_agree (components : List Component) (states : States) :
    readPorts a components states = readPorts b components states := by
  unfold readPorts ComponentState.readPorts
  rw [signalAt_agree h]

end

namespace Scene

variable (components : List Component) (inputs : List (Ident × Signal))

/-- A round on nets that agree gives the same states and the same report, and nets that agree. -/
theorem round_agree {a b : Netlist} (h : Agree Everywhere a b) (states : States) :
    ∃ nets, round components inputs ⟨b, states⟩ =
        (⟨nets, (round components inputs ⟨a, states⟩).1.states⟩,
          (round components inputs ⟨a, states⟩).2) ∧
      Agree Everywhere (round components inputs ⟨a, states⟩).1.netlist nets := by
  obtain ⟨hsourced, hdriven⟩ := driveSources_agree h inputs components
  have hcoils := updateCoils_agree hdriven components states
  obtain ⟨hcontacted, hpassed⟩ := passContacts_agree hdriven
    (updateSwitches components
      (updateCoils (driveSources inputs components b).1 components states)) components
  dsimp only [round]
  rw [hsourced, hcoils, hcontacted]
  exact ⟨_, rfl, hpassed⟩

/-- So do any number of rounds. -/
theorem settle_agree : ∀ (fuel done : Nat) {a b : Netlist} (states : States),
    Agree Everywhere a b →
    ∃ nets, settle components inputs fuel done ⟨b, states⟩ =
        (⟨nets, (settle components inputs fuel done ⟨a, states⟩).1.states⟩,
          (settle components inputs fuel done ⟨a, states⟩).2) ∧
      Agree Everywhere (settle components inputs fuel done ⟨a, states⟩).1.netlist nets
  | 0, _, _, b, _, h => ⟨b, rfl, h⟩
  | fuel + 1, done, a, b, states, h => by
    obtain ⟨nets, hround, hnext⟩ := round_agree components inputs h states
    rw [settle_succ, settle_succ, hround]
    split
    · exact settle_agree fuel (done + 1) _ hnext
    · exact ⟨nets, rfl, hnext⟩

end Scene

/-! ## Rewired circuits -/

/-- Two circuits that differ at most in their wires, which connect alike. The names of the wires may
differ, but a list that holds one which cannot be looked up is not loaded, so both hold such or
none does. -/
structure Circuit.Rewired (a b : Circuit) : Prop where
  components : b.components = a.components
  inputs : b.inputs = a.inputs
  outputs : b.outputs = a.outputs
  wires : SameConnectivity a.wires b.wires
  named : b.wires.all (·.id.isScalar) = a.wires.all (·.id.isScalar)

/-- Whether a terminal can be looked up does not depend on how it is spelled. -/
theorem Terminal.isScalar_congr {t u : Terminal} (h : t == u) : t.isScalar = u.isScalar := by
  obtain ⟨hcomponent, hport⟩ := Terminal.beq_iff.1 h
  rw [Terminal.isScalar, Terminal.isScalar, Ident.isScalar_congr hcomponent,
    Ident.isScalar_congr hport]

/-- Wires can be looked up if their names and all terminals that they end on can. -/
theorem all_isScalar_iff {wires : List Wire} :
    wires.all (·.isScalar) = true ↔
      wires.all (·.id.isScalar) = true ∧ ∀ t, IsEnd wires t → t.isScalar = true := by
  simp only [List.all_eq_true, Wire.isScalar, Bool.and_eq_true]
  constructor
  · intro h
    refine ⟨fun wire hw => (h wire hw).1.1, ?_⟩
    rintro t ⟨wire, hw, hs | ht⟩
    · exact (Terminal.isScalar_congr hs).symm.trans (h wire hw).1.2
    · exact (Terminal.isScalar_congr ht).symm.trans (h wire hw).2
  · rintro ⟨hnames, hends⟩ wire hw
    exact ⟨⟨hnames wire hw, hends _ ⟨wire, hw, .inl BEq.rfl⟩⟩, hends _ ⟨wire, hw, .inr BEq.rfl⟩⟩

/-- The nets of two wirings that connect alike, or of two simulators that hold none, with levels
that agree. -/
structure Netlist.Twin (wires others : List Wire) (a b : Netlist) : Prop where
  agree : Agree Everywhere a b
  shape : a.reset = ofWires wires ∧ b.reset = ofWires others ∨ a.reset = {} ∧ b.reset = {}

namespace Netlist.Twin

variable {wires others : List Wire} {a b : Netlist}

theorem symm (h : Twin wires others a b) : Twin others wires b a where
  agree := h.agree.symm
  shape := h.shape.imp And.symm And.symm

/-- Levels that agree may change. -/
theorem levels (h : Twin wires others a b) {a' b' : Netlist} (hagree : Agree Everywhere a' b')
    (ha : a'.reset = a.reset) (hb : b'.reset = b.reset) : Twin wires others a' b' where
  agree := hagree
  shape := by
    rw [ha, hb]
    exact h.shape

/-- Twins stay twins when both are reset. -/
theorem reset (h : Twin wires others a b) : Twin wires others a.reset b.reset :=
  h.levels h.agree.reset (reset_reset a) (reset_reset b)

/-- Twins stay twins when both are grounded. -/
theorem ground (h : Twin wires others a b) : Twin wires others a.ground b.ground :=
  h.levels h.agree.ground (reset_ground a) (reset_ground b)

/-- Twins stay twins when the same sources drive both. -/
theorem driveSources (h : Twin wires others a b) (inputs : List (Ident × Signal))
    (components : List Component) :
    Twin wires others (driveSources inputs components a).1 (driveSources inputs components b).1 :=
  h.levels (driveSources_agree h.agree inputs components).2 (reset_driveSources _ _ _)
    (reset_driveSources _ _ _)

/-- A wire that shares its name with no other has the level at its source. -/
theorem wireSignal_eq (h : Twin wires others a b)
    (hids : wires.Pairwise (fun v w => (v.id == w.id) = false)) {wire : Wire}
    (hwire : wire ∈ wires) :
    Simulator.wireSignal a wire.id = a.signalAt wire.source := by
  rcases h.shape with ⟨hshape, -⟩ | ⟨hshape, -⟩
  · exact Netlist.wireSignal_eq_of_distinct hshape hids hwire
  · have hnone : Assoc.get? wire.id a.wireNets = none :=
      congrArg (fun netlist => Assoc.get? wire.id netlist.wireNets) hshape
    have hnone' : a.numberAt? wire.source = none :=
      congrArg (fun netlist => netlist.numberAt? wire.source) hshape
    rw [Simulator.wireSignal, netOfWire?, hnone, signalAt, netAt?, hnone']

/-- Terminals that the wires link are in one net, and before the nets are built in none. -/
theorem signalAt_eq_of_linked (h : Twin wires others a b) {s t : Terminal} (hend : IsEnd wires s)
    (hlinked : Linked wires s t) : a.signalAt s = a.signalAt t := by
  rcases h.shape with ⟨hshape, -⟩ | ⟨hshape, -⟩
  · exact Netlist.signalAt_eq_of_linked hshape hend hlinked
  · have hnone : ∀ t, a.numberAt? t = none := fun t => congrArg (·.numberAt? t) hshape
    exact signalAt_of_numberAt?_eq ((hnone s).trans (hnone t).symm)

end Netlist.Twin

/-! ## Simulators of rewired circuits -/

/-- A simulator with other nets. -/
def Simulator.withNets (sim : Simulator) (nets : Netlist) : Simulator :=
  { sim with netlist := nets }

namespace Simulator

variable (sim : Simulator) (nets : Netlist)

@[simp] theorem cap_withNets : (sim.withNets nets).cap = sim.cap := rfl
@[simp] theorem states_withNets : (sim.withNets nets).states = sim.states := rfl
@[simp] theorem inputs_withNets : (sim.withNets nets).inputs = sim.inputs := rfl
@[simp] theorem netlist_withNets : (sim.withNets nets).netlist = nets := rfl
@[simp] theorem knows_withNets : (sim.withNets nets).knows = sim.knows := rfl
@[simp] theorem canRead_withNets : (sim.withNets nets).canRead = sim.canRead := rfl

end Simulator

/-- The result of a step without what it tells of the wires. -/
def StepResult.unwired (result : StepResult) : StepResult :=
  { result with wires := [] }

namespace Simulator

/-- Setting an input neither reads nor writes the nets. -/
theorem setInput_withNets (circuit : Circuit) (sim : Simulator) (nets : Netlist) (id : Ident)
    (value : Json) : (sim.withNets nets).setInput circuit id value =
      (sim.setInput circuit id value).map (·.withNets nets) := by
  rcases setInput_cases circuit id value with
    ⟨fault, hrefused⟩ | ⟨component, level, -, -, hset⟩
  · rw [hrefused, hrefused]
    rfl
  · rw [hset, hset]
    rfl

/-- Toggling an input neither reads nor writes the nets. -/
theorem toggle_withNets (circuit : Circuit) (sim : Simulator) (nets : Netlist) (id : Ident) :
    (sim.withNets nets).toggle circuit id = (sim.toggle circuit id).map (·.withNets nets) := by
  unfold toggle
  rw [show (sim.withNets nets).getInput circuit id = sim.getInput circuit id from rfl]
  cases sim.getInput circuit id with
  | error fault => rfl
  | ok level => exact setInput_withNets _ _ _ _ _

/-- Setting inputs neither reads nor writes the nets. -/
theorem setInputs_withNets (circuit : Circuit) (nets : Netlist) :
    ∀ (values : List (Ident × Json)) (sim : Simulator),
      (sim.withNets nets).setInputs circuit values =
        ((sim.setInputs circuit values).1.withNets nets, (sim.setInputs circuit values).2)
  | [], _ => rfl
  | (id, value) :: rest, sim => by
    rw [setInputs, setInputs, setInput_withNets]
    cases sim.setInput circuit id value with
    | error fault => rfl
    | ok next => exact setInputs_withNets circuit nets rest next

/-- The outputs are read from the states, not from the nets. -/
theorem outputs_withNets (circuit : Circuit) (sim : Simulator) (nets : Netlist) :
    (sim.withNets nets).outputs circuit = sim.outputs circuit := by
  have hlevels : ∀ ports, (sim.withNets nets).outputLevels circuit ports =
      sim.outputLevels circuit ports := by
    intro ports
    induction ports with
    | nil => rfl
    | cons port rest ih =>
      rw [outputLevels, outputLevels, ih]
      rfl
  rw [outputs, outputs, hlevels]

/-- The levels of the wires that a step reports are those on the nets it ends with. -/
theorem wires_of_step_ok {circuit : Circuit} {sim : Simulator} {result : StepResult}
    (h : (sim.step circuit).2 = .ok result) :
    result.wires = Assoc.ofPairs (circuit.wires.map
      (fun w => (w.id, wireSignal (sim.step circuit).1.netlist w.id))) := by
  obtain ⟨hobstacle, -, rfl⟩ := step_eq_ok_iff.1 h
  rw [Simulator.step, hobstacle]
  rfl

/-- A step tells of every wire the level that it has on the nets the step ends with. -/
theorem get?_wires_of_step_ok {circuit : Circuit} {sim : Simulator} {result : StepResult}
    (h : (sim.step circuit).2 = .ok result) {wire : Wire} (hwire : wire ∈ circuit.wires) :
    Assoc.get? wire.id result.wires = some (wireSignal (sim.step circuit).1.netlist wire.id) := by
  rw [wires_of_step_ok h]
  exact Assoc.get?_ofPairs_map (fun _ _ => Netlist.wireSignal_congr _) ⟨wire, hwire, BEq.rfl⟩

end Simulator

namespace Circuit.Rewired

variable {a b : Circuit} (h : a.Rewired b)
include h

/-- A name resolves to the same component in both circuits, since it does not depend on the wires.
-/
theorem resolve_eq (id : Ident) : Simulator.resolve b id = Simulator.resolve a id := by
  unfold Simulator.resolve
  rw [h.inputs, component?_eq b, component?_eq a, h.components]

/-- Setting an input does not depend on the wires of the circuit. -/
theorem setInput_eq (sim : Simulator) (id : Ident) (value : Json) :
    sim.setInput b id value = sim.setInput a id value := by
  unfold Simulator.setInput
  rw [h.resolve_eq]

/-- Getting an input does not depend on the wires of the circuit. -/
theorem getInput_eq (sim : Simulator) (id : Ident) : sim.getInput b id = sim.getInput a id := by
  unfold Simulator.getInput
  rw [h.resolve_eq]

/-- Toggling an input does not depend on the wires of the circuit. -/
theorem toggle_eq (sim : Simulator) (id : Ident) : sim.toggle b id = sim.toggle a id := by
  unfold Simulator.toggle
  simp only [h.getInput_eq, h.setInput_eq]

/-- Getting an output does not depend on the wires of the circuit. -/
theorem getOutput_eq (sim : Simulator) (id : Ident) : sim.getOutput b id = sim.getOutput a id := by
  unfold Simulator.getOutput
  rw [h.outputs]

/-- Setting several inputs does not depend on the wires of the circuit. -/
theorem setInputs_eq : ∀ (values : List (Ident × Json)) (sim : Simulator),
    sim.setInputs b values = sim.setInputs a values
  | [], _ => rfl
  | (id, value) :: rest, sim => by
    rw [Simulator.setInputs, Simulator.setInputs, h.setInput_eq]
    cases sim.setInput a id value with
    | error fault => rfl
    | ok next => exact setInputs_eq rest next

/-- The outputs do not depend on the wires of the circuit. -/
theorem outputs_eq (sim : Simulator) : sim.outputs b = sim.outputs a := by
  have hlevels : ∀ ports, sim.outputLevels b ports = sim.outputLevels a ports := by
    intro ports
    induction ports with
    | nil => rfl
    | cons port rest ih => rw [Simulator.outputLevels, Simulator.outputLevels, ih, h.getOutput_eq]
  rw [Simulator.outputs, Simulator.outputs, h.outputs, hlevels]

/-- Both circuits can be loaded, or neither. -/
theorem all_isScalar_eq : b.wires.all (·.isScalar) = a.wires.all (·.isScalar) := by
  rw [Bool.eq_iff_iff, all_isScalar_iff, all_isScalar_iff, h.named]
  simp only [h.wires.ends]

variable {sim : Simulator} {nets : Netlist} (htwin : Netlist.Twin a.wires b.wires sim.netlist nets)

/-- Loading either circuit gives the same simulator but for its nets. -/
theorem load_eq (cap : Int) :
    Simulator.load cap b = (Simulator.load cap a).withNets (ofWires b.wires) := by
  unfold Simulator.load Simulator.withNets
  rw [h.components, h.inputs]

include htwin

/-- Reloading gives the same simulator but for its nets, which are twins. -/
theorem reload : ∃ next, (sim.withNets nets).reload b =
      ((sim.reload a).1.withNets next, (sim.reload a).2) ∧
    Netlist.Twin a.wires b.wires (sim.reload a).1.netlist next := by
  have hfresh : Netlist.Twin a.wires b.wires (ofWires a.wires) (ofWires b.wires) :=
    ⟨h.wires.agree_ofWires,
      .inl ⟨(Netlist.blank_ofWires _).reset_eq, (Netlist.blank_ofWires _).reset_eq⟩⟩
  unfold Simulator.reload
  rw [h.all_isScalar_eq, h.inputs, show (sim.withNets nets).cap = sim.cap from rfl, h.load_eq]
  dsimp only
  split_ifs
  · exact ⟨nets, rfl, htwin⟩
  · exact ⟨_, rfl, hfresh⟩
  · exact ⟨_, rfl, hfresh⟩

omit htwin in
/-- What keeps a step from finishing does not depend on the wires. -/
theorem obstacle?_eq (sim : Simulator) (nets : Netlist) :
    (sim.withNets nets).obstacle? b = sim.obstacle? a := by
  unfold Simulator.obstacle?
  rw [h.components]
  rfl

/-- An interrupted step leaves the same simulator but for its nets, which are twins. -/
theorem interrupted : ∃ next,
    (sim.withNets nets).interrupted b = (sim.interrupted a).withNets next ∧
      Netlist.Twin a.wires b.wires (sim.interrupted a).netlist next := by
  have hreset := htwin.reset
  unfold Simulator.interrupted
  simp only [h.components, Simulator.cap_withNets, Simulator.states_withNets,
    Simulator.inputs_withNets, Simulator.netlist_withNets, Simulator.knows_withNets,
    Simulator.canRead_withNets]
  obtain ⟨next, hround, hagree⟩ := Scene.round_agree a.components sim.inputs hreset.agree
    sim.states
  have hshape := Scene.reset_round a.components sim.inputs ⟨nets.reset, sim.states⟩
  have hdriven := hreset.driveSources sim.inputs a.components
  rw [hround] at hshape
  simp only [hround, ← readPorts_agree hreset.ground.agree, ← readPorts_agree hagree,
    ← updateCoils_agree hdriven.agree]
  split_ifs
  · exact ⟨_, rfl, hreset.ground⟩
  · exact ⟨_, rfl, hreset.levels hagree (Scene.reset_round _ _ _) hshape⟩
  · exact ⟨_, rfl, hdriven⟩
  · exact ⟨_, rfl, hdriven⟩

/-- A step ends with the same states and nets that agree, and tells the same but of the wires. -/
theorem step : ∃ next,
    ((sim.withNets nets).step b).1 = (sim.step a).1.withNets next ∧
      Netlist.Twin a.wires b.wires (sim.step a).1.netlist next ∧
      ((sim.withNets nets).step b).2.map StepResult.unwired =
        (sim.step a).2.map StepResult.unwired := by
  unfold Simulator.step
  rw [h.obstacle?_eq, h.named]
  split
  · obtain ⟨next, hnext, htwin'⟩ := h.interrupted htwin
    exact ⟨next, hnext, htwin', rfl⟩
  · have hreset := htwin.reset
    obtain ⟨next, hsettle, hagree⟩ := Scene.settle_agree a.components sim.inputs
      sim.cap.toNat 0 sim.states hreset.agree
    have hnext := Scene.reset_settle a.components sim.inputs sim.cap.toNat 0 ⟨nets.reset, sim.states⟩
    rw [hsettle] at hnext
    have hlast := (hreset.levels hagree (Scene.reset_settle _ _ _ _ _) hnext).ground
    unfold Simulator.completeStep
    simp only [h.components, Simulator.cap_withNets, Simulator.states_withNets,
      Simulator.inputs_withNets, Simulator.netlist_withNets, hsettle,
      ← readPorts_agree hlast.agree]
    refine ⟨_, rfl, hlast, ?_⟩
    split_ifs <;> rfl

end Circuit.Rewired

/-! ## Benches with rewired circuits -/

/-- An operation of the simulator: it neither edits the circuit nor shows how it is wired. -/
def Action.Operates : Action → Prop
  | .edit _ | .getWire _ | .replace _ | .dump | .inspect | .nets => False
  | _ => True

/-- An answer without what the result of a step tells of the wires. -/
def Answer.unwired : Answer → Answer
  | .result told => .result told.unwired
  | other => other

namespace Bench

/-- A bench with another circuit and other nets. -/
def withNets (circuit : Circuit) (bench : Bench) (nets : Netlist) : Bench :=
  ⟨circuit, bench.attached, bench.sim.withNets nets⟩

/-- A bench with the first of two rewired circuits, and nets that the simulator could hold in the
place of its own if the circuit were the second. -/
structure Twin (a b : Circuit) (bench : Bench) (nets : Netlist) : Prop where
  circuit : bench.circuit = a
  attached : bench.attached = .nothing ∨ bench.attached = .current
  nets : Netlist.Twin a.wires b.wires bench.sim.netlist nets

namespace Twin

variable {a b : Circuit} {bench : Bench} {nets : Netlist} (h : Twin a b bench nets)
include h

/-- Both benches have their circuit loaded, or neither has. -/
theorem loaded?_cases :
    bench.loaded? = none ∧ (withNets b bench nets).loaded? = none ∨
      bench.loaded? = some a ∧ (withNets b bench nets).loaded? = some b := by
  unfold Bench.loaded? withNets
  rcases h.attached with hnothing | hcurrent
  · rw [hnothing]
    exact .inl ⟨rfl, rfl⟩
  · rw [hcurrent, h.circuit]
    exact .inr ⟨rfl, rfl⟩

/-- The simulator may change, with its nets. -/
theorem withSim {sim : Simulator} {next : Netlist}
    (htwin : Netlist.Twin a.wires b.wires sim.netlist next) :
    Twin a b { bench with sim } next :=
  ⟨h.circuit, h.attached, htwin⟩

variable (hr : a.Rewired b)
include hr

/-- Loading leaves twins and answers alike. -/
theorem load : ∃ next, (withNets b bench nets).load = (withNets b bench.load.1 next, bench.load.2) ∧
    Twin a b bench.load.1 next := by
  obtain ⟨next, hreload, htwin⟩ := hr.reload h.nets
  unfold Bench.load
  rw [h.circuit]
  refine ⟨next, ?_, rfl, .inr rfl, htwin⟩
  dsimp only [withNets]
  rw [hreload]

/-- Resetting leaves twins and answers alike. -/
theorem reset : ∃ next, (withNets b bench nets).reset =
      (withNets b bench.reset.1 next, bench.reset.2) ∧ Twin a b bench.reset.1 next := by
  unfold Bench.reset
  rcases h.loaded?_cases with ⟨hnone, hnone'⟩ | ⟨hsome, hsome'⟩
  · rw [hnone, hnone']
    exact ⟨nets, rfl, h⟩
  · obtain ⟨next, hreload, htwin⟩ := hr.reload h.nets
    rw [hsome, hsome']
    refine ⟨next, ?_, h.withSim htwin⟩
    dsimp only [withNets]
    rw [hreload]

/-- A step leaves twins, and its results are equal but for the levels of wires. -/
theorem step : ∃ next, (withNets b bench nets).step.1 = withNets b bench.step.1 next ∧
    Twin a b bench.step.1 next ∧
    (withNets b bench nets).step.2.map StepResult.unwired =
      bench.step.2.map StepResult.unwired := by
  unfold Bench.step
  rcases h.loaded?_cases with ⟨hnone, hnone'⟩ | ⟨hsome, hsome'⟩
  · rw [hnone, hnone']
    exact ⟨nets, rfl, h, rfl⟩
  · obtain ⟨next, hstep, htwin, hresult⟩ := hr.step h.nets
    rw [hsome, hsome']
    exact ⟨next, congrArg (fun sim => (⟨b, bench.attached, sim⟩ : Bench)) hstep, h.withSim htwin,
      hresult⟩

/-- A run leaves twins and answers alike, one input after the other. -/
theorem run (inputs : List (Ident × Json)) : ∃ next,
    ((withNets b bench nets).run inputs).1 = withNets b (bench.run inputs).1 next ∧
      Twin a b (bench.run inputs).1 next ∧
      ((withNets b bench nets).run inputs).2.1 = (bench.run inputs).2.1 := by
  unfold Bench.run
  rcases h.loaded?_cases with ⟨hnone, hnone'⟩ | ⟨hsome, hsome'⟩
  · rw [hnone, hnone']
    cases inputs with
    | nil => exact ⟨nets, rfl, h, rfl⟩
    | cons first rest => exact ⟨nets, rfl, h, rfl⟩
  · rw [hsome, hsome']
    have hset : (withNets b bench nets).sim.setInputs b inputs =
        ((bench.sim.setInputs a inputs).1.withNets nets, (bench.sim.setInputs a inputs).2) :=
      (hr.setInputs_eq inputs _).trans (Simulator.setInputs_withNets a nets inputs bench.sim)
    have htwin : Netlist.Twin a.wires b.wires (bench.sim.setInputs a inputs).1.netlist nets := by
      obtain ⟨values, hvalues⟩ := Simulator.setInputs_eq a inputs bench.sim
      rw [hvalues]
      exact h.nets
    dsimp only
    rw [hset]
    generalize bench.sim.setInputs a inputs = set at htwin
    obtain ⟨sim, outcome⟩ := set
    cases outcome with
    | error fault => exact ⟨nets, rfl, h.withSim htwin, rfl⟩
    | ok _ =>
      obtain ⟨next, hstep, htwin', hresult⟩ := hr.step htwin
      refine ⟨next, congrArg (fun sim => (⟨b, bench.attached, sim⟩ : Bench)) hstep,
        h.withSim htwin', ?_⟩
      dsimp only
      rw [hstep, hr.outputs_eq, Simulator.outputs_withNets]
      -- the outputs are told if and only if the step tells something
      rcases cases_of_map_eq_map hresult with
        ⟨fault, hsecond, hfirst⟩ | ⟨_, _, hsecond, hfirst, -⟩
      · rw [hfirst, hsecond]
      · rw [hfirst, hsecond]
        rfl

end Twin

end Bench

/-- What two benches perform alike: the second is again the first with another circuit and other
nets, and the answers are the same but for the levels of wires. -/
def Performed.Twin (a b : Circuit) (first second : Performed) : Prop :=
  ∃ nets, second.bench = first.bench.withNets b nets ∧ Bench.Twin a b first.bench nets ∧
    second.answer.map Answer.unwired = first.answer.map Answer.unwired

/-- The answer to a step is its result. -/
theorem Bench.answer_step (bench : Bench) :
    (bench.perform .step).answer = bench.step.2.map Answer.result := rfl

namespace Bench.Twin

variable {a b : Circuit} {bench : Bench} {nets : Netlist} (h : Twin a b bench nets)
include h

/-- An operation on the simulator that leaves its nets alone, or is refused. -/
theorem settled {outcome : Except Fault Simulator}
    (houtcome : ∀ sim, outcome = .ok sim → sim.netlist = bench.sim.netlist) :
    Performed.Twin a b (bench.settled (outcome.map ({ bench with sim := · })))
      ((withNets b bench nets).settled
        ((outcome.map (·.withNets nets)).map ({ withNets b bench nets with sim := · }))) := by
  cases outcome with
  | error fault => exact ⟨nets, rfl, h, rfl⟩
  | ok sim =>
    have hnets := houtcome sim rfl
    exact ⟨nets, rfl, h.withSim (by rw [hnets]; exact h.nets), rfl⟩

/-- Both benches resolve a name alike. -/
theorem resolve_eq (hr : a.Rewired b) (id : Ident) :
    (withNets b bench nets).resolve id = bench.resolve id := by
  unfold Bench.resolve
  rcases h.loaded?_cases with ⟨hnone, hnone'⟩ | ⟨hsome, hsome'⟩
  · rw [hnone, hnone']
  · rw [hsome, hsome']
    exact hr.resolve_eq id

/-- Both benches get an input alike. -/
theorem getInput_eq (hr : a.Rewired b) (id : Ident) :
    (withNets b bench nets).getInput id = bench.getInput id := by
  unfold Bench.getInput
  rcases h.loaded?_cases with ⟨hnone, hnone'⟩ | ⟨hsome, hsome'⟩
  · rw [hnone, hnone']
    rfl
  · rw [hsome, hsome']
    exact hr.getInput_eq _ id

/-- Both benches get an output alike. -/
theorem getOutput_eq (hr : a.Rewired b) (id : Ident) :
    (withNets b bench nets).getOutput id = bench.getOutput id := by
  unfold Bench.getOutput
  rcases h.loaded?_cases with ⟨hnone, hnone'⟩ | ⟨hsome, hsome'⟩
  · rw [hnone, hnone']
  · rw [hsome, hsome']
    exact hr.getOutput_eq _ id

/-- Every operation of the simulator keeps two benches apart in their wires only. -/
theorem perform (hr : a.Rewired b) {action : Action} (hop : action.Operates) :
    Performed.Twin a b (bench.perform action) ((withNets b bench nets).perform action) := by
  have hkept : ∀ {id value next}, bench.sim.setInput a id value = .ok next →
      next.netlist = bench.sim.netlist := by
    intro id value next hset
    obtain ⟨inputs, rfl⟩ := Simulator.setInput_eq_ok hset
    rfl
  cases action with
  | edit | getWire | replace | dump | inspect | nets => exact hop.elim
  | state | states => exact ⟨nets, rfl, h, rfl⟩
  | load =>
    obtain ⟨next, hload, htwin⟩ := h.load hr
    exact ⟨next, congrArg Prod.fst hload, htwin, by rw [Bench.perform, hload]; rfl⟩
  | reset =>
    obtain ⟨next, hreset, htwin⟩ := h.reset hr
    exact ⟨next, congrArg Prod.fst hreset, htwin, by rw [Bench.perform, hreset]; rfl⟩
  | setInput id value =>
    unfold Bench.perform Bench.setInput
    rcases h.loaded?_cases with ⟨hnone, hnone'⟩ | ⟨hsome, hsome'⟩
    · rw [hnone, hnone']
      exact ⟨nets, rfl, h, rfl⟩
    · rw [hsome, hsome']
      have hset := (hr.setInput_eq (bench.sim.withNets nets) id value).trans
        (Simulator.setInput_withNets a bench.sim nets id value)
      dsimp only [withNets]
      rw [hset]
      exact h.settled (fun _ => hkept)
  | toggle id =>
    unfold Bench.perform Bench.toggle
    rcases h.loaded?_cases with ⟨hnone, hnone'⟩ | ⟨hsome, hsome'⟩
    · rw [hnone, hnone']
      dsimp only
      cases hscalar : requireScalar id <;> exact ⟨nets, rfl, h, rfl⟩
    · rw [hsome, hsome']
      have htoggle := (hr.toggle_eq (bench.sim.withNets nets) id).trans
        (Simulator.toggle_withNets a bench.sim nets id)
      dsimp only [withNets]
      rw [htoggle]
      refine h.settled (fun _ hnext => ?_)
      obtain ⟨value, hset⟩ := Simulator.setInput_of_toggle hnext
      exact hkept hset
  | resolve id =>
    exact ⟨nets, rfl, h,
      congrArg (fun found => (found.map Answer.ident).map Answer.unwired) (h.resolve_eq hr id)⟩
  | getInput id =>
    exact ⟨nets, rfl, h,
      congrArg (fun level => (level.map Answer.level).map Answer.unwired) (h.getInput_eq hr id)⟩
  | getOutput id =>
    exact ⟨nets, rfl, h,
      congrArg (fun level => (level.map Answer.level).map Answer.unwired) (h.getOutput_eq hr id)⟩
  | step =>
    obtain ⟨next, hstep, htwin, hresult⟩ := h.step hr
    refine ⟨next, hstep, htwin, ?_⟩
    rw [answer_step, answer_step]
    rcases cases_of_map_eq_map hresult with
      ⟨fault, hsecond, hfirst⟩ | ⟨_, _, hsecond, hfirst, hsame⟩
    · rw [hfirst, hsecond]
    · rw [hfirst, hsecond]
      exact congrArg (Except.ok ∘ Answer.result) hsame
  | run inputs =>
    obtain ⟨next, hrun, htwin, hanswer⟩ := h.run hr inputs
    exact ⟨next, hrun, htwin, by rw [Bench.perform]; dsimp only; rw [hanswer]; rfl⟩

end Bench.Twin

namespace Bench

/-- Any number of operations of the simulator keep two benches apart in their wires only. -/
theorem Twin.performAll {a b : Circuit} (hr : a.Rewired b) {actions : List Action} :
    ∀ {bench : Bench} {nets : Netlist}, Twin a b bench nets →
      (∀ action ∈ actions, action.Operates) →
      ∃ next, (withNets b bench nets).performAll actions =
        withNets b (bench.performAll actions) next ∧ Twin a b (bench.performAll actions) next := by
  induction actions with
  | nil => exact fun h _ => ⟨_, rfl, h⟩
  | cons action rest ih =>
    intro bench nets h hops
    obtain ⟨mid, hmid, htwin, -⟩ := h.perform hr (hops action List.mem_cons_self)
    obtain ⟨next, hnext, hlast⟩ := ih htwin
      (fun other hother => hops other (List.mem_cons_of_mem _ hother))
    refine ⟨next, ?_, hlast⟩
    rw [Bench.performAll, List.foldl_cons, hmid]
    exact hnext

/-- Wires of two rewired circuits that lie in one net have the same level after a step. -/
theorem Twin.step_wires {a b : Circuit} (hr : a.Rewired b) {bench : Bench} {nets : Netlist}
    (h : Twin a b bench nets) (hids : a.wires.Pairwise (fun v w => (v.id == w.id) = false))
    (hids' : b.wires.Pairwise (fun v w => (v.id == w.id) = false)) {v w : Wire}
    (hv : v ∈ a.wires) (hw : w ∈ b.wires) (hlinked : Linked a.wires v.source w.source)
    {first second : StepResult} (hfirst : bench.step.2 = .ok first)
    (hsecond : (withNets b bench nets).step.2 = .ok second) :
    Assoc.get? v.id first.wires = Assoc.get? w.id second.wires ∧
      (bench.attached = .current → (Assoc.get? v.id first.wires).isSome = true) := by
  unfold Bench.step at hfirst hsecond
  rcases h.loaded?_cases with ⟨hnone, hnone'⟩ | ⟨hsome, hsome'⟩
  · rw [hnone] at hfirst
    rw [hnone'] at hsecond
    cases hfirst
    cases hsecond
    refine ⟨rfl, fun hcurrent => ?_⟩
    rw [Bench.loaded?, hcurrent] at hnone
    cases hnone
  · rw [hsome] at hfirst
    rw [hsome'] at hsecond
    obtain ⟨next, hstep, htwin, -⟩ := hr.step h.nets
    have hlevel := Simulator.get?_wires_of_step_ok hfirst hv
    have hlevel' := Simulator.get?_wires_of_step_ok hsecond hw
    rw [show (Simulator.step b (withNets b bench nets).sim).1.netlist = next from
      congrArg Simulator.netlist hstep] at hlevel'
    rw [hlevel, hlevel', htwin.wireSignal_eq hids hv, htwin.symm.wireSignal_eq hids' hw,
      ← htwin.agree.signalAt_eq trivial,
      htwin.signalAt_eq_of_linked ⟨v, hv, .inl BEq.rfl⟩ hlinked]
    exact ⟨rfl, fun _ => rfl⟩

/-- A simulation depends on the wires through their connectivity only. Circuits with the same
components and external ports, whose wires end on the same terminals and link the same of them,
cannot be told apart by operating them: after any operations, refused or not, the states, inputs and
cycles are equal, and so is the answer to any further one, but for the levels that the result of a
step gives under names of wires. If the wires have distinct names, wires of the two circuits in one
net, such as one that both have, are reported with one level. -/
theorem rewired_performAll {a b : Circuit} (h : a.Rewired b) (cap : Int) {actions : List Action}
    (hops : ∀ action ∈ actions, action.Operates) :
    let first := (ofCircuit a cap).performAll actions
    let second := (ofCircuit b cap).performAll actions
    first.sim.states = second.sim.states ∧ first.sim.inputs = second.sim.inputs ∧
    first.sim.cycle = second.sim.cycle ∧
    (∀ action : Action, action.Operates →
      (first.perform action).answer.map Answer.unwired =
        (second.perform action).answer.map Answer.unwired) ∧
    (a.wires.Pairwise (fun v w => (v.id == w.id) = false) →
      b.wires.Pairwise (fun v w => (v.id == w.id) = false) →
      ∀ v ∈ a.wires, ∀ w ∈ b.wires, Linked a.wires v.source w.source →
      ∀ result other, first.step.2 = .ok result → second.step.2 = .ok other →
        Assoc.get? v.id result.wires = Assoc.get? w.id other.wires ∧
        (first.attached = .current → (Assoc.get? v.id result.wires).isSome = true)) := by
  intro first second
  have hstart : Twin a b (ofCircuit a cap) {} :=
    ⟨rfl, .inl rfl, ⟨fun _ _ _ _ => Iff.rfl, fun _ _ => rfl⟩, .inr ⟨rfl, rfl⟩⟩
  obtain ⟨nets, hsecond, htwin⟩ := hstart.performAll h hops
  have hsecond' : second = withNets b first nets := hsecond
  rw [hsecond']
  refine ⟨rfl, rfl, rfl, fun action hop => ?_, fun hids hids' v hv w hw hlinked result other => ?_⟩
  · obtain ⟨_, _, _, hanswer⟩ := htwin.perform h hop
    exact hanswer.symm
  · exact htwin.step_wires h hids hids' hv hw hlinked

/-- The latch with its wires listed in another order, one of them turned round and renamed, and one
added beside two that make the same joint. -/
def relistedLatch : Circuit :=
  { latch with
    wires := [⟨.text "feedback", ⟨.text "hold", coilIn⟩, ⟨.text "hold", contactOut⟩⟩,
      ⟨.text "w3", ⟨.text "start", contactOut⟩, ⟨.text "hold", coilIn⟩⟩,
      ⟨.text "w6", ⟨.text "start", contactIn⟩, ⟨.text "hold", contactIn⟩⟩,
      ⟨.text "w1", ⟨.text "vcc", outPort⟩, ⟨.text "start", contactIn⟩⟩,
      ⟨.text "w4", ⟨.text "vcc", outPort⟩, ⟨.text "hold", contactIn⟩⟩,
      ⟨.text "w2", ⟨.text "set", outPort⟩, ⟨.text "start", coilIn⟩⟩] }

/-- The latch and its relisted form have the same connectivity. -/
theorem latch_rewired : latch.Rewired relistedLatch := by
  refine ⟨rfl, rfl, rfl, .of_joins ?_ ?_, by decide +kernel⟩
  · simp only [Netlist.joins_iff_eq]
    decide +kernel
  · simp only [Netlist.joins_iff_eq]
    decide +kernel

/-- With its input high the latch steps alike in both forms, and the wire that both have carries one
level. -/
theorem step_latch_relisted :
    let actions := [Action.load, .setInput (.text "set") (.int 1)]
    let first := (ofCircuit latch 10).performAll actions
    let second := (ofCircuit relistedLatch 10).performAll actions
    latch.Rewired relistedLatch ∧ (∀ action ∈ actions, action.Operates) ∧
      first.sim.states = second.sim.states ∧
      ∃ result other, first.step.2 = .ok result ∧ second.step.2 = .ok other ∧
        result.unwired = other.unwired ∧
        Assoc.get? (.text "w4") result.wires = Assoc.get? (.text "w4") other.wires := by
  intro actions first second
  have hops : ∀ action ∈ actions, action.Operates := by simp [actions, Action.Operates]
  obtain ⟨hstates, -, -, hanswers, hwires⟩ := rewired_performAll latch_rewired 10 hops
  obtain ⟨result, hresult, -⟩ := exists_of_toOption (x := first.step.2) (f := (·.converged))
    (b := true) (by decide +kernel)
  obtain ⟨other, hother, -⟩ := exists_of_toOption (x := second.step.2) (f := (·.converged))
    (b := true) (by decide +kernel)
  have hanswer := hanswers .step trivial
  rw [answer_step, answer_step, hresult, hother] at hanswer
  refine ⟨latch_rewired, hops, hstates, result, other, hresult, hother,
    Answer.result.inj (Except.ok.inj hanswer), ?_⟩
  exact (hwires (by decide +kernel) (by decide +kernel)
    ⟨.text "w4", ⟨.text "vcc", outPort⟩, ⟨.text "hold", contactIn⟩⟩ (by decide +kernel)
    ⟨.text "w4", ⟨.text "vcc", outPort⟩, ⟨.text "hold", contactIn⟩⟩ (by decide +kernel)
    (.refl _) result other hresult hother).1

end Bench

end Switchyard.Relay
