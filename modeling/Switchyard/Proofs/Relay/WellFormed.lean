import Switchyard.Proofs.Relay.Documents
import Switchyard.Proofs.Relay.Editing
import Switchyard.Relay.Inspection

/-!
# Edits keep a circuit well formed

What the edits check and what they take along with a component together keep a circuit well formed
(`Circuit.WellFormed`), each edit for itself (`Circuit.WellFormed.edit`) and so any number of them
from an empty circuit on (`Circuit.edits_wellFormed`). Such a circuit has nothing that an inspection
would find, but for components of unknown kind (`Circuit.WellFormed.inspect_problems`), and it is
written as a value that the check of circuit files accepts (`Circuit.WellFormed.describesCircuit`).
-/

namespace Switchyard.Relay

/-! ## External ports in order -/

/-- The external ports of a side stand for the components of a kind in their order, each under the
identifier of its component. -/
structure Mirrors (components : List Component) (kind : Kind) (direction : String)
    (ports : List Port) : Prop where
  bound : ports.map (·.component) = (components.filter (·.kind = kind)).map (·.id)
  own : ∀ port ∈ ports, port.id = port.component ∧ port.direction = .str direction

namespace Mirrors

variable {components : List Component} {kind : Kind} {direction : String} {ports : List Port}

theorem nil (kind : Kind) (direction : String) : Mirrors [] kind direction [] :=
  ⟨rfl, nofun⟩

/-- A port of a side stands for a component of its kind. -/
theorem exists_component (h : Mirrors components kind direction ports) {port : Port}
    (hport : port ∈ ports) : ∃ c ∈ components, c.kind = kind ∧ c.id = port.component := by
  have hmem : port.component ∈ (components.filter (·.kind = kind)).map (·.id) := by
    rw [← h.bound]
    exact List.mem_map_of_mem hport
  obtain ⟨c, hc, hid⟩ := List.mem_map.1 hmem
  obtain ⟨hc, hkind⟩ := List.mem_filter.1 hc
  exact ⟨c, hc, of_decide_eq_true hkind, hid⟩

/-- A component is added with a port if it is of the kind, and without one otherwise. -/
theorem add (h : Mirrors components kind direction ports) (component : Component) (name : Ident) :
    Mirrors (components ++ [component]) kind direction (ports ++
      if component.kind = kind then
        [⟨component.id, name, .str direction, component.id⟩] else []) := by
  constructor
  · rw [List.map_append, List.filter_append, List.map_append, h.bound]
    refine congrArg _ ?_
    by_cases hkind : component.kind = kind
    · rw [if_pos hkind, List.filter_singleton, decide_eq_true hkind]
      rfl
    · rw [if_neg hkind, List.filter_singleton, decide_eq_false hkind]
      rfl
  · refine List.forall_mem_append.2 ⟨h.own, ?_⟩
    split
    · exact List.forall_mem_singleton.2 ⟨rfl, rfl⟩
    · exact nofun

/-- A component is removed with its port. -/
theorem remove (h : Mirrors components kind direction ports)
    (hnames : ∀ c ∈ components, c.id.isNaN = false) (id : Ident) :
    Mirrors (components.filter (·.id != id)) kind direction
      (ports.filter (!·.component.equals id)) := by
  refine ⟨?_, fun port hport => h.own port (List.mem_filter.1 hport).1⟩
  have hports : (ports.map (·.component)).filter (!·.equals id) =
      (ports.filter (!·.component.equals id)).map (·.component) := List.filter_map
  have hkept : ((components.filter (·.kind = kind)).map (·.id)).filter (!·.equals id) =
      ((components.filter (·.kind = kind)).filter (!·.id.equals id)).map (·.id) := List.filter_map
  have hsame : components.filter (!·.id.equals id) = components.filter (·.id != id) :=
    List.filter_congr (fun c hc => congrArg _ (Ident.equals_eq_beq (hnames c hc)))
  rw [← hports, h.bound, hkept, List.filter_comm, hsame]

end Mirrors

/-! ## Lookups -/

namespace Circuit

variable {circuit next : Circuit}

/-- Every component is found under its own identifier, and no other one is. -/
theorem component?_eq_some_iff (circuit : Circuit) {id : Ident} {c : Component} :
    circuit.component? id = some c ↔ c ∈ circuit.components ∧ c.id == id := by
  rw [component?_eq]
  constructor
  · intro h
    have hid := List.find?_some h
    exact ⟨List.mem_of_find?_eq_some h, hid⟩
  · rintro ⟨hc, hid⟩
    obtain ⟨found, hfound⟩ := Option.isSome_iff_exists.1
      (List.find?_isSome.2 ⟨c, hc, hid⟩ : (circuit.components.find? (·.id == id)).isSome = true)
    have hsame := List.find?_some hfound
    rw [hfound, circuit.distinctIds.eq_of_beq (List.mem_of_find?_eq_some hfound) hc
      (BEq.trans hsame (BEq.symm hid))]

/-- A terminal is a port of a component of the circuit. -/
def HasTerminal (circuit : Circuit) (t : Terminal) : Prop :=
  ∃ c ∈ circuit.components, c.id == t.component ∧ c.hasPort t.port = true

/-- What every edit keeps: components and wires have identifiers that equal themselves and can be
looked up, those of the wires being distinct; every wire ends on two different terminals of the
circuit, no two wires on the same two; and the external ports are those of the input and output
components. That the identifiers of components are distinct is part of every circuit. -/
structure WellFormed (circuit : Circuit) : Prop where
  names : ∀ c ∈ circuit.components, c.id.isScalar = true ∧ c.id.isNaN = false
  wireNames : ∀ wire ∈ circuit.wires, wire.id.isScalar = true ∧ wire.id.isNaN = false
  distinct : circuit.wires.Pairwise (fun a b => (a.id == b.id) = false)
  ends : ∀ wire ∈ circuit.wires, ∀ t ∈ wire.terminals, circuit.HasTerminal t
  loops : ∀ wire ∈ circuit.wires, (wire.source == wire.target) = false
  parallels : circuit.wires.Pairwise (fun a b => a.joins b.source b.target = false)
  inputs : Mirrors circuit.components .input "input" circuit.inputs
  outputs : Mirrors circuit.components .output "output" circuit.outputs

/-! ## What an addition checks -/

/-- A component of the kind of a side is added with a port of its own. -/
theorem addComponent_ports {component : Component} (h : circuit.addComponent component = .ok next) :
    (∃ name, next.inputs = circuit.inputs ++ if component.kind = .input then
        [⟨component.id, name, .str "input", component.id⟩] else []) ∧
      ∃ name, next.outputs = circuit.outputs ++ if component.kind = .output then
        [⟨component.id, name, .str "output", component.id⟩] else [] := by
  unfold addComponent at h
  split at h
  · cases h
  split at h
  · cases h
  dsimp only at h
  split at h <;> cases h
  · next hkind => exact ⟨⟨_, by rw [if_pos hkind]⟩, .null, by simp [hkind]⟩
  · next hkind => exact ⟨⟨.null, by simp [hkind]⟩, _, by rw [if_pos hkind]⟩
  · next hinput houtput =>
    exact ⟨⟨.null, by simpa using hinput⟩, .null, by simpa using houtput⟩

/-- A wire can end on the terminals of the circuit only. -/
theorem hasTerminal_of_endFault? {wire : Ident} {t : Terminal}
    (h : circuit.endFault? wire t = none) : circuit.HasTerminal t := by
  unfold endFault? at h
  split at h
  · cases h
  split at h
  · cases h
  next component hcomponent =>
  split at h
  · cases h
  split at h
  · next hport =>
    obtain ⟨hc, hid⟩ := (component?_eq_some_iff circuit).1 hcomponent
    exact ⟨component, hc, hid, hport⟩
  · cases h

/-- A wire that is added beside another one has another name and other ends. -/
theorem of_clash?_eq_none {wire existing : Wire} (h : clash? wire existing = none) :
    existing.id.equals wire.id = false ∧ existing.joins wire.source wire.target = false := by
  unfold clash? at h
  split at h
  · cases h
  next hid =>
  split at h
  · cases h
  split at h
  · cases h
  next hjoins => exact ⟨by simpa using hid, by simpa using hjoins⟩

/-- A wire that is added ends on two terminals of the circuit, and differs from the others. -/
theorem of_wireFault?_eq_none {wire : Wire} (h : circuit.wireFault? wire = none) :
    (∀ t ∈ wire.terminals, circuit.HasTerminal t) ∧ (wire.source == wire.target) = false ∧
      ∀ existing ∈ circuit.wires, existing.id.equals wire.id = false ∧
        existing.joins wire.source wire.target = false := by
  unfold wireFault? at h
  split at h
  · cases h
  · cases h
  next hsource htarget =>
  split at h
  · cases h
  next hloop =>
  refine ⟨?_, by simpa using hloop, fun existing hexisting => ?_⟩
  · exact List.forall_mem_cons.2 ⟨hasTerminal_of_endFault? hsource,
      List.forall_mem_singleton.2 (hasTerminal_of_endFault? htarget)⟩
  · exact of_clash?_eq_none (List.findSome?_eq_none_iff.1 h existing hexisting)

/-! ## What every edit keeps -/

namespace WellFormed

theorem clear (circuit : Circuit) : circuit.clear.WellFormed where
  names := nofun
  wireNames := nofun
  distinct := .nil
  ends := nofun
  loops := nofun
  parallels := .nil
  inputs := .nil _ _
  outputs := .nil _ _

/-- Taking away wires keeps a circuit well formed. -/
theorem dropWires (h : circuit.WellFormed) {wires : List Wire} (hsub : wires.Sublist circuit.wires) :
    WellFormed { circuit with wires } where
  names := h.names
  wireNames wire hwire := h.wireNames wire (hsub.subset hwire)
  distinct := h.distinct.sublist hsub
  ends wire hwire := h.ends wire (hsub.subset hwire)
  loops wire hwire := h.loops wire (hsub.subset hwire)
  parallels := h.parallels.sublist hsub
  inputs := h.inputs
  outputs := h.outputs

/-- Adding a component keeps a circuit well-formed. -/
theorem addComponent (h : circuit.WellFormed) {component : Component}
    (hname : component.id.isNaN = false) (hnext : circuit.addComponent component = .ok next) :
    next.WellFormed := by
  obtain ⟨hscalar, -, hcomponents, hwires, -, -⟩ := addComponent_eq_ok hnext
  obtain ⟨⟨inputName, hinputs⟩, outputName, houtputs⟩ := addComponent_ports hnext
  refine ⟨?_, hwires ▸ h.wireNames, hwires ▸ h.distinct, ?_, hwires ▸ h.loops,
    hwires ▸ h.parallels, ?_, ?_⟩
  · rw [hcomponents]
    exact List.forall_mem_append.2 ⟨h.names, List.forall_mem_singleton.2 ⟨hscalar, hname⟩⟩
  · rw [hwires]
    intro wire hwire t ht
    obtain ⟨c, hc, hport⟩ := h.ends wire hwire t ht
    exact ⟨c, hcomponents ▸ List.mem_append_left _ hc, hport⟩
  · rw [hcomponents, hinputs]
    exact h.inputs.add component inputName
  · rw [hcomponents, houtputs]
    exact h.outputs.add component outputName

/-- The wires on a component go with it, so that the others still end on components. -/
theorem removeComponent (h : circuit.WellFormed) (id : Ident) :
    (circuit.removeComponent id).1.WellFormed := by
  rcases circuit.removeComponent_cases id with hsame | ⟨hcomponents, hwires, hinputs, houtputs⟩
  · rw [hsame]
    exact h
  have hfewer := h.dropWires (List.filter_sublist (p := (!·.touches id)))
  refine ⟨?_, hwires ▸ hfewer.wireNames, hwires ▸ hfewer.distinct, ?_, hwires ▸ hfewer.loops,
    hwires ▸ hfewer.parallels, ?_, ?_⟩
  · rw [hcomponents]
    exact fun c hc => h.names c (List.mem_filter.1 hc).1
  · rw [hwires]
    intro wire hwire t ht
    obtain ⟨hwire, huntouched⟩ := List.mem_filter.1 hwire
    obtain ⟨c, hc, hid, hport⟩ := h.ends wire hwire t ht
    have hother : t.component.equals id = false := by
      rw [Bool.not_eq_true', Wire.touches, Bool.or_eq_false_iff] at huntouched
      rcases List.mem_pair.1 ht with rfl | rfl
      · exact huntouched.1
      · exact huntouched.2
    have hnumber : t.component.isNaN = false := (Ident.isNaN_congr hid).symm.trans (h.names c hc).2
    rw [Ident.equals_eq_beq hnumber, ← BEq.congr_left hid] at hother
    exact ⟨c, hcomponents ▸ List.mem_filter.2 ⟨hc, by rw [bne, hother]; rfl⟩, hid, hport⟩
  · rw [hcomponents, hinputs]
    exact h.inputs.remove (fun c hc => (h.names c hc).2) id
  · rw [hcomponents, houtputs]
    exact h.outputs.remove (fun c hc => (h.names c hc).2) id

/-- Adding a wire keeps a circuit well-formed. -/
theorem addWire (h : circuit.WellFormed) {wire : Wire}
    (hname : wire.id.isScalar = true ∧ wire.id.isNaN = false)
    (hnext : circuit.addWire wire = .ok next) : next.WellFormed := by
  unfold Circuit.addWire at hnext
  split at hnext
  · cases hnext
  next hfault =>
  cases hnext
  obtain ⟨hends, hloop, hothers⟩ := of_wireFault?_eq_none hfault
  refine ⟨h.names, ?_, ?_, ?_, ?_, ?_, h.inputs, h.outputs⟩
  · exact List.forall_mem_append.2 ⟨h.wireNames, List.forall_mem_singleton.2 hname⟩
  · refine List.pairwise_append.2 ⟨h.distinct, List.pairwise_singleton _ _, ?_⟩
    intro existing hexisting _ hwire
    rw [List.mem_singleton.1 hwire, ← Ident.equals_eq_beq (h.wireNames existing hexisting).2]
    exact (hothers existing hexisting).1
  · exact List.forall_mem_append.2 ⟨h.ends, List.forall_mem_singleton.2 hends⟩
  · exact List.forall_mem_append.2 ⟨h.loops, List.forall_mem_singleton.2 hloop⟩
  · refine List.pairwise_append.2 ⟨h.parallels, List.pairwise_singleton _ _, ?_⟩
    intro existing hexisting _ hwire
    rw [List.mem_singleton.1 hwire]
    exact (hothers existing hexisting).2

end WellFormed

end Circuit

/-- An edit by components and wires. What it adds has an identifier that equals itself, and a wire
one that can be looked up, as every text does; everything else about it is left open. -/
def Edit.Nameable : Edit → Prop
  | .addComponent component => component.id.isNaN = false
  | .addWire wire => wire.id.isScalar = true ∧ wire.id.isNaN = false
  | .removeComponent _ | .removeWire _ | .clear => True
  | .addInput .. | .addOutput .. => False

namespace Circuit

variable {circuit : Circuit}

/-- Every edit keeps a circuit well-formed, also if it is rejected. -/
theorem WellFormed.edit (h : circuit.WellFormed) {edit : Edit} (hedit : edit.Nameable) :
    (circuit.edit edit).WellFormed := by
  cases edit with
  | addComponent component =>
    rw [Circuit.edit]
    split
    · next next hnext => exact h.addComponent hedit hnext
    · exact h
  | removeComponent id => exact h.removeComponent id
  | addWire wire =>
    rw [Circuit.edit]
    split
    · next next hnext => exact h.addWire hedit hnext
    · exact h
  | removeWire id => exact h.dropWires List.filter_sublist
  | clear => exact .clear circuit
  | addInput | addOutput => exact hedit.elim

/-- Circuits that edits lead to from a well-formed one are well formed. -/
theorem WellFormed.edits (h : circuit.WellFormed) :
    ∀ {edits : List Edit}, (∀ edit ∈ edits, edit.Nameable) →
      (edits.foldl Circuit.edit circuit).WellFormed := by
  intro edits hedits
  induction edits generalizing circuit with
  | nil => exact h
  | cons edit rest ih =>
    obtain ⟨hedit, hrest⟩ := List.forall_mem_cons.1 hedits
    exact ih (h.edit hedit) hrest

/-- An edit adds a component after the others, or leaves those that it leaves in their order. -/
theorem components_edit (circuit : Circuit) (edit : Edit) :
    (circuit.edit edit).components.Sublist circuit.components ∨
      ∃ component, edit = .addComponent component ∧
        (circuit.edit edit).components = circuit.components ++ [component] := by
  cases edit with
  | addComponent component =>
    rw [Circuit.edit]
    split
    · next next hnext =>
      exact .inr ⟨component, rfl, (addComponent_eq_ok hnext).2.2.1⟩
    · exact .inl (.refl _)
  | removeComponent id =>
    rw [Circuit.edit]
    rcases circuit.removeComponent_cases id with hsame | ⟨hcomponents, -⟩
    · rw [hsame]
      exact .inl (.refl _)
    · rw [hcomponents]
      exact .inl List.filter_sublist
  | addWire wire =>
    rw [Circuit.edit]
    split
    · next next hnext =>
      obtain ⟨-, -, rfl⟩ := addWire_eq_ok hnext
      exact .inl (.refl _)
    · exact .inl (.refl _)
  | removeWire | addInput | addOutput => exact .inl (.refl _)
  | clear => exact .inl (List.nil_sublist _)

/-! ## What the two checks find -/

/-- Each port of a side has a component of its kind. -/
theorem isOfKind_of_mirrors {kind : Kind} {direction : String} {ports : List Port}
    (h : Mirrors circuit.components kind direction ports) {port : Port} (hport : port ∈ ports) :
    circuit.isOfKind port.component kind = true := by
  obtain ⟨c, hc, hkind, hid⟩ := h.exists_component hport
  rw [isOfKind, (component?_eq_some_iff circuit).2 ⟨hc, beq_of_eq hid⟩]
  exact decide_eq_true hkind

namespace WellFormed

variable (h : circuit.WellFormed)
include h

/-- A terminal of the circuit is found, and can be looked up. -/
theorem exists_found {t : Terminal} (ht : circuit.HasTerminal t) :
    ∃ c, circuit.component? t.component = some c ∧ c.hasPort t.port = true ∧
      t.component.isScalar = true ∧ t.port.isScalar = true := by
  obtain ⟨c, hc, hid, hport⟩ := ht
  obtain ⟨port, hmem, hsame⟩ := List.contains_iff_exists_mem_beq.1 hport
  refine ⟨c, (component?_eq_some_iff circuit).2 ⟨hc, hid⟩, hport, ?_, ?_⟩
  · rw [← Ident.isScalar_congr hid]
    exact (h.names c hc).1
  · rw [Ident.isScalar_congr hsame]
    exact Kind.isScalar_ports _ _ hmem

/-- In a well-formed circuit nothing is wrong with the end of a wire. -/
theorem endProblem?_eq_none {wire : Wire} (hwire : wire ∈ circuit.wires) {t : Terminal}
    (ht : t ∈ wire.terminals) : circuit.endProblem? wire t = none := by
  obtain ⟨c, hfound, hport, -⟩ := h.exists_found (h.ends wire hwire t ht)
  rw [endProblem?, hfound]
  dsimp only
  rw [hport, Bool.not_true, Bool.and_false]
  rfl

/-- The component of a port can be looked up. -/
theorem isScalar_component {kind : Kind} {direction : String} {ports : List Port}
    (hports : Mirrors circuit.components kind direction ports) {port : Port}
    (hport : port ∈ ports) : port.component.isScalar = true := by
  obtain ⟨c, hc, -, hid⟩ := hports.exists_component hport
  rw [← hid]
  exact (h.names c hc).1

/-- A well-formed circuit can be inspected. -/
theorem isInspectable : circuit.isInspectable = true := by
  rw [Circuit.isInspectable, Bool.and_eq_true, Bool.and_eq_true, List.all_eq_true,
    List.all_eq_true, List.all_eq_true]
  refine ⟨⟨fun wire hwire => List.all_eq_true.2 (fun t ht => ?_),
    fun port => h.isScalar_component h.inputs⟩, fun port => h.isScalar_component h.outputs⟩
  obtain ⟨c, -, -, hcomponent, hport⟩ := h.exists_found (h.ends wire hwire t ht)
  rw [canInspectEnd, hcomponent, hport]
  rfl

/-- An inspection finds components of unknown kind and nothing else, unless it finds none at all. -/
theorem inspect_problems : ∃ inspection, circuit.inspect = .ok inspection ∧
    inspection.problems = if circuit.components.isEmpty then [.noComponents] else
      (circuit.components.filter (!·.kind.isKnown)).map (fun c => .unknownKind c.id c.kind) := by
  have hends : circuit.wires.flatMap (fun wire =>
      wire.terminals.filterMap (circuit.endProblem? wire)) = [] := by
    refine List.flatMap_eq_nil_iff.2 (fun wire hwire => ?_)
    exact List.filterMap_eq_nil_iff.2 (fun t ht => h.endProblem?_eq_none hwire ht)
  have hinputs : circuit.inputs.filter (fun port => !circuit.isOfKind port.component .input) = [] :=
    List.filter_eq_nil_iff.2 (fun port hport => by simp [isOfKind_of_mirrors h.inputs hport])
  have houtputs : circuit.outputs.filter (fun port => !circuit.isOfKind port.component .output) =
      [] :=
    List.filter_eq_nil_iff.2 (fun port hport => by simp [isOfKind_of_mirrors h.outputs hport])
  rw [inspect]
  split
  · exact ⟨_, rfl, rfl⟩
  · rw [if_pos h.isInspectable]
    refine ⟨_, rfl, ?_⟩
    dsimp only
    rw [problems, hends, hinputs, houtputs, List.map_nil, List.map_nil, List.append_nil,
      List.append_nil, List.append_nil]

/-- A name that the components answer to is one that an entry may refer to. -/
theorem refers {entry : Json} {member : String} {id : Ident}
    (hmember : entry.get? member = some id.value) {c : Component} (hc : c ∈ circuit.components)
    (hid : c.id == id) : Refers (circuit.components.map (·.id)) entry member := by
  refine ⟨id, hmember, ?_, ?_⟩
  · rw [← Ident.isScalar_congr hid]
    exact (h.names c hc).1
  · exact List.contains_iff_exists_mem_beq.2 ⟨c.id, List.mem_map_of_mem hc, BEq.symm hid⟩

/-- The external ports of a side are written as ones that stand for components. -/
theorem describesPorts {kind : Kind} {direction list : String} {ports : List Port}
    (hports : Mirrors circuit.components kind direction ports)
    (hlist : circuit.toJson.get? list = some (.arr (ports.map Port.toJson))) :
    DescribesPorts (circuit.components.map (·.id)) circuit.toJson list := by
  intro listed hlisted
  rw [hlist] at hlisted
  cases hlisted
  refine ⟨_, rfl, List.forall_mem_map.2 (fun port hport => ⟨rfl, ?_⟩)⟩
  obtain ⟨c, hc, -, hid⟩ := hports.exists_component hport
  exact h.refers rfl hc (beq_of_eq hid)

/-- A well-formed circuit is written as a value that describes it. -/
theorem describesCircuit : DescribesCircuit circuit.toJson
    (circuit.components.map Component.toJson) (circuit.wires.map Wire.toJson)
    (circuit.components.map (·.id)) (circuit.wires.map (·.id)) where
  components := rfl
  wires := rfl
  described := by
    rw [List.forall₂_map_left_iff, List.forall₂_map_right_iff, List.forall₂_same]
    refine fun c hc => ⟨rfl, (h.names c hc).1, rfl, ?_⟩
    rintro _ ⟨⟩
    exact ⟨_, _, rfl, rfl, rfl, rfl⟩
  distinct := ⟨List.pairwise_map.2 circuit.distinctIds, nofun⟩
  wired := by
    rw [List.forall₂_map_left_iff, List.forall₂_map_right_iff, List.forall₂_same]
    intro wire hwire
    obtain ⟨source, hsource, hsourceId, -⟩ := h.ends wire hwire wire.source List.mem_cons_self
    obtain ⟨target, htarget, htargetId, -⟩ :=
      h.ends wire hwire wire.target (List.mem_cons_of_mem _ List.mem_cons_self)
    exact ⟨rfl, (h.wireNames wire hwire).1, h.refers rfl hsource hsourceId, rfl,
      h.refers rfl htarget htargetId, rfl⟩
  wiresDistinct := ⟨List.pairwise_map.2 h.distinct, nofun⟩
  inputs := h.describesPorts h.inputs rfl
  outputs := h.describesPorts h.outputs rfl

end WellFormed

/-- Edits of an empty circuit, rejected or not, lead to a well-formed one, in which every component
is found under its own identifier and components stand in the order of their additions. Inspecting
it finds no problem but that it is empty, or that components are of unknown kind. What it is written
as is accepted. -/
theorem edits_wellFormed (start : Circuit) {edits : List Edit}
    (hedits : ∀ edit ∈ edits, edit.Nameable) :
    let circuit := edits.foldl Circuit.edit start.clear
    (∀ id c, circuit.component? id = some c ↔ c ∈ circuit.components ∧ c.id == id) ∧
      circuit.WellFormed ∧
      (∀ edit, (circuit.edit edit).components.Sublist circuit.components ∨
        ∃ component, edit = .addComponent component ∧
          (circuit.edit edit).components = circuit.components ++ [component]) ∧
      (∃ inspection, circuit.inspect = .ok inspection ∧
        inspection.problems = if circuit.components.isEmpty then [.noComponents] else
          (circuit.components.filter (!·.kind.isKnown)).map (fun c => .unknownKind c.id c.kind)) ∧
      checkStructure circuit.toJson = .ok () := by
  intro circuit
  have h : circuit.WellFormed := (WellFormed.clear start).edits hedits
  exact ⟨fun _ _ => component?_eq_some_iff circuit, h, components_edit circuit,
    h.inspect_problems, checkStructure_eq_ok_iff.2 ⟨_, _, _, _, h.describesCircuit⟩⟩

/-- Edits of which some are rejected: a name that is taken, a wire that is there in the other
direction, one from a terminal to itself, and one to a port that is not there. The relay is removed
with its wires and added again, and there is a component of unknown kind. -/
def reworking : List Edit :=
  let place (id : String) (kind : Kind) : Edit := .addComponent { id := .text id, kind }
  let join (id a p b q : String) : Edit :=
    .addWire ⟨.text id, ⟨.text a, .text p⟩, ⟨.text b, .text q⟩⟩
  [place "old" .power, .clear, place "a" .input, place "r" .relayNo, place "r" .power,
    place "b" .input, join "w1" "a" "out" "r" "coil_in", join "w2" "r" "coil_in" "a" "out",
    join "w3" "b" "out" "b" "out", join "w4" "b" "out" "r" "plug", .removeComponent (.text "a"),
    place "a" .input, join "w1" "b" "out" "r" "contact_in", join "w5" "a" "out" "r" "coil_in",
    place "clock" (.other (.arr [.null])), .removeWire (.text "w1")]

/-- The circuit after these edits has its inputs in the order in which they were last added, and the
component of unknown kind is all that an inspection finds. -/
theorem wellFormed_reworking :
    let circuit := reworking.foldl Circuit.edit (clear {})
    (∀ edit ∈ reworking, edit.Nameable) ∧ circuit.WellFormed ∧
      circuit.inputs.map (·.component) = [.text "b", .text "a"] ∧
      circuit.wires.map (·.id) = [.text "w5"] ∧
      (∃ inspection, circuit.inspect = .ok inspection ∧
        inspection.problems = [.unknownKind (.text "clock") (.other (.arr [.null]))]) ∧
      checkStructure circuit.toJson = .ok () := by
  intro circuit
  have hedits : ∀ edit ∈ reworking, edit.Nameable := by
    simp [reworking, Edit.Nameable, Ident.isNaN, Ident.isScalar, Ident.text, Json.isScalar]
  obtain ⟨-, hwellFormed, -, hinspect, hcheck⟩ := edits_wellFormed {} hedits
  have hproblems : (if circuit.components.isEmpty then [Problem.noComponents] else
      (circuit.components.filter (!·.kind.isKnown)).map (fun c => .unknownKind c.id c.kind)) =
      [.unknownKind (.text "clock") (.other (.arr [.null]))] := by decide +kernel
  rw [hproblems] at hinspect
  exact ⟨hedits, hwellFormed, by decide +kernel, by decide +kernel, hinspect, hcheck⟩

end Circuit

end Switchyard.Relay
