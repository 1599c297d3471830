import Switchyard.Proofs.Relay.Documents
import Switchyard.Proofs.Relay.WellFormed

/-!
# Saving and loading

A circuit is written as a document member by member, and read back the same but for labels and a
description that count as absent (`Circuit.Saveable.exists_restores`): each component, wire and port
by itself (`Component.ofJson_toJson`, `Wire.ofJson_toJson`, `Port.ofJson_toJson`), and the
components as a whole because distinct names keep them apart (`readComponents_of_fresh`). The names
are distinct too in a document that passed the check, so that a circuit loaded from one has the
entries of the document one by one (`statedBy_of_describes`), and its wires end on components of it
(`missing_not_mem_problems`).
-/

namespace Switchyard.Relay

/-! ## Entries on their own -/

/-- The kind is the one that its value names: a known kind stands for itself. -/
def Kind.Canonical (kind : Kind) : Prop :=
  Kind.ofJson kind.toJson = kind

instance (kind : Kind) : Decidable kind.Canonical :=
  inferInstanceAs (Decidable (Kind.ofJson kind.toJson = kind))

/-- A kind is written as the value that it was read from. -/
theorem Kind.toJson_ofJson (value : Json) : (Kind.ofJson value).toJson = value := by
  unfold Kind.ofJson
  cases hfind : Kind.known.find? (fun kind => kind.toJson = value) with
  | none => rfl
  | some kind => simpa using List.find?_some hfind

/-- A kind that was read is canonical: a known name is read as the kind of that name. -/
theorem Kind.canonical_ofJson (value : Json) : (Kind.ofJson value).Canonical :=
  congrArg Kind.ofJson (Kind.toJson_ofJson value)

/-- The component as it is saved: a label that counts as absent is none. -/
def Component.saved (component : Component) : Component :=
  { component with label := if component.label.isVoid then .null else component.label }

/-- A saved component is read back as it was saved. -/
theorem Component.ofJson_toJson {component : Component} (h : component.kind.Canonical) :
    Component.ofJson component.toJson = .ok component.saved := by
  have hread : Component.ofJson component.toJson =
      .ok { component.saved with kind := Kind.ofJson component.kind.toJson } := by
    unfold Component.toJson Component.saved
    cases component.label.isVoid with
    | true => rfl
    | false => rfl
  rw [hread, h]
  rfl

/-- Saving a component twice is saving it once. -/
theorem Component.toJson_saved (component : Component) :
    component.saved.toJson = component.toJson := by
  unfold Component.toJson Component.saved
  cases hlabel : component.label.isVoid with
  | true => rfl
  | false =>
    simp only [Bool.false_eq_true, if_false, hlabel]

/-- A saved wire is read back as it was. -/
theorem Wire.ofJson_toJson (wire : Wire) : Wire.ofJson wire.toJson = .ok wire := rfl

/-- A saved port is read back as it was. -/
theorem Port.ofJson_toJson (direction : String) (port : Port) :
    Port.ofJson direction port.toJson = .ok port := rfl

/-! ## What an entry gives -/

/-- What was given for a required member is the member. -/
theorem get?_of_required {value v : Json} {member : String} (h : required value member = .ok v) :
    value.get? member = some v := by
  cases value with
  | obj members =>
    rw [required] at h
    split at h
    · next w hw =>
      cases h
      exact hw
    · cases h
  | null | bool | int | real | str | arr => cases h

/-- What was given for an optional member is the member, or else the default. -/
theorem getD_of_optional {value v default : Json} {member : String}
    (h : optional value member default = .ok v) : v = (value.get? member).getD default := by
  cases value with
  | obj members =>
    cases h
    rfl
  | null | bool | int | real | str | arr => cases h

/-- A component has the identifier and the kind that its entry states. -/
structure Component.StatedBy (entry : Json) (component : Component) : Prop where
  id_eq : entry.get? "id" = some component.id.value
  kind_eq : entry.get? "type" = some component.kind.toJson

/-- A component that was read is stated by its entry. -/
theorem Component.statedBy_ofJson {entry : Json} {component : Component}
    (h : Component.ofJson entry = .ok component) : component.StatedBy entry := by
  simp only [Component.ofJson, bind_eq_ok_iff] at h
  obtain ⟨pos, -, id, hid, kind, hkind, -, -, x, -, -, -, y, -, rotation, -, label, -, ⟨⟩⟩ := h
  refine ⟨get?_of_required hid, ?_⟩
  rw [Kind.toJson_ofJson]
  exact get?_of_required hkind

/-- A component that was read has a canonical kind. -/
theorem Component.canonical_ofJson {entry : Json} {component : Component}
    (h : Component.ofJson entry = .ok component) : component.kind.Canonical := by
  simp only [Component.ofJson, bind_eq_ok_iff] at h
  obtain ⟨pos, -, id, -, kind, -, -, -, x, -, -, -, y, -, rotation, -, label, -, ⟨⟩⟩ := h
  exact Kind.canonical_ofJson kind

/-- A wire has the identifier and the ends that its entry states. -/
structure Wire.StatedBy (entry : Json) (wire : Wire) : Prop where
  id_eq : entry.get? "id" = some wire.id.value
  source_eq : entry.get? "source_comp" = some wire.source.component.value
  sourcePort_eq : entry.get? "source_port" = some wire.source.port.value
  target_eq : entry.get? "target_comp" = some wire.target.component.value
  targetPort_eq : entry.get? "target_port" = some wire.target.port.value

/-- A wire that was read is stated by its entry. -/
theorem Wire.statedBy_ofJson {entry : Json} {wire : Wire} (h : Wire.ofJson entry = .ok wire) :
    wire.StatedBy entry := by
  simp only [Wire.ofJson, bind_eq_ok_iff] at h
  obtain ⟨id, hid, source, hsource, sourcePort, hsourcePort, target, htarget, targetPort,
    htargetPort, ⟨⟩⟩ := h
  exact ⟨get?_of_required hid, get?_of_required hsource, get?_of_required hsourcePort,
    get?_of_required htarget, get?_of_required htargetPort⟩

/-- A port has the identifier and the component that its entry states, and the name and direction,
if it states any. -/
structure Port.StatedBy (direction : String) (entry : Json) (port : Port) : Prop where
  id_eq : entry.get? "id" = some port.id.value
  component_eq : entry.get? "component_id" = some port.component.value
  name_eq : port.name.value = (entry.get? "name").getD port.id.value
  direction_eq : port.direction = (entry.get? "direction").getD (.str direction)

/-- A port that was read is stated by its entry. -/
theorem Port.statedBy_ofJson {direction : String} {entry : Json} {port : Port}
    (h : Port.ofJson direction entry = .ok port) : port.StatedBy direction entry := by
  simp only [Port.ofJson, bind_eq_ok_iff] at h
  obtain ⟨id, hid, name, hname, stated, hstated, component, hcomponent, ⟨⟩⟩ := h
  exact ⟨get?_of_required hid, get?_of_required hcomponent, getD_of_optional hname,
    getD_of_optional hstated⟩

/-! ## Components of distinct names -/

/-- Components of new and distinct names are placed at the end, in order and each under its name. -/
theorem readComponents_of_fresh {entries : List Json} {components : List Component}
    (placed : Placement)
    (hread : List.Forall₂ (fun entry c => Component.ofJson entry = .ok c) entries components)
    (hscalar : ∀ c ∈ components, c.id.isScalar = true)
    (hfresh : Fresh (placed.entries.map (·.1)) (components.map (·.id))) :
    ∃ next, readComponents placed entries = .ok next ∧
      next.entries = placed.entries ++ components.map (fun c => (c.id, c)) := by
  induction hread generalizing placed with
  | nil => exact ⟨placed, rfl, (List.append_nil _).symm⟩
  | @cons entry c rest components hread _ ih =>
    obtain ⟨hc, hcomponents⟩ := List.forall_mem_cons.1 hscalar
    obtain ⟨hnew, hothers⟩ := fresh_cons.1 hfresh
    have hput : (placed.put c).entries = placed.entries ++ [(c.id, c)] := by
      refine Assoc.put_of_absent (fun placedEntry hplaced => ?_)
      rw [← Bool.not_eq_true]
      intro hsame
      rw [← Bool.not_eq_true, List.contains_iff_exists_mem_beq] at hnew
      exact hnew ⟨placedEntry.1, List.mem_map_of_mem hplaced, BEq.symm hsame⟩
    have hkeys : (placed.put c).entries.map (·.1) = placed.entries.map (·.1) ++ [c.id] := by
      rw [hput, List.map_append]
      rfl
    obtain ⟨next, hnext, hentries⟩ := ih (placed.put c) hcomponents (hkeys ▸ hothers)
    refine ⟨next, ?_, ?_⟩
    · rw [readComponents, hread]
      dsimp only [bind, Except.bind]
      rw [if_pos hc, hnext]
    · rw [hentries, hput, List.append_assoc]
      rfl

/-- Components that were placed were read one by one, and can be looked up. -/
theorem exists_of_readComponents : ∀ {entries : List Json} {placed next : Placement},
    readComponents placed entries = .ok next →
    ∃ components, List.Forall₂ (fun entry c => Component.ofJson entry = .ok c) entries components ∧
      ∀ c ∈ components, c.id.isScalar = true
  | [], _, _, _ => ⟨[], .nil, nofun⟩
  | entry :: rest, placed, next, h => by
    rw [readComponents] at h
    obtain ⟨c, hread, h⟩ := bind_eq_ok_iff.1 h
    split at h
    · next hscalar =>
      obtain ⟨components, hrest, hothers⟩ := exists_of_readComponents h
      exact ⟨c :: components, .cons hread hrest, List.forall_mem_cons.2 ⟨hscalar, hothers⟩⟩
    · cases h

/-! ## Loading what was saved -/

/-- The names of the components can be looked up, and their kinds are those that their values name.
-/
structure Circuit.Saveable (circuit : Circuit) : Prop where
  ids : ∀ c ∈ circuit.components, c.id.isScalar = true
  kinds : ∀ c ∈ circuit.components, c.kind.Canonical

/-- Components that were read have ids that can be looked up and canonical kinds, by induction on
the entries. -/
theorem saveable_readComponents : ∀ {entries : List Json} {placed next : Placement},
    readComponents placed entries = .ok next →
    (∀ entry ∈ placed.entries, entry.2.id.isScalar = true ∧ entry.2.kind.Canonical) →
    ∀ entry ∈ next.entries, entry.2.id.isScalar = true ∧ entry.2.kind.Canonical
  | [], _, _, h, hplaced => by
    cases h
    exact hplaced
  | value :: rest, placed, next, h, hplaced => by
    rw [readComponents] at h
    obtain ⟨c, hread, h⟩ := bind_eq_ok_iff.1 h
    split at h
    · next hscalar =>
      refine saveable_readComponents h (fun entry hentry => ?_)
      rcases Assoc.mem_of_mem_put hentry with hold | ⟨-, hnew⟩
      · exact hplaced entry hold
      · rw [hnew]
        exact ⟨hscalar, Component.canonical_ofJson hread⟩
    · cases h

/-- What a circuit is read from: the lists of its document, or none for those that are absent. -/
theorem Circuit.readings_of_ofJson {value : Json} {circuit : Circuit}
    (h : Circuit.ofJson value = .ok circuit) :
    (∃ entries, entriesOf ((value.get? "components").getD (.arr [])) = .ok entries ∧
      readComponents {} entries = .ok circuit.placed) ∧
    (∃ entries, entriesOf ((value.get? "wires").getD (.arr [])) = .ok entries ∧
      entries.mapM Wire.ofJson = .ok circuit.wires) ∧
    (∃ entries, entriesOf ((value.get? "inputs").getD (.arr [])) = .ok entries ∧
      entries.mapM (Port.ofJson "input") = .ok circuit.inputs) ∧
    ∃ entries, entriesOf ((value.get? "outputs").getD (.arr [])) = .ok entries ∧
      entries.mapM (Port.ofJson "output") = .ok circuit.outputs := by
  simp only [Circuit.ofJson, bind_eq_ok_iff] at h
  obtain ⟨placedList, hplacedList, placedEntries, hplacedEntries, placed, hplaced, id, -, name, -,
    era, -, wireList, hwireList, wireEntries, hwireEntries, wires, hwires, inputList, hinputList,
    inputEntries, hinputEntries, inputs, hinputs, outputList, houtputList, outputEntries,
    houtputEntries, outputs, houtputs, description, -, ⟨⟩⟩ := h
  rw [getD_of_optional hplacedList] at hplacedEntries
  rw [getD_of_optional hwireList] at hwireEntries
  rw [getD_of_optional hinputList] at hinputEntries
  rw [getD_of_optional houtputList] at houtputEntries
  exact ⟨⟨_, hplacedEntries, hplaced⟩, ⟨_, hwireEntries, hwires⟩, ⟨_, hinputEntries, hinputs⟩,
    _, houtputEntries, houtputs⟩

/-- Every circuit that was loaded can be saved. -/
theorem Circuit.saveable_ofJson {value : Json} {circuit : Circuit}
    (h : Circuit.ofJson value = .ok circuit) : circuit.Saveable := by
  obtain ⟨⟨entries, -, hplaced⟩, -⟩ := Circuit.readings_of_ofJson h
  have hentries := saveable_readComponents hplaced nofun
  exact ⟨List.forall_mem_map.2 (fun entry hentry => (hentries entry hentry).1),
    List.forall_mem_map.2 (fun entry hentry => (hentries entry hentry).2)⟩

/-- The circuit is another one as it is saved. Its components are the same, in order and under their
names, but for labels that count as absent, and so are all other members; a description that counts
as absent becomes the empty text. -/
structure Circuit.Restores (circuit next : Circuit) : Prop where
  id_eq : next.id = circuit.id
  name_eq : next.name = circuit.name
  era_eq : next.era = circuit.era
  components_eq : next.components = circuit.components.map Component.saved
  names_beq : List.Forall₂ (fun a b => (a == b) = true) circuit.names next.names
  wires_eq : next.wires = circuit.wires
  inputs_eq : next.inputs = circuit.inputs
  outputs_eq : next.outputs = circuit.outputs
  description_eq : next.description =
    if circuit.description.isVoid then .str "" else circuit.description

namespace Circuit

variable {circuit : Circuit}

/-- The saved components of a saveable circuit are read back in their order, each as it was saved.
-/
theorem Saveable.readComponents_eq (h : circuit.Saveable) :
    ∃ next, readComponents {} (circuit.components.map Component.toJson) = .ok next ∧
      next.entries = circuit.components.map (fun c => (c.id, c.saved)) := by
  have hread : List.Forall₂ (fun entry c => Component.ofJson entry = .ok c)
      (circuit.components.map Component.toJson) (circuit.components.map Component.saved) := by
    rw [List.forall₂_map_left_iff, List.forall₂_map_right_iff, List.forall₂_same]
    exact fun c hc => Component.ofJson_toJson (h.kinds c hc)
  have hids : (circuit.components.map Component.saved).map (·.id) =
      circuit.components.map (·.id) := by
    rw [List.map_map]
    rfl
  have hfresh : Fresh [] ((circuit.components.map Component.saved).map (·.id)) := by
    rw [hids]
    exact ⟨List.pairwise_map.2 circuit.distinctIds, nofun⟩
  obtain ⟨next, hnext, hentries⟩ := readComponents_of_fresh {} hread
    (List.forall_mem_map.2 h.ids) hfresh
  refine ⟨next, hnext, ?_⟩
  rw [hentries, List.map_map]
  rfl

/-- A circuit is read back as it was saved. -/
theorem Saveable.exists_restores (h : circuit.Saveable) :
    ∃ next, Circuit.ofJson circuit.toJson = .ok next ∧ circuit.Restores next := by
  obtain ⟨placed, hplaced, hentries⟩ := h.readComponents_eq
  have hwires : (circuit.wires.map Wire.toJson).mapM Wire.ofJson = .ok circuit.wires := by
    rw [mapM_eq_ok_iff, List.forall₂_map_left_iff, List.forall₂_same]
    exact fun wire _ => Wire.ofJson_toJson wire
  have hports : ∀ (direction : String) (ports : List Port),
      (ports.map Port.toJson).mapM (Port.ofJson direction) = .ok ports := by
    intro direction ports
    rw [mapM_eq_ok_iff, List.forall₂_map_left_iff, List.forall₂_same]
    exact fun port _ => Port.ofJson_toJson direction port
  have hoptional : ∀ member default, optional circuit.toJson member default =
      .ok ((circuit.toJson.get? member).getD default) := fun _ _ => rfl
  have hmembers : circuit.toJson.get? "id" = some circuit.id ∧
      circuit.toJson.get? "name" = some circuit.name ∧
      circuit.toJson.get? "era" = some circuit.era ∧
      circuit.toJson.get? "components" = some (.arr (circuit.components.map Component.toJson)) ∧
      circuit.toJson.get? "wires" = some (.arr (circuit.wires.map Wire.toJson)) ∧
      circuit.toJson.get? "inputs" = some (.arr (circuit.inputs.map Port.toJson)) ∧
      circuit.toJson.get? "outputs" = some (.arr (circuit.outputs.map Port.toJson)) :=
    ⟨rfl, rfl, rfl, rfl, rfl, rfl, rfl⟩
  have hdescription : (circuit.toJson.get? "description").getD (.str "") =
      if circuit.description.isVoid then .str "" else circuit.description := by
    unfold toJson
    cases circuit.description.isVoid <;> rfl
  have hlist : ∀ entries, entriesOf (.arr entries) = .ok entries := fun _ => rfl
  have hread : Circuit.ofJson circuit.toJson = .ok {
      id := circuit.id, name := circuit.name, era := circuit.era, placed := placed
      wires := circuit.wires, inputs := circuit.inputs, outputs := circuit.outputs
      description := if circuit.description.isVoid then .str "" else circuit.description } := by
    simp only [Circuit.ofJson, hoptional, hmembers, hdescription, hlist, Option.getD_some,
      hplaced, hwires, hports, bind, Except.bind, pure, Except.pure]
  refine ⟨_, hread, rfl, rfl, rfl, ?_, ?_, rfl, rfl, rfl, rfl⟩
  · rw [components]
    dsimp only
    rw [hentries, List.map_map]
    rfl
  · rw [names, names]
    dsimp only
    rw [hentries, components, List.map_map, List.map_map, List.forall₂_map_left_iff,
      List.forall₂_map_right_iff, List.forall₂_same]
    exact circuit.placed.keyed.own

/-- A circuit that was read back is saved as the same document. -/
theorem Restores.toJson_eq {next : Circuit} (h : circuit.Restores next) :
    next.toJson = circuit.toJson := by
  have hcomponents : next.components.map Component.toJson =
      circuit.components.map Component.toJson := by
    rw [h.components_eq, List.map_map]
    exact List.map_congr_left (fun c _ => Component.toJson_saved c)
  have hdescription : (if next.description.isVoid then [] else
      [("description", next.description)]) =
      if circuit.description.isVoid then [] else [("description", circuit.description)] := by
    rw [h.description_eq]
    cases hvoid : circuit.description.isVoid with
    | true => rfl
    | false => simp only [Bool.false_eq_true, if_false, hvoid]
  rw [toJson, toJson, hcomponents, hdescription, h.id_eq, h.name_eq, h.era_eq, h.wires_eq,
    h.inputs_eq, h.outputs_eq]

/-! ## Loading what was checked -/

/-- The circuit has a component, a wire and a port for each entry of the document, in order, and its
components stand under their own names. -/
structure StatedBy (value : Json) (circuit : Circuit) : Prop where
  components : ∃ entries, value.get? "components" = some (.arr entries) ∧
    List.Forall₂ Component.StatedBy entries circuit.components
  names_eq : circuit.names = circuit.components.map (·.id)
  wires : ∃ entries, value.get? "wires" = some (.arr entries) ∧
    List.Forall₂ Wire.StatedBy entries circuit.wires
  inputs : ∃ entries, (value.get? "inputs").getD (.arr []) = .arr entries ∧
    List.Forall₂ (Port.StatedBy "input") entries circuit.inputs
  outputs : ∃ entries, (value.get? "outputs").getD (.arr []) = .arr entries ∧
    List.Forall₂ (Port.StatedBy "output") entries circuit.outputs

end Circuit

/-- The ports that are read from a list are stated by its entries. -/
theorem DescribesPorts.statedBy {ids : List Ident} {value : Json} {list direction : String}
    (h : DescribesPorts ids value list) {entries : List Json} {ports : List Port}
    (hentries : entriesOf ((value.get? list).getD (.arr [])) = .ok entries)
    (hports : entries.mapM (Port.ofJson direction) = .ok ports) :
    ∃ entries, (value.get? list).getD (.arr []) = .arr entries ∧
      List.Forall₂ (Port.StatedBy direction) entries ports := by
  have hstated := (mapM_eq_ok_iff.1 hports).imp (fun _ _ hport => Port.statedBy_ofJson hport)
  cases hlist : value.get? list with
  | none =>
    rw [hlist] at hentries
    cases hentries
    exact ⟨_, rfl, hstated⟩
  | some listed =>
    obtain ⟨items, rfl, -⟩ := h listed hlist
    rw [hlist] at hentries
    cases hentries
    exact ⟨_, rfl, hstated⟩

section
variable {value : Json} {placed drawn : List Json} {ids wireIds : List Ident} {circuit : Circuit}
  (h : DescribesCircuit value placed drawn ids wireIds) (hload : Circuit.ofJson value = .ok circuit)
include h hload

/-- A circuit that is read from a document that describes one is stated by it, and the names of its
components are those described. -/
theorem statedBy_of_describes : circuit.StatedBy value ∧ circuit.names = ids := by
  obtain ⟨⟨entries, hentries, hplacement⟩, ⟨wireEntries, hwireEntries, hwires⟩,
    ⟨inputEntries, hinputEntries, hinputs⟩, outputEntries, houtputEntries, houtputs⟩ :=
    Circuit.readings_of_ofJson hload
  rw [h.components] at hentries
  cases hentries
  rw [h.wires] at hwireEntries
  cases hwireEntries
  obtain ⟨components, hread, hscalar⟩ := exists_of_readComponents hplacement
  have hids : components.map (·.id) = ids := by
    have hunique : Relator.RightUnique
        (fun (entry : Json) (id : Ident) => entry.get? "id" = some id.value) := by
      intro entry a b ha hb
      rw [ha] at hb
      exact congrArg Ident.mk (Option.some.inj hb)
    refine List.right_unique_forall₂' hunique ?_ (h.described.imp (fun _ _ hc => hc.named))
    rw [List.forall₂_map_right_iff]
    exact hread.imp (fun _ _ hc => (Component.statedBy_ofJson hc).id_eq)
  obtain ⟨next, hnext, hplaced⟩ := readComponents_of_fresh {} hread hscalar (hids ▸ h.distinct)
  obtain rfl : circuit.placed = next := Except.ok.inj (hplacement.symm.trans hnext)
  have hcomponents : circuit.components = components := by
    rw [Circuit.components, hplaced]
    simp [Function.comp_def]
  have hnames : circuit.names = components.map (·.id) := by
    rw [Circuit.names, hplaced]
    simp
  refine ⟨⟨⟨placed, h.components, ?_⟩, ?_, ⟨drawn, h.wires, ?_⟩,
    h.inputs.statedBy hinputEntries hinputs, h.outputs.statedBy houtputEntries houtputs⟩,
    hnames.trans hids⟩
  · rw [hcomponents]
    exact hread.imp (fun _ _ hc => Component.statedBy_ofJson hc)
  · rw [hcomponents, hnames]
  · exact (mapM_eq_ok_iff.1 hwires).imp (fun _ _ hwire => Wire.statedBy_ofJson hwire)

/-- The ends of its wires are on components of it. -/
theorem exists_component_of_end : ∀ wire ∈ circuit.wires, ∀ terminal ∈ wire.terminals,
    ∃ c, circuit.component? terminal.component = some c := by
  obtain ⟨hstated, hnames⟩ := statedBy_of_describes h hload
  have hfound : ∀ {entry : Json} {member : String} {id : Ident}, Refers ids entry member →
      entry.get? member = some id.value → ∃ c, circuit.component? id = some c := by
    rintro entry member id ⟨named, hnamed, -, hknown⟩ hid
    rw [hid] at hnamed
    obtain rfl : id = named := congrArg Ident.mk (Option.some.inj hnamed)
    obtain ⟨key, hkey, hsame⟩ := List.contains_iff_exists_mem_beq.1 hknown
    rw [← hnames] at hkey
    obtain ⟨placedEntry, hplaced, rfl⟩ := List.mem_map.1 hkey
    rw [← Option.ne_none_iff_exists']
    intro hnone
    rw [BEq.comm, Assoc.get?_eq_none_iff.1 hnone placedEntry hplaced] at hsame
    cases hsame
  have hrefers := forall_mem_of_forall₂ h.wired
    (fun _ _ hwire => And.intro hwire.source hwire.target)
  obtain ⟨entries, hentries, hwires⟩ := hstated.wires
  cases h.wires.symm.trans hentries
  have hends := forall_mem_of_forall₂ ((List.forall₂_and_left _ _).2 ⟨hrefers, hwires⟩).flip
    (fun _ entry hwire => Exists.intro entry hwire)
  intro wire hwire
  obtain ⟨entry, ⟨hsource, htarget⟩, hentry⟩ := hends wire hwire
  exact List.forall_mem_cons.2 ⟨hfound hsource hentry.source_eq,
    List.forall_mem_singleton.2 (hfound htarget hentry.target_eq)⟩

/-- An inspection of it finds no wire that ends on a component that is missing. -/
theorem missing_not_mem_problems {inspection : Inspection}
    (hinspection : circuit.inspect = .ok inspection) (wire component : Ident) :
    .missingComponent wire component ∉ inspection.problems := by
  have hends := exists_component_of_end h hload
  unfold Circuit.inspect at hinspection
  split at hinspection
  · cases hinspection
    simp
  · split at hinspection
    · cases hinspection
      dsimp only
      simp only [Circuit.problems, List.mem_append, List.mem_map, List.mem_flatMap,
        List.mem_filterMap, reduceCtorEq, and_false, exists_false, or_false, false_or]
      rintro ⟨drawnWire, hwire, terminal, hterminal, hproblem⟩
      obtain ⟨c, hc⟩ := hends drawnWire hwire terminal hterminal
      rw [Circuit.endProblem?, hc] at hproblem
      dsimp only at hproblem
      split at hproblem <;> cases hproblem
    · cases hinspection

end

/-- Saving and loading lose nothing. A circuit that can be saved, as every loaded one can, is loaded
again with the same members, its components, wires and ports in order, but for labels and a
description that count as absent; it is saved as the same document again. A circuit loaded from a
document that passed the check has a component, a wire and a port for each entry of it, in order,
with the identifiers, kinds and ends that these state, and no inspection finds a wire of it that
ends on a component that is missing. -/
theorem loaded_of_saved {circuit : Circuit} (h : circuit.Saveable) {value : Json} {loaded : Circuit}
    (hchecked : checkStructure value = .ok ()) (hload : Circuit.ofJson value = .ok loaded) :
    (∃ next, Circuit.ofJson circuit.toJson = .ok next ∧ circuit.Restores next ∧
      next.toJson = circuit.toJson) ∧
    loaded.Saveable ∧ loaded.StatedBy value ∧
    ∀ inspection, loaded.inspect = .ok inspection →
      ∀ wire component, .missingComponent wire component ∉ inspection.problems := by
  obtain ⟨next, hnext, hrestores⟩ := h.exists_restores
  obtain ⟨placed, drawn, ids, wireIds, hdescribes⟩ := checkStructure_eq_ok_iff.1 hchecked
  exact ⟨⟨next, hnext, hrestores, hrestores.toJson_eq⟩,
    Circuit.saveable_ofJson hload, (statedBy_of_describes hdescribes hload).1,
    fun inspection hinspection => missing_not_mem_problems hdescribes hload hinspection⟩

/-- A lamp on a power; only the lamp has a label. -/
def labelledLamp : Circuit where
  placed := [⟨.text "vcc", .power, .zero false, .zero true, .int 0, .str ""⟩,
    ⟨.text "lamp", .output, .zero false, .zero false, .int 90, .str "Lamp"⟩].foldl Placement.put {}
  wires := [⟨.text "w1", ⟨.text "vcc", outPort⟩, ⟨.text "lamp", inPort⟩⟩]
  outputs := [⟨.text "out_0", .text "Lamp", .str "output", .text "lamp"⟩]

/-- The lamp is saved and loaded with its label, and the power without. -/
theorem loaded_of_saved_lamp : labelledLamp.Saveable ∧
    checkStructure labelledLamp.toJson = .ok () ∧
    ∃ next, Circuit.ofJson labelledLamp.toJson = .ok next ∧ labelledLamp.Restores next ∧
      next.components.map (·.label) = [.null, .str "Lamp"] ∧
      next.toJson = labelledLamp.toJson ∧ next.StatedBy labelledLamp.toJson := by
  have hsaveable : labelledLamp.Saveable := ⟨by decide +kernel, by decide +kernel⟩
  have hchecked : checkStructure labelledLamp.toJson = .ok () := by decide +kernel
  obtain ⟨loaded, hload, hlabels⟩ := exists_of_toOption (by decide +kernel :
    (Circuit.ofJson labelledLamp.toJson).toOption.map (fun next => next.components.map (·.label)) =
      some [.null, .str "Lamp"])
  obtain ⟨⟨next, hnext, hrestores, hsame⟩, -, hstated, -⟩ := loaded_of_saved hsaveable hchecked hload
  cases hload.symm.trans hnext
  exact ⟨hsaveable, hchecked, loaded, hload, hrestores, hlabels, hsame, hstated⟩

end Switchyard.Relay
