import Switchyard.Proofs.Relay.States

/-!
# Circuits built from nothing

A circuit to which components and wires were added one after the other, and from which some were
removed again (`Circuit.Built`), can be looked up throughout, and its external ports stand for
distinct components of their side, each under the identifier of its component (`Registers`). Every
edit keeps this (`Circuit.Orderly.edit`), so it holds of all circuits built
(`Circuit.Built.orderly`). The names of the ports are left open: they are the labels of components,
and a label may be the identifier of another component.
-/

namespace Switchyard

/-! ## Names -/

/-- The key of a value can be looked up exactly if the value can. -/
theorem Json.isScalar_key (value : Json) : value.key.isScalar = value.isScalar := by
  cases value with
  | real x =>
    rw [key, realKey]
    split <;> rfl
  | null | bool | int | str | arr | obj => rfl

/-- Identifiers that name the same thing can both be looked up, or neither. -/
theorem Ident.isScalar_congr {a b : Ident} (h : a == b) : a.isScalar = b.isScalar := by
  have hkey : a.value.key = b.value.key := Ident.beq_iff.1 h
  rw [Ident.isScalar, Ident.isScalar, ← Json.isScalar_key, hkey, Json.isScalar_key]

/-- Of identifiers that name the same thing both are the number that is not a number, or neither. -/
theorem Ident.isNaN_congr {a b : Ident} (h : a == b) : a.isNaN = b.isNaN := by
  have hnan : ∀ {a b : Ident}, a.key = b.key → a.isNaN = true → b.isNaN = true := by
    rintro ⟨v⟩ ⟨w⟩ hkey ha
    cases v with
    | real x =>
      have hx : x.isNaN = true := ha
      have hv : (Json.real x).key = .real x := by
        rw [Json.key, Json.realKey, hx]
        rfl
      have hw : w.key = .real x := hkey.symm.trans hv
      cases w with
      | real y =>
        rw [Json.key, Json.realKey] at hw
        split at hw
        · cases hw
          exact hx
        · cases hw
      | null | bool | int | str | arr | obj => cases hw
    | null | bool | int | str | arr | obj => cases ha
  rw [Bool.eq_iff_iff]
  exact ⟨hnan (beq_iff.1 h), hnan (beq_iff.1 h).symm⟩

namespace Relay

/-- An identifier that can be looked up and found again: a scalar other than the null value and the
number that is not a number. -/
structure IsName (id : Ident) : Prop where
  scalar : id.isScalar = true
  number : id.isNaN = false
  present : id ≠ .null

/-- A text is a name. -/
theorem isName_text (name : String) : IsName (.text name) :=
  ⟨rfl, rfl, nofun⟩

/-- Every port of every kind of component can be looked up. -/
theorem Kind.isScalar_ports (kind : Kind) : ∀ port ∈ kind.ports, port.isScalar = true := by
  cases kind <;> first | exact List.forall_mem_nil _ | decide

/-! ## External ports -/

/-- External ports that stand for distinct components of one kind, each under the identifier of its
component. -/
structure Registers (components : List Component) (kind : Kind) (ports : List Port) : Prop where
  own : ∀ port ∈ ports, port.id = port.component
  placed : ∀ port ∈ ports, ∃ c ∈ components, c.kind = kind ∧ c.id = port.component
  distinct : ports.Pairwise (fun a b => (a.component == b.component) = false)

/-- The ports of a side after a component was added: the same, or one more for a component of the
side. -/
def Registered (kind : Kind) (component : Component) (ports next : List Port) : Prop :=
  next = ports ∨ component.kind = kind ∧
    ∃ port : Port, port.id = component.id ∧ port.component = component.id ∧ next = ports ++ [port]

namespace Registers

variable {components : List Component} {kind : Kind} {ports next : List Port}

/-- An empty list of ports registers no more than what is there. -/
theorem nil (components : List Component) (kind : Kind) : Registers components kind [] :=
  ⟨nofun, nofun, .nil⟩

/-- Ports stand for components with names, if all components have one. -/
theorem isName (h : Registers components kind ports) (hnames : ∀ c ∈ components, IsName c.id)
    {port : Port} (hport : port ∈ ports) : IsName port.component := by
  obtain ⟨c, hc, -, hown⟩ := h.placed port hport
  rw [← hown]
  exact hnames c hc

/-- A new component of a new name keeps the ports in order. -/
theorem add (h : Registers components kind ports) {component : Component}
    (hfresh : ∀ c ∈ components, (c.id == component.id) = false)
    (hnext : Registered kind component ports next) :
    Registers (components ++ [component]) kind next := by
  have hplaced : ∀ port ∈ ports, ∃ c ∈ components ++ [component],
      c.kind = kind ∧ c.id = port.component := fun port hport =>
    (h.placed port hport).imp (fun _ hc => ⟨List.mem_append_left _ hc.1, hc.2⟩)
  rcases hnext with rfl | ⟨hkind, port, hid, hcomponent, rfl⟩
  · exact ⟨h.own, hplaced, h.distinct⟩
  · refine ⟨?_, ?_, List.pairwise_append.2 ⟨h.distinct, List.pairwise_singleton _ _, ?_⟩⟩
    · exact List.forall_mem_append.2
        ⟨h.own, List.forall_mem_singleton.2 (hid.trans hcomponent.symm)⟩
    · exact List.forall_mem_append.2 ⟨hplaced, List.forall_mem_singleton.2
        ⟨component, List.mem_append_right _ List.mem_cons_self, hkind, hcomponent.symm⟩⟩
    · intro old hold new hnew
      obtain ⟨c, hc, -, hown⟩ := h.placed old hold
      rw [List.mem_singleton.1 hnew, hcomponent, ← hown]
      exact hfresh c hc

/-- Without a component its port is gone too, and the others keep theirs. -/
theorem remove (h : Registers components kind ports)
    (hnames : ∀ c ∈ components, IsName c.id) (id : Ident) :
    Registers (components.filter (·.id != id)) kind (ports.filter (!·.component.equals id)) := by
  refine ⟨fun port hport => h.own port (List.mem_filter.1 hport).1, fun port hport => ?_,
    h.distinct.sublist List.filter_sublist⟩
  obtain ⟨hport, hkept⟩ := List.mem_filter.1 hport
  obtain ⟨c, hc, hkind, hown⟩ := h.placed port hport
  rw [Ident.equals_eq_beq (h.isName hnames hport).number, ← hown] at hkept
  exact ⟨c, List.mem_filter.2 ⟨hc, hkept⟩, hkind, hown⟩

end Registers

/-! ## Edits -/

namespace Circuit

variable {circuit next : Circuit}

/-- A component is added after the others, if its name is new, and registered on its side. -/
theorem addComponent_eq_ok {component : Component}
    (h : circuit.addComponent component = .ok next) :
    component.id.isScalar = true ∧
      (∀ c ∈ circuit.components, (c.id == component.id) = false) ∧
      next.components = circuit.components ++ [component] ∧ next.wires = circuit.wires ∧
      Registered .input component circuit.inputs next.inputs ∧
      Registered .output component circuit.outputs next.outputs := by
  unfold addComponent at h
  split at h
  · cases h
  split at h
  · cases h
  next hscalar hnew =>
  have habsent : ∀ entry ∈ circuit.placed.entries, (entry.1 == component.id) = false := by
    rw [← Assoc.get?_eq_none_iff]
    simpa [component?] using hnew
  have hcomponents : (circuit.placed.put component).entries.map (·.2) =
      circuit.components ++ [component] := by
    have hentries : (circuit.placed.put component).entries =
        circuit.placed.entries ++ [(component.id, component)] := Assoc.put_of_absent habsent
    rw [hentries, List.map_append]
    rfl
  refine ⟨by simpa using hscalar, ?_, ?_⟩
  · intro c hc
    obtain ⟨entry, hentry, rfl⟩ := List.mem_map.1 hc
    rw [← BEq.congr_left (circuit.placed.keyed.own entry hentry)]
    exact habsent entry hentry
  · dsimp only at h
    split at h <;> cases h
    · next hkind => exact ⟨hcomponents, rfl, .inr ⟨hkind, _, rfl, rfl, rfl⟩, .inl rfl⟩
    · next hkind => exact ⟨hcomponents, rfl, .inl rfl, .inr ⟨hkind, _, rfl, rfl, rfl⟩⟩
    · exact ⟨hcomponents, rfl, .inl rfl, .inl rfl⟩

/-- A component is removed with its wires and its external ports, if it is there. -/
theorem removeComponent_cases (circuit : Circuit) (id : Ident) :
    (circuit.removeComponent id).1 = circuit ∨
      (circuit.removeComponent id).1.components = circuit.components.filter (·.id != id) ∧
      (circuit.removeComponent id).1.wires = circuit.wires.filter (!·.touches id) ∧
      (circuit.removeComponent id).1.inputs = circuit.inputs.filter (!·.component.equals id) ∧
      (circuit.removeComponent id).1.outputs = circuit.outputs.filter (!·.component.equals id) := by
  have hcomponents : (circuit.placed.remove id).entries.map (·.2) =
      circuit.components.filter (·.id != id) := by
    rw [components, Placement.remove, List.filter_map]
    refine congrArg _ (List.filter_congr (fun entry hentry => ?_))
    exact congrArg _ (BEq.congr_left (circuit.placed.keyed.own entry hentry))
  unfold removeComponent
  split
  · exact .inr ⟨hcomponents, rfl, rfl, rfl⟩
  · exact .inl rfl

/-- A wire without a fault ends on terminals that can be looked up. -/
theorem isScalar_of_endFault? {wire : Ident} {terminal : Terminal}
    (h : circuit.endFault? wire terminal = none) : terminal.isScalar = true := by
  unfold endFault? at h
  split at h
  · cases h
  next hscalar =>
  split at h
  · cases h
  next component _ =>
  split at h
  · cases h
  split at h
  next hport =>
    obtain ⟨port, hmem, hsame⟩ := List.contains_iff_exists_mem_beq.1 hport
    rw [Terminal.isScalar, Ident.isScalar_congr hsame, Kind.isScalar_ports _ _ hmem]
    simpa using hscalar
  · cases h

/-- A wire is added after the others, if its ends can be looked up. -/
theorem addWire_eq_ok {wire : Wire} (h : circuit.addWire wire = .ok next) :
    wire.source.isScalar = true ∧ wire.target.isScalar = true ∧
      next = { circuit with wires := circuit.wires ++ [wire] } := by
  unfold addWire wireFault? at h
  cases hsource : circuit.endFault? wire.id wire.source with
  | some fault =>
    rw [hsource] at h
    cases h
  | none =>
    cases htarget : circuit.endFault? wire.id wire.target with
    | some fault =>
      rw [hsource, htarget] at h
      cases h
    | none =>
      refine ⟨isScalar_of_endFault? hsource, isScalar_of_endFault? htarget, ?_⟩
      split at h
      · cases h
      · cases h
        rfl

/-! ## Circuits built by edits -/

/-- Everything in the circuit can be looked up, and the external ports are those of its input and
output components. -/
structure Orderly (circuit : Circuit) : Prop where
  names : ∀ c ∈ circuit.components, IsName c.id
  kinds : ∀ c ∈ circuit.components, c.kind.isScalar = true
  wires : ∀ wire ∈ circuit.wires, wire.isScalar = true
  inputs : Registers circuit.components .input circuit.inputs
  outputs : Registers circuit.components .output circuit.outputs

end Circuit

/-- An edit by components and wires, of which those that it adds can be looked up and found again.
The labels are left open. -/
def Edit.Plain : Edit → Prop
  | .addComponent component => IsName component.id ∧ component.kind.isScalar = true
  | .addWire wire => wire.id.isScalar = true
  | .removeComponent _ | .removeWire _ => True
  | _ => False

namespace Circuit

/-- The circuits built from an empty one by components and wires; an edit that is rejected leaves
them as they are. -/
inductive Built : Circuit → Prop
  | empty (circuit : Circuit) : Built circuit.clear
  | edit {circuit : Circuit} {edit : Edit} : Built circuit → edit.Plain → Built (circuit.edit edit)

/-- Plain edits leave a built circuit built. -/
theorem Built.edits {circuit : Circuit} (h : circuit.Built) :
    ∀ {edits : List Edit}, (∀ edit ∈ edits, edit.Plain) →
      (edits.foldl Circuit.edit circuit).Built := by
  intro edits hplain
  induction edits generalizing circuit with
  | nil => exact h
  | cons edit rest ih =>
    obtain ⟨hedit, hrest⟩ := List.forall_mem_cons.1 hplain
    exact ih (h.edit hedit) hrest

namespace Orderly

variable {circuit next : Circuit}

theorem clear (circuit : Circuit) : circuit.clear.Orderly where
  names := nofun
  kinds := nofun
  wires := nofun
  inputs := .nil _ _
  outputs := .nil _ _

/-- Adding a component with a name keeps a circuit orderly. -/
theorem addComponent (h : circuit.Orderly) {component : Component} (hname : IsName component.id)
    (hkind : component.kind.isScalar = true) (hnext : circuit.addComponent component = .ok next) :
    next.Orderly := by
  obtain ⟨-, hfresh, hcomponents, hwires, hinputs, houtputs⟩ := addComponent_eq_ok hnext
  refine ⟨?_, ?_, hwires ▸ h.wires, ?_, ?_⟩ <;> rw [hcomponents]
  · exact List.forall_mem_append.2 ⟨h.names, List.forall_mem_singleton.2 hname⟩
  · exact List.forall_mem_append.2 ⟨h.kinds, List.forall_mem_singleton.2 hkind⟩
  · exact h.inputs.add hfresh hinputs
  · exact h.outputs.add hfresh houtputs

/-- Removing a component keeps a circuit orderly, whether or not there is one. -/
theorem removeComponent (h : circuit.Orderly) (id : Ident) :
    (circuit.removeComponent id).1.Orderly := by
  rcases circuit.removeComponent_cases id with hsame | ⟨hcomponents, hwires, hinputs, houtputs⟩
  · rw [hsame]
    exact h
  · refine ⟨?_, ?_, ?_, ?_, ?_⟩
    · rw [hcomponents]
      exact fun c hc => h.names c (List.mem_filter.1 hc).1
    · rw [hcomponents]
      exact fun c hc => h.kinds c (List.mem_filter.1 hc).1
    · rw [hwires]
      exact fun wire hwire => h.wires wire (List.mem_filter.1 hwire).1
    · rw [hcomponents, hinputs]
      exact h.inputs.remove h.names id
    · rw [hcomponents, houtputs]
      exact h.outputs.remove h.names id

/-- Adding a wire with a name keeps a circuit orderly. -/
theorem addWire (h : circuit.Orderly) {wire : Wire} (hname : wire.id.isScalar = true)
    (hnext : circuit.addWire wire = .ok next) : next.Orderly := by
  obtain ⟨hsource, htarget, rfl⟩ := addWire_eq_ok hnext
  refine ⟨h.names, h.kinds, ?_, h.inputs, h.outputs⟩
  refine List.forall_mem_append.2 ⟨h.wires, List.forall_mem_singleton.2 ?_⟩
  rw [Wire.isScalar, hname, hsource, htarget]
  rfl

/-- Every plain edit keeps a circuit orderly. -/
theorem edit (h : circuit.Orderly) {edit : Edit} (hplain : edit.Plain) :
    (circuit.edit edit).Orderly := by
  cases edit with
  | addComponent component =>
    rw [Circuit.edit]
    split
    · next next hnext => exact h.addComponent hplain.1 hplain.2 hnext
    · exact h
  | removeComponent id => exact h.removeComponent id
  | addWire wire =>
    rw [Circuit.edit]
    split
    · next next hnext => exact h.addWire hplain hnext
    · exact h
  | removeWire id =>
    exact ⟨h.names, h.kinds, fun wire hwire => h.wires wire (List.mem_filter.1 hwire).1, h.inputs,
      h.outputs⟩
  | addInput | addOutput | clear => exact hplain.elim

end Orderly

/-- Circuits built by components and wires are in order. -/
theorem Built.orderly {circuit : Circuit} (h : circuit.Built) : circuit.Orderly := by
  induction h with
  | empty circuit => exact .clear circuit
  | edit _ hplain ih => exact ih.edit hplain

end Circuit

end Relay

end Switchyard
