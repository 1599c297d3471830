import Switchyard.Proofs.Relay.LiveEdits

/-!
# Taking an insertion back

A component that is added to a circuit which does not mention its name (`Circuit.Unmentioned`), and
the wires that are then accepted on it, are all gone once it is removed. The additions stand behind
what was there before (`Circuit.Unmentioned.addComponent`, `Bench.performAll_addWires`); the removal
takes away what has to do with the name, which is all of them and nothing before them
(`Circuit.Unmentioned.removeComponent`). So the bench is the one from before in every part, and the
names that the removal answers are those of the accepted wires in order (`Bench.insertion_undone`).
-/

namespace Switchyard.Relay

/-- A placement is determined by its entries. -/
theorem Placement.eq_of_entries {a b : Placement} (h : a.entries = b.entries) : a = b := by
  cases a
  cases b
  cases h
  rfl

/-- A test that entries pass and those before them do not tells the two apart. -/
theorem filter_append_eq {α : Type} {p : α → Bool} {old new : List α}
    (hold : ∀ a ∈ old, p a = false) (hnew : ∀ a ∈ new, p a = true) :
    (old ++ new).filter (!p ·) = old ∧ (old ++ new).filter p = new := by
  constructor
  · rw [List.filter_append, List.filter_eq_self.2 (by simpa using hold),
      List.filter_eq_nil_iff.2 (by simpa using hnew), List.append_nil]
  · rw [List.filter_append, List.filter_eq_nil_iff.2 (by simpa using hold),
      List.filter_eq_self.2 hnew, List.nil_append]

namespace Circuit

variable {circuit : Circuit}

/-- No component has the name, no wire ends on it, and no external port stands for it. -/
structure Unmentioned (circuit : Circuit) (id : Ident) : Prop where
  lacks : circuit.Lacks id
  wires : ∀ wire ∈ circuit.wires, wire.touches id = false
  inputs : ∀ port ∈ circuit.inputs, port.component.equals id = false
  outputs : ∀ port ∈ circuit.outputs, port.component.equals id = false

/-! ## Adding and removing the component -/

namespace Unmentioned

section
variable {component : Component} (h : circuit.Unmentioned component.id)
include h

/-- No entry is placed under the id of a component that was added. -/
theorem absent : ∀ entry ∈ circuit.placed.entries, (entry.1 == component.id) = false := by
  intro entry hentry
  rw [BEq.congr_left (circuit.placed.keyed.own entry hentry)]
  exact h.lacks entry.2 (List.mem_map_of_mem hentry)

/-- A component of the name is accepted. It is placed under the name, and its external ports stand
behind the others. -/
theorem addComponent (hscalar : component.id.isScalar = true) : ∃ inputs outputs : List Port,
    circuit.addComponent component = .ok { circuit with
      placed := circuit.placed.put component
      inputs := circuit.inputs ++ inputs
      outputs := circuit.outputs ++ outputs } ∧
    (∀ port ∈ inputs, port.component = component.id) ∧
    ∀ port ∈ outputs, port.component = component.id := by
  have hnew : (circuit.component? component.id).isSome = false := by
    rw [component?, Assoc.get?_eq_none_iff.2 h.absent]
    rfl
  unfold Circuit.addComponent
  rw [hscalar, hnew, Bool.not_true, if_neg Bool.false_ne_true, if_neg Bool.false_ne_true]
  dsimp only
  split
  · exact ⟨[_], [], by rw [List.append_nil], List.forall_mem_singleton.2 rfl,
      List.forall_mem_nil _⟩
  · exact ⟨[], [_], by rw [List.append_nil], List.forall_mem_nil _,
      List.forall_mem_singleton.2 rfl⟩
  · exact ⟨[], [], by rw [List.append_nil, List.append_nil], List.forall_mem_nil _,
      List.forall_mem_nil _⟩

/-- Removing what was just put gives the placement that there was. -/
theorem remove_put : (circuit.placed.put component).remove component.id = circuit.placed := by
  have hentries : (circuit.placed.put component).entries =
      circuit.placed.entries ++ [(component.id, component)] := Assoc.put_of_absent h.absent
  have hkept : circuit.placed.entries.filter (·.1 != component.id) = circuit.placed.entries :=
    List.filter_eq_self.2 (fun entry hentry => by rw [bne, h.absent entry hentry]; rfl)
  have hgone : [(component.id, component)].filter (·.1 != component.id) = [] :=
    List.filter_cons_of_neg (by rw [bne, BEq.rfl]; exact Bool.false_ne_true)
  refine Placement.eq_of_entries ?_
  change (circuit.placed.put component).entries.filter (·.1 != component.id) = _
  rw [hentries, List.filter_append, hkept, hgone, List.append_nil]

end

/-- Removing the component takes away what was added with its name, and the names of the wires among
it are answered in order. -/
theorem removeComponent {component : Component} (h : circuit.Unmentioned component.id)
    (hnumber : component.id.isNaN = false) (wires : List Wire) {inputs outputs : List Port}
    (hwires : ∀ wire ∈ wires, wire.touches component.id = true)
    (hinputs : ∀ port ∈ inputs, port.component = component.id)
    (houtputs : ∀ port ∈ outputs, port.component = component.id) :
    Circuit.removeComponent { circuit with
      placed := circuit.placed.put component
      wires := circuit.wires ++ wires
      inputs := circuit.inputs ++ inputs
      outputs := circuit.outputs ++ outputs } component.id = (circuit, wires.map (·.id)) := by
  have hthere : (Assoc.get? component.id (circuit.placed.put component).entries).isSome = true := by
    rw [Placement.put, Assoc.get?_put, if_pos BEq.rfl]
    rfl
  have hself : component.id.equals component.id = true := by
    rw [Ident.equals_eq_beq hnumber, BEq.rfl]
  have hports : ∀ {ports : List Port}, (∀ port ∈ ports, port.component = component.id) →
      ∀ port ∈ ports, port.component.equals component.id = true := by
    intro ports hports port hport
    rw [hports port hport, hself]
  obtain ⟨hwiresKept, hwiresGone⟩ := filter_append_eq h.wires hwires
  obtain ⟨hinputsKept, -⟩ := filter_append_eq h.inputs (hports hinputs)
  obtain ⟨houtputsKept, -⟩ := filter_append_eq h.outputs (hports houtputs)
  unfold Circuit.removeComponent component?
  dsimp only
  rw [if_pos hthere, hwiresKept, hwiresGone, hinputsKept, houtputsKept, h.remove_put]

end Unmentioned

end Circuit

/-! ## On the bench -/

namespace Bench

/-- A rejected operation does not answer what acceptance would. -/
theorem answer_rejected_ne {answer accepted : Answer} (h : answer ≠ accepted) (bench : Bench)
    (rejection : Rejection) : (bench.rejected answer rejection).answer ≠ .ok accepted := by
  unfold rejected
  split
  · exact fun hsame => h (Except.ok.inj hsame)
  · exact nofun

/-- A wire is accepted and goes to the end, or it is not and nothing changes. -/
theorem addWire_cases (bench : Bench) (wire : Wire) :
    let performed := bench.perform (.edit (.addWire wire))
    (performed.answer = .ok (.wire (some wire)) ∧ performed.bench =
      { bench with circuit.wires := bench.circuit.wires ++ [wire] }) ∨
    ((∀ other, performed.answer ≠ .ok (.wire (some other))) ∧ performed.bench = bench) := by
  intro performed
  cases hadd : bench.circuit.addWire wire with
  | ok next =>
    have hanswer : performed.answer = .ok (.wire (some wire)) := by
      change (bench.performEdit (.addWire wire)).answer = _
      rw [performEdit, hadd]
    have hbench : performed.bench = { bench with circuit := bench.circuit.edit (.addWire wire) } :=
      bench_performEdit bench _
    obtain ⟨-, -, rfl⟩ := Circuit.addWire_eq_ok hadd
    refine .inl ⟨hanswer, ?_⟩
    rw [hbench, Circuit.edit, hadd]
  | error rejection =>
    have hperformed : performed = bench.rejected (.wire none) rejection := by
      change bench.performEdit (.addWire wire) = _
      rw [performEdit, hadd]
    rw [hperformed]
    exact .inr ⟨fun _ => answer_rejected_ne (by simp) bench rejection, bench_rejected bench _ _⟩

/-- A component that is refused is reported as rejected. -/
theorem addComponent_rejected (bench : Bench) {component : Component} {rejection : Rejection}
    (h : bench.circuit.addComponent component = .error rejection) :
    bench.perform (.edit (.addComponent component)) =
      bench.rejected (.component none) rejection := by
  change bench.performEdit (.addComponent component) = _
  rw [performEdit, h]

/-- The wires of a list whose additions are answered with the wire when they are performed one after
the other. -/
def accepted (bench : Bench) : List Wire → List Wire
  | [] => []
  | wire :: rest =>
    let performed := bench.perform (.edit (.addWire wire))
    if performed.answer = .ok (.wire (some wire)) then wire :: performed.bench.accepted rest
    else performed.bench.accepted rest

/-- The accepted wires stand in the order they were added in. -/
theorem accepted_sublist (bench : Bench) (wires : List Wire) :
    (bench.accepted wires).Sublist wires := by
  induction wires generalizing bench with
  | nil => exact .slnil
  | cons wire rest ih =>
    rw [accepted]
    split
    · exact (ih _).cons_cons wire
    · exact (ih _).cons wire

/-- Adding wires adds the accepted ones at the end and changes nothing else. -/
theorem performAll_addWires (bench : Bench) (wires : List Wire) :
    bench.performAll (wires.map (fun wire => .edit (.addWire wire))) =
      { bench with circuit.wires := bench.circuit.wires ++ bench.accepted wires } := by
  induction wires generalizing bench with
  | nil =>
    rw [accepted, List.append_nil]
    rfl
  | cons wire rest ih =>
    change (bench.perform (.edit (.addWire wire))).bench.performAll _ = _
    rw [ih, accepted]
    obtain ⟨hanswer, hbench⟩ | ⟨hanswer, hbench⟩ := bench.addWire_cases wire
    · rw [if_pos hanswer, hbench]
      dsimp only
      rw [List.append_assoc, List.singleton_append]
    · rw [if_neg (hanswer wire), hbench]

/-- Removing a component undoes its insertion. Where nothing in a circuit mentions the name of a
component, it can be added; once wires on it were tried in any order, taken or not, its removal
answers the names of those that were taken in the order in which they were added, and gives back the
bench as it was, down to the order of the components, wires and ports. An addition of a component or
a wire that is not taken changes nothing, on any bench. -/
theorem insertion_undone (bench : Bench) (component : Component) (wires : List Wire)
    (hscalar : component.id.isScalar = true) (hnumber : component.id.isNaN = false)
    (hfree : bench.circuit.Unmentioned component.id)
    (hwires : ∀ wire ∈ wires, wire.touches component.id = true) :
    let inserted := bench.perform (.edit (.addComponent component))
    let wired := inserted.bench.performAll (wires.map (fun wire => .edit (.addWire wire)))
    let removed := wired.perform (.edit (.removeComponent component.id))
    inserted.answer = .ok (.component (some component)) ∧
    removed.answer = .ok (.removedWires ((inserted.bench.accepted wires).map (·.id))) ∧
    removed.bench = bench ∧
    ∀ other : Bench,
      (∀ c, (∀ added, (other.perform (.edit (.addComponent c))).answer ≠
          .ok (.component (some added))) →
        (other.perform (.edit (.addComponent c))).bench = other) ∧
      (∀ wire, (∀ added, (other.perform (.edit (.addWire wire))).answer ≠
          .ok (.wire (some added))) →
        (other.perform (.edit (.addWire wire))).bench = other) := by
  intro inserted wired removed
  obtain ⟨inputs, outputs, hadd, hinputs, houtputs⟩ := hfree.addComponent hscalar
  have hinserted : inserted = ⟨{ bench with circuit := { bench.circuit with
      placed := bench.circuit.placed.put component
      inputs := bench.circuit.inputs ++ inputs
      outputs := bench.circuit.outputs ++ outputs } }, .ok (.component (some component)), []⟩ := by
    change bench.performEdit (.addComponent component) = _
    rw [performEdit, Circuit.edit, hadd]
  have hremove := hfree.removeComponent hnumber (inserted.bench.accepted wires)
    (fun wire hwire => hwires wire ((inserted.bench.accepted_sublist wires).subset hwire))
    hinputs houtputs
  have hwired : wired.circuit.removeComponent component.id =
      (bench.circuit, (inserted.bench.accepted wires).map (·.id)) := by
    rw [show wired = _ from performAll_addWires inserted.bench wires, ← hremove, hinserted]
  have hframe : ({ wired with circuit := bench.circuit } : Bench) = bench := by
    rw [show wired = _ from performAll_addWires inserted.bench wires, hinserted]
  refine ⟨by rw [hinserted], ?_, ?_, fun other => ⟨fun c hrejected => ?_, fun wire hrejected => ?_⟩⟩
  · change (requireScalar component.id).map (fun _ =>
      Answer.removedWires (wired.circuit.removeComponent component.id).2) = _
    rw [requireScalar_eq_ok hscalar, hwired]
    rfl
  · change ({ wired with circuit := (wired.circuit.removeComponent component.id).1 } : Bench) = _
    rw [hwired, hframe]
  · cases hother : other.circuit.addComponent c with
    | ok next =>
      refine absurd ?_ (hrejected c)
      change (other.performEdit (.addComponent c)).answer = _
      rw [performEdit, hother]
    | error rejection =>
      rw [other.addComponent_rejected hother]
      exact bench_rejected other _ _
  · obtain ⟨hanswer, -⟩ | ⟨-, hbench⟩ := other.addWire_cases wire
    · exact absurd hanswer (hrejected wire)
    · exact hbench

/-- A lamp behind the one of a loaded latch: of the wires that are tried on it, one is of a name
that was just taken, one joins the ends of another the other way round, one joins its end to itself,
and one is for a port that it lacks. -/
theorem insertion_undone_latch :
    let place (id : String) : Action := .edit (.addComponent { id := .text id, kind := .output })
    let bench := (ofCircuit latch 10).performAll [place "lamp", .load, .step]
    let fed : Terminal := ⟨.text "second", inPort⟩
    let hold : Terminal := ⟨.text "hold", contactOut⟩
    let wires : List Wire := [⟨.text "w6", hold, fed⟩, ⟨.text "w6", ⟨.text "set", outPort⟩, fed⟩,
      ⟨.text "w7", fed, hold⟩, ⟨.text "w8", fed, fed⟩, ⟨.text "w9", fed, ⟨.text "vcc", outPort⟩⟩,
      ⟨.text "w10", ⟨.text "second", outPort⟩, hold⟩]
    let wired := (bench.perform (place "second")).bench.performAll
      (wires.map (fun wire => .edit (.addWire wire)))
    let removed := wired.perform (.edit (.removeComponent (.text "second")))
    bench.circuit.Unmentioned (.text "second") ∧ wired ≠ bench ∧
      removed.answer = .ok (.removedWires [.text "w6", .text "w9"]) ∧ removed.bench = bench := by
  intro place bench fed hold wires wired removed
  have hfree : bench.circuit.Unmentioned (.text "second") :=
    ⟨by unfold Circuit.Lacks; decide +kernel, by decide +kernel, by decide +kernel,
      by decide +kernel⟩
  obtain ⟨-, hanswer, hbench, -⟩ :=
    insertion_undone bench { id := .text "second", kind := .output } wires rfl rfl hfree
      (by decide +kernel)
  refine ⟨hfree, by decide +kernel, hanswer.trans (congrArg _ (congrArg _ ?_)), hbench⟩
  decide +kernel

end Bench

end Switchyard.Relay
