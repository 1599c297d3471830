import Mathlib.Data.List.Range
import Switchyard.Proofs.Relay.Access
import Switchyard.Proofs.Relay.Editing

/-!
# The numbers in the names of ports

An input or output without a label is named by its side and a number, the count of the ports of that
side after it was added. Removals make the count smaller, so a number may be given a second time.
While components without labels are added and components are removed (`Edit.Unlabelled`), names stay
distinct exactly as long as every addition finds the number after the count unused (`Side.Fresh`).
It does where no number in use is beyond the count (`Side.Gapless`), as is so at every time if what
is removed is what came last (`Side.InOrder`); where one is, adding as many components as it is
beyond the count gives it again (`Side.not_distinct_of_beyond`). Where the names of the inputs are
distinct, each of them denotes its input, unless the component of an input before it is called so
(`automatic_names`).
-/

namespace Switchyard.Relay

/-! ## Sides -/

/-- The sides of a circuit on which external ports are. -/
inductive Side where
  | input
  | output
deriving DecidableEq

namespace Side

/-- The kind of the components that external ports of a side stand for. -/
def kind : Side → Kind
  | input => .input
  | output => .output

/-- What the names of the ports of a side begin with. -/
def title : Side → String
  | input => "Input"
  | output => "Output"

/-- The external ports of a side. -/
def ports (circuit : Circuit) : Side → List Port
  | input => circuit.inputs
  | output => circuit.outputs

/-- The name of a port of a number. -/
def name (side : Side) (number : Nat) : Ident :=
  .text s!"{side.title} {number}"

/-- The names of the ports of a side are distinct. -/
def Distinct (side : Side) (circuit : Circuit) : Prop :=
  (side.ports circuit).Pairwise (fun a b => (a.name == b.name) = false)

/-- The number after the count of the ports of a side is not in use. -/
def Fresh (side : Side) (circuit : Circuit) : Prop :=
  ∀ port ∈ side.ports circuit,
    (port.name == side.name ((side.ports circuit).length + 1)) = false

/-- No number in use on a side is beyond the count of its ports. -/
def Gapless (side : Side) (circuit : Circuit) : Prop :=
  ∀ port ∈ side.ports circuit, ∃ n ≤ (side.ports circuit).length, port.name = side.name n

/-- The names of distinct numbers are distinct. -/
theorem name_inj {side : Side} {m n : Nat} (h : (side.name m == side.name n) = true) : m = n := by
  have hkey : (Json.str s!"{side.title} {m}") = .str s!"{side.title} {n}" := Ident.beq_iff.1 h
  have htext : side.title ++ " " ++ m.repr = side.title ++ " " ++ n.repr := by
    simpa [toString] using Json.str.inj hkey
  have hdigits : Nat.toDigits 10 m = Nat.toDigits 10 n := by
    rw [String.append_right_inj, Nat.repr_eq_ofList_toDigits, Nat.repr_eq_ofList_toDigits] at htext
    exact String.ofList_injective htext
  rw [← @Nat.ofDigitChars_ten_toDigits m, hdigits, Nat.ofDigitChars_ten_toDigits]

/-- If no number is in use beyond the count, the next one is not. -/
theorem Gapless.fresh {side : Side} {circuit : Circuit} (h : side.Gapless circuit) :
    side.Fresh circuit := by
  intro port hport
  obtain ⟨n, hn, hname⟩ := h port hport
  rw [hname, Bool.eq_false_iff]
  intro hsame
  have := name_inj hsame
  omega

end Side

/-- The edit adds a component without a label, or removes one. -/
def Edit.Unlabelled : Edit → Prop
  | .addComponent component => component.label.isVoid = true
  | .removeComponent _ => True
  | _ => False

/-! ## One edit -/

namespace Side

variable {side : Side} {circuit next : Circuit}

/-- An accepted component without a label becomes a port of its side, and of no other. -/
theorem ports_addComponent {component : Component} (hlabel : component.label.isVoid = true)
    (h : circuit.addComponent component = .ok next) (side : Side) :
    component.kind = side.kind ∧ component.id.isScalar = true ∧
      (∃ direction, side.ports next = side.ports circuit ++
        [⟨component.id, side.name ((side.ports circuit).length + 1), direction, component.id⟩]) ∨
    component.kind ≠ side.kind ∧ side.ports next = side.ports circuit := by
  unfold Circuit.addComponent Circuit.portName at h
  rw [if_pos hlabel, if_pos hlabel] at h
  split at h
  · cases h
  split at h
  · cases h
  next hscalar _ =>
  have hscalar : component.id.isScalar = true := by simpa using hscalar
  dsimp only at h
  split at h <;> cases h
  · next hkind =>
    cases side with
    | input => exact .inl ⟨hkind, hscalar, _, rfl⟩
    | output => exact .inr ⟨by rw [hkind]; nofun, rfl⟩
  · next hkind =>
    cases side with
    | input => exact .inr ⟨by rw [hkind]; nofun, rfl⟩
    | output => exact .inl ⟨hkind, hscalar, _, rfl⟩
  · next hinput houtput =>
    cases side with
    | input => exact .inr ⟨hinput, rfl⟩
    | output => exact .inr ⟨houtput, rfl⟩

/-- What one edit does to the ports of a side: a port of the number after the count comes last,
nothing happens, or a component goes and its ports with it. -/
theorem ports_edit {edit : Edit} (h : edit.Unlabelled) (circuit : Circuit) (side : Side) :
    (∃ component direction, edit = .addComponent component ∧ component.kind = side.kind ∧
      circuit.addComponent component = .ok (circuit.edit edit) ∧ component.id.isScalar = true ∧
      side.ports (circuit.edit edit) = side.ports circuit ++
        [⟨component.id, side.name ((side.ports circuit).length + 1), direction, component.id⟩]) ∨
    side.ports (circuit.edit edit) = side.ports circuit ∨
    ∃ id, edit = .removeComponent id ∧
      (side.ports (circuit.edit edit)).Sublist (side.ports circuit) := by
  cases edit with
  | addComponent component =>
    rw [Circuit.edit]
    cases hadd : circuit.addComponent component with
    | error rejection => exact .inr (.inl rfl)
    | ok next =>
      obtain ⟨hkind, hscalar, direction, hports⟩ | ⟨-, hports⟩ := ports_addComponent h hadd side
      · exact .inl ⟨component, direction, rfl, hkind, hadd, hscalar, hports⟩
      · exact .inr (.inl hports)
  | removeComponent id =>
    rw [Circuit.edit]
    obtain hsame | ⟨-, -, hinputs, houtputs⟩ := circuit.removeComponent_cases id
    · rw [hsame]
      exact .inr (.inl rfl)
    · refine .inr (.inr ⟨id, rfl, ?_⟩)
      cases side with
      | input =>
        rw [ports, ports, hinputs]
        exact List.filter_sublist
      | output =>
        rw [ports, ports, houtputs]
        exact List.filter_sublist
  | addWire | removeWire | addInput | addOutput | clear => exact h.elim

/-- What the additions and removals of unlabelled components keep: there are no wires, and each port
of the side goes by the identifier of its component and has a number in its name. -/
structure Numbered (side : Side) (circuit : Circuit) : Prop where
  wires : circuit.wires = []
  own : ∀ port ∈ side.ports circuit, port.id = port.component ∧ port.component.isScalar = true
  named : ∀ port ∈ side.ports circuit, ∃ n, 0 < n ∧ port.name = side.name n

/-- A side of a cleared circuit is numbered, there being no port. -/
theorem numbered_clear (side : Side) (start : Circuit) : side.Numbered start.clear := by
  cases side <;> exact ⟨rfl, nofun, nofun⟩

/-- No unlabelled edit adds a wire. -/
theorem wires_edit {edit : Edit} (h : edit.Unlabelled) (hwires : circuit.wires = []) :
    (circuit.edit edit).wires = [] := by
  cases edit with
  | addComponent component =>
    rw [Circuit.edit]
    split
    · next next hnext => exact (Circuit.addComponent_eq_ok hnext).2.2.2.1.trans hwires
    · exact hwires
  | removeComponent id =>
    rw [Circuit.edit]
    obtain hsame | ⟨-, hrest, -⟩ := circuit.removeComponent_cases id
    · rw [hsame, hwires]
    · rw [hrest, hwires]
      rfl
  | addWire | removeWire | addInput | addOutput | clear => exact h.elim

/-- Every unlabelled edit keeps a side numbered. -/
theorem Numbered.edit (h : side.Numbered circuit) {edit : Edit} (hedit : edit.Unlabelled) :
    side.Numbered (circuit.edit edit) := by
  have hwires := wires_edit hedit h.wires
  obtain ⟨component, direction, -, -, -, hscalar, hports⟩ | hports | ⟨-, -, hports⟩ :=
    ports_edit hedit circuit side
  · refine ⟨hwires, ?_, ?_⟩ <;> rw [hports] <;> refine List.forall_mem_append.2
      ⟨?_, List.forall_mem_singleton.2 ?_⟩
    · exact h.own
    · exact ⟨rfl, hscalar⟩
    · exact h.named
    · exact ⟨_, Nat.succ_pos _, rfl⟩
  · exact ⟨hwires, hports ▸ h.own, hports ▸ h.named⟩
  · exact ⟨hwires, fun port hport => h.own port (hports.subset hport),
      fun port hport => h.named port (hports.subset hport)⟩

/-- With a port of the number after the count the names are distinct if and only if they were and
this number was not in use. -/
theorem distinct_concat_iff {id component : Ident} {direction : Json}
    (hports : side.ports next = side.ports circuit ++
      [⟨id, side.name ((side.ports circuit).length + 1), direction, component⟩]) :
    side.Distinct next ↔ side.Distinct circuit ∧ side.Fresh circuit := by
  rw [Distinct, hports, List.pairwise_append, and_iff_right (List.pairwise_singleton _ _)]
  simp only [List.forall_mem_singleton]
  rfl

/-- An unlabelled edit keeps names distinct if the number it gives out is fresh. -/
theorem Distinct.edit (h : side.Distinct circuit) {edit : Edit} (hedit : edit.Unlabelled)
    (hfresh : ∀ component next, edit = .addComponent component → component.kind = side.kind →
      circuit.addComponent component = .ok next → side.Fresh circuit) :
    side.Distinct (circuit.edit edit) := by
  obtain ⟨component, direction, hadd, hkind, hnext, -, hports⟩ | hports | ⟨-, -, hports⟩ :=
    ports_edit hedit circuit side
  · exact (distinct_concat_iff hports).2 ⟨h, hfresh component _ hadd hkind hnext⟩
  · rwa [Distinct, hports]
  · exact h.sublist hports

/-- The names of the ports of a side are those of the numbers from one on, in order. -/
def InOrder (side : Side) (circuit : Circuit) : Prop :=
  (side.ports circuit).map (·.name) =
    (List.range' 1 (side.ports circuit).length).map side.name

/-- The order of the numbers is kept if a removal takes away what came last. -/
theorem InOrder.edit (h : side.InOrder circuit) {edit : Edit} (hedit : edit.Unlabelled)
    (hlast : ∀ id, edit = .removeComponent id →
      side.ports (circuit.edit edit) <+: side.ports circuit) :
    side.InOrder (circuit.edit edit) := by
  obtain ⟨component, direction, -, -, -, -, hports⟩ | hports | ⟨id, hremove, -⟩ :=
    ports_edit hedit circuit side
  · rw [InOrder, hports, List.map_append, h, List.length_append, List.length_singleton,
      List.range'_1_concat, List.map_append, Nat.add_comm 1]
    rfl
  · rwa [InOrder, hports]
  · obtain ⟨gone, hgone⟩ := hlast id hremove
    rw [InOrder, ← hgone, List.length_append, ← List.range'_append_1, List.map_append,
      List.map_append] at h
    refine (List.append_inj h ?_).1
    rw [List.length_map, List.length_map, List.length_range']

/-- Names in order leave no gap, so that none is beyond the count. -/
theorem InOrder.gapless (h : side.InOrder circuit) : side.Gapless circuit := by
  intro port hport
  have hname : port.name ∈ (side.ports circuit).map (·.name) := List.mem_map_of_mem hport
  rw [h] at hname
  obtain ⟨n, hn, hsame⟩ := List.mem_map.1 hname
  refine ⟨n, ?_, hsame.symm⟩
  have := (List.mem_range'_1.1 hn).2
  omega

/-! ## Numbers that are given again -/

/-- Components of the side that are added one after the other get the numbers after the count. -/
theorem names_addComponents {components : List Component}
    (hadded : ∀ c ∈ components, c.kind = side.kind ∧ c.label.isVoid = true) (circuit : Circuit) :
    (side.ports ((components.map Edit.addComponent).foldl Circuit.edit circuit)).length ≤
      (side.ports circuit).length + components.length ∧
    ((side.ports ((components.map Edit.addComponent).foldl Circuit.edit circuit)).length =
        (side.ports circuit).length + components.length →
      (side.ports ((components.map Edit.addComponent).foldl Circuit.edit circuit)).map (·.name) =
        (side.ports circuit).map (·.name) ++
          (List.range' ((side.ports circuit).length + 1) components.length).map side.name) := by
  induction components generalizing circuit with
  | nil => exact ⟨Nat.le_refl _, fun _ => (List.append_nil _).symm⟩
  | cons component rest ih =>
    obtain ⟨⟨-, hlabel⟩, hrest⟩ := List.forall_mem_cons.1 hadded
    obtain ⟨hle, hnames⟩ := ih hrest (circuit.edit (.addComponent component))
    have hunlabelled : Edit.Unlabelled (.addComponent component) := hlabel
    rw [List.map_cons, List.foldl_cons, List.length_cons]
    obtain ⟨_, _, -, -, -, -, hports⟩ | hports | ⟨_, hremove, -⟩ :=
      ports_edit hunlabelled circuit side
    · rw [hports, List.length_append, List.length_singleton] at hle hnames
      refine ⟨by omega, fun hlength => ?_⟩
      rw [hnames (by omega), List.map_append, List.append_assoc, List.range'_succ, List.map_cons]
      rfl
    · -- one that is not taken leaves the count behind
      rw [hports] at hle
      exact ⟨by omega, fun hlength => by omega⟩
    · cases hremove

/-- A number beyond the count is given again by the addition that reaches it. -/
theorem not_distinct_of_beyond {n : Nat} {port : Port} (hport : port ∈ side.ports circuit)
    (hname : port.name = side.name n) (hbeyond : (side.ports circuit).length < n)
    {components : List Component} (hlength : components.length = n - (side.ports circuit).length)
    (hadded : ∀ c ∈ components, c.kind = side.kind ∧ c.label.isVoid = true)
    (htaken : (side.ports ((components.map Edit.addComponent).foldl Circuit.edit circuit)).length =
      (side.ports circuit).length + components.length) :
    ¬ side.Distinct ((components.map Edit.addComponent).foldl Circuit.edit circuit) := by
  intro hdistinct
  have hnames := (names_addComponents hadded circuit).2 htaken
  have hpairwise : ((side.ports ((components.map Edit.addComponent).foldl Circuit.edit circuit)).map
      (·.name)).Pairwise (fun a b => (a == b) = false) := List.pairwise_map.2 hdistinct
  rw [hnames, List.pairwise_append] at hpairwise
  have hold : side.name n ∈ (side.ports circuit).map (·.name) :=
    List.mem_map.2 ⟨port, hport, hname⟩
  have hnew : side.name n ∈
      (List.range' ((side.ports circuit).length + 1) components.length).map side.name :=
    List.mem_map.2 ⟨n, List.mem_range'_1.2 (by omega), rfl⟩
  have hapart := hpairwise.2.2 _ hold _ hnew
  rw [BEq.rfl] at hapart
  cases hapart

end Side

/-! ## Names of inputs in a simulator -/

/-- The circuit can be loaded. -/
theorem Side.Numbered.loads {circuit : Circuit} (h : Side.input.Numbered circuit)
    (sim : Simulator) :
    sim.reload circuit = (Simulator.load sim.cap circuit, .ok ()) := by
  have hwires : circuit.wires.all (·.isScalar) = true := by rw [h.wires]; rfl
  have hinputs : circuit.inputs.all (·.component.isScalar) = true :=
    List.all_eq_true.2 (fun port hport => (h.own port hport).2)
  unfold Simulator.reload
  rw [hwires, hinputs]
  rfl

/-- The name of an input denotes the first input before it whose component is called so, or else the
input itself. -/
theorem Side.Numbered.resolve_name {circuit : Circuit} (h : Side.input.Numbered circuit)
    (hdistinct : Side.input.Distinct circuit) {before after : List Port} {port : Port}
    (hports : circuit.inputs = before ++ port :: after) :
    Simulator.resolve circuit port.name =
      .ok (some ((before.find? (port.name == ·.component)).getD port).component) := by
  have hpairwise : circuit.inputs.Pairwise (fun a b => (a.name == b.name) = false) := hdistinct
  rw [hports, List.pairwise_append] at hpairwise
  have hbefore : before.find? (fun other =>
        port.name == other.id || port.name == other.name || port.name == other.component) =
      before.find? (port.name == ·.component) := by
    refine List.find?_congr (fun other hother => ?_)
    have hown := (h.own other (by rw [Side.ports, hports]; exact List.mem_append_left _ hother)).1
    have hname : (port.name == other.name) = false :=
      BEq.comm.trans (hpairwise.2.2 other hother port List.mem_cons_self)
    rw [hown, hname, Bool.or_false, Bool.or_self]
  unfold Simulator.resolve
  rw [hports, List.find?_append, hbefore, List.find?_cons_of_pos (by rw [BEq.rfl]; simp)]
  cases before.find? (port.name == ·.component) <;> rfl

/-! ## Histories -/

/-- The circuit after one more edit is the edited circuit. -/
theorem foldl_take_succ {start : Circuit} {edits : List Edit} {i : Nat} {edit : Edit}
    (h : edits[i]? = some edit) : (edits.take (i + 1)).foldl Circuit.edit start =
      ((edits.take i).foldl Circuit.edit start).edit edit := by
  rw [List.take_add_one, h, List.foldl_append]
  rfl

/-- What each edit of a history keeps holds at every time. -/
theorem foldl_take_of_step {P : Circuit → Prop} {start : Circuit} {edits : List Edit}
    (hstart : P start) (hstep : ∀ i edit, edits[i]? = some edit →
      P ((edits.take i).foldl Circuit.edit start) →
      P (((edits.take i).foldl Circuit.edit start).edit edit)) (i : Nat) :
    P ((edits.take i).foldl Circuit.edit start) := by
  induction i with
  | zero => exact hstart
  | succ i ih =>
    cases hi : edits[i]? with
    | some edit =>
      rw [foldl_take_succ hi]
      exact hstep i edit hi ih
    | none =>
      rw [List.take_add_one, hi, Option.toList_none, List.append_nil]
      exact ih

/-- The names of the ports of a side after components without labels were added to an empty circuit
and components were removed, in any order and whether refused or not. They are distinct at every
time if and only if every component that was taken on the side found the number after the count
unused. This is so if no addition on the side found a number beyond the count; if every removal took
away what came last there never is one, and the ports are numbered from one on in order. A number
that is beyond the count is given again once as many components are added on the side. Where the
names of the inputs are distinct, a simulator loads the circuit and takes the name of each input for
that input, or for the first one before it whose component is called so. -/
theorem automatic_names (start : Circuit) {edits : List Edit}
    (h : ∀ edit ∈ edits, edit.Unlabelled) (side : Side) :
    let stage (i : Nat) : Circuit := (edits.take i).foldl Circuit.edit start.clear
    ((∀ i, side.Distinct (stage i)) ↔
      ∀ i component next, edits[i]? = some (.addComponent component) → component.kind = side.kind →
        (stage i).addComponent component = .ok next → side.Fresh (stage i)) ∧
    ((∀ i component, edits[i]? = some (.addComponent component) → component.kind = side.kind →
        side.Gapless (stage i)) → ∀ i, side.Distinct (stage i)) ∧
    ((∀ i id, edits[i]? = some (.removeComponent id) →
        side.ports (stage (i + 1)) <+: side.ports (stage i)) →
      ∀ i, side.InOrder (stage i) ∧ side.Gapless (stage i)) ∧
    ∀ i,
      (∀ port ∈ side.ports (stage i), ∃ n, 0 < n ∧ port.name = side.name n ∧
        ((side.ports (stage i)).length < n → ∀ components : List Component,
          components.length = n - (side.ports (stage i)).length →
          (∀ c ∈ components, c.kind = side.kind ∧ c.label.isVoid = true) →
          let grown := (components.map Edit.addComponent).foldl Circuit.edit (stage i)
          (side.ports grown).length = (side.ports (stage i)).length + components.length →
          ¬ side.Distinct grown)) ∧
      (Side.input.Distinct (stage i) → ∀ cap,
        let loaded := (Bench.ofCircuit (stage i) cap).load
        loaded.2 = .ok () ∧ ∀ before port after, (stage i).inputs = before ++ port :: after →
          loaded.1.resolve port.name =
            .ok (some ((before.find? (port.name == ·.component)).getD port).component)) := by
  intro stage
  have hedit : ∀ {i : Nat} {edit : Edit}, edits[i]? = some edit → edit.Unlabelled :=
    fun hi => h _ (List.mem_of_getElem? hi)
  have hnumbered : ∀ (side : Side) i, side.Numbered (stage i) := fun side =>
    foldl_take_of_step (side.numbered_clear start) (fun i edit hi hstage => hstage.edit (hedit hi))
  have hdistinct : (∀ i component next, edits[i]? = some (.addComponent component) →
      component.kind = side.kind → (stage i).addComponent component = .ok next →
      side.Fresh (stage i)) → ∀ i, side.Distinct (stage i) := fun hfresh =>
    foldl_take_of_step (by cases side <;> exact .nil) (fun i edit hi hstage =>
      hstage.edit (hedit hi) (fun component next hadd => hfresh i component next (hadd ▸ hi)))
  refine ⟨⟨fun hall i component next hi hkind hnext => ?_, hdistinct⟩, fun hgapless => ?_,
    fun hlast i => ?_, fun i => ⟨fun port hport => ?_, fun hnames cap => ?_⟩⟩
  · have hstage : stage (i + 1) = next := by
      rw [show stage (i + 1) = (stage i).edit (.addComponent component) from foldl_take_succ hi,
        Circuit.edit, hnext]
    obtain ⟨-, -, direction, hports⟩ | ⟨hother, -⟩ :=
      Side.ports_addComponent (hedit hi) hnext side
    · exact ((Side.distinct_concat_iff hports).1 (hstage ▸ hall (i + 1))).2
    · exact absurd hkind hother
  · exact hdistinct (fun i component _ hi hkind _ => (hgapless i component hi hkind).fresh)
  · have horder : side.InOrder (stage i) :=
      foldl_take_of_step (by cases side <;> rfl) (fun i edit hi hstage =>
        hstage.edit (hedit hi) (fun id hid => foldl_take_succ hi ▸ hlast i id (hid ▸ hi))) i
    exact ⟨horder, horder.gapless⟩
  · obtain ⟨n, hpos, hname⟩ := (hnumbered side i).named port hport
    exact ⟨n, hpos, hname, fun hbeyond components =>
      Side.not_distinct_of_beyond hport hname hbeyond⟩
  · have hload : (Bench.ofCircuit (stage i) cap).load = (Bench.fresh (stage i) cap, .ok ()) :=
      Bench.load_eq_fresh rfl rfl (congrArg Prod.snd ((hnumbered .input i).loads {}))
    rw [hload]
    exact ⟨rfl, fun before port after => (hnumbered .input i).resolve_name hnames⟩

/-- Two inputs are left of four that were added: the latest was removed and another one took its
number, and then the first was removed. The name of the second one left is the component of the
first, so it denotes that one. The next input is given this name again. -/
theorem automatic_names_reused :
    let place (id : String) (kind : Kind) : Edit := .addComponent { id := .text id, kind }
    let edits := [place "a" .input, place "Input 3" .input, place "lamp" .output, place "b" .input,
      .removeComponent (.text "b"), place "c" .input, .removeComponent (.text "a")]
    let circuit := edits.foldl Circuit.edit {}
    let loaded := (Bench.ofCircuit circuit 10).load
    circuit.inputs.map (fun port => (port.component, port.name)) =
        [(.text "Input 3", .text "Input 2"), (.text "c", .text "Input 3")] ∧
      Side.input.Distinct circuit ∧ loaded.2 = .ok () ∧
      loaded.1.resolve (.text "Input 2") = .ok (some (.text "Input 3")) ∧
      loaded.1.resolve (.text "Input 3") = .ok (some (.text "Input 3")) ∧
      ¬ Side.input.Distinct (circuit.edit (place "d" .input)) := by
  intro place edits circuit loaded
  have hedits : ∀ edit ∈ edits, edit.Unlabelled := by
    simp [edits, place, Edit.Unlabelled, Json.isVoid]
  obtain ⟨-, hdistinct, -, hstages⟩ := automatic_names {} hedits .input
  have hgapless : ∀ i < 7, Side.input.Gapless ((edits.take i).foldl Circuit.edit {}) := by
    unfold Side.Gapless
    decide +kernel
  have hall : Side.input.Distinct circuit := hdistinct (fun i component hi _ =>
    hgapless i (List.getElem?_eq_some_iff.1 hi).1) 7
  obtain ⟨hnumbers, hnames⟩ := hstages 7
  obtain ⟨hload, hresolve⟩ := hnames hall 10
  let first : Port := ⟨.text "Input 3", .text "Input 2", .str "input", .text "Input 3"⟩
  let second : Port := ⟨.text "c", .text "Input 3", .str "input", .text "c"⟩
  have hinputs : circuit.inputs = [first, second] := by decide +kernel
  have hmem : second ∈ circuit.inputs := hinputs ▸ List.mem_cons_of_mem _ List.mem_cons_self
  obtain ⟨n, -, hname, hagain⟩ := hnumbers second hmem
  have hthree : Side.input.name 3 = Side.input.name n := hname
  obtain rfl : 3 = n := Side.name_inj (beq_of_eq hthree)
  refine ⟨by rw [hinputs]; rfl, hall, hload, hresolve [] first [second] hinputs,
    hresolve [first] second [] hinputs, ?_⟩
  have htwice := hagain (by decide +kernel) [{ id := .text "d", kind := .input }]
    (by decide +kernel) (by decide) (by decide +kernel)
  rwa [List.map_cons, List.map_nil, List.foldl_cons, List.foldl_nil] at htwice

end Switchyard.Relay
