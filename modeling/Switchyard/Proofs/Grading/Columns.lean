import Mathlib.Data.List.Basic
import Mathlib.Data.Option.Basic
import Switchyard.Proofs.Grading.Histories
import Switchyard.Proofs.Relay.Consistency
import Switchyard.Proofs.Relay.Editing

/-!
# Columns and components

A row is set and read by the components of the external ports. The simulator takes such a name for
the first external input that answers to it, be it by identifier, by name or by component. In a
circuit built by components and wires this is the input meant if and only if no input has the
component of a later one as its name (`resolve_iff`). Then the values of a row are the
levels that the components carry in order (`setAll_row`), the outputs are read at their own
components (`getOutput_row`), and a row is reported as passed if and only if the circuit computes
it (`testTable_passedRows`).
-/

namespace Switchyard.Grading

open Relay

/-! ## Finding the input meant -/

/-- Whether an external input answers to a name. -/
def answersTo (id : Ident) (port : Port) : Bool :=
  id == port.id || id == port.name || id == port.component

/-- No external input has the component of a later one as its name. -/
def Unshadowed (ports : List Port) : Prop :=
  ports.Pairwise (fun earlier later => (later.component == earlier.name) = false)

/-- Of ports for distinct components each is found by its component if and only if none is
shadowed by an earlier one. -/
theorem find?_answersTo_iff {ports : List Port}
    (hd : ports.Pairwise (fun a b => (a.component == b.component) = false))
    (hown : ∀ port ∈ ports, port.id = port.component) :
    (∀ port ∈ ports, ports.find? (answersTo port.component) = some port) ↔ Unshadowed ports := by
  induction hd with
  | nil => exact ⟨fun _ => .nil, fun _ => nofun⟩
  | @cons first rest hfirst _ ih =>
    obtain ⟨hid, hrest⟩ := List.forall_mem_cons.1 hown
    have hself : answersTo first.component first = true := by
      rw [answersTo, BEq.refl, Bool.or_true]
    -- apart from its name, the first port answers to no later component
    have hname : ∀ port ∈ rest,
        answersTo port.component first = (port.component == first.name) := by
      intro port hport
      have hother : (port.component == first.component) = false := BEq.comm.trans (hfirst port hport)
      rw [answersTo, hid, hother, Bool.false_or, Bool.or_false]
    rw [List.forall_mem_cons, List.find?_cons_of_pos hself, and_iff_right rfl, Unshadowed,
      List.pairwise_cons, ← Unshadowed, ← ih hrest, ← forall₂_and]
    refine forall₂_congr (fun port hport => ?_)
    rw [List.find?_cons, hname port hport]
    cases hnamed : port.component == first.name with
    | false => exact (and_iff_right rfl).symm
    | true =>
      refine ⟨fun hfound => ?_, nofun⟩
      -- it is found as another port, which stands for another component
      have hsame := hfirst port hport
      rw [Option.some.inj hfound, BEq.refl] at hsame
      cases hsame

section
variable {circuit : Circuit} {cap : Int}

/-- An id is resolved to the component of the first input port that answers to it. -/
theorem resolve_of_find? {id : Ident} {port : Port}
    (h : circuit.inputs.find? (answersTo id) = some port) :
    Simulator.resolve circuit id = .ok (some port.component) := by
  unfold Simulator.resolve
  split
  · next found hfound => rw [Option.some.inj (hfound.symm.trans h)]
  · next hnone => cases hnone.symm.trans h

/-- In a circuit in order the component of every external input denotes that input if and only if
none is shadowed. -/
theorem resolve_iff (h : circuit.Orderly) :
    (∀ port ∈ circuit.inputs,
      Simulator.resolve circuit port.component = .ok (some port.component)) ↔
    Unshadowed circuit.inputs := by
  rw [← find?_answersTo_iff h.inputs.distinct h.inputs.own]
  refine forall₂_congr (fun port hport => ?_)
  have hself : answersTo port.component port = true := by
    rw [answersTo, BEq.refl, Bool.or_true]
  obtain ⟨found, hfound⟩ : ∃ found, circuit.inputs.find? (answersTo port.component) = some found :=
    Option.isSome_iff_exists.1 (List.find?_isSome.2 ⟨port, hport, hself⟩)
  rw [resolve_of_find? hfound, hfound]
  constructor
  · intro hsame
    have hcomponent : found.component = port.component := Option.some.inj (Except.ok.inj hsame)
    rw [Assoc.eq_of_key_beq h.inputs.distinct (List.mem_of_find?_eq_some hfound) hport
      (hcomponent ▸ BEq.rfl)]
  · intro hsame
    rw [Option.some.inj hsame]

/-! ## Setting the inputs of a row -/

/-- Each port stands for one component in a row. -/
theorem length_portComponents (ports : List Port) :
    (portComponents ports).length = ports.length := List.length_map _

/-- A number that denotes a level. -/
def IsLevel (n : Int) : Prop :=
  (Signal.ofCode? n).isSome = true

/-- The codes of levels are 0 and 1, which are read as such. -/
theorem ofCode?_of_isLevel {n : Int} (h : IsLevel n) :
    Signal.ofCode? n = some (Signal.ofCode n) := by
  obtain ⟨level, hlevel⟩ := Option.isSome_iff_exists.1 h
  rw [Signal.ofCode, hlevel]
  rfl

/-- Names that denote themselves are set one after the other. -/
theorem setAll_eq : ∀ {values : List (Ident × Int)} {bench : Bench}, bench.Holds circuit cap →
    (∀ v ∈ values, IsName v.1 ∧ Simulator.resolve circuit v.1 = .ok (some v.1) ∧ IsLevel v.2) →
    setAll bench values = .ok { bench with sim := { bench.sim with
      inputs := values.foldl (fun inputs v => Assoc.put v.1 (Signal.ofCode v.2) inputs)
        bench.sim.inputs } }
  | [], _, _, _ => rfl
  | (id, n) :: rest, bench, hholds, hvalues => by
    obtain ⟨⟨hname, hresolve, hlevel⟩, hrest⟩ := List.forall_mem_cons.1 hvalues
    have hcode : Signal.ofJson? (.int n) = some (Signal.ofCode n) := ofCode?_of_isLevel hlevel
    rw [setAll, hholds.setInput_eq, bench.sim.setInput_of_resolve hname.scalar hname.present hresolve
      hcode]
    exact setAll_eq (hholds.withInputs _) hrest

/-- The external inputs of a circuit in order, just loaded, are low. -/
theorem lowInputs_eq (h : circuit.Orderly) :
    Simulator.lowInputs circuit.inputs =
      (portComponents circuit.inputs).map (fun id => (id, .low)) := by
  rw [portComponents, List.map_map]
  exact Assoc.foldl_put_new h.inputs.distinct (fun _ => Signal.low) []
    (fun _ _ _ h => absurd h List.not_mem_nil)

/-- The simulation of a circuit, just loaded, in which the components of the external inputs carry
the given levels in order. -/
def driven (cap : Int) (circuit : Circuit) (levels : List Signal) : Simulator :=
  { Simulator.load cap circuit with inputs := (portComponents circuit.inputs).zip levels }

/-- Setting the inputs of a row gives every component the level of its column. -/
theorem setAll_row (h : circuit.Orderly) (hclear : Unshadowed circuit.inputs)
    (hholds : (Bench.fresh circuit cap).Holds circuit cap) {ns : List Int}
    (hlength : ns.length = circuit.inputs.length) (hlevels : ∀ n ∈ ns, IsLevel n) :
    setAll (Bench.fresh circuit cap) ((portComponents circuit.inputs).zip ns) =
      .ok { Bench.fresh circuit cap with sim := driven cap circuit (ns.map Signal.ofCode) } := by
  have hvalues : ∀ v ∈ (portComponents circuit.inputs).zip ns,
      IsName v.1 ∧ Simulator.resolve circuit v.1 = .ok (some v.1) ∧ IsLevel v.2 := by
    rintro ⟨id, n⟩ hv
    obtain ⟨hid, hn⟩ := List.of_mem_zip hv
    obtain ⟨port, hport, rfl⟩ := List.mem_map.1 hid
    exact ⟨h.inputs.isName h.names hport, (resolve_iff h).2 hclear port hport, hlevels n hn⟩
  rw [setAll_eq hholds hvalues]
  refine congrArg (fun inputs => Except.ok { Bench.fresh circuit cap with
    sim := { Simulator.load cap circuit with inputs } }) ?_
  have hnames : ((portComponents circuit.inputs).zip ns).map Prod.fst =
      portComponents circuit.inputs :=
    List.map_fst_zip (by rw [length_portComponents, hlength])
  have hdistinct : ((portComponents circuit.inputs).zip ns).Pairwise
      (fun a b => (a.1 == b.1) = false) := by
    rw [← List.pairwise_map (f := Prod.fst) (R := fun a b => (a == b) = false), hnames,
      portComponents, List.pairwise_map]
    exact h.inputs.distinct
  have hlow : Simulator.lowInputs circuit.inputs =
      ((portComponents circuit.inputs).zip ns).map (fun v => (v.1, Signal.low)) := by
    rw [lowInputs_eq h]
    conv_lhs => rw [← hnames]
    exact List.map_map
  have hput := Assoc.foldl_put_there hdistinct (fun v => Signal.ofCode v.2) (fun _ => .low) []
    (fun _ _ _ h => absurd h List.not_mem_nil)
  rw [List.nil_append, List.nil_append, ← hlow] at hput
  rw [List.zip_map_right]
  exact hput

/-! ## Reading the outputs of a row -/

/-- The level that a component has at its input port. -/
def seenBy (states : States) (id : Ident) : Option Signal :=
  (Assoc.get? id states).bind (fun state => Assoc.get? inPort state.ports)

/-- After a step every output component sees a level. -/
theorem exists_seenBy {sim : Simulator} (h : sim.Loaded circuit) {result : StepResult}
    (hresult : (sim.step circuit).2 = .ok result) {c : Component} (hc : c ∈ circuit.components)
    (hkind : c.kind = .output) : ∃ level, seenBy result.states c.id = some level := by
  obtain ⟨-, hstates, hreported, -, -⟩ := Simulator.step_of_ok hresult
  obtain ⟨f, hf, -⟩ :=
    (Scene.Lawful.settle h sim.inputs sim.cap.toNat Int.toNat_of_nonpos).states
  have hrounds : (sim.rounds circuit).1.states = States.of circuit.components f := hf
  have hports : c.ports = [inPort] := by rw [Component.ports, hkind, Kind.ports]
  rw [seenBy, hreported, hstates, hrounds, get?_readPorts circuit _ f hc, Option.bind_some,
    ComponentState.readPorts, hports]
  exact ⟨_, (Assoc.get?_put inPort inPort _ _).trans (if_pos BEq.rfl)⟩

/-- In a circuit in order an output is read at its own component. -/
theorem getOutput_row (h : circuit.Orderly) {sim : Simulator} {result : StepResult}
    (hresult : (sim.step circuit).2 = .ok result) {port : Port} (hport : port ∈ circuit.outputs) :
    (sim.step circuit).1.getOutput circuit port.component =
      .ok ((seenBy result.states port.component).getD .unknown) := by
  obtain ⟨-, -, hreported, -, -⟩ := Simulator.step_of_ok hresult
  unfold Simulator.getOutput
  split
  · next found hfound =>
    have hsame : port.component == found.component := by
      have hanswers := List.find?_some hfound
      rw [h.outputs.own found (List.mem_of_find?_eq_some hfound), Bool.or_self] at hanswers
      exact hanswers
    obtain rfl := Assoc.eq_of_key_beq h.outputs.distinct hport (List.mem_of_find?_eq_some hfound)
      hsame
    rw [requireScalar, if_pos (h.outputs.isName h.names hport).scalar, hreported]
    rfl
  · next hnone =>
    have hself := List.find?_eq_none.1 hnone port hport
    rw [BEq.refl, Bool.or_true] at hself
    exact absurd rfl hself

/-! ## Grading the rows -/

/-- The circuit computes a row: the relay simulation in which the components of the external inputs
carry the values of the row in order comes to rest, and the input ports of the components of the
external outputs have the other values of the row in order. -/
def Computes (cap : Int) (circuit : Circuit) (row : List Int) : Prop :=
  ∃ result, ((driven cap circuit ((row.take circuit.inputs.length).map Signal.ofCode)).step
      circuit).2 = .ok result ∧ result.converged = true ∧
    (portComponents circuit.outputs).map (seenBy result.states) =
      (row.drop circuit.inputs.length).map (fun n => some (Signal.ofCode n))

/-- A row with a level for each external input and output. -/
structure Fits (circuit : Circuit) (row : List Int) : Prop where
  length : row.length = circuit.inputs.length + circuit.outputs.length
  levels : ∀ n ∈ row, IsLevel n

/-- Integers that are levels are all read, in order. -/
theorem mapM_levelOf {ns : List Int} (h : ∀ n ∈ ns, IsLevel n) :
    ns.mapM levelOf = .ok (ns.map Signal.ofCode) := by
  rw [mapM_eq_ok_iff, List.forall₂_map_right_iff, List.forall₂_same]
  intro n hn
  rw [levelOf, ofCode?_of_isLevel (h n hn)]

/-- What the outputs of a circuit in order read after a step. -/
theorem mapM_getOutput (h : circuit.Orderly) {bench : Bench} (hholds : bench.Holds circuit cap)
    {result : StepResult} (hresult : (bench.sim.step circuit).2 = .ok result) :
    ∃ levels, (portComponents circuit.outputs).mapM bench.step.1.getOutput = .ok levels ∧
      (portComponents circuit.outputs).map (seenBy result.states) = levels.map some := by
  refine ⟨(portComponents circuit.outputs).map
    (fun id => (seenBy result.states id).getD .unknown), ?_, ?_⟩
  · rw [mapM_eq_ok_iff, List.forall₂_map_right_iff, List.forall₂_same]
    intro id hid
    obtain ⟨port, hport, rfl⟩ := List.mem_map.1 hid
    rw [hholds.step_eq, Bench.getOutput, hholds.withStep.loaded?_eq]
    exact getOutput_row h hresult hport
  · rw [List.map_map]
    refine List.map_congr_left (fun id hid => ?_)
    obtain ⟨port, hport, rfl⟩ := List.mem_map.1 hid
    obtain ⟨c, hc, hkind, hown⟩ := h.outputs.placed port hport
    obtain ⟨level, hlevel⟩ := exists_seenBy hholds.loaded hresult hc hkind
    rw [hown] at hlevel
    rw [Function.comp_apply, hlevel, Option.getD_some]

/-- A row that fits is graded, and it passes if and only if the circuit computes it. -/
theorem gradeRow_computes (h : circuit.Orderly) (hclear : Unshadowed circuit.inputs)
    {bench : Bench} (hholds : bench.Holds circuit cap) (index : Nat) {row : List Int}
    (hrow : Fits circuit row) :
    ∃ next outcome, gradeRow bench (portComponents circuit.inputs)
        (portComponents circuit.outputs) index row = .ok (next, outcome) ∧
      outcome.index = index ∧ (outcome.passes = true ↔ Computes cap circuit row) := by
  have hwidth := length_portComponents circuit.inputs
  have hfresh : (Bench.fresh circuit cap).Holds circuit cap := Bench.holds_fresh hholds.loadable
  have htaken : (row.take circuit.inputs.length).length = circuit.inputs.length := by
    rw [List.length_take, hrow.length]
    omega
  have hset := setAll_row h hclear hfresh htaken
    (fun n hn => hrow.levels n (List.mem_of_mem_take hn))
  have hexpected : (row.drop circuit.inputs.length).mapM levelOf = .ok _ :=
    mapM_levelOf (fun n hn => hrow.levels n (List.mem_of_mem_drop hn))
  have hready := setAll_holds hfresh hset
  obtain ⟨result, hstep⟩ := hready.step_ok_iff.2 (List.all_eq_true.2 h.kinds)
  have hresult : ((driven cap circuit ((row.take circuit.inputs.length).map Signal.ofCode)).step
      circuit).2 = .ok result := by
    rw [hready.step_eq] at hstep
    exact hstep
  obtain ⟨actual, hactual, hseen⟩ := mapM_getOutput h hready hresult
  refine ⟨_, _, (gradeRow_eq_ok_iff hholds).2 ⟨_, result, actual, _, hwidth.symm ▸ hset, hstep,
    hactual, hwidth.symm ▸ hexpected, rfl, rfl⟩, rfl, ?_⟩
  rw [RowOutcome.passes, Bool.and_eq_true, decide_eq_true_eq]
  dsimp only
  have hsame : actual = (row.drop circuit.inputs.length).map Signal.ofCode ↔
      (portComponents circuit.outputs).map (seenBy result.states) =
        (row.drop circuit.inputs.length).map (fun n => some (Signal.ofCode n)) := by
    rw [hseen, ← (List.map_injective_iff.2 (Option.some_injective Signal)).eq_iff, List.map_map]
    rfl
  rw [hwidth, hsame]
  constructor
  · rintro ⟨hconverged, hlevels⟩
    exact ⟨result, hresult, hconverged, hlevels⟩
  · rintro ⟨other, hother, hconverged, hlevels⟩
    rw [hresult] at hother
    cases hother
    exact ⟨hconverged, hlevels⟩

/-- Rows that fit are graded in order under consecutive numbers, and those pass that the circuit
computes. -/
theorem gradeRows_computes (h : circuit.Orderly) (hclear : Unshadowed circuit.inputs) :
    ∀ {rows : List (List Int)} {bench : Bench} (index : Nat), bench.Holds circuit cap →
    (∀ row ∈ rows, Fits circuit row) →
    ∃ next outcomes, gradeRows (portComponents circuit.inputs) (portComponents circuit.outputs)
        index bench rows = .ok (next, outcomes) ∧
      List.Forall₂ (fun (numbered : List Int × Nat) outcome => outcome.index = numbered.2 ∧
        (outcome.passes = true ↔ Computes cap circuit numbered.1)) (rows.zipIdx index) outcomes
  | [], bench, _, _, _ => ⟨bench, [], rfl, .nil⟩
  | row :: rows, bench, index, hholds, hrows => by
    obtain ⟨hrow, hrest⟩ := List.forall_mem_cons.1 hrows
    obtain ⟨middle, outcome, hgraded, hindex, hpasses⟩ :=
      gradeRow_computes h hclear hholds index hrow
    obtain ⟨next, outcomes, hothers, hall⟩ :=
      gradeRows_computes h hclear (index + 1) (gradeRow_holds hholds hgraded) hrest
    refine ⟨next, outcome :: outcomes, ?_, .cons ⟨hindex, hpasses⟩ hall⟩
    rw [gradeRows, hgraded]
    dsimp only [bind, Except.bind]
    rw [hothers]
    rfl

/-! ## The verdict on a table -/

/-- A table has a column for each external input and output of a circuit, and levels in its rows. -/
structure Suits (circuit : Circuit) (table : Table) : Prop where
  inputs : table.inputs.length = circuit.inputs.length
  outputs : table.outputs.length = circuit.outputs.length
  columns : 0 < table.width
  rows : ∀ row ∈ table.rows, row.length = table.width ∧ ∀ n ∈ row, IsLevel n

/-- A level fits into a word, so a table of levels is never refused for the size of its values. -/
theorem fitsWord_of_isLevel {n : Int} (h : IsLevel n) : fitsWord n = true := by
  unfold IsLevel Signal.ofCode? at h
  rw [fitsWord, Bool.and_eq_true, decide_eq_true_eq, decide_eq_true_eq]
  grind

/-- Rows of levels, of one length other than zero, are graded as they are. -/
theorem checkRows_eq_ok {arrays : Arrays} {width : Nat} {rows : List (List Int)}
    (hwidth : 0 < width) (hrows : ∀ row ∈ rows, row.length = width ∧ ∀ n ∈ row, IsLevel n) :
    checkRows arrays width rows = .ok rows :=
  checkRows_of_words hwidth (fun row hrow => (hrows row hrow).1)
    (fun row hrow n hn => fitsWord_of_isLevel ((hrows row hrow).2 n hn))

/-- A circuit in order can be loaded. -/
theorem load_orderly (cap : Int) (h : circuit.Orderly) :
    (Bench.ofCircuit circuit cap).load.2 = .ok () := by
  have hwires : circuit.wires.all (·.isScalar) = true := List.all_eq_true.2 h.wires
  have hinputs : circuit.inputs.all (·.component.isScalar) = true :=
    List.all_eq_true.2 (fun port hport => (h.inputs.isName h.names hport).scalar)
  change (Simulator.reload circuit _).2 = .ok ()
  unfold Simulator.reload
  rw [hwires, hinputs]
  rfl

/-- The rows a verdict lists as passed and as failed are the numbers of the outcomes that did. -/
theorem rows_ofTable (table : Table) (outcomes : List RowOutcome) :
    (Verdict.ofTable table outcomes).passedRows =
        (outcomes.filter (·.passes)).map (·.index) ∧
      (Verdict.ofTable table outcomes).failedRows =
        (outcomes.filter (!·.passes)).map (·.index) := by
  unfold Verdict.ofTable
  dsimp only
  split <;> exact ⟨rfl, rfl⟩

/-- A number is listed exactly if a kept outcome has it. -/
theorem mem_numbers {outcomes : List RowOutcome} {keep : RowOutcome → Bool} {k : Nat} :
    k ∈ (outcomes.filter keep).map (·.index) ↔
      ∃ outcome ∈ outcomes, keep outcome = true ∧ outcome.index = k := by
  simp [and_assoc]

/-- A numbered row with a property is a row found at that number. -/
theorem exists_numbered_iff {rows : List (List Int)} {k : Nat} (P : List Int → Prop) :
    (∃ p ∈ rows.zipIdx, P p.1 ∧ p.2 = k) ↔ ∃ row, rows[k]? = some row ∧ P row := by
  simp [List.mem_zipIdx_iff_getElem?, and_comm]

/-- Of lists related item by item one has an item of some property if and only if the other has one
of the property that goes with it. -/
theorem exists_mem_iff {α β : Type} {R : α → β → Prop} {xs : List α} {ys : List β}
    (h : List.Forall₂ R xs ys) {p : α → Prop} {q : β → Prop} (hpq : ∀ x y, R x y → (p x ↔ q y)) :
    (∃ x ∈ xs, p x) ↔ ∃ y ∈ ys, q y := by
  induction h with
  | nil => exact ⟨nofun, nofun⟩
  | cons hxy _ ih => rw [List.exists_mem_cons_iff, List.exists_mem_cons_iff, hpq _ _ hxy, ih]

/-- Testing a circuit built by components and wires, of whose external inputs none is shadowed, by a
table that suits it comes to a verdict, which reports those rows as passed that the circuit
computes, and the others as failed. -/
theorem testTable_passedRows (arrays : Arrays) (cap : Int) {table : Table} (h : circuit.Built)
    (hclear : Unshadowed circuit.inputs) (hsuits : Suits circuit table) :
    ∃ verdict, testTable arrays cap circuit table = .ok verdict ∧ ∀ k,
      (k ∈ verdict.passedRows ↔
        ∃ row, table.rows[k]? = some row ∧ Computes cap circuit row) ∧
      (k ∈ verdict.failedRows ↔
        ∃ row, table.rows[k]? = some row ∧ ¬ Computes cap circuit row) := by
  have horderly := h.orderly
  obtain ⟨hloaded, hholds⟩ := load_ofCircuit (load_orderly cap horderly)
  have hwidth : (portComponents circuit.inputs).length + (portComponents circuit.outputs).length =
      table.width := by
    rw [length_portComponents, length_portComponents, Table.width, hsuits.inputs, hsuits.outputs]
  have hfits : ∀ row ∈ table.rows, Fits circuit row := by
    intro row hrow
    obtain ⟨hlength, hlevels⟩ := hsuits.rows row hrow
    exact ⟨by rw [hlength, Table.width, hsuits.inputs, hsuits.outputs], hlevels⟩
  obtain ⟨next, outcomes, hgraded, hall⟩ := gradeRows_computes horderly hclear 0 hholds hfits
  have htested : testTable arrays cap circuit table = .ok (Verdict.ofTable table outcomes) := by
    unfold testTable gradeTable grade
    rw [hwidth, checkRows_eq_ok hsuits.columns hsuits.rows]
    dsimp only [bind, Except.bind, Except.mapError]
    rw [load_orderly cap horderly, hloaded]
    dsimp only
    rw [hgraded]
    rfl
  obtain ⟨hpassed, hfailed⟩ := rows_ofTable table outcomes
  refine ⟨_, htested, fun k => ⟨?_, ?_⟩⟩
  · rw [hpassed, mem_numbers, ← exists_numbered_iff (Computes cap circuit)]
    exact (exists_mem_iff hall (fun p outcome hp => by rw [hp.1, hp.2])).symm
  · rw [hfailed, mem_numbers, ← exists_numbered_iff (¬ Computes cap circuit ·)]
    exact (exists_mem_iff hall (fun p outcome hp => by
      rw [hp.1, ← hp.2, Bool.not_eq_true', Bool.not_eq_true])).symm

/-- Edits that add inputs and an output with labels that are the identifiers of earlier components,
and a component that is removed again. The second input is wired to the output. -/
def relabelling : List Edit :=
  [.addComponent ⟨.text "b", .input, .zero false, .zero false, .int 0, .null⟩,
    .addComponent ⟨.text "z", .input, .zero false, .zero false, .int 0, .str "a"⟩,
    .addComponent ⟨.text "a", .input, .zero false, .zero false, .int 0, .str "b"⟩,
    .addComponent ⟨.text "y", .output, .zero false, .zero false, .int 0, .str "a"⟩,
    .addWire ⟨.text "w", ⟨.text "a", outPort⟩, ⟨.text "y", inPort⟩⟩,
    .removeComponent (.text "z")]

/-- Labels that are the identifiers of earlier inputs do no harm: the rows are reported as passed in
which the output is the second input. -/
theorem testTable_relabelled :
    let circuit := relabelling.foldl Circuit.edit {}
    let table : Table := ⟨[.str "b", .str "a"], [.str "y"], [[0, 1, 1], [1, 0, 0], [1, 0, 1]]⟩
    circuit.Built ∧ Unshadowed circuit.inputs ∧ Suits circuit table ∧
      ∃ verdict, testTable (.ofNesting 64) 10 circuit table = .ok verdict ∧
        verdict.passedRows = [0, 1] ∧
        Computes 10 circuit [0, 1, 1] ∧ ¬ Computes 10 circuit [1, 0, 1] := by
  intro circuit table
  have hbuilt : circuit.Built := by
    refine (Circuit.Built.empty {}).edits ?_
    simp only [relabelling, List.forall_mem_cons, Edit.Plain, isName_text, true_and]
    exact ⟨rfl, rfl, rfl, rfl, rfl, List.forall_mem_nil _⟩
  have hclear : Unshadowed circuit.inputs := by
    unfold Unshadowed
    decide +kernel
  have hsuits : Suits circuit table := by
    refine ⟨by decide +kernel, by decide +kernel, by decide +kernel, ?_⟩
    unfold IsLevel
    decide +kernel
  obtain ⟨verdict, hverdict, hrows⟩ := testTable_passedRows (.ofNesting 64) 10 hbuilt hclear hsuits
  have hreported : (verdict.passedRows, verdict.failedRows) = ([0, 1], [2]) := by
    have hsome : (testTable (.ofNesting 64) 10 circuit table).toOption.map
        (fun verdict => (verdict.passedRows, verdict.failedRows)) = some ([0, 1], [2]) := by
      decide +kernel
    rw [hverdict] at hsome
    exact Option.some.inj hsome
  obtain ⟨hpassed, hfailed⟩ := Prod.mk.inj hreported
  obtain ⟨row, hrow, hcomputes⟩ := (hrows 0).1.1 (by rw [hpassed]; decide)
  obtain ⟨other, hother, hnot⟩ := (hrows 2).2.1 (by rw [hfailed]; decide)
  cases hrow
  cases hother
  exact ⟨hbuilt, hclear, hsuits, verdict, hverdict, hpassed, hcomputes, hnot⟩

/-- A label that is the identifier of a later input takes its values: the second input is wired to
the output, and the row in which both are high is reported as failed. -/
example :
    let circuit := [.addComponent ⟨.text "a", .input, .zero false, .zero false, .int 0, .str "b"⟩,
      .addComponent ⟨.text "b", .input, .zero false, .zero false, .int 0, .null⟩,
      .addComponent ⟨.text "y", .output, .zero false, .zero false, .int 0, .null⟩,
      .addWire ⟨.text "w", ⟨.text "b", outPort⟩, ⟨.text "y", inPort⟩⟩].foldl Circuit.edit {}
    let table : Table := ⟨[.str "a", .str "b"], [.str "y"], [[0, 1, 1]]⟩
    (testTable (.ofNesting 64) 10 circuit table).toOption.map (·.failedRows) = some [0] ∧
      ((driven 10 circuit [.low, .high]).step circuit).2.toOption.map
        (fun result => (result.converged, seenBy result.states (.text "y"))) =
        some (true, some .high) := by
  decide +kernel

end

end Switchyard.Grading
