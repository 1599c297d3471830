import Switchyard.Proofs.Grading.Total
import Switchyard.Proofs.Hdl.Stages
import Switchyard.Proofs.Logic.Programs

/-!
# Pipelines report

Every pipeline ends with an outcome. It names the first stage that did not pass, and a stage is gone
into only if those before it passed (`Stage.Ends`); the outcome succeeds if and only if all stages
passed, and otherwise tells errors (`Outcome.Reports`). For programs this rests on what can be
refused in a built circuit (`Logic.simulate_cases`), for relay circuits on what can be looked up in
one whose names are texts (`Relay.Circuit.Lettered.searchable`, `stepOnce_cases`,
`Grading.exists_unlockNamed_eq_ok`). The four pipelines together are `pipelines_report`.
-/

namespace Switchyard

/-! ## Outcomes -/

/-- Where a pipeline ends that goes through stages, each of which passes or not: at the first one
that does not pass, and complete if there is none. -/
inductive Stage.Ends : List (Stage × Prop) → Stage → Prop
  | complete : Ends [] .complete
  | stopped {stage : Stage} {passes : Prop} {rest : List (Stage × Prop)} :
      ¬ passes → Ends ((stage, passes) :: rest) stage
  | passed {stage ended : Stage} {passes : Prop} {rest : List (Stage × Prop)} :
      passes → Ends rest ended → Ends ((stage, passes) :: rest) ended

/-- The outcome tells where a pipeline through the stages ended: it succeeds if and only if that is
at its completion, and has errors if it does not succeed. -/
structure Outcome.Reports {δ : Type} (outcome : Outcome δ) (stages : List (Stage × Prop)) :
    Prop where
  ends : Stage.Ends stages outcome.stage
  success_iff : outcome.success = true ↔ outcome.stage = .complete
  errors_ne_nil : outcome.success = false → outcome.errors ≠ []

section
variable {δ : Type} {stages : List (Stage × Prop)}

/-- A complete and successful outcome reports its stages if these end complete. -/
theorem Outcome.reports_of_success {outcome : Outcome δ} (hends : Stage.Ends stages .complete)
    (hstage : outcome.stage = .complete) (hsuccess : outcome.success = true) :
    outcome.Reports stages where
  ends := hstage ▸ hends
  success_iff := iff_of_true hsuccess hstage
  errors_ne_nil hfailed := by
    rw [hsuccess] at hfailed
    cases hfailed

/-- A failed outcome with errors reports its stages if these end where it says. -/
theorem Outcome.reports_of_failure {outcome : Outcome δ} (hends : Stage.Ends stages outcome.stage)
    (hstage : outcome.stage ≠ .complete) (hsuccess : outcome.success = false)
    (herrors : outcome.errors ≠ []) : outcome.Reports stages where
  ends := hends
  success_iff := by
    rw [hsuccess]
    exact iff_of_false Bool.false_ne_true hstage
  errors_ne_nil _ := herrors

end

/-! ## Programs -/

/-- The stages of compiling a program. -/
def compileStages (text : String) : List (Stage × Prop) :=
  [(.parse, (Hdl.Program.ofText text).isRead = true),
    (.validation, (Hdl.Survey.ofText text).isValid = true),
    (.generation, ∃ circuit, Logic.Circuit.ofProgram (Hdl.Program.ofText text) = .ok circuit)]

/-- The stages of compiling and simulating a program. The last one passes if all inputs can be set
and every propagation from there comes to rest. -/
def runStages (cap : Int) (text : String) (inputs : List (String × Json)) (cycles : Int) :
    List (Stage × Prop) :=
  compileStages text ++
    [(.simulation, ∃ circuit set,
      Logic.Circuit.ofProgram (Hdl.Program.ofText text) = .ok circuit ∧
      setWires { circuit, cap } inputs = .ok set ∧ ∀ sim ∈ set.starts (.run cycles), sim.Rests)]

/-- A survey that finds a program invalid has complaints. -/
theorem Hdl.Survey.complaints_ne_nil {survey : Survey} (h : survey.isValid ≠ true) :
    survey.complaints ≠ [] := by
  intro hnil
  rw [complaints, List.map_eq_nil_iff] at hnil
  exact h (List.isEmpty_iff.2 hnil)

/-- A program that is not read has complaints. -/
theorem Hdl.Program.complaints_ne_nil {program : Program} (h : program.isRead ≠ true) :
    program.complaints ≠ [] := by
  intro hnil
  rw [complaints, List.map_eq_nil_iff] at hnil
  exact h (List.isEmpty_iff.2 hnil)

/-- Compiling stops at a stage, and so does a pipeline that goes on from it, or it builds the
program. -/
theorem compile_cases (text : String) :
    ((compile text).success = false ∧ (compile text).stage ≠ .complete ∧
      (compile text).errors ≠ [] ∧
      ∀ more, Stage.Ends (compileStages text ++ more) (compile text).stage) ∨
    ∃ circuit, Logic.Circuit.ofProgram (Hdl.Program.ofText text) = .ok circuit ∧
      (Hdl.Survey.ofText text).isValid = true ∧
      compile text = { success := true, data := some circuit
                       warnings := (Hdl.Survey.ofText text).cautions } := by
  by_cases hread : (Hdl.Program.ofText text).isRead = true
  · by_cases hvalid : (Hdl.Survey.ofText text).isValid = true
    · rw [compile_of_valid hvalid]
      cases hbuilt : Logic.Circuit.ofProgram (Hdl.Program.ofText text) with
      | ok circuit => exact .inr ⟨circuit, rfl, hvalid, rfl⟩
      | error fault =>
        refine .inl ⟨rfl, nofun, List.cons_ne_nil _ _, fun more => ?_⟩
        refine .passed hread (.passed hvalid (.stopped ?_))
        rintro ⟨circuit, hcircuit⟩
        cases hbuilt.symm.trans hcircuit
    · have hcompile : compile text = .failure .validation .validation
          (Hdl.Survey.ofText text).complaints (Hdl.Survey.ofText text).cautions none := by
        simp [compile, hread, hvalid]
      rw [hcompile]
      exact .inl ⟨rfl, nofun, Hdl.Survey.complaints_ne_nil hvalid,
        fun more => .passed hread (.stopped hvalid)⟩
  · have hcompile : compile text = .failure .parse .parse
        (Hdl.Program.ofText text).complaints [] none := by
      simp [compile, hread]
    rw [hcompile]
    exact .inl ⟨rfl, nofun, Hdl.Program.complaints_ne_nil hread, fun more => .stopped hread⟩

/-- The stages of compiling a program that was built have passed. -/
theorem ends_of_valid {text : String} (hvalid : (Hdl.Survey.ofText text).isValid = true)
    {circuit : Logic.Circuit}
    (hcircuit : Logic.Circuit.ofProgram (Hdl.Program.ofText text) = .ok circuit)
    {more : List (Stage × Prop)} {ended : Stage} (h : Stage.Ends more ended) :
    Stage.Ends (compileStages text ++ more) ended :=
  .passed (Hdl.Program.isRead_of_valid hvalid) (.passed hvalid (.passed ⟨circuit, hcircuit⟩ h))

/-- Compiling a text reports the stages it went through. -/
theorem compile_reports (text : String) : (compile text).Reports (compileStages text) := by
  rw [← List.append_nil (compileStages text)]
  rcases compile_cases text with ⟨hfailed, hstage, herrors, hends⟩ | ⟨circuit, hcircuit, hvalid, h⟩
  · exact Outcome.reports_of_failure (hends []) hstage hfailed herrors
  · rw [h]
    exact Outcome.reports_of_success (ends_of_valid hvalid hcircuit .complete) rfl rfl

/-- The outcome of a simulation that succeeded has a stable snapshot of the declared wires, in
order, and each of them is among the outputs with its bit zero. -/
def Outcome.Reads (outcome : Outcome Logic.Circuit) (declared : List Hdl.Wire) : Prop :=
  ∃ snapshot, outcome.data = some snapshot ∧ snapshot.stable = true ∧
    snapshot.wires.map (·.name) = declared.map (·.name) ∧
    ∀ wire ∈ snapshot.wires, ∃ code, wire.state.head? = some code ∧
      Assoc.get? (Ident.text wire.name) outcome.outputs = some code

/-- The outcome of simulating a program that was built: the inputs are refused, a propagation does
not come to rest, or the simulation is complete and gives the outputs. -/
theorem simulated_reports {cap cycles : Int} {text : String} {inputs : List (String × Json)}
    {circuit : Logic.Circuit} (hvalid : (Hdl.Survey.ofText text).isValid = true)
    (hcircuit : Logic.Circuit.ofProgram (Hdl.Program.ofText text) = .ok circuit)
    (warnings : List String) :
    (simulated warnings (simulate cap circuit inputs cycles)).Reports
        (runStages cap text inputs cycles) ∧
    ((simulated warnings (simulate cap circuit inputs cycles)).success = true →
      (simulated warnings (simulate cap circuit inputs cycles)).Reads
        (Hdl.Program.ofText text).wires) := by
  have hstage : Stage.simulation ≠ .complete := by decide
  have hstopped : (¬ ∃ set, setWires { circuit, cap } inputs = .ok set ∧
      ∀ sim ∈ set.starts (.run cycles), sim.Rests) →
      Stage.Ends (runStages cap text inputs cycles) .simulation := by
    intro hnot
    refine ends_of_valid hvalid hcircuit (.stopped ?_)
    rintro ⟨other, set, hother, hset⟩
    cases hcircuit.symm.trans hother
    exact hnot ⟨set, hset⟩
  rcases Logic.simulate_cases hcircuit cap inputs cycles with
    ⟨fault, hfault, -, hsimulate⟩ |
    ⟨set, next, report, pulses, hset, -, hsimulate, htells, hran⟩
  · rw [hsimulate]
    refine ⟨Outcome.reports_of_failure (hstopped ?_) hstage rfl (List.cons_ne_nil _ _),
      fun hsuccess => absurd hsuccess Bool.false_ne_true⟩
    rintro ⟨set, hset, -⟩
    cases hfault.symm.trans hset
  · have hnames : next.circuit.wires.map (·.name) =
        (Hdl.Program.ofText text).wires.map (·.name) :=
      (Logic.names_of_shape hran.shape_eq).trans (Logic.Circuit.names_ofProgram hcircuit)
    have hfailed : next.failed = true ↔ ∃ sim ∈ set.starts (.run cycles), ¬ sim.Rests := by
      rw [hran.failed_iff]
      exact or_iff_right Bool.false_ne_true
    have herror : report.error = next.error? := htells.error_eq
    rw [hsimulate, simulated]
    cases hnext : next.failed with
    | true =>
      rw [herror, Logic.Simulator.error?, hnext, if_pos rfl]
      refine ⟨Outcome.reports_of_failure (hstopped ?_) hstage rfl (List.cons_ne_nil _ _),
        fun hsuccess => absurd hsuccess Bool.false_ne_true⟩
      rintro ⟨other, hother, hrests⟩
      cases hset.symm.trans hother
      obtain ⟨sim, hsim, hmoves⟩ := hfailed.1 hnext
      exact hmoves (hrests sim hsim)
    | false =>
      have hrests : ∀ sim ∈ set.starts (.run cycles), sim.Rests := by
        intro sim hsim
        by_contra hmoves
        rw [hfailed.2 ⟨sim, hsim, hmoves⟩] at hnext
        cases hnext
      rw [herror, Logic.Simulator.error?, hnext, if_neg Bool.false_ne_true]
      refine ⟨Outcome.reports_of_success (ends_of_valid hvalid hcircuit
        (.passed ⟨circuit, set, hcircuit, hset, hrests⟩ .complete)) rfl rfl,
        fun _ => ⟨next.circuit, rfl, hran.stable_of_rests (List.cons_ne_nil _ _) hrests, hnames,
          fun wire hwire => Logic.get?_wireOutputs
            ((Logic.Circuit.numbered_ofProgram hcircuit).of_shape hran.shape_eq)
            (hnames ▸ Hdl.Program.nodup_names_of_valid hvalid) hwire⟩⟩

/-- Running a program ends at the first stage that does not pass, and if there is none it gives the
outputs. -/
theorem runProgram_reports (cap : Int) (text : String) (inputs : List (String × Json))
    (cycles : Int) :
    (runProgram cap text inputs cycles).Reports (runStages cap text inputs cycles) ∧
    ((runProgram cap text inputs cycles).success = true →
      (runProgram cap text inputs cycles).Reads (Hdl.Program.ofText text).wires) := by
  rcases compile_cases text with ⟨hfailed, hstage, herrors, hends⟩ | ⟨circuit, hcircuit, hvalid, h⟩
  · have hrun : runProgram cap text inputs cycles = compile text := by
      unfold runProgram
      dsimp only
      rw [hfailed]
    rw [hrun, hfailed]
    refine ⟨Outcome.reports_of_failure (hends _) hstage hfailed herrors, ?_⟩
    exact fun hsuccess => absurd hsuccess Bool.false_ne_true
  · have hrun : runProgram cap text inputs cycles =
        simulated (Hdl.Survey.ofText text).cautions (simulate cap circuit inputs cycles) := by
      unfold runProgram
      rw [h]
    rw [hrun]
    exact simulated_reports hvalid hcircuit _

/-! ## Relay circuits -/

namespace Relay

/-- All names in the circuit and the kinds of its components are texts. -/
structure Circuit.Lettered (circuit : Circuit) : Prop where
  kinds : ∀ c ∈ circuit.components, (Ident.mk c.kind.toJson).isText = true
  wires : ∀ wire ∈ circuit.wires, wire.id.isText = true ∧ ∀ terminal ∈ wire.terminals,
    terminal.component.isText = true ∧ terminal.port.isText = true
  ports : ∀ port ∈ circuit.inputs ++ circuit.outputs,
    port.id.isText = true ∧ port.component.isText = true

/-- A text is a scalar, so it can be looked up. -/
theorem isScalar_of_isText {id : Ident} (h : id.isText = true) : id.isScalar = true := by
  obtain ⟨value⟩ := id
  cases value with
  | str s => rfl
  | null | bool | int | real | arr | obj => cases h

/-- A kind that is a text can be looked up. -/
theorem Kind.isScalar_of_isText {kind : Kind} (h : (Ident.mk kind.toJson).isText = true) :
    kind.isScalar = true := by
  cases kind with
  | other value => exact Relay.isScalar_of_isText h
  | _ => rfl

namespace Circuit.Lettered

variable {circuit : Circuit} (h : circuit.Lettered)
include h

/-- In a circuit whose ids and kinds are texts, whatever is looked up can be. -/
theorem searchable : circuit.Searchable where
  kinds c hc := Kind.isScalar_of_isText (h.kinds c hc)
  wires wire hwire := by
    obtain ⟨hid, hends⟩ := h.wires wire hwire
    have hterminal : ∀ terminal ∈ wire.terminals, terminal.isScalar = true := by
      intro terminal hterminal
      obtain ⟨hcomponent, hport⟩ := hends terminal hterminal
      rw [Terminal.isScalar, isScalar_of_isText hcomponent, isScalar_of_isText hport]
      rfl
    rw [Wire.isScalar, isScalar_of_isText hid, hterminal wire.source List.mem_cons_self,
      hterminal wire.target (List.mem_cons_of_mem _ List.mem_cons_self)]
    rfl
  inputs port hport := isScalar_of_isText (h.ports port (List.mem_append_left _ hport)).2
  outputs port hport := by
    obtain ⟨hid, hcomponent⟩ := h.ports port (List.mem_append_right _ hport)
    exact ⟨isScalar_of_isText hcomponent, isScalar_of_isText hid⟩

/-- In such a circuit every input port names its component. -/
theorem present : ∀ port ∈ circuit.inputs, port.component ≠ .null := by
  intro port hport hnull
  have htext := (h.ports port (List.mem_append_left _ hport)).2
  rw [hnull] at htext
  cases htext

end Circuit.Lettered

/-- The circuit passes inspection. -/
def Circuit.Passes (circuit : Circuit) : Prop :=
  ∃ inspection, circuit.inspect = .ok inspection ∧ inspection.passed = true

/-- A circuit in which everything can be looked up is inspected to the end. -/
theorem Circuit.Searchable.exists_inspect_eq_ok {circuit : Circuit} (h : circuit.Searchable) :
    ∃ inspection, circuit.inspect = .ok inspection := by
  have hends : ∀ wire ∈ circuit.wires, ∀ terminal ∈ wire.terminals,
      circuit.canInspectEnd wire terminal = true := by
    intro wire hwire terminal hterminal
    have hscalar := h.wires wire hwire
    simp only [Wire.isScalar, Terminal.isScalar, Bool.and_eq_true] at hscalar
    simp only [Wire.terminals, List.mem_cons, List.not_mem_nil, or_false] at hterminal
    rw [Circuit.canInspectEnd]
    rcases hterminal with rfl | rfl
    · rw [hscalar.1.2.1, hscalar.1.2.2]
      rfl
    · rw [hscalar.2.1, hscalar.2.2]
      rfl
  have hinspectable : circuit.isInspectable = true := by
    simp only [Circuit.isInspectable, Bool.and_eq_true, List.all_eq_true]
    exact ⟨⟨hends, h.inputs⟩, fun port hport => (h.outputs port hport).1⟩
  unfold Circuit.inspect
  rw [if_pos hinspectable]
  split <;> exact ⟨_, rfl⟩

/-- There are words for every refusal of an input. -/
theorem Circuit.Refuses.message?_isSome {circuit : Circuit} {id : Ident} {value : Json}
    {fault : Fault} (h : circuit.Refuses id value fault) : ∃ text, fault.message? = some text := by
  cases h with
  | unknownInput => exact ⟨_, rfl⟩
  | invalidLevel => exact ⟨_, rfl⟩

/-- A step has a complaint unless it converged. -/
theorem Simulator.error_of_step {circuit : Circuit} {sim : Simulator} {result : StepResult}
    (h : (sim.step circuit).2 = .ok result) : result.error = none ↔ result.converged = true := by
  obtain ⟨-, -, rfl⟩ := Simulator.step_eq_ok_iff.1 h
  unfold Simulator.completeStep
  dsimp only
  split
  · next hconverged => exact iff_of_true rfl hconverged
  · next hmoves => exact iff_of_false nofun hmoves

end Relay

section
variable {arrays : Grading.Arrays} {cap : Int} {circuit : Relay.Circuit}

/-- The stages of simulating a relay circuit. The second one passes if the inputs can be set and a
step converges. -/
def relayStages (cap : Int) (circuit : Relay.Circuit) (inputs : List (Ident × Json)) :
    List (Stage × Prop) :=
  [(.validation, circuit.Passes),
    (.simulation, ∃ sim result, stepOnce cap circuit inputs = .ok (sim, result) ∧
      result.converged = true)]

/-- The stages of grading a relay circuit. The second one passes if the verdict is so. -/
def verifyStages (arrays : Grading.Arrays) (cap : Int) (circuit : Relay.Circuit) (gate : Json) :
    List (Stage × Prop) :=
  [(.validation, circuit.Passes),
    (.verification, ∃ verdict, Grading.unlockNamed arrays cap circuit gate = .ok verdict ∧
      verdict.passed = true)]

/-- A circuit that does not pass inspection is reported as such, whatever comes after. -/
theorem rejected_reports {δ : Type} {inspection : Relay.Inspection}
    (h : circuit.inspect = .ok inspection) (hfailed : ¬ inspection.passed = true)
    (more : List (Stage × Prop)) :
    (rejected inspection : Outcome δ).Reports ((.validation, circuit.Passes) :: more) := by
  refine Outcome.reports_of_failure (.stopped ?_) nofun rfl ?_
  · rintro ⟨other, hother, hpassed⟩
    cases h.symm.trans hother
    exact hfailed hpassed
  · intro hnil
    exact hfailed (List.isEmpty_iff.2 (List.map_eq_nil_iff.1 hnil))

/-- Setting inputs of a circuit just loaded and making a step is refused with a wording, or it gives
a result. -/
theorem stepOnce_cases (h : circuit.Searchable) {inputs : List (Ident × Json)}
    (hinputs : ∀ input ∈ inputs, input.1.isScalar = true) :
    (∃ fault text, stepOnce cap circuit inputs = .error fault ∧ fault.message? = some text) ∨
    ∃ sim result, stepOnce cap circuit inputs = .ok (sim, result) ∧
      (result.error = none ↔ result.converged = true) := by
  unfold stepOnce
  rw [h.reload_eq]
  dsimp only [bind, Except.bind]
  obtain ⟨values, hvalues⟩ :=
    Relay.Simulator.setInputs_eq circuit inputs (Relay.Simulator.load cap circuit)
  cases hset : ((Relay.Simulator.load cap circuit).setInputs circuit inputs).2 with
  | error fault =>
    obtain ⟨id, value, -, hrefuses⟩ := h.refuses_of_setInputs hinputs hset
    obtain ⟨text, htext⟩ := hrefuses.message?_isSome
    exact .inl ⟨fault, text, rfl, htext⟩
  | ok done =>
    rw [hvalues]
    rcases h.step_cases { Relay.Simulator.load cap circuit with inputs := values } with
      ⟨c, hc, hunknown, -⟩ | ⟨-, result, hresult⟩
    · cases ((Relay.Simulator.loaded_load cap circuit).knows hc).symm.trans hunknown
    · dsimp only
      rw [hresult]
      exact .inr ⟨_, result, rfl, Relay.Simulator.error_of_step hresult⟩

/-- The outcome of a step of a circuit that passed inspection. -/
theorem stepped_reports (h : circuit.Searchable) (hpasses : circuit.Passes)
    {inputs : List (Ident × Json)} (hinputs : ∀ input ∈ inputs, input.1.isScalar = true)
    (warnings : List String) :
    ∃ outcome, stepped circuit warnings (stepOnce cap circuit inputs) = .ok outcome ∧
      outcome.Reports (relayStages cap circuit inputs) ∧
      ∀ result ∈ outcome.data, outcome.errors = result.error.toList := by
  rcases stepOnce_cases h hinputs with ⟨fault, text, hfault, htext⟩ | ⟨sim, result, hstep, herror⟩
  · rw [hfault, stepped, htext]
    refine ⟨_, rfl, Outcome.reports_of_failure (.passed hpasses (.stopped ?_)) nofun rfl
      (List.cons_ne_nil _ _), nofun⟩
    rintro ⟨sim, result, hresult, -⟩
    cases hfault.symm.trans hresult
  · obtain ⟨levels, hlevels⟩ := h.exists_outputs_eq_ok sim
    rw [hstep, stepped, hlevels]
    dsimp only [bind, Except.bind]
    split
    · next hconverged =>
      refine ⟨_, rfl, Outcome.reports_of_success
        (.passed hpasses (.passed ⟨sim, result, hstep, hconverged⟩ .complete)) rfl rfl, ?_⟩
      rintro _ ⟨⟩
      rw [herror.2 hconverged]
      rfl
    · next hmoves =>
      refine ⟨_, rfl, Outcome.reports_of_failure (.passed hpasses (.stopped ?_)) nofun rfl
        (List.cons_ne_nil _ _), ?_⟩
      · rintro ⟨other, another, hother, hconverged⟩
        cases hstep.symm.trans hother
        exact hmoves hconverged
      · rintro _ ⟨⟩
        obtain ⟨text, htext⟩ := Option.ne_none_iff_exists'.1 (fun hnone => hmoves (herror.1 hnone))
        rw [htext]
        rfl

/-- Simulating a relay circuit ends at the first stage that does not pass, and the errors are those
of the step if one was made. -/
theorem runRelay_reports (h : circuit.Searchable) {inputs : List (Ident × Json)}
    (hinputs : ∀ input ∈ inputs, input.1.isScalar = true) :
    ∃ outcome, runRelay cap circuit inputs = .ok outcome ∧
      outcome.Reports (relayStages cap circuit inputs) ∧
      ∀ result ∈ outcome.data, outcome.errors = result.error.toList := by
  obtain ⟨inspection, hinspection⟩ := h.exists_inspect_eq_ok
  unfold runRelay
  rw [hinspection]
  dsimp only [bind, Except.bind]
  split
  · next hpassed => exact stepped_reports h ⟨inspection, hinspection, hpassed⟩ hinputs _
  · next hfailed => exact ⟨_, rfl, rejected_reports hinspection hfailed _, nofun⟩

/-- The outcome of a verdict on a circuit that passed inspection. -/
theorem graded_reports (hpasses : circuit.Passes) {gate : Json} {verdict : Grading.Verdict}
    (hverdict : Grading.unlockNamed arrays cap circuit gate = .ok verdict)
    (herror : verdict.error = none ↔ verdict.passed = true) (warnings : List String) :
    (graded warnings verdict).Reports (verifyStages arrays cap circuit gate) ∧
      (graded warnings verdict).data = some verdict ∧
      (graded warnings verdict).errors = verdict.error.toList := by
  unfold graded
  split
  · next hunlocked =>
    refine ⟨Outcome.reports_of_success
      (.passed hpasses (.passed ⟨verdict, hverdict, hunlocked⟩ .complete)) rfl rfl, rfl, ?_⟩
    rw [herror.2 hunlocked]
    rfl
  · next hlocked =>
    refine ⟨Outcome.reports_of_failure (.passed hpasses (.stopped ?_)) nofun rfl ?_, rfl, rfl⟩
    · rintro ⟨other, hother, hunlocked⟩
      cases hverdict.symm.trans hother
      exact hlocked hunlocked
    · intro hnil
      exact hlocked (herror.1 (Option.toList_eq_nil_iff.1 hnil))

/-- Grading a relay circuit ends at the first stage that does not pass, and the errors are those of
the verdict if there is one. -/
theorem verify_reports (h : circuit.Searchable)
    (hpresent : ∀ port ∈ circuit.inputs, port.component ≠ .null) {gate : Json}
    (hgate : gate.isScalar = true) :
    ∃ outcome, verify arrays cap circuit gate = .ok outcome ∧
      outcome.Reports (verifyStages arrays cap circuit gate) ∧
      ∀ verdict ∈ outcome.data, outcome.errors = verdict.error.toList := by
  obtain ⟨inspection, hinspection⟩ := h.exists_inspect_eq_ok
  unfold verify
  rw [hinspection]
  dsimp only [bind, Except.bind, Except.mapError]
  split
  · next hpassed =>
    obtain ⟨verdict, hverdict, herror⟩ := Grading.exists_unlockNamed_eq_ok h hpresent hgate
    obtain ⟨hreports, hdata, herrors⟩ :=
      graded_reports ⟨inspection, hinspection, hpassed⟩ hverdict herror inspection.warnings
    rw [hverdict]
    refine ⟨_, rfl, hreports, fun other hother => ?_⟩
    cases hdata.symm.trans hother
    exact herrors
  · next hfailed => exact ⟨_, rfl, rejected_reports hinspection hfailed _, nofun⟩

end

/-! ## All pipelines -/

/-- Every pipeline gives an outcome, for every program text and its inputs, and for every relay
circuit with texts for names, whatever its kinds, wires and ports, and its inputs and gate. The
outcome succeeds if and only if its stage is complete, it has errors if it does not, and the stage
is the first one that does not pass. Nothing that happens on the way goes unreported: a built
program refuses inputs with a wording only and then runs to its report, and the errors after a step
or with a verdict are those of these. A program that ran has its stable snapshot and every declared
wire among the outputs. -/
theorem pipelines_report (arrays : Grading.Arrays) (cap rounds : Int) (text : String)
    (inputs : List (String × Json)) (cycles : Int) {circuit : Relay.Circuit}
    (hcircuit : circuit.Lettered) {pins : List (Ident × Json)}
    (hpins : ∀ pin ∈ pins, pin.1.isScalar = true) {gate : Json} (hgate : gate.isScalar = true) :
    (compile text).Reports (compileStages text) ∧
    ((runProgram rounds text inputs cycles).Reports (runStages rounds text inputs cycles) ∧
      ((runProgram rounds text inputs cycles).success = true →
        (runProgram rounds text inputs cycles).Reads (Hdl.Program.ofText text).wires)) ∧
    (∀ built, Logic.Circuit.ofProgram (Hdl.Program.ofText text) = .ok built →
      (∃ fault, setWires { circuit := built, cap := rounds } inputs = .error fault ∧
        fault.message?.isSome = true) ∨
      ∃ set next report, setWires { circuit := built, cap := rounds } inputs = .ok set ∧
        set.run cycles = (next, .ok report)) ∧
    (∃ outcome, runRelay cap circuit pins = .ok outcome ∧
      outcome.Reports (relayStages cap circuit pins) ∧
      ∀ result ∈ outcome.data, outcome.errors = result.error.toList) ∧
    ∃ outcome, verify arrays cap circuit gate = .ok outcome ∧
      outcome.Reports (verifyStages arrays cap circuit gate) ∧
      ∀ verdict ∈ outcome.data, outcome.errors = verdict.error.toList := by
  refine ⟨compile_reports text, runProgram_reports rounds text inputs cycles, ?_,
    runRelay_reports hcircuit.searchable hpins,
    verify_reports hcircuit.searchable hcircuit.present hgate⟩
  intro built hbuilt
  rcases Logic.simulate_cases hbuilt rounds inputs cycles with
    ⟨fault, hfault, hworded, -⟩ | ⟨set, next, report, -, hset, hrun, -⟩
  · exact .inl ⟨fault, hfault, hworded⟩
  · exact .inr ⟨set, next, report, hset, hrun⟩

/-- Each pipeline ends at each of its stages: programs with a line that cannot be read, with a gate
on a wire that is not declared, with a wire without a bit, that ring, and that run to their end;
relay circuits that are empty, that do not come to rest in time, whose input is not there, and that
do what is asked for or do not. -/
theorem pipelines_report_stages :
    let inverting := "wire a\nwire b\nnot g (input: a; output: b)"
    let programs := [("wires a", Stage.parse), ("wire a\nnot g (input: a; output: b)", .validation),
      ("wire a[0]", .generation), ("wire a\nnot g (input: a; output: a)", .simulation),
      (inverting, .complete)]
    let inputs := [("a", Json.int 1)]
    let steps := [(({} : Relay.Circuit), 10, "in_0", Stage.validation),
      (Grading.inverter, 1, "in_0", .simulation), (Grading.inverter, 10, "in_1", .simulation),
      (Grading.inverter, 10, "in_0", .complete)]
    let pins (id : String) := [(Ident.text id, Json.int 1)]
    let gradings := [(({} : Relay.Circuit), "not", Stage.validation),
      (Grading.inverter, "and", .verification), (Grading.inverter, "not", .complete)]
    let arrays := .ofNesting 64
    (∀ p ∈ programs, (compile p.1).Reports (compileStages p.1) ∧
      (runProgram 10 p.1 inputs 1).Reports (runStages 10 p.1 inputs 1) ∧
      (runProgram 10 p.1 inputs 1).stage = p.2) ∧
    (runProgram 10 inverting inputs 1).Reads (Hdl.Program.ofText inverting).wires ∧
    (runProgram 10 inverting inputs 1).outputs = [(.text "a", 1), (.text "b", 0)] ∧
    (∀ s ∈ steps, s.1.Lettered ∧ ∃ outcome, runRelay s.2.1 s.1 (pins s.2.2.1) = .ok outcome ∧
      outcome.Reports (relayStages s.2.1 s.1 (pins s.2.2.1)) ∧ outcome.stage = s.2.2.2) ∧
    ∀ g ∈ gradings, ∃ outcome, verify arrays 10 g.1 (.str g.2.1) = .ok outcome ∧
      outcome.Reports (verifyStages arrays 10 g.1 (.str g.2.1)) ∧ outcome.stage = g.2.2 := by
  intro inverting programs inputs steps pins gradings arrays
  have hempty : ({} : Relay.Circuit).Lettered := ⟨nofun, nofun, nofun⟩
  have hinverter : Grading.inverter.Lettered :=
    { kinds := by decide +kernel, wires := by decide +kernel, ports := by decide +kernel }
  have hpins (id : String) : ∀ pin ∈ pins id, pin.1.isScalar = true :=
    List.forall_mem_singleton.2 rfl
  have hreports (cap : Int) (text id gate : String) {circuit : Relay.Circuit}
      (hcircuit : circuit.Lettered) :=
    pipelines_report arrays cap 10 text inputs 1 hcircuit (hpins id)
      (rfl : (Json.str gate).isScalar = true)
  have hprograms : ∀ p ∈ programs, (runProgram 10 p.1 inputs 1).stage = p.2 := by decide +kernel
  have hsteps : ∀ s ∈ steps,
      (runRelay s.2.1 s.1 (pins s.2.2.1)).toOption.map (·.stage) = some s.2.2.2 := by
    decide +kernel
  have hgradings : ∀ g ∈ gradings,
      (verify arrays 10 g.1 (.str g.2.1)).toOption.map (·.stage) = some g.2.2 := by
    decide +kernel
  have hsuccess : (runProgram 10 inverting inputs 1).success = true := by decide +kernel
  refine ⟨fun p hp => ?_, (hreports 10 inverting "" "" hempty).2.1.2 hsuccess, by decide +kernel,
    fun s hs => ?_, fun g hg => ?_⟩
  · obtain ⟨hcompile, ⟨hrun, -⟩, -⟩ := hreports 10 p.1 "" "" hempty
    exact ⟨hcompile, hrun, hprograms p hp⟩
  · have hlettered : ∀ s ∈ steps, s.1.Lettered := by
      simp only [steps, List.forall_mem_cons]
      exact ⟨hempty, hinverter, hinverter, hinverter, List.forall_mem_nil _⟩
    obtain ⟨-, -, -, ⟨outcome, houtcome, hrelay, -⟩, -⟩ :=
      hreports s.2.1 "" s.2.2.1 "" (hlettered s hs)
    have hstage := hsteps s hs
    rw [houtcome] at hstage
    exact ⟨hlettered s hs, outcome, houtcome, hrelay, Option.some.inj hstage⟩
  · have hlettered : ∀ g ∈ gradings, g.1.Lettered := by
      simp only [gradings, List.forall_mem_cons]
      exact ⟨hempty, hinverter, hinverter, List.forall_mem_nil _⟩
    obtain ⟨-, -, -, -, outcome, houtcome, hverify, -⟩ :=
      hreports 10 "" "" g.2.1 (hlettered g hg)
    have hstage := hgradings g hg
    rw [houtcome] at hstage
    exact ⟨outcome, houtcome, hverify, Option.some.inj hstage⟩

end Switchyard
