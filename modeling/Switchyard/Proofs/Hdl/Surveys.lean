import Switchyard.Hdl.Survey
import Switchyard.Proofs.Hdl.Spelling

/-!
# What a survey accepts

A survey only ever adds findings, those of a line with the number of this line, and it adds none if
and only if it accepts the line (`Survey.findings_add`): the brackets match, and the line declares a
wire of a new name or places a gate of a known kind, of a new name, with a right number of inputs,
and with operands that name wires declared before. So a program is valid if and only if its lines
are accepted one after the other (`Survey.isValid_iff`). An accepted line leaves in the tables what
it declares, places and mentions, and nothing else (`Survey.Accepts.add_eq`).
-/

namespace Switchyard

/-- An arity admits a number of inputs. -/
def GateArity.Admits (arity : GateArity) (inputs : Nat) : Prop :=
  arity.least ≤ inputs ∧ arity.allows inputs = true

instance (arity : GateArity) (inputs : Nat) : Decidable (arity.Admits inputs) :=
  inferInstanceAs (Decidable (_ ∧ _))

namespace Hdl

open Text

/-- The opening brackets and parentheses of a line are as many as the closing ones. -/
def Balanced (cs : List Char) : Prop :=
  cs.count '[' = cs.count ']' ∧ cs.count '(' = cs.count ')'

/-- The wires that a line declares: one or none. -/
def Line.declared (line : Line) : List (List Char) :=
  (wireDecl? line.chars).toList.map (·.name)

/-- The gate that a line places, if it declares no wire. -/
def Line.gate? (line : Line) : Option GateInst :=
  match wireDecl? line.chars with
  | some _ => none
  | none => gateInst? line.chars

/-- The names of the gates that a line places: one or none. -/
def Line.placed (line : Line) : List (List Char) :=
  (gateInst? line.chars).toList.map (·.name)

/-- The wires that the operands of a line name. -/
def Line.mentioned (line : Line) : List (List Char) :=
  line.operands.map baseName

/-- A line is a gate exactly if it is read as one: what reads as a declaration does not read as a
gate. -/
theorem Line.gate?_eq (line : Line) : line.gate? = gateInst? line.chars := by
  unfold gate?
  split
  · next decl hdecl =>
    cases hinst : gateInst? line.chars with
    | none => rfl
    | some inst =>
      rw [wireDecl?_of_gateInst? hinst] at hdecl
      cases hdecl
  · rfl

/-- A declaration declares its wire and is no gate. -/
theorem Line.names_of_wireDecl? {line : Line} {decl : WireDecl}
    (h : wireDecl? line.chars = some decl) :
    line.declared = [decl.name] ∧ gateInst? line.chars = none ∧ line.placed = [] ∧
      line.mentioned = [] := by
  have hinst : gateInst? line.chars = none := by rw [← gate?_eq, gate?, h]
  rw [declared, placed, mentioned, Line.operands, h, hinst]
  exact ⟨rfl, rfl, rfl, rfl⟩

/-- A gate line places its gate, mentions what the operands name, and is no declaration. -/
theorem Line.names_of_gateInst? {line : Line} {inst : GateInst}
    (h : gateInst? line.chars = some inst) :
    line.declared = [] ∧ line.placed = [inst.name] ∧
      line.mentioned = (Hdl.operands inst.inputs ++ Hdl.operands inst.outputs).map baseName := by
  rw [declared, placed, mentioned, Line.operands, wireDecl?_of_gateInst? h, h]
  exact ⟨rfl, rfl, rfl⟩

/-- A gate that a survey has nothing to say against. -/
structure Survey.AcceptsGate (survey : Survey) (inst : GateInst) (kind : GateKind) : Prop where
  known : GateKind.ofName? (lower (String.ofList inst.kind)) = some kind
  fresh : Assoc.has inst.name survey.gates = false
  admitted : kind.arity.Admits (operands inst.inputs).length
  named : ∀ operand ∈ operands inst.inputs ++ operands inst.outputs,
    Assoc.has (baseName operand) survey.wires = true

/-- A line that a survey has nothing to say against. -/
inductive Survey.Accepts (survey : Survey) (line : Line) : Prop
  | wire (decl : WireDecl) : Balanced line.chars → wireDecl? line.chars = some decl →
      Assoc.has decl.name survey.wires = false → Accepts survey line
  | gate (inst : GateInst) (kind : GateKind) : Balanced line.chars → line.gate? = some inst →
      survey.AcceptsGate inst kind → Accepts survey line

/-- Lines that are accepted one after the other. -/
inductive Survey.AcceptsAll : Survey → List Line → Prop
  | nil (survey : Survey) : AcceptsAll survey []
  | cons {survey : Survey} {line : Line} {lines : List Line} : survey.Accepts line →
      (survey.add line).AcceptsAll lines → AcceptsAll survey (line :: lines)

namespace Survey

/-! ## Findings -/

/-- The number of operands is not reported exactly if the kind of gate admits it. -/
theorem countFaults_eq_nil_iff {name : List Char} {kind : String} {arity : GateArity} {got : Nat} :
    countFaults name kind arity got = [] ↔ arity.Admits got := by
  unfold countFaults GateArity.Admits GateArity.allows
  rw [List.append_eq_nil_iff]
  refine and_congr ?_ ?_
  · simp
  · cases arity.most with
    | none => simp
    | some most => simp

/-- No operand is reported exactly if each has the name of a wire that is known already. -/
theorem wireFaults_eq_nil_iff {survey : Survey} {gate : List Char} {role : Role}
    {names : List (List Char)} :
    survey.wireFaults gate role names = [] ↔
      ∀ operand ∈ names, Assoc.has (baseName operand) survey.wires = true := by
  simp [wireFaults]

/-- Faults that are found go to the end of the findings, with the number of their line. -/
@[simp] theorem find_findings (survey : Survey) (number : Nat) (faults : List Fault) :
    (survey.find number faults).findings = survey.findings ++ faults.map (⟨number, ·⟩) := rfl

/-- The faults of a gate of a known kind are none if and only if the survey accepts the gate. -/
theorem findings_addKnownGate (survey : Survey) (number : Nat) (inst : GateInst) {kind : GateKind}
    (hkind : GateKind.ofName? (lower (String.ofList inst.kind)) = some kind) (label : String) :
    ∃ faults : List Fault, (survey.addKnownGate number inst label kind.arity).findings =
        survey.findings ++ faults.map (⟨number, ·⟩) ∧
      (faults = [] ↔ survey.AcceptsGate inst kind) := by
  unfold addKnownGate
  refine ⟨_, find_findings _ _ _, ?_⟩
  rw [List.append_eq_nil_iff, List.append_eq_nil_iff, List.append_eq_nil_iff,
    countFaults_eq_nil_iff, wireFaults_eq_nil_iff, wireFaults_eq_nil_iff]
  cases hget : Assoc.get? inst.name survey.gates with
  | some earlier =>
    -- the name is taken, so that there is a fault and the gate is not accepted
    constructor
    · rintro ⟨⟨⟨hname, -⟩, -⟩, -⟩
      cases hname
    · intro h
      have htaken : Assoc.has inst.name survey.gates = true := by rw [Assoc.has, hget]; rfl
      rw [h.fresh] at htaken
      cases htaken
  | none =>
    have hfresh : Assoc.has inst.name survey.gates = false := by rw [Assoc.has, hget]; rfl
    constructor
    · rintro ⟨⟨⟨-, hcount⟩, hins⟩, houts⟩
      exact ⟨hkind, hfresh, hcount, List.forall_mem_append.2 ⟨hins, houts⟩⟩
    · intro h
      obtain ⟨hins, houts⟩ := List.forall_mem_append.1 h.named
      exact ⟨⟨⟨rfl, h.admitted⟩, hins⟩, houts⟩

/-- The faults of a gate are none if and only if the survey accepts the gate. -/
theorem findings_addGate (survey : Survey) (number : Nat) (inst : GateInst) :
    ∃ faults : List Fault, (survey.addGate number inst).findings =
        survey.findings ++ faults.map (⟨number, ·⟩) ∧
      (faults = [] ↔ ∃ kind, survey.AcceptsGate inst kind) := by
  unfold addGate
  dsimp only
  split
  · next kind hkind =>
    obtain ⟨faults, hfaults, hnil⟩ := survey.findings_addKnownGate number inst hkind _
    refine ⟨faults, hfaults, hnil.trans ⟨fun h => ⟨kind, h⟩, ?_⟩⟩
    rintro ⟨kind', hgate⟩
    cases hkind.symm.trans hgate.known
    exact hgate
  · next hkind =>
    refine ⟨_, find_findings _ _ _, nofun, ?_⟩
    rintro ⟨kind, hgate⟩
    cases hkind.symm.trans hgate.known

/-- The faults of a declaration are none if and only if its name is new. -/
theorem findings_addWire (survey : Survey) (number : Nat) (decl : WireDecl) :
    ∃ faults : List Fault, (survey.addWire number decl).findings =
        survey.findings ++ faults.map (⟨number, ·⟩) ∧
      (faults = [] ↔ Assoc.has decl.name survey.wires = false) := by
  unfold addWire Assoc.has
  cases Assoc.get? decl.name survey.wires with
  | some earlier => exact ⟨_, find_findings _ _ _, by simp⟩
  | none => exact ⟨[], by simp⟩

section
variable {survey : Survey} {line : Line}

/-- An accepted line has balanced brackets. -/
theorem Accepts.balanced (h : survey.Accepts line) : Balanced line.chars := by
  cases h with
  | wire _ hbalanced => exact hbalanced
  | gate _ _ hbalanced => exact hbalanced

/-- An accepted line is a declaration or a gate. -/
theorem Accepts.statement (h : survey.Accepts line) :
    (∃ decl, wireDecl? line.chars = some decl) ∨ ∃ inst, line.gate? = some inst := by
  cases h with
  | wire decl _ hdecl => exact .inl ⟨decl, hdecl⟩
  | gate inst _ _ hgate => exact .inr ⟨inst, hgate⟩

/-- A declaration is accepted exactly if its name is new. -/
theorem accepts_wire_iff (hbalanced : Balanced line.chars) {decl : WireDecl}
    (hdecl : wireDecl? line.chars = some decl) :
    survey.Accepts line ↔ Assoc.has decl.name survey.wires = false := by
  constructor
  · rintro (⟨decl', -, hdecl', hfresh⟩ | ⟨inst, kind, -, hgate, -⟩)
    · cases hdecl.symm.trans hdecl'
      exact hfresh
    · rw [Line.gate?, hdecl] at hgate
      cases hgate
  · exact fun hfresh => .wire decl hbalanced hdecl hfresh

/-- A gate is accepted exactly if it is, as a gate of some kind. -/
theorem accepts_gate_iff (hbalanced : Balanced line.chars) {inst : GateInst}
    (hgate : line.gate? = some inst) :
    survey.Accepts line ↔ ∃ kind, survey.AcceptsGate inst kind := by
  constructor
  · rintro (⟨decl, -, hdecl, -⟩ | ⟨inst', kind, -, hgate', haccepts⟩)
    · rw [Line.gate?, hdecl] at hgate
      cases hgate
    · cases hgate.symm.trans hgate'
      exact ⟨kind, haccepts⟩
  · rintro ⟨kind, haccepts⟩
    exact .gate inst kind hbalanced hgate haccepts

end

/-- A line adds findings with its number, and none if and only if the survey accepts it. -/
theorem findings_add (survey : Survey) (line : Line) :
    ∃ faults : List Fault, (survey.add line).findings =
        survey.findings ++ faults.map (⟨line.number, ·⟩) ∧
      (faults = [] ↔ survey.Accepts line) := by
  have hrefused : ∀ fault : Fault, ¬ survey.Accepts line →
      ∃ faults : List Fault, (survey.find line.number [fault]).findings =
        survey.findings ++ faults.map (⟨line.number, ·⟩) ∧
      (faults = [] ↔ survey.Accepts line) :=
    fun fault h => ⟨[fault], find_findings _ _ _, nofun, fun hline => absurd hline h⟩
  unfold add
  dsimp only
  split
  · next hbrackets => exact hrefused _ (fun h => hbrackets h.balanced.1)
  · next hbrackets =>
    split
    · next hparentheses => exact hrefused _ (fun h => hparentheses h.balanced.2)
    · next hparentheses =>
      have hbalanced : Balanced line.chars := ⟨not_not.1 hbrackets, not_not.1 hparentheses⟩
      split
      · next decl hdecl =>
        rw [accepts_wire_iff hbalanced hdecl]
        exact survey.findings_addWire line.number decl
      · next hdecl =>
        split
        · next inst hinst =>
          have hgate : line.gate? = some inst := by rw [Line.gate?, hdecl, hinst]
          rw [accepts_gate_iff hbalanced hgate]
          exact survey.findings_addGate line.number inst
        · next hinst =>
          refine hrefused _ (fun h => ?_)
          rcases h.statement with ⟨_, hdecl'⟩ | ⟨_, hgate⟩
          · cases hdecl.symm.trans hdecl'
          · rw [Line.gate?, hdecl, hinst] at hgate
            cases hgate

/-- Lines add findings with their numbers: none if and only if all of them are accepted, and some
for each line that is no statement. -/
theorem findings_foldl_add (lines : List Line) (survey : Survey) :
    ∃ findings, (lines.foldl add survey).findings = survey.findings ++ findings ∧
      (findings = [] ↔ survey.AcceptsAll lines) ∧
      ∀ line ∈ lines, wireDecl? line.chars = none → line.gate? = none →
        ∃ finding ∈ findings, finding.line = line.number := by
  induction lines generalizing survey with
  | nil => exact ⟨[], (List.append_nil _).symm, ⟨fun _ => .nil survey, fun _ => rfl⟩, nofun⟩
  | cons line lines ih =>
    obtain ⟨faults, hfaults, hnil⟩ := survey.findings_add line
    obtain ⟨findings, hfindings, hrest, hunread⟩ := ih (survey.add line)
    refine ⟨faults.map (⟨line.number, ·⟩) ++ findings, ?_, ?_, List.forall_mem_cons.2 ⟨?_, ?_⟩⟩
    · rw [List.foldl_cons, hfindings, hfaults, List.append_assoc]
    · rw [List.append_eq_nil_iff, List.map_eq_nil_iff, hnil, hrest]
      constructor
      · exact fun ⟨hline, hlines⟩ => .cons hline hlines
      · rintro (_ | ⟨hline, hlines⟩)
        exact ⟨hline, hlines⟩
    · intro hdecl hgate
      have hrefused : faults ≠ [] := by
        rw [ne_eq, hnil]
        intro h
        rcases h.statement with ⟨_, hdecl'⟩ | ⟨_, hgate'⟩
        · cases hdecl.symm.trans hdecl'
        · cases hgate.symm.trans hgate'
      obtain ⟨fault, hfault⟩ := List.exists_mem_of_ne_nil faults hrefused
      exact ⟨⟨line.number, fault⟩,
        List.mem_append_left _ (List.mem_map_of_mem hfault), rfl⟩
    · intro other hother hdecl hgate
      obtain ⟨finding, hfinding, hnumber⟩ := hunread other hother hdecl hgate
      exact ⟨finding, List.mem_append_right _ hfinding, hnumber⟩

/-- A program is valid if and only if its lines are accepted one after the other. -/
theorem isValid_iff (text : String) :
    (Survey.ofText text).isValid = true ↔
      AcceptsAll {} (significantLines text.toList) := by
  obtain ⟨findings, hfindings, hnil, -⟩ := findings_foldl_add (significantLines text.toList) {}
  rw [isValid, List.isEmpty_iff, ofText, hfindings, List.nil_append, hnil]

/-! ## What accepted lines leave behind -/

/-- An accepted gate is entered under its name and leaves no finding behind. -/
theorem AcceptsGate.add_eq {survey : Survey} {inst : GateInst} {kind : GateKind}
    (h : survey.AcceptsGate inst kind) (number : Nat) :
    survey.addGate number inst = { survey with
      gates := survey.gates ++ [(inst.name, number)]
      used := survey.used ++
        (operands inst.inputs ++ operands inst.outputs).map baseName } := by
  obtain ⟨hins, houts⟩ := List.forall_mem_append.1 h.named
  have hdeclared : survey.declaredNames (operands inst.inputs ++ operands inst.outputs) =
      (operands inst.inputs ++ operands inst.outputs).map baseName :=
    List.filter_eq_self.2 (List.forall_mem_map.2 h.named)
  have hnone : Assoc.get? inst.name survey.gates = none :=
    Option.isNone_iff_eq_none.1 (Option.isSome_eq_false_iff.1 h.fresh)
  rw [addGate, h.known]
  dsimp only
  rw [addKnownGate, hnone, h.fresh, hdeclared, countFaults_eq_nil_iff.2 h.admitted,
    wireFaults_eq_nil_iff.2 hins, wireFaults_eq_nil_iff.2 houts]
  simp [find]

/-- An accepted line adds the wires that it declares, the gates that it places and the wires that
it mentions, and nothing else. -/
theorem Accepts.add_eq {survey : Survey} {line : Line} (h : survey.Accepts line) :
    survey.add line = { survey with
      wires := survey.wires ++ line.declared.map (·, line.number)
      gates := survey.gates ++ line.placed.map (·, line.number)
      used := survey.used ++ line.mentioned } := by
  obtain ⟨hbrackets, hparentheses⟩ := h.balanced
  rw [add, if_neg (not_not.2 hbrackets), if_neg (not_not.2 hparentheses)]
  cases h with
  | wire decl _ hdecl hfresh =>
    obtain ⟨hdeclared, hinst, hplaced, hmentioned⟩ := Line.names_of_wireDecl? hdecl
    have hnone : Assoc.get? decl.name survey.wires = none :=
      Option.isNone_iff_eq_none.1 (Option.isSome_eq_false_iff.1 hfresh)
    rw [hdeclared, hplaced, hmentioned, hdecl]
    dsimp only
    rw [addWire, hnone]
    simp
  | gate inst kind _ hgate haccepts =>
    rw [Line.gate?_eq] at hgate
    obtain ⟨hdeclared, hplaced, hmentioned⟩ := Line.names_of_gateInst? hgate
    rw [hdeclared, hplaced, hmentioned, wireDecl?_of_gateInst? hgate, hgate]
    dsimp only
    rw [haccepts.add_eq]
    simp

/-- A survey of accepted lines has noted what they declare, place and mention. -/
theorem AcceptsAll.foldl_add_eq {survey : Survey} {lines : List Line}
    (h : survey.AcceptsAll lines) :
    lines.foldl add survey = { survey with
      wires := survey.wires ++ lines.flatMap (fun line => line.declared.map (·, line.number))
      gates := survey.gates ++ lines.flatMap (fun line => line.placed.map (·, line.number))
      used := survey.used ++ lines.flatMap Line.mentioned } := by
  induction h with
  | nil survey => simp
  | cons hline _ ih =>
    rw [List.foldl_cons, ih, hline.add_eq]
    simp

end Survey

end Hdl

end Switchyard
