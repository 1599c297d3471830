import Switchyard.Proofs.Hdl.Ports
import Switchyard.Proofs.Report.Phrases

/-!
# The tiers of errors

Compiling fails in one of three stages (`compile_failure`), and the diagnosis names the category of
this stage (`tiers`). The errors of a stage can also be told by their wording, for the words that a
message has of its own are classified right (`Hdl.Fault.classify_bare`). But messages quote the
program. The names that they quote have no blanks and so no phrases
(`Hdl.Survey.ofStatements_ofText`); what is left are the lines that cannot be read and the operands
that name no wire (`citations`). So an error is classified as the diagnosis says if and only if its
citation has no phrase of a category that is tried before, which holds for all errors of building
(`compile_tiers`).
-/

namespace Switchyard

open Report (Category Opens Closes IsApart classify)

namespace Hdl

/-! ## Faults and what they quote -/

/-- The faults that a line with a statement can have. They quote operands and names, and the latter
have no blanks. -/
def Fault.OfStatement : Fault → Prop
  | .unmatchedBracket _ _ | .unmatchedParenthesis _ _ => True
  | .duplicateWire name _ | .duplicateGate name _ | .undefinedWire _ _ name => ' ' ∉ name
  | .unknownGate kind => ' ' ∉ kind.toList
  | .tooFewInputs name kind _ _ | .tooManyInputs name kind _ _ => ' ' ∉ name ∧ ' ' ∉ kind.toList
  | .badWire _ | .badGate _ | .unrecognized _ => False

/-- The operand that a fault quotes; nothing if it quotes none. -/
def Fault.cited : Fault → List Char
  | .undefinedWire operand _ _ => operand
  | _ => []

/-- A fault without the texts and numbers that it quotes. -/
def Fault.bare : Fault → Fault
  | .unmatchedBracket _ _ => .unmatchedBracket 0 0
  | .unmatchedParenthesis _ _ => .unmatchedParenthesis 0 0
  | .duplicateWire _ _ => .duplicateWire [] 0
  | .unknownGate _ => .unknownGate ""
  | .duplicateGate _ _ => .duplicateGate [] 0
  | .tooFewInputs _ _ _ _ => .tooFewInputs [] "" 0 0
  | .tooManyInputs _ _ _ _ => .tooManyInputs [] "" 0 0
  | .undefinedWire _ role _ => .undefinedWire [] role []
  | .badWire _ => .badWire []
  | .badGate _ => .badGate []
  | .unrecognized _ => .unrecognized []

/-- The message of a fault is known by its own words or by those of the operand. -/
theorem Fault.recognizes_message {fault : Fault} (h : fault.OfStatement) (category : Category) :
    category.recognizes fault.message =
      (category.recognizes fault.bare.message ||
        category.recognizes (String.ofList fault.cited)) := by
  have hname : ∀ name : List Char, ' ' ∉ name → category.recognizes (String.ofList name) = false :=
    fun name hname => Category.recognizes_of_not_mem (by rwa [String.toList_ofList])
  have hnil : category.recognizes (String.ofList []) = false := hname [] (by simp)
  have hempty : category.recognizes "" = false := hnil
  cases fault with
  | badWire | badGate | unrecognized => cases h
  | unmatchedBracket | unmatchedParenthesis =>
    dsimp only [Fault.message, Fault.bare, Fault.cited, toString]
    simp only [Category.recognizes_apart (Report.isApart_repr _),
      Category.recognizes_apart_append (Report.isApart_repr _), hnil, Bool.or_false]
  | duplicateWire name | duplicateGate name =>
    dsimp only [Fault.message, Fault.bare, Fault.cited, toString]
    simp (disch := decide) only [Category.recognizes_apart (Report.isApart_repr _),
      Category.recognizes_quoting, hname name h, hnil, Bool.or_false]
  | unknownGate kind =>
    dsimp only [Fault.message, Fault.bare, Fault.cited, toString]
    simp (disch := decide) only [Category.recognizes_quoting,
      Category.recognizes_of_not_mem h, hempty, Bool.or_false]
  | tooFewInputs name kind | tooManyInputs name kind =>
    dsimp only [Fault.message, Fault.bare, Fault.cited, toString]
    simp (disch := first | decide | exact Report.closes_append _ (by decide)) only [
      Category.recognizes_apart (Report.isApart_repr _),
      Category.recognizes_apart_append (Report.isApart_repr _), Category.recognizes_quoting,
      hname name h.1, Category.recognizes_of_not_mem h.2, hempty, Bool.or_false]
  | undefinedWire operand role gate =>
    have hmessage : ∀ operand gate, (Fault.undefinedWire operand role gate).message =
        "Undefined wire '" ++ String.ofList operand ++ ("' used as " ++ role.text ++ " gate '") ++
          String.ofList gate ++ "'" := by
      intro operand gate
      dsimp only [Fault.message, toString]
      simp only [String.append_assoc]
    have hopens : Opens ("' used as " ++ role.text ++ " gate '") := by cases role <;> decide
    have hcloses : Closes ("' used as " ++ role.text ++ " gate '") := by cases role <;> decide
    rw [Fault.bare, Fault.cited, hmessage, hmessage]
    simp (disch := first | decide | exact hopens | exact Report.closes_append _ hcloses) only [
      Category.recognizes_quoting, hname gate h, hnil, Bool.or_false]
    rw [Bool.or_right_comm _ (category.recognizes (String.ofList operand)),
      Bool.or_right_comm _ (category.recognizes (String.ofList operand))]

/-- A fault of a statement is classified as one of validation, by its bare message. -/
theorem Fault.classify_bare {fault : Fault} (h : fault.OfStatement) :
    classify fault.bare.message = .validation := by
  cases fault with
  | badWire | badGate | unrecognized => cases h
  | undefinedWire _ role =>
    rw [Fault.bare]
    cases role <;> decide +kernel
  | _ =>
    rw [Fault.bare]
    decide +kernel

/-! ## The findings of a program that was read -/

/-- A name, even a loose one, has no blank. -/
theorem blank_not_mem_of_loose {name : List Char} (h : IsLooseName name) : ' ' ∉ name := by
  intro hmem
  have hloose := h.forall_mem (fun _ => loose_of_start) ' ' hmem
  cases hloose

/-- Put in small letters the kind of a gate has no blank either. -/
theorem blank_not_mem_lower {kind : List Char} (h : IsLooseName kind) :
    ' ' ∉ (Text.lower (String.ofList kind)).toList := by
  rw [Text.lower, String.toList_ofList, String.toList_ofList, List.mem_flatMap]
  rintro ⟨c, hc, hblank⟩
  unfold Text.lowerChar at hblank
  split at hblank
  · simp at hblank
  · split at hblank
    · simp at hblank
    · rw [List.mem_singleton] at hblank
      have hfold := Text.fold_of_toLower hblank.symm (by decide)
      have hloose := h.forall_mem (fun _ => loose_of_start) c hc
      rw [Text.isLooseNameChar, hfold] at hloose
      cases hloose

namespace Survey

variable {survey : Survey}

/-- All that a survey has found are faults of lines with statements. -/
def OfStatements (survey : Survey) : Prop :=
  ∀ finding ∈ survey.findings, finding.fault.OfStatement

/-- Finding faults of statements keeps a survey one of statements. -/
theorem OfStatements.find (h : survey.OfStatements) (number : Nat) {faults : List Fault}
    (hfaults : ∀ fault ∈ faults, fault.OfStatement) : (survey.find number faults).OfStatements := by
  refine List.forall_mem_append.2 ⟨h, ?_⟩
  exact List.forall_mem_map.2 hfaults

/-- Adding a wire finds faults of statements only. -/
theorem OfStatements.addWire (h : survey.OfStatements) (number : Nat) {decl : WireDecl}
    (hname : ' ' ∉ decl.name) : (survey.addWire number decl).OfStatements := by
  unfold Survey.addWire
  split
  · exact h.find number (List.forall_mem_singleton.2 hname)
  · exact h

/-- The number of operands is reported as a fault of a statement. -/
theorem ofStatement_countFaults {name : List Char} {kind : String} (hname : ' ' ∉ name)
    (hkind : ' ' ∉ kind.toList) (arity : GateArity) (got : Nat) :
    ∀ fault ∈ countFaults name kind arity got, fault.OfStatement := by
  unfold countFaults
  refine List.forall_mem_append.2 ⟨?_, ?_⟩
  · split
    · exact List.forall_mem_singleton.2 ⟨hname, hkind⟩
    · exact nofun
  · split
    · split
      · exact List.forall_mem_singleton.2 ⟨hname, hkind⟩
      · exact nofun
    · exact nofun

/-- Adding a gate finds faults of statements only. -/
theorem OfStatements.addGate (h : survey.OfStatements) (number : Nat) {inst : GateInst}
    (hkind : IsLooseName inst.kind) (hname : ' ' ∉ inst.name) :
    (survey.addGate number inst).OfStatements := by
  have hkind := blank_not_mem_lower hkind
  unfold Survey.addGate
  dsimp only
  split
  · next kind =>
    unfold addKnownGate
    dsimp only
    have hwires : ∀ role names, ∀ fault ∈ survey.wireFaults inst.name role names,
        fault.OfStatement :=
      fun role names => List.forall_mem_map.2 (fun _ _ => hname)
    refine OfStatements.find h number ?_
    refine List.forall_mem_append.2 ⟨List.forall_mem_append.2 ⟨List.forall_mem_append.2
      ⟨?_, ofStatement_countFaults hname hkind _ _⟩, hwires _ _⟩, hwires _ _⟩
    split
    · exact List.forall_mem_singleton.2 hname
    · exact nofun
  · exact h.find number (List.forall_mem_singleton.2 hkind)

/-- Adding a line that can be read finds faults of statements only. -/
theorem OfStatements.add (h : survey.OfStatements) {line : Line}
    (hline : wireDecl? line.chars ≠ none ∨ line.gate? ≠ none) : (survey.add line).OfStatements := by
  unfold Survey.add
  dsimp only
  split
  · exact h.find _ (List.forall_mem_singleton.2 trivial)
  · split
    · exact h.find _ (List.forall_mem_singleton.2 trivial)
    · split
      · next decl hdecl =>
        exact h.addWire _ (blank_not_mem_of_loose (wireDecl?_suffix hdecl).1)
      · next hdecl =>
        split
        · next inst hinst =>
          obtain ⟨cut, hcut, -, rfl⟩ := gateInst?_eq_some_iff.1 hinst
          exact h.addGate _ hcut.wellFormed.kind (blank_not_mem_of_loose hcut.wellFormed.name)
        · next hinst =>
          rw [Line.gate?_eq] at hline
          exact absurd hinst (hline.resolve_left (not_not.2 hdecl))

/-- All findings of a program that was read as a whole are of lines with statements. -/
theorem ofStatements_ofText {text : String} (h : (Program.ofText text).isRead = true) :
    (Survey.ofText text).OfStatements := by
  have hlines : ∀ line ∈ significantLines text.toList,
      wireDecl? line.chars ≠ none ∨ line.gate? ≠ none := by
    intro line hline
    rw [← not_and_or]
    intro hunread
    have hmem := (Program.mem_unread_ofText text).2 ⟨hline, hunread⟩
    rw [List.isEmpty_iff.1 h] at hmem
    cases hmem
  unfold ofText
  generalize significantLines text.toList = lines at hlines
  have hempty : OfStatements {} := nofun
  -- the lines are looked through one after the other, whatever was found before them
  generalize ({} : Survey) = survey at hempty
  induction lines generalizing survey with
  | nil => exact hempty
  | cons line lines ih =>
    rw [List.forall_mem_cons] at hlines
    exact ih hlines.2 _ (hempty.add hlines.1)

end Survey

end Hdl

/-! ## The tiers -/

/-- The number of a line has no phrase. -/
theorem Report.Category.recognizes_located {category : Category} (line : Nat) (message : String) :
    category.recognizes (located line message) = category.recognizes message := by
  have hline : category.recognizes "Line " = false := by cases category <;> decide +kernel
  dsimp only [located, toString]
  rw [String.append_assoc, Category.recognizes_apart_append (Report.isApart_repr line), hline,
    Category.recognizes_colon, Bool.false_or]

/-- The complaint about a line that cannot be read is classified by what the line says. -/
theorem Hdl.Line.classify_unread (line : Line) :
    classify (located line.number line.unreadMessage) = Category.parse.quoting line.text := by
  have hbare : classify (Line.unreadMessage ⟨0, []⟩) = .parse := by decide +kernel
  refine Report.classify_eq hbare nofun (fun other => ?_)
  rw [Category.recognizes_located]
  dsimp only [Line.unreadMessage, Line.text, toString]
  have hnil : other.recognizes (String.ofList []) = false :=
    Category.recognizes_of_not_mem (by simp)
  simp (disch := decide) only [Category.recognizes_quoting, hnil, Bool.or_false]
  exact Bool.or_right_comm _ _ _

/-- The complaint about a line with a statement is classified by the operand that it quotes. -/
theorem Hdl.Fault.classify_located {fault : Fault} (h : fault.OfStatement) (line : Nat) :
    classify (located line fault.message) =
      Category.validation.quoting (String.ofList fault.cited) := by
  refine Report.classify_eq (Fault.classify_bare h) nofun (fun other => ?_)
  rw [Category.recognizes_located, Fault.recognizes_message h]

/-- The complaint about a wire without a bit is classified as what it is. -/
theorem Logic.BuildFault.classify_noBits (width : Int) {name : String} (hname : ' ' ∉ name.toList) :
    classify (BuildFault.noBits width name).message = Category.generation.quoting "" := by
  have hbare : classify (BuildFault.noBits 0 "").message = .generation := by decide +kernel
  refine Report.classify_eq hbare nofun (fun other => ?_)
  have hempty : other.recognizes "" = false := Category.recognizes_of_not_mem (by simp)
  have hmessage : ∀ (width : Int) (name : String), (BuildFault.noBits width name).message =
      "Invalid width " ++ toString width ++ " for wire '" ++ name ++
        "' - a wire needs at least one bit" := fun _ _ => rfl
  have hcloses : ∀ width : Int, Closes ("Invalid width " ++ toString width ++ " for wire '") :=
    fun width => Report.closes_append _ (by decide)
  have hopens : Opens "' - a wire needs at least one bit" := by decide
  rw [hmessage, hmessage, Category.recognizes_quoting (hcloses width) hopens,
    Category.recognizes_quoting (hcloses 0) hopens,
    Category.recognizes_apart_append (Report.isApart_toString width),
    Category.recognizes_apart_append (Report.isApart_toString 0),
    Category.recognizes_of_not_mem hname, hempty, Bool.or_false, Bool.or_false]

/-- What the errors of compiling a program quote of it beside the names: the lines that could not be
read, or the operands of the findings; one text an error, which is empty where nothing is quoted. -/
def citations (text : String) : List String :=
  let program := Hdl.Program.ofText text
  let survey := Hdl.Survey.ofText text
  if !program.isRead then program.unread.map Hdl.Line.text
  else if !survey.isValid then
    survey.findings.map (fun finding => String.ofList finding.fault.cited)
  else [""]

/-- The stages of compiling, each with the category of its failures. -/
def tiers : List (Stage × Category) :=
  [(.parse, .parse), (.validation, .validation), (.generation, .generation)]

/-- Every stage has one tier. -/
theorem eq_of_mem_tiers {stage : Stage} {a b : Category} (ha : (stage, a) ∈ tiers)
    (hb : (stage, b) ∈ tiers) : a = b := by
  have hkeys : ∀ x ∈ tiers, ∀ y ∈ tiers, x.1 = y.1 → x.2 = y.2 := by decide
  exact hkeys _ ha _ hb rfl

/-- Compiling fails at the first stage that does not pass, with the errors of that stage. -/
theorem compile_failure {text : String} (hfailed : (compile text).success = false) :
    ((Hdl.Program.ofText text).isRead = false ∧ compile text =
      .failure .parse .parse (Hdl.Program.ofText text).complaints [] none) ∨
    ((Hdl.Program.ofText text).isRead = true ∧ (Hdl.Survey.ofText text).isValid = false ∧
      compile text = .failure .validation .validation (Hdl.Survey.ofText text).complaints
        (Hdl.Survey.ofText text).cautions none) ∨
    ((Hdl.Survey.ofText text).isValid = true ∧ ∃ wire ∈ (Hdl.Program.ofText text).wires,
      compile text = .failure .generation .generation
        [(Logic.BuildFault.noBits wire.width wire.name).message]
        (Hdl.Survey.ofText text).cautions none) := by
  cases hread : (Hdl.Program.ofText text).isRead with
  | false => exact .inl ⟨rfl, by simp [compile, hread]⟩
  | true =>
    cases hvalid : (Hdl.Survey.ofText text).isValid with
    | false => exact .inr (.inl ⟨rfl, rfl, by simp [compile, hread, hvalid]⟩)
    | true =>
      refine .inr (.inr ⟨rfl, ?_⟩)
      have hcompile := compile_of_valid hvalid
      have hbuilt := Logic.Circuit.ofProgram_cases
        (fun gate hgate ref href => Hdl.Ref.declared_of_valid hvalid hgate href)
      split at hbuilt
      · next wire hfind =>
        rw [hbuilt] at hcompile
        exact ⟨wire, List.mem_of_find?_eq_some hfind, hcompile⟩
      · next hfind =>
        obtain ⟨circuit, hcircuit⟩ := hbuilt
        rw [hcompile, hcircuit] at hfailed
        cases hfailed

/-- The errors of a failed stage are classified by their citations, which are empty in building. -/
theorem classify_errors {text : String} (hfailed : (compile text).success = false) :
    ∃ category, ((compile text).stage, category) ∈ tiers ∧
      (compile text).diagnosis = some (.ofCategory category) ∧
      (compile text).errors.map classify = (citations text).map category.quoting ∧
      ((compile text).stage = .generation → citations text = [""]) := by
  rcases compile_failure hfailed with
    ⟨hread, h⟩ | ⟨hread, hvalid, h⟩ | ⟨hvalid, wire, hwire, h⟩
  · refine ⟨.parse, by rw [h]; exact .head _, by rw [h]; rfl, ?_, by rw [h]; nofun⟩
    have hcitations : citations text = (Hdl.Program.ofText text).unread.map Hdl.Line.text := by
      simp [citations, hread]
    have herrors : (compile text).errors = (Hdl.Program.ofText text).complaints := by
      rw [h]
      rfl
    rw [herrors, hcitations, Hdl.Program.complaints, List.map_map, List.map_map]
    refine List.map_congr_left (fun line _ => ?_)
    rw [Function.comp_apply, Function.comp_apply, Hdl.Line.classify_unread]
  · refine ⟨.validation, by rw [h]; exact .tail _ (.head _), by rw [h]; rfl, ?_, by rw [h]; nofun⟩
    have hcitations : citations text = (Hdl.Survey.ofText text).findings.map
        (fun finding => String.ofList finding.fault.cited) := by
      simp [citations, hread, hvalid]
    have herrors : (compile text).errors = (Hdl.Survey.ofText text).complaints := by
      rw [h]
      rfl
    rw [herrors, hcitations, Hdl.Survey.complaints, List.map_map, List.map_map]
    refine List.map_congr_left (fun finding hfinding => ?_)
    have hstatement := Hdl.Survey.ofStatements_ofText hread finding hfinding
    rw [Function.comp_apply, Function.comp_apply, Hdl.Fault.classify_located hstatement]
  · have hcitations : citations text = [""] := by
      simp [citations, Hdl.Program.isRead_of_valid hvalid, hvalid]
    refine ⟨.generation, by rw [h]; exact .tail _ (.tail _ (.head _)), by rw [h]; rfl, ?_,
      fun _ => hcitations⟩
    have hname : ' ' ∉ wire.name.toList := by
      have hmem := List.mem_map_of_mem (f := Hdl.Wire.name) hwire
      rw [Hdl.Program.names_ofText] at hmem
      obtain ⟨name, hdeclared, hname⟩ := List.mem_map.1 hmem
      obtain ⟨line, -, hline⟩ := List.mem_flatMap.1 hdeclared
      rw [← hname, String.toList_ofList]
      exact Hdl.blank_not_mem_of_loose (Hdl.isRun_of_declared hline)
    rw [h, hcitations]
    exact congrArg ([·]) (Logic.BuildFault.classify_noBits wire.width hname)

/-- Every error of compiling is classified by its citation: as the diagnosis says, unless the line
or operand that it quotes has a phrase of a category that is tried before. So all errors are
classified as the diagnosis says if and only if no citation has such a phrase, and in building none
has. -/
theorem compile_tiers {text : String} (hfailed : (compile text).success = false) :
    ∃ category, ((compile text).stage, category) ∈ tiers ∧
      (compile text).diagnosis = some (.ofCategory category) ∧
      (compile text).errors.map classify = (citations text).map category.quoting ∧
      ((∀ error ∈ (compile text).errors, classify error = category) ↔
        ∀ cited ∈ citations text, ∀ other ∈ category.earlier, other.recognizes cited = false) ∧
      ((compile text).stage = .generation →
        ∀ error ∈ (compile text).errors, classify error = .generation) := by
  obtain ⟨category, htier, hdiagnosis, hclassified, hgeneration⟩ := classify_errors hfailed
  have hiff : (∀ error ∈ (compile text).errors, classify error = category) ↔
      ∀ cited ∈ citations text, ∀ other ∈ category.earlier, other.recognizes cited = false := by
    calc (∀ error ∈ (compile text).errors, classify error = category)
      _ ↔ ∀ found ∈ (compile text).errors.map classify, found = category :=
        by rw [List.forall_mem_map]
      _ ↔ ∀ cited ∈ citations text, category.quoting cited = category := by
        rw [hclassified, List.forall_mem_map]
      _ ↔ _ := forall₂_congr (fun _ _ => Category.quoting_eq_iff)
  refine ⟨category, htier, hdiagnosis, hclassified, hiff, fun hstage => ?_⟩
  rw [hstage] at htier
  obtain rfl : category = .generation := eq_of_mem_tiers htier (by decide)
  refine hiff.2 (fun cited hcited other _ => ?_)
  rw [hgeneration hstage, List.mem_singleton] at hcited
  rw [hcited]
  exact Category.recognizes_of_not_mem (by simp)

/-- A line that cannot be read is taken for a missing circuit for what it says, and an operand that
names no wire for a fault in building. The line and the operand beside them are taken for what they
are, and so is a wire without a bit. -/
theorem compile_tiers_misled :
    let unread := "wire\nno circuit loaded"
    let undefined := "wire y\nand g (input: invalid width, x; output: y)"
    let narrow := "wire w[0]"
    ((compile unread).stage = .parse ∧
      (compile unread).errors.map classify = [.parse, .noCircuit]) ∧
    ((compile undefined).stage = .validation ∧
      (compile undefined).errors.map classify = [.generation, .validation]) ∧
    ((compile narrow).stage = .generation ∧
      ∀ error ∈ (compile narrow).errors, classify error = .generation) := by
  intro unread undefined narrow
  have hparse : (compile unread).success = false ∧ (compile unread).stage = .parse := by
    decide +kernel
  have hvalidation : (compile undefined).success = false ∧
      (compile undefined).stage = .validation := by
    decide +kernel
  have hgeneration : (compile narrow).success = false ∧
      (compile narrow).stage = .generation := by
    decide +kernel
  refine ⟨⟨hparse.2, ?_⟩, ⟨hvalidation.2, ?_⟩, hgeneration.2, ?_⟩
  · obtain ⟨category, htier, -, hclassified, -⟩ := compile_tiers hparse.1
    rw [hparse.2] at htier
    rw [hclassified, eq_of_mem_tiers (b := .parse) htier (by decide)]
    decide +kernel
  · obtain ⟨category, htier, -, hclassified, -⟩ := compile_tiers hvalidation.1
    rw [hvalidation.2] at htier
    rw [hclassified, eq_of_mem_tiers (b := .validation) htier (by decide)]
    decide +kernel
  · obtain ⟨-, -, -, -, -, hright⟩ := compile_tiers hgeneration.1
    exact hright hgeneration.2

end Switchyard
