import Mathlib.Data.List.Induction
import Mathlib.Data.List.Nodup
import Switchyard.Proofs.Hdl.Surveys

/-!
# Valid programs

A survey goes through the lines once and keeps tables, and a faulty line may leave something in them
or nothing. The rules of the language do not speak of tables: they ask of each line that its
brackets match and that it is a statement, that names are not given twice, that gates are of known
kinds with right numbers of inputs, and that the wires which a gate mentions are declared on lines
before its own (`Usable`). A line that follows usable ones is accepted by their survey if and only
if it keeps these rules (`Survey.accepts_iff_follows`), since accepted lines leave just their names
in the tables. So a program is valid if and only if its lines are usable, then its unused wires are
those that no gate mentions, and the findings of any text stand in the order of its lines
(`Survey.ofText_exact`).
-/

namespace Switchyard

/-- A program names the kind whose name is what it writes in lower case. -/
theorem GateKind.ofName?_eq_some_iff {s : String} {kind : GateKind} :
    GateKind.ofName? s = some kind ↔ kind.name = Text.lower s := by
  constructor
  · intro h
    have hfound := List.find?_some h
    exact beq_iff_eq.1 hfound
  · intro h
    rw [GateKind.ofName?, ← h]
    cases kind <;> rfl

namespace Hdl

open Text

/-- What the language asks of a line by itself. -/
structure Line.WellFormed (line : Line) : Prop where
  balanced : Balanced line.chars
  statement : (∃ decl, wireDecl? line.chars = some decl) ∨
    ∃ inst, gateInst? line.chars = some inst
  kind : ∀ inst, gateInst? line.chars = some inst →
    ∃ kind : GateKind, kind.name = lower (String.ofList inst.kind) ∧
      kind.arity.Admits (Hdl.operands inst.inputs).length

/-- What the language asks of the lines of a program: those before a gate line declare the wires
that it mentions. -/
structure Usable (lines : List Line) : Prop where
  wellFormed : ∀ line ∈ lines, line.WellFormed
  wires : (lines.flatMap Line.declared).Nodup
  gates : (lines.flatMap Line.placed).Nodup
  order : ∀ before line, before ++ [line] <+: lines →
    line.mentioned ⊆ before.flatMap Line.declared

/-- What the language asks of a line behind given lines. -/
structure Line.Follows (before : List Line) (line : Line) : Prop where
  wellFormed : line.WellFormed
  wires : ∀ name ∈ line.declared, name ∉ before.flatMap Line.declared
  gates : ∀ name ∈ line.placed, name ∉ before.flatMap Line.placed
  order : line.mentioned ⊆ before.flatMap Line.declared

/-! ## Usable lines one after the other -/

/-- Names stay distinct under one more item exactly if its own are distinct and none was there. -/
theorem nodup_flatMap_concat {α β : Type} {f : α → List β} {as : List α} {a : α}
    (ha : (f a).Nodup) :
    ((as ++ [a]).flatMap f).Nodup ↔ (as.flatMap f).Nodup ∧ ∀ b ∈ f a, b ∉ as.flatMap f := by
  rw [List.flatMap_append, List.flatMap_singleton, List.nodup_append']
  constructor
  · rintro ⟨has, -, hdisjoint⟩
    exact ⟨has, fun b hb hmem => hdisjoint hmem hb⟩
  · rintro ⟨has, hnew⟩
    exact ⟨has, ha, fun b hmem hb => hnew b hb hmem⟩

/-- A line declares a name at most once. -/
theorem Line.nodup_declared (line : Line) : line.declared.Nodup := by
  unfold declared
  cases wireDecl? line.chars <;> simp

/-- A line places a name at most once. -/
theorem Line.nodup_placed (line : Line) : line.placed.Nodup := by
  unfold placed
  cases gateInst? line.chars <;> simp

/-- A text without a significant line is usable. -/
theorem Usable.nil : Usable [] where
  wellFormed := nofun
  wires := List.nodup_nil
  gates := List.nodup_nil
  order before line h := by simp at h

/-- Lines are usable if and only if each is so behind those before it. -/
theorem usable_concat_iff {lines : List Line} {line : Line} :
    Usable (lines ++ [line]) ↔ Usable lines ∧ line.Follows lines := by
  have hwires : ((lines ++ [line]).flatMap Line.declared).Nodup ↔ _ :=
    nodup_flatMap_concat line.nodup_declared
  have hgates : ((lines ++ [line]).flatMap Line.placed).Nodup ↔ _ :=
    nodup_flatMap_concat line.nodup_placed
  constructor
  · intro h
    obtain ⟨hlines, hline⟩ := List.forall_mem_append.1 h.wellFormed
    obtain ⟨hdeclared, hwire⟩ := hwires.1 h.wires
    obtain ⟨hplaced, hgate⟩ := hgates.1 h.gates
    refine ⟨⟨hlines, hdeclared, hplaced, ?_⟩,
      ⟨hline line List.mem_cons_self, hwire, hgate, h.order lines line (List.prefix_refl _)⟩⟩
    exact fun before other hinitial =>
      h.order before other (hinitial.trans (List.prefix_append lines [line]))
  · rintro ⟨h, hline⟩
    refine ⟨?_, hwires.2 ⟨h.wires, hline.wires⟩, hgates.2 ⟨h.gates, hline.gates⟩, ?_⟩
    · exact List.forall_mem_append.2 ⟨h.wellFormed, List.forall_mem_singleton.2 hline.wellFormed⟩
    · intro before other hinitial
      rcases List.prefix_concat_iff.1 hinitial with heq | hinitial
      · obtain ⟨rfl, hother⟩ := List.append_inj' heq rfl
        cases hother
        exact hline.order
      · exact h.order before other hinitial

section
variable {before : List Line} {line : Line}

/-- A declaration follows the lines before it exactly if none of them declares its name. -/
theorem follows_wire_iff (hbalanced : Balanced line.chars) {decl : WireDecl}
    (hdecl : wireDecl? line.chars = some decl) :
    line.Follows before ↔ decl.name ∉ before.flatMap Line.declared := by
  obtain ⟨hdeclared, hinst, hplaced, hmentioned⟩ := Line.names_of_wireDecl? hdecl
  constructor
  · intro h
    exact h.wires decl.name (by rw [hdeclared]; exact List.mem_singleton_self _)
  · intro h
    refine ⟨⟨hbalanced, .inl ⟨decl, hdecl⟩, ?_⟩, ?_, ?_, ?_⟩
    · rw [hinst]
      exact nofun
    · rwa [hdeclared, List.forall_mem_singleton]
    · rw [hplaced]
      exact nofun
    · rw [hmentioned]
      exact List.nil_subset _

/-- A gate follows the lines before it exactly if its kind admits its operands, its name is new, and
the wires it names are declared there. -/
theorem follows_gate_iff (hbalanced : Balanced line.chars) {inst : GateInst}
    (hinst : gateInst? line.chars = some inst) :
    line.Follows before ↔
      (∃ kind : GateKind, kind.name = lower (String.ofList inst.kind) ∧
        kind.arity.Admits (operands inst.inputs).length) ∧
      inst.name ∉ before.flatMap Line.placed ∧
      ∀ operand ∈ operands inst.inputs ++ operands inst.outputs,
        baseName operand ∈ before.flatMap Line.declared := by
  obtain ⟨hdeclared, hplaced, hmentioned⟩ := Line.names_of_gateInst? hinst
  constructor
  · intro h
    have horder := h.order
    rw [hmentioned] at horder
    exact ⟨h.wellFormed.kind inst hinst,
      h.gates inst.name (by rw [hplaced]; exact List.mem_singleton_self _),
      List.forall_mem_map.1 horder⟩
  · rintro ⟨hkind, hnew, hoperands⟩
    refine ⟨⟨hbalanced, .inr ⟨inst, hinst⟩, ?_⟩, ?_, ?_, ?_⟩
    · intro inst' hinst'
      cases hinst.symm.trans hinst'
      exact hkind
    · rw [hdeclared]
      exact nofun
    · rwa [hplaced, List.forall_mem_singleton]
    · rw [hmentioned]
      exact List.forall_mem_map.2 hoperands

end

namespace Survey

/-- Lines are accepted in a row exactly if the first are, and the rest are after them. -/
theorem acceptsAll_append {survey : Survey} {xs ys : List Line} :
    survey.AcceptsAll (xs ++ ys) ↔ survey.AcceptsAll xs ∧ (xs.foldl add survey).AcceptsAll ys := by
  induction xs generalizing survey with
  | nil => exact ⟨fun h => ⟨.nil survey, h⟩, fun h => h.2⟩
  | cons x xs ih =>
    constructor
    · rintro (_ | ⟨hx, hrest⟩)
      obtain ⟨hxs, hys⟩ := ih.1 hrest
      exact ⟨.cons hx hxs, hys⟩
    · rintro ⟨_ | ⟨hx, hxs⟩, hys⟩
      exact .cons hx (ih.2 ⟨hxs, hys⟩)

/-- A survey whose tables hold the names of the lines before accepts the lines that follow these. -/
theorem accepts_iff_follows {survey : Survey} {before : List Line} {line : Line}
    (hwires : survey.wires.map (·.1) = before.flatMap Line.declared)
    (hgates : survey.gates.map (·.1) = before.flatMap Line.placed) :
    survey.Accepts line ↔ line.Follows before := by
  have hwire : ∀ name, Assoc.has name survey.wires = true ↔ name ∈ before.flatMap Line.declared :=
    fun name => hwires ▸ Assoc.has_iff
  have hgate : ∀ name, Assoc.has name survey.gates = true ↔ name ∈ before.flatMap Line.placed :=
    fun name => hgates ▸ Assoc.has_iff
  by_cases hbalanced : Balanced line.chars
  · cases hdecl : wireDecl? line.chars with
    | some decl =>
      rw [accepts_wire_iff hbalanced hdecl, follows_wire_iff hbalanced hdecl, ← hwire,
        Bool.not_eq_true]
    | none =>
      cases hinst : gateInst? line.chars with
      | some inst =>
        rw [accepts_gate_iff hbalanced ((Line.gate?_eq line).trans hinst),
          follows_gate_iff hbalanced hinst, ← hgate, Bool.not_eq_true]
        constructor
        · rintro ⟨kind, hknown, hfresh, hadmits, hnamed⟩
          rw [GateKind.ofName?_eq_some_iff, lower_lower] at hknown
          exact ⟨⟨kind, hknown, hadmits⟩, hfresh,
            fun operand hoperand => (hwire _).1 (hnamed operand hoperand)⟩
        · rintro ⟨⟨kind, hname, hadmits⟩, hfresh, hnamed⟩
          refine ⟨kind, ?_, hfresh, hadmits,
            fun operand hoperand => (hwire _).2 (hnamed operand hoperand)⟩
          rw [GateKind.ofName?_eq_some_iff, lower_lower, hname]
      | none =>
        -- neither a declaration nor a gate, which both sides ask for
        refine iff_of_false (fun h => ?_) (fun h => ?_)
        · have hstatement := h.statement
          simp [Line.gate?_eq, hdecl, hinst] at hstatement
        · have hstatement := h.wellFormed.statement
          simp [hdecl, hinst] at hstatement
  · exact iff_of_false (fun h => hbalanced h.balanced) (fun h => hbalanced h.wellFormed.balanced)

/-- Lines are accepted one after the other if and only if they are usable. -/
theorem acceptsAll_iff_usable {lines : List Line} : AcceptsAll {} lines ↔ Usable lines := by
  induction lines using List.reverseRecOn with
  | nil => exact ⟨fun _ => .nil, fun _ => .nil {}⟩
  | append_singleton lines line ih =>
    rw [acceptsAll_append, usable_concat_iff, ← ih]
    refine and_congr_right (fun haccepts => ?_)
    have hwires : (lines.foldl add {}).wires.map (·.1) = lines.flatMap Line.declared := by
      rw [haccepts.foldl_add_eq]
      simp [List.map_flatMap, Function.comp_def]
    have hgates : (lines.foldl add {}).gates.map (·.1) = lines.flatMap Line.placed := by
      rw [haccepts.foldl_add_eq]
      simp [List.map_flatMap, Function.comp_def]
    rw [← accepts_iff_follows hwires hgates]
    constructor
    · rintro (_ | ⟨h, -⟩)
      exact h
    · exact fun h => .cons h (.nil _)

/-- The survey finds nothing exactly if the text is usable. -/
theorem isValid_iff_usable (text : String) :
    (ofText text).isValid = true ↔ Usable (significantLines text.toList) := by
  rw [isValid_iff, acceptsAll_iff_usable]

/-- An accepted gate is of a known kind, has a right number of inputs, and its operands name wires
that are declared. -/
theorem AcceptsAll.gate {lines : List Line} (h : AcceptsAll {} lines) {line : Line}
    (hline : line ∈ lines) {inst : GateInst} (hgate : line.gate? = some inst) :
    ∃ kind, GateKind.ofName? (lower (String.ofList inst.kind)) = some kind ∧
      kind.arity.Admits (operands inst.inputs).length ∧
      ∀ operand ∈ operands inst.inputs ++ operands inst.outputs,
        baseName operand ∈ lines.flatMap Line.declared := by
  have husable := acceptsAll_iff_usable.1 h
  rw [Line.gate?_eq] at hgate
  obtain ⟨kind, hname, hadmits⟩ := (husable.wellFormed line hline).kind inst hgate
  refine ⟨kind, GateKind.ofName?_eq_some_iff.2 (by rw [lower_lower, hname]), hadmits, ?_⟩
  intro operand hoperand
  obtain ⟨before, after, rfl⟩ := List.append_of_mem hline
  have hmentioned : baseName operand ∈ line.mentioned := by
    rw [(Line.names_of_gateInst? hgate).2.2]
    exact List.mem_map_of_mem hoperand
  rw [List.flatMap_append]
  exact List.mem_append_left _ (husable.order before line ⟨after, by simp⟩ hmentioned)

/-! ## The order of findings -/

/-- The significant ones of some lines are the trimmed lines with their numbers, without those that
are empty or comments. -/
theorem significantFrom_eq (number : Nat) (raws : List (List Char)) :
    significantFrom number raws =
      ((raws.zipIdx number).map (fun raw => (⟨raw.2, trim raw.1⟩ : Line))).filter
        (fun line => isSignificant line.chars) := by
  induction raws generalizing number with
  | nil => rfl
  | cons raw raws ih =>
    rw [significantFrom, ih, List.zipIdx_cons, List.map_cons, List.filter_cons]

/-- The numbers of the significant lines of a text increase. -/
theorem pairwise_number_significantLines (text : List Char) :
    ((significantLines text).map (·.number)).Pairwise (· < ·) := by
  rw [significantLines, significantFrom_eq]
  refine List.Pairwise.sublist (List.filter_sublist.map _) ?_
  rw [List.map_map]
  exact (List.zipIdx_map_snd 1 (split '\n' text)).symm ▸ List.pairwise_lt_range'

/-- A line that no finding so far comes behind keeps the findings in order, and none of them comes
behind it. -/
theorem pairwise_findings_add {survey : Survey} {line : Line}
    (hsurvey : (survey.findings.map (·.line)).Pairwise (· ≤ ·))
    (hbefore : ∀ finding ∈ survey.findings, finding.line ≤ line.number) :
    ((survey.add line).findings.map (·.line)).Pairwise (· ≤ ·) ∧
      ∀ finding ∈ (survey.add line).findings, finding.line ≤ line.number := by
  obtain ⟨faults, hfaults, -⟩ := survey.findings_add line
  rw [hfaults, List.map_append, List.pairwise_append, List.forall_mem_append]
  simp only [List.forall_mem_map]
  refine ⟨⟨hsurvey, ?_, ?_⟩, hbefore, fun _ _ => Nat.le_refl line.number⟩
  · rw [List.map_map, List.pairwise_map]
    exact List.pairwise_of_forall (fun _ _ => Nat.le_refl line.number)
  · exact fun finding hfinding _ _ => hbefore finding hfinding

/-- Lines with increasing numbers, behind all findings so far, keep the findings in order. -/
theorem pairwise_findings_foldl_add {lines : List Line}
    (hlines : (lines.map (·.number)).Pairwise (· < ·)) {survey : Survey}
    (hsurvey : (survey.findings.map (·.line)).Pairwise (· ≤ ·))
    (hbefore : ∀ line ∈ lines, ∀ finding ∈ survey.findings, finding.line ≤ line.number) :
    ((lines.foldl add survey).findings.map (·.line)).Pairwise (· ≤ ·) := by
  induction lines generalizing survey with
  | nil => exact hsurvey
  | cons line lines ih =>
    obtain ⟨hline, hlines⟩ := List.pairwise_cons.1 hlines
    obtain ⟨hadded, hupto⟩ :=
      pairwise_findings_add hsurvey (hbefore line List.mem_cons_self)
    refine ih hlines hadded (fun other hother finding hfinding => ?_)
    exact (hupto finding hfinding).trans (hline _ (List.mem_map_of_mem hother)).le

/-! ## Reports -/

/-- A survey of usable lines finds unused the wires that no gate mentions. -/
theorem unused_foldl_add {lines : List Line} (h : AcceptsAll {} lines) :
    (lines.foldl add {}).unused =
      (lines.flatMap (fun line => line.declared.map (·, line.number))).filter
        (fun wire => decide (wire.1 ∉ lines.flatMap Line.mentioned)) := by
  rw [unused, h.foldl_add_eq]
  simp only [List.nil_append, List.contains_eq_mem, decide_not]

/-- A program is valid if and only if its lines are usable. The unused wires of a valid program are
the declared ones that no gate mentions, in order and with their lines; and the findings of any text
stand in the order of its lines. -/
theorem ofText_exact (text : String) :
    let lines := significantLines text.toList
    ((ofText text).isValid = true ↔ Usable lines) ∧
      ((ofText text).isValid = true → (ofText text).unused =
        (lines.flatMap (fun line => line.declared.map (·, line.number))).filter
          (fun wire => decide (wire.1 ∉ lines.flatMap Line.mentioned))) ∧
      ((ofText text).findings.map (·.line)).Pairwise (· ≤ ·) := by
  intro lines
  refine ⟨?_, ?_, ?_⟩
  · exact isValid_iff_usable text
  · exact fun hvalid => unused_foldl_add ((isValid_iff text).1 hvalid)
  · exact pairwise_findings_foldl_add (pairwise_number_significantLines text.toList) .nil
      (fun _ _ => nofun)

/-- A wire that is declared behind a comment and mentioned by no gate is reported with its line. -/
theorem ofText_exact_spare :
    let text := "wire a[2]\nwire y\n# not needed\nWIRE spare\n\nNot g (input: a[1]; output: y)"
    (ofText text).isValid = true ∧ Usable (significantLines text.toList) ∧
      (ofText text).unused = [("spare".toList, 4)] := by
  intro text
  have hvalid : (ofText text).isValid = true := by decide +kernel
  obtain ⟨hiff, hunused, -⟩ := ofText_exact text
  refine ⟨hvalid, hiff.1 hvalid, (hunused hvalid).trans ?_⟩
  decide +kernel

end Survey

end Hdl

end Switchyard
