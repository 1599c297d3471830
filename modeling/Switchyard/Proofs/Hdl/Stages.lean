import Mathlib.Data.List.Nodup
import Switchyard.Pipeline
import Switchyard.Proofs.Hdl.Validity
import Switchyard.Proofs.Logic.Building

/-!
# The stages of compiling

Reading, surveying and building go over one program text each in its own way. Each line that cannot
be read has a finding in the survey; a valid program is read as a whole, its wires have distinct
names, and it is built unless a wire has no bit, for every reference in it is to one of its wires
(`Hdl.Ref.declared_of_valid`). So compiling succeeds if and only if the program is valid and all
its wires have bits; a machine also needs every number to be short enough to be read and all wires
to be held (`stages_agree`).
-/

namespace Switchyard

namespace Hdl

/-! ## Programs line by line -/

section
variable (line : Line)

/-- A line gives a wire exactly if it is read as a declaration. -/
theorem Statement.wire?_ofLine :
    (Statement.ofLine line).wire? = (wireDecl? line.chars).map Wire.ofDecl := by
  unfold Statement.ofLine
  cases wireDecl? line.chars with
  | some decl => rfl
  | none => cases gateInst? line.chars <;> rfl

/-- A line gives a gate exactly if it is read as a gate and not as a declaration before. -/
theorem Statement.gate?_ofLine :
    (Statement.ofLine line).gate? = line.gate?.map Gate.ofInst := by
  unfold Statement.ofLine Line.gate?
  cases wireDecl? line.chars with
  | some decl => rfl
  | none => cases gateInst? line.chars <;> rfl

/-- A line is left unread exactly if it is read neither way. -/
theorem Statement.unread?_ofLine : (Statement.ofLine line).unread? =
    if wireDecl? line.chars = none ∧ line.gate? = none then some line else none := by
  unfold Statement.ofLine Line.gate?
  cases wireDecl? line.chars with
  | some decl => rfl
  | none => cases gateInst? line.chars <;> rfl

end

section
variable (text : String)

/-- The wires of a program are those of its significant lines, in order. -/
theorem Program.wires_ofText : (Program.ofText text).wires =
    (significantLines text.toList).filterMap
      (fun line => (wireDecl? line.chars).map Wire.ofDecl) := by
  unfold ofText ofStatements
  dsimp only
  rw [List.filterMap_map]
  exact List.filterMap_congr (fun line _ => Statement.wire?_ofLine line)

/-- The gates of a program are those of its significant lines, in order. -/
theorem Program.gates_ofText : (Program.ofText text).gates =
    ((significantLines text.toList).filterMap Line.gate?).map Gate.ofInst := by
  unfold ofText ofStatements
  rw [List.map_filterMap]
  dsimp only
  rw [List.filterMap_map]
  exact List.filterMap_congr (fun line _ => Statement.gate?_ofLine line)

/-- The unread lines are the significant ones that are read neither way. -/
theorem Program.mem_unread_ofText {line : Line} : line ∈ (Program.ofText text).unread ↔
    line ∈ significantLines text.toList ∧ wireDecl? line.chars = none ∧ line.gate? = none := by
  unfold ofText ofStatements
  dsimp only
  rw [List.filterMap_map, List.mem_filterMap]
  simp only [Function.comp_apply, Statement.unread?_ofLine]
  constructor
  · rintro ⟨other, hother, hline⟩
    split at hline
    · next hunread =>
      cases hline
      exact ⟨hother, hunread⟩
    · cases hline
  · rintro ⟨hline, hunread⟩
    exact ⟨line, hline, if_pos hunread⟩

/-- The names of a program's wires are those that its lines declare. -/
theorem Program.names_ofText : (Program.ofText text).wires.map (·.name) =
    ((significantLines text.toList).flatMap Line.declared).map String.ofList := by
  rw [wires_ofText, List.map_filterMap, List.map_flatMap, List.filterMap_eq_flatMap_toList]
  refine List.flatMap_congr (fun line _ => ?_)
  unfold Line.declared
  cases wireDecl? line.chars <;> rfl

end

/-! ## Valid programs -/

section
variable {text : String} (h : (Survey.ofText text).isValid = true)
include h

/-- A valid program is read as a whole. -/
theorem Program.isRead_of_valid : (Program.ofText text).isRead = true := by
  rw [isRead, List.isEmpty_iff, List.eq_nil_iff_forall_not_mem]
  intro line hline
  obtain ⟨hmem, hdecl, hgate⟩ := (mem_unread_ofText text).1 hline
  rw [Line.gate?_eq] at hgate
  have hline' := ((Survey.isValid_iff_usable text).1 h).wellFormed line hmem
  rcases hline'.statement with ⟨decl, hdecl'⟩ | ⟨inst, hinst⟩
  · cases hdecl.symm.trans hdecl'
  · cases hgate.symm.trans hinst

/-- The wires of a valid program have distinct names. -/
theorem Program.nodup_names_of_valid : ((Program.ofText text).wires.map (·.name)).Nodup := by
  rw [names_ofText]
  refine List.Nodup.map (fun a b hab => ?_) ((Survey.isValid_iff_usable text).1 h).wires
  simpa using congrArg String.toList hab

/-- Every reference in a valid program is to one of its wires. -/
theorem Ref.declared_of_valid {gate : Gate} (hgate : gate ∈ (Program.ofText text).gates) {ref : Ref}
    (href : ref ∈ gate.inputs ++ gate.outputs) :
    ref.wire ∈ (Program.ofText text).wires.map (·.name) := by
  rw [Program.gates_ofText] at hgate
  obtain ⟨inst, hinst, rfl⟩ := List.mem_map.1 hgate
  obtain ⟨line, hline, hplaced⟩ := List.mem_filterMap.1 hinst
  obtain ⟨-, -, -, hnamed⟩ := ((Survey.isValid_iff text).1 h).gate hline hplaced
  have hoperand : ∃ operand ∈ operands inst.inputs ++ operands inst.outputs,
      Ref.ofOperand? operand = some ref := by
    rw [Gate.ofInst, Ref.ofOperands, Ref.ofOperands, ← List.filterMap_append] at href
    exact List.mem_filterMap.1 href
  obtain ⟨operand, hmem, hread⟩ := hoperand
  obtain ⟨parsed, hparsed, rfl⟩ := Option.map_eq_some_iff.1 hread
  rw [Program.names_ofText, Operand.toRef, ← baseName_of_ofText? hparsed]
  exact List.mem_map_of_mem (hnamed operand hmem)

end

end Hdl

/-! ## Compiling -/

section
variable (text : String)

/-- Compiling a valid program is building it. -/
theorem compile_of_valid {text : String} (hvalid : (Hdl.Survey.ofText text).isValid = true) :
    compile text =
      match Logic.Circuit.ofProgram (Hdl.Program.ofText text) with
      | .error fault => .failure .generation .generation [fault.message]
        (Hdl.Survey.ofText text).cautions none
      | .ok circuit => { success := true, data := some circuit
                         warnings := (Hdl.Survey.ofText text).cautions } := by
  unfold compile
  dsimp only
  rw [Hdl.Program.isRead_of_valid hvalid, hvalid]
  rfl

/-- Only valid programs compile. -/
theorem isValid_of_compile {text : String} (h : (compile text).success = true) :
    (Hdl.Survey.ofText text).isValid = true := by
  rw [← Bool.not_eq_false]
  intro hvalid
  unfold compile at h
  dsimp only at h
  rw [hvalid] at h
  split at h
  · cases h
  · cases h

/-- Compiling succeeds if and only if the program is valid and all its wires have bits. -/
theorem compile_success_iff : (compile text).success = true ↔
    (Hdl.Survey.ofText text).isValid = true ∧
      ∀ wire ∈ (Hdl.Program.ofText text).wires, 1 ≤ wire.width := by
  refine (and_iff_right_of_imp isValid_of_compile).symm.trans (and_congr_right (fun hvalid => ?_))
  rw [← Logic.Circuit.exists_ofProgram_iff
    (fun gate hgate ref href => Hdl.Ref.declared_of_valid hvalid hgate href),
    compile_of_valid hvalid]
  cases Logic.Circuit.ofProgram (Hdl.Program.ofText text) with
  | error fault => exact ⟨nofun, nofun⟩
  | ok circuit => exact ⟨fun _ => ⟨circuit, rfl⟩, fun _ => rfl⟩

/-- No number of a program text has more digits than are read. -/
def Hdl.HasShortNumbers (text : String) : Prop :=
  ∀ numeral ∈ (significantLines text.toList).flatMap Line.numerals,
    numeral.length ≤ Text.maxDigits

/-- No numeral is too long exactly if each has few enough digits. -/
theorem Hdl.overlong?_eq_none_iff {numerals : List (List Char)} :
    overlong? numerals = none ↔ ∀ numeral ∈ numerals, numeral.length ≤ Text.maxDigits := by
  simp [overlong?]

/-- A text is read as the program that it denotes, unless one of its numbers has too many digits. -/
theorem Hdl.Program.read_eq_iff {text : String} {program : Program} :
    Program.read text = .ok program ↔ HasShortNumbers text ∧ Program.ofText text = program := by
  rw [HasShortNumbers, ← overlong?_eq_none_iff, read]
  split
  · next hsome => simp [hsome]
  · next hnone => simp [hnone]

/-- A program text can be read if and only if none of its numbers has too many digits. -/
theorem Hdl.Program.read_iff :
    Program.read text = .ok (Program.ofText text) ↔ HasShortNumbers text :=
  read_eq_iff.trans (and_iff_left rfl)

/-- Each line that cannot be read has a finding. -/
theorem exists_finding_of_unread {line : Hdl.Line}
    (hline : line ∈ (Hdl.Program.ofText text).unread) :
    ∃ finding ∈ (Hdl.Survey.ofText text).findings, finding.line = line.number := by
  obtain ⟨hmem, hdecl, hgate⟩ := (Hdl.Program.mem_unread_ofText text).1 hline
  obtain ⟨findings, hfindings, -, hunread⟩ :=
    Hdl.Survey.findings_foldl_add (Hdl.significantLines text.toList) {}
  obtain ⟨finding, hfinding, hnumber⟩ := hunread line hmem hdecl hgate
  refine ⟨finding, ?_, hnumber⟩
  rw [Hdl.Survey.ofText, hfindings]
  exact hfinding

section
variable (machine : Logic.Machine)

/-- A limit is met in building a program if one of its wires is refused for its width. -/
theorem buildLimit?_eq_none_iff {program : Hdl.Program} : buildLimit? machine program = none ↔
    ∀ excess, Logic.Circuit.buildWithin machine program ≠ .error (.excess excess) := by
  unfold buildLimit?
  split
  · next excess hexcess => exact ⟨nofun, fun h => absurd hexcess (h excess)⟩
  · next hother => exact ⟨fun _ => hother, fun _ => rfl⟩

/-- A program meets no limit if and only if all its numbers are short enough to be read and, if it
is valid, none of its wires is refused for its width. -/
theorem limit?_eq_none_iff : limit? machine text = none ↔ Hdl.HasShortNumbers text ∧
    ((Hdl.Survey.ofText text).isValid = true → ∀ excess,
      Logic.Circuit.buildWithin machine (Hdl.Program.ofText text) ≠ .error (.excess excess)) := by
  rw [← Hdl.Program.read_iff, ← buildLimit?_eq_none_iff, limit?]
  cases hread : Hdl.Program.read text with
  | error fault => exact ⟨nofun, nofun⟩
  | ok program =>
    obtain ⟨-, rfl⟩ := Hdl.Program.read_eq_iff.1 hread
    rw [and_iff_right rfl]
    dsimp only
    cases hvalid : (Hdl.Survey.ofText text).isValid with
    | false => simp
    | true =>
      rw [Hdl.Program.isRead_of_valid hvalid, Bool.and_true, if_pos rfl]
      exact ⟨fun hbuilt _ => hbuilt, fun hbuilt => hbuilt rfl⟩

/-- On a machine compiling has an outcome, which is that without limits, unless it meets one. -/
theorem compileWithin_eq_ok_iff {outcome : Outcome Logic.Circuit} :
    compileWithin machine text = .ok outcome ↔ limit? machine text = none ∧
      compile text = outcome := by
  unfold compileWithin
  cases limit? machine text with
  | some limit => exact ⟨nofun, nofun⟩
  | none => rw [Except.ok.injEq, and_iff_right rfl]

/-- On a machine compiling succeeds if and only if it does so without limits, all wires are held,
and all numbers are short enough to be read. -/
theorem compileWithin_success_iff :
    (∃ outcome, compileWithin machine text = .ok outcome ∧ outcome.success = true) ↔
      (compile text).success = true ∧
      machine.holds ((Hdl.Program.ofText text).wires.map (·.width)) = true ∧
      Hdl.HasShortNumbers text := by
  simp only [compileWithin_eq_ok_iff, and_assoc, exists_and_left, exists_eq_left']
  rw [limit?_eq_none_iff, and_comm]
  refine and_congr_right (fun hsuccess => ?_)
  obtain ⟨hvalid, hbits⟩ := (compile_success_iff text).1 hsuccess
  rw [and_comm, forall_prop_of_true hvalid]
  refine and_congr_left' ?_
  rw [← not_exists, Logic.Circuit.exists_excess_iff hbits, Bool.not_eq_false]

/-- Reading, surveying and building agree on every program text. A line that cannot be read has a
finding. A valid program is read as a whole, its wires have distinct names, and it is built if and
only if all its wires have bits; otherwise the first one without is reported. So compiling succeeds
if and only if the program is valid and all its wires have bits. A machine reports all this as long
as no number has too many digits to be read and no wire of a valid program is refused for its width;
it refuses the first wire that has no bit or is not held besides those before it, and never a
reference. -/
theorem stages_agree :
    (Hdl.Program.read text = .ok (Hdl.Program.ofText text) ↔ Hdl.HasShortNumbers text) ∧
    (∀ line ∈ (Hdl.Program.ofText text).unread,
      ∃ finding ∈ (Hdl.Survey.ofText text).findings, finding.line = line.number) ∧
    ((Hdl.Survey.ofText text).isValid = true →
      (Hdl.Program.ofText text).isRead = true ∧
      ((Hdl.Program.ofText text).wires.map (·.name)).Nodup ∧
      ((∃ circuit, Logic.Circuit.ofProgram (Hdl.Program.ofText text) = .ok circuit) ↔
        ∀ wire ∈ (Hdl.Program.ofText text).wires, 1 ≤ wire.width) ∧
      (∀ wire, (Hdl.Program.ofText text).wires.find? (fun wire => decide (wire.width < 1)) =
          some wire →
        Logic.Circuit.ofProgram (Hdl.Program.ofText text) =
          .error (.noBits wire.width wire.name)) ∧
      ∀ failure, Logic.Circuit.buildWithin machine (Hdl.Program.ofText text) = .error failure ↔
        ∃ before wire after, (Hdl.Program.ofText text).wires = before ++ wire :: after ∧
          machine.Builds before ∧ machine.Refuses (before.map (·.width)) wire failure) ∧
    ((compile text).success = true ↔
      (Hdl.Survey.ofText text).isValid = true ∧
        ∀ wire ∈ (Hdl.Program.ofText text).wires, 1 ≤ wire.width) ∧
    (∀ outcome, compileWithin machine text = .ok outcome ↔
      (Hdl.HasShortNumbers text ∧ ((Hdl.Survey.ofText text).isValid = true → ∀ excess,
        Logic.Circuit.buildWithin machine (Hdl.Program.ofText text) ≠ .error (.excess excess))) ∧
      compile text = outcome) ∧
    ((∃ outcome, compileWithin machine text = .ok outcome ∧ outcome.success = true) ↔
      ((Hdl.Survey.ofText text).isValid = true ∧
        ∀ wire ∈ (Hdl.Program.ofText text).wires, 1 ≤ wire.width) ∧
      machine.holds ((Hdl.Program.ofText text).wires.map (·.width)) = true ∧
      Hdl.HasShortNumbers text) := by
  refine ⟨Hdl.Program.read_iff text, fun line hline => exists_finding_of_unread text hline, ?_,
    compile_success_iff text, fun outcome => ?_, ?_⟩
  · intro hvalid
    have hdeclared : ∀ gate ∈ (Hdl.Program.ofText text).gates,
        ∀ ref ∈ gate.inputs ++ gate.outputs,
          ref.wire ∈ (Hdl.Program.ofText text).wires.map (·.name) :=
      fun gate hgate ref href => Hdl.Ref.declared_of_valid hvalid hgate href
    refine ⟨Hdl.Program.isRead_of_valid hvalid, Hdl.Program.nodup_names_of_valid hvalid,
      Logic.Circuit.exists_ofProgram_iff hdeclared, fun wire hfind => ?_, fun failure => ?_⟩
    · have hbuilt := Logic.Circuit.ofProgram_cases hdeclared
      rw [hfind] at hbuilt
      exact hbuilt
    · rw [Logic.Circuit.buildWithin_eq_error_iff, or_iff_left]
      rintro ⟨-, hundeclared⟩
      rw [Logic.Circuit.find?_isUndeclared_eq_none hdeclared] at hundeclared
      cases hundeclared
  · rw [compileWithin_eq_ok_iff, limit?_eq_none_iff]
  · rw [compileWithin_success_iff, compile_success_iff]

end

end

/-- No machine reports a wire without a bit behind one whose bits cannot be counted. -/
theorem compileWithin_uncountable :
    let text := "wire a[9223372036854775808]\nwire b[0]"
    (Hdl.Survey.ofText text).isValid = true ∧
      (Hdl.Program.ofText text).wires.find? (fun wire => decide (wire.width < 1)) =
        some { name := "b", width := 0 } ∧
      ¬ ∃ machine outcome, compileWithin machine text = .ok outcome := by
  intro text
  have hvalid : (Hdl.Survey.ofText text).isValid = true := by decide +kernel
  have hwires : (Hdl.Program.ofText text).wires =
      [{ name := "a", width := Logic.uncountableBits }, { name := "b", width := 0 }] := by
    decide +kernel
  refine ⟨hvalid, by decide +kernel, ?_⟩
  rintro ⟨machine, outcome, houtcome⟩
  obtain ⟨-, -, hbuilding, -, hreported, -⟩ := stages_agree text machine
  obtain ⟨-, -, -, -, hrefused⟩ := hbuilding hvalid
  have hexcess : Logic.Circuit.buildWithin machine (Hdl.Program.ofText text) =
      .error (.excess .uncountable) := by
    rw [hrefused, hwires]
    exact ⟨[], _, _, rfl, ⟨List.forall_mem_nil _, machine.holds_nil⟩, .uncountable (Int.le_refl _)⟩
  exact ((hreported outcome).1 houtcome).1.2 hvalid _ hexcess

end Switchyard
