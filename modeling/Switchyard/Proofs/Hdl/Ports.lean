import Switchyard.Proofs.Hdl.Spelling
import Switchyard.Proofs.Hdl.Stages

/-!
# The ports of compiled gates

A gate line of a program that compiles becomes one gate. Its ports are those of the operands that
can be read, in the order of the line (`PortsOf`). The survey counts operands and looks at the wires
that they name, so an operand that cannot be read is left out without a finding; in ASCII these are
the ranges (`Hdl.isSome_ofText?_iff`). A gate line without such operands becomes a gate with a port
for each of them, and with a right number of inputs (`ports_of_compile`).
-/

namespace Switchyard

/-- A gate of the kind that a program names is labelled with that kind. -/
theorem GateKind.upper_eq_label {name : String} {kind : GateKind}
    (h : GateKind.ofName? (Text.lower name) = some kind) :
    Text.upper (Text.lower name) = kind.label := by
  have hname := GateKind.ofName?_eq_some_iff.1 h
  rw [Text.lower_lower] at hname
  rw [← hname]
  cases kind <;> decide +kernel

/-- No number of inputs is too high if a higher one is not. -/
theorem GateArity.allows_of_le {arity : GateArity} {m n : Nat} (h : m ≤ n)
    (hn : arity.allows n = true) : arity.allows m = true := by
  unfold allows at hn ⊢
  cases hmost : arity.most with
  | none => rfl
  | some most =>
    rw [hmost] at hn
    simp only [decide_eq_true_eq] at hn ⊢
    exact h.trans hn

namespace Logic

/-! ## Ports of operands -/

section
variable {α β γ : Type}

/-- What belongs to the results of a function belongs to the arguments that have one. -/
theorem forall₂_filterMap {f : α → Option β} {R : β → γ → Prop} :
    ∀ {xs : List α} {zs : List γ}, List.Forall₂ R (xs.filterMap f) zs →
      List.Forall₂ (fun x z => ∃ y, f x = some y ∧ R y z) (xs.filter (fun x => (f x).isSome)) zs
  | [], _, h => by
    cases h
    exact .nil
  | x :: xs, zs, h => by
    cases hx : f x with
    | none =>
      rw [List.filterMap_cons_none hx] at h
      rw [List.filter_cons_of_neg (by rw [hx]; exact Bool.false_ne_true)]
      exact forall₂_filterMap h
    | some y =>
      rw [List.filterMap_cons_some hx] at h
      rw [List.filter_cons_of_pos (by rw [hx]; rfl)]
      cases h with
      | cons hfirst hrest => exact .cons ⟨y, hx, hfirst⟩ (forall₂_filterMap hrest)

/-- What belongs to the numbered members of a list belongs to its members. -/
theorem forall₂_of_zipIdx {R : α × Nat → β → Prop} :
    ∀ {xs : List α} {n : Nat} {ys : List β}, List.Forall₂ R (xs.zipIdx n) ys →
      List.Forall₂ (fun x y => ∃ i, R (x, i) y) xs ys
  | [], _, _, .nil => .nil
  | _ :: _, n, _, .cons hfirst hrest => .cons ⟨n, hfirst⟩ (forall₂_of_zipIdx hrest)

end

/-- The port is that of the bit which an operand text refers to. -/
def Port.OfText (declared : List Hdl.Wire) (text : List Char) (port : Port) : Prop :=
  ∃ ref, Hdl.Ref.ofOperand? text = some ref ∧ Port.ofRef declared ref = .ok port

/-- The ports are those of the operands that can be read, in order. -/
def PortsOf (declared : List Hdl.Wire) (texts : List (List Char)) (ports : List Port) : Prop :=
  List.Forall₂ (Port.OfText declared)
    (texts.filter (fun text => (Hdl.Ref.ofOperand? text).isSome)) ports

/-- Operands that are all found among the declared wires are the ports of their texts. -/
theorem portsOf_of_mapM {declared : List Hdl.Wire} {cs : List Char} {ports : List Port}
    (h : (Hdl.Ref.ofOperands cs).mapM (Port.ofRef declared) = .ok ports) :
    PortsOf declared (Hdl.operands cs) ports :=
  forall₂_filterMap (mapM_eq_ok_iff.1 h)

/-- Operands that can all be read have one port each. -/
theorem PortsOf.forall₂ {declared : List Hdl.Wire} {texts : List (List Char)} {ports : List Port}
    (h : PortsOf declared texts ports)
    (hread : ∀ text ∈ texts, (Hdl.Ref.ofOperand? text).isSome = true) :
    List.Forall₂ (Port.OfText declared) texts ports := by
  rwa [PortsOf, List.filter_eq_self.2 hread] at h

/-- There are no more ports than operands, since those that are not read are left out. -/
theorem PortsOf.length_le {declared : List Hdl.Wire} {texts : List (List Char)} {ports : List Port}
    (h : PortsOf declared texts ports) : ports.length ≤ texts.length := by
  rw [← List.Forall₂.length_eq h]
  exact List.length_filter_le _ _

/-! ## Gates of lines -/

/-- The gate is what a gate line of a program becomes. -/
structure Gate.Places (declared : List Hdl.Wire) (inst : Hdl.GateInst) (gate : Gate) : Prop where
  name_eq : gate.name = String.ofList inst.name
  kind_eq : gate.kind = Text.upper (Text.lower (String.ofList inst.kind))
  inputs : PortsOf declared (Hdl.operands inst.inputs) gate.inputs
  outputs : PortsOf declared (Hdl.operands inst.outputs) gate.outputs

/-- A gate that is built has its operands at the places of the declared wires. -/
theorem Gate.places_of_ofDeclared {declared : List Hdl.Wire} {inst : Hdl.GateInst} {number : Nat}
    {gate : Gate} (h : Gate.ofDeclared declared (Hdl.Gate.ofInst inst) number = .ok gate) :
    gate.Places declared inst := by
  obtain ⟨inputs, hinputs, h⟩ := bind_eq_ok_iff.1 h
  obtain ⟨outputs, houtputs, h⟩ := bind_eq_ok_iff.1 h
  cases h
  exact ⟨rfl, rfl, portsOf_of_mapM hinputs, portsOf_of_mapM houtputs⟩

/-- The gates of a built program are those of its gate lines, in order. -/
theorem Circuit.gates_ofProgram {text : String} {circuit : Circuit}
    (h : Circuit.ofProgram (Hdl.Program.ofText text) = .ok circuit) :
    List.Forall₂ (fun inst gate => gate.Places (Hdl.Program.ofText text).wires inst)
      ((Hdl.significantLines text.toList).filterMap Hdl.Line.gate?) circuit.gates := by
  obtain ⟨wires, -, h⟩ := bind_eq_ok_iff.1 h
  obtain ⟨gates, hgates, h⟩ := bind_eq_ok_iff.1 h
  cases h
  have hplaced := forall₂_of_zipIdx (mapM_eq_ok_iff.1 hgates)
  rw [Hdl.Program.gates_ofText, List.forall₂_map_left_iff] at hplaced
  exact hplaced.imp (fun inst gate ⟨_, hgate⟩ => Gate.places_of_ofDeclared hgate)

end Logic

namespace Hdl

/-- A declared name is a name, case disregarded. -/
theorem isRun_of_declared {line : Line} {name : List Char} (h : name ∈ line.declared) :
    IsRun Text.isLooseNameStart Text.isLooseNameChar name := by
  obtain ⟨decl, hdecl, rfl⟩ := List.mem_map.1 h
  exact (wireDecl?_suffix (Option.mem_toList.1 hdecl)).1

/-- An operand in ASCII on a gate line of a valid program can be read unless it has a range. -/
theorem isSome_ofOperand?_iff {text : String} (hvalid : (Survey.ofText text).isValid = true)
    {inst : GateInst} (hinst : inst ∈ (significantLines text.toList).filterMap Line.gate?)
    {operand : List Char} (hoperand : operand ∈ operands inst.inputs ++ operands inst.outputs)
    (hascii : InAscii operand) :
    (Ref.ofOperand? operand).isSome = true ↔ ':' ∉ operand := by
  obtain ⟨line, hline, hgate⟩ := List.mem_filterMap.1 hinst
  obtain ⟨-, -, -, hnamed⟩ := ((Survey.isValid_iff text).1 hvalid).gate hline hgate
  obtain ⟨other, -, hdeclared⟩ := List.mem_flatMap.1 (hnamed operand hoperand)
  have hend : ∀ c ∈ operand.getLast?, c ≠ '\n' := by
    rintro c hc rfl
    rcases List.mem_append.1 hoperand with hoperand | hoperand
    · cases getLast?_of_mem_operands hoperand _ hc
    · cases getLast?_of_mem_operands hoperand _ hc
  rw [Ref.ofOperand?, Option.isSome_map]
  exact isSome_ofText?_iff hend (isRun_of_declared hdeclared) hascii

end Hdl

/-- The gates of a program that compiles are those of its gate lines, in order, and their ports
those of the operands that can be read. In ASCII the others are the ranges. No gate has more inputs
than its kind takes; one whose operands are written in ASCII and without ranges has a port for each
of them, and a number of inputs that its kind takes. -/
theorem ports_of_compile {text : String} (h : (compile text).success = true) :
    let wires := (Hdl.Program.ofText text).wires
    ∃ circuit, (compile text).data = some circuit ∧
      List.Forall₂ (fun inst gate =>
          gate.Places wires inst ∧
          (∀ operand ∈ Hdl.operands inst.inputs ++ Hdl.operands inst.outputs,
            Hdl.InAscii operand →
            ((Hdl.Ref.ofOperand? operand).isSome = true ↔ ':' ∉ operand)) ∧
          ∃ kind : GateKind, gate.kind = kind.label ∧
            kind.arity.allows gate.inputs.length = true ∧
            ((∀ operand ∈ Hdl.operands inst.inputs ++ Hdl.operands inst.outputs,
                Hdl.InAscii operand ∧ ':' ∉ operand) →
              List.Forall₂ (Logic.Port.OfText wires) (Hdl.operands inst.inputs) gate.inputs ∧
              List.Forall₂ (Logic.Port.OfText wires) (Hdl.operands inst.outputs) gate.outputs ∧
              kind.arity.Admits gate.inputs.length))
        ((Hdl.significantLines text.toList).filterMap Hdl.Line.gate?) circuit.gates := by
  intro wires
  have hvalid := isValid_of_compile h
  obtain ⟨circuit, hcircuit⟩ := (Logic.Circuit.exists_ofProgram_iff
    (fun gate hgate ref href => Hdl.Ref.declared_of_valid hvalid hgate href)).2
    ((compile_success_iff text).1 h).2
  refine ⟨circuit, by rw [compile_of_valid hvalid, hcircuit], ?_⟩
  have hplaced := (List.forall₂_and_left _ _).2
    ⟨fun _ hinst => hinst, Logic.Circuit.gates_ofProgram hcircuit⟩
  refine hplaced.imp (fun inst gate ⟨hinst, hplaces⟩ => ?_)
  obtain ⟨line, hline, hgate⟩ := List.mem_filterMap.1 hinst
  obtain ⟨kind, hkind, hadmitted, -⟩ := ((Hdl.Survey.isValid_iff text).1 hvalid).gate hline hgate
  have hleft : ∀ operand ∈ Hdl.operands inst.inputs ++ Hdl.operands inst.outputs,
      Hdl.InAscii operand → ((Hdl.Ref.ofOperand? operand).isSome = true ↔ ':' ∉ operand) :=
    fun operand hoperand => Hdl.isSome_ofOperand?_iff hvalid hinst hoperand
  refine ⟨hplaces, hleft, kind, ?_, GateArity.allows_of_le hplaces.inputs.length_le hadmitted.2, ?_⟩
  · rw [hplaces.kind_eq, GateKind.upper_eq_label hkind]
  · intro hplain
    have hread : ∀ operand ∈ Hdl.operands inst.inputs ++ Hdl.operands inst.outputs,
        (Hdl.Ref.ofOperand? operand).isSome = true :=
      fun operand hoperand =>
        (hleft operand hoperand (hplain operand hoperand).1).2 (hplain operand hoperand).2
    obtain ⟨hins, houts⟩ := List.forall_mem_append.1 hread
    have hinputs := hplaces.inputs.forall₂ hins
    refine ⟨hinputs, hplaces.outputs.forall₂ houts, ?_⟩
    rw [← hinputs.length_eq]
    exact hadmitted

/-- A gate of two operands, one of them with a bit, has two inputs. -/
theorem ports_of_conjunction :
    let text := "wire a[2]\nwire b\nwire y\nAND g (input: b, a[1]; output: y)"
    (compile text).success = true ∧ ∃ circuit, (compile text).data = some circuit ∧
      circuit.gates.map (fun gate => gate.inputs.length) = [2] := by
  intro text
  have hsuccess : (compile text).success = true := by
    decide +kernel
  have hlines : (Hdl.significantLines text.toList).filterMap Hdl.Line.gate? =
      [⟨"AND".toList, "g".toList, " b, a[1]".toList, " y".toList⟩] := by
    decide +kernel
  obtain ⟨circuit, hdata, hgates⟩ := ports_of_compile hsuccess
  refine ⟨hsuccess, circuit, hdata, ?_⟩
  rw [hlines] at hgates
  generalize circuit.gates = gates at hgates
  cases hgates with
  | @cons _ gate _ _ hgate hrest =>
    cases hrest
    obtain ⟨-, -, kind, -, -, hplain⟩ := hgate
    obtain ⟨hinputs, -, -⟩ := hplain (by decide +kernel)
    rw [List.map_singleton, ← hinputs.length_eq]
    decide +kernel

/-- A range is left out of a gate, which then has fewer inputs than its kind takes. -/
theorem compile_leaves_out_range :
    let text := "wire a[2]\nwire b\nwire y\nand g (input: a[1:1], b; output: y)"
    (compile text).success = true ∧
      ((Hdl.significantLines text.toList).filterMap Hdl.Line.gate?).map
        (fun inst => Hdl.operands inst.inputs) = [["a[1:1]".toList, "b".toList]] ∧
      (compile text).data.map (fun circuit => circuit.gates.map (fun gate =>
        (gate.kind, gate.inputs))) = some [(GateKind.and.label, [⟨1, 0⟩])] ∧
      ¬ GateKind.and.arity.Admits 1 := by
  unfold GateArity.Admits
  decide +kernel

end Switchyard
