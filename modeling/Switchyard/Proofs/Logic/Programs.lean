import Switchyard.Pipeline
import Switchyard.Proofs.Hdl.Ports
import Switchyard.Proofs.Logic.Information
import Switchyard.Proofs.Logic.Reports
import Switchyard.Proofs.Outcomes

/-!
# Simulating a built program

A program is built with each of its wires at the place that its number gives, and with at least one
bit (`Circuit.numbered_ofProgram`). Nothing that a simulator does changes that, for it is a matter
of the shape of the wires (`Numbered.of_shape`). So a bit can be set unless no wire has the name,
the last wire that has it does not have the bit, or the value denotes no level
(`Numbered.setInput_cases`), and after the inputs were set nothing can fail (`setWires_cases`,
`simulate_cases`). What is reported then as an output is bit zero of each wire (`get?_wireOutputs`).
-/

namespace Switchyard

namespace Logic

/-! ## Wires at their places -/

/-- A wire at the place of its number, with as many bits as its width, at least one. -/
structure Wire.Stands (place : Nat) (wire : Wire) : Prop where
  id_eq : wire.id = place
  width_eq : wire.width = wire.state.length
  state_ne_nil : wire.state ≠ []

/-- All wires stand at the places of their numbers. -/
def Numbered (wires : List Wire) : Prop :=
  ∀ (i : Nat) (wire : Wire), wires[i]? = some wire → wire.Stands i

/-- A wire stands at its number whatever its state. -/
theorem Wire.Stands.of_shape {v w : Wire} {i : Nat} (h : w.Stands i) (hshape : v.shape = w.shape) :
    v.Stands i where
  id_eq := by
    have hid : v.shape.id = w.shape.id := by rw [hshape]
    exact hid.trans h.id_eq
  width_eq := by
    have hwidth : v.shape.width = w.shape.width := by rw [hshape]
    rw [Wire.length_state_of_shape hshape, ← h.width_eq]
    exact hwidth
  state_ne_nil := by
    rw [← List.length_pos_iff, Wire.length_state_of_shape hshape, List.length_pos_iff]
    exact h.state_ne_nil

/-- Wires of the same shape are numbered in the same way. -/
theorem Numbered.of_shape {wires next : List Wire} (h : Numbered wires)
    (hshape : shape next = shape wires) : Numbered next := by
  intro i wire hwire
  have hat := getElem?_of_shape hshape i
  rw [hwire, Option.map_some] at hat
  obtain ⟨before, hbefore, hsame⟩ := Option.map_eq_some_iff.1 hat.symm
  exact (h i before hbefore).of_shape hsame.symm

/-- Wires of the same shape have the same names. -/
theorem names_of_shape {wires next : List Wire} (hshape : shape next = shape wires) :
    next.map (·.name) = wires.map (·.name) := by
  have hnames : ∀ wires : List Wire, (shape wires).map (·.name) = wires.map (·.name) := by
    intro wires
    rw [shape, List.map_map]
    rfl
  rw [← hnames next, hshape, hnames]

/-! ## Built programs -/

namespace Wire

variable {declared : Hdl.Wire} {number : Nat} {wire : Wire}
  (h : Wire.ofDeclared declared number = .ok wire)
include h

/-- A built wire has its number as its id, as many bits as its width, and at least one. -/
theorem stands_ofDeclared : wire.Stands number := by
  unfold Wire.ofDeclared at h
  split at h
  · cases h
  · next hwidth =>
    cases h
    have hpos : 0 < declared.width.toNat := by omega
    exact ⟨rfl, by simp [Int.max_eq_left (by omega : 0 ≤ declared.width)],
      by simp [hpos.ne']⟩

/-- A built wire has its declared name. -/
theorem name_ofDeclared : wire.name = declared.name := by
  unfold Wire.ofDeclared at h
  split at h
  · cases h
  · cases h
    rfl

/-- A built wire holds codes, its bits being low. -/
theorem coded_ofDeclared : ∀ code ∈ wire.state, IsCode code := by
  unfold Wire.ofDeclared at h
  split at h
  · cases h
  · cases h
    intro code hcode
    exact ⟨.low, List.eq_of_mem_replicate hcode⟩

end Wire

/-- A built gate is coded: if it stores anything, it is the low level. -/
theorem Gate.coded_ofDeclared {declared : List Hdl.Wire} {gate : Hdl.Gate} {number : Nat}
    {built : Gate} (h : Gate.ofDeclared declared gate number = .ok built) : built.Coded := by
  obtain ⟨inputs, -, h⟩ := bind_eq_ok_iff.1 h
  obtain ⟨outputs, -, h⟩ := bind_eq_ok_iff.1 h
  cases h
  intro code hcode
  dsimp only [initialStored] at hcode
  split at hcode
  · exact ⟨.low, (Option.some.inj hcode).symm⟩
  · cases hcode

namespace Circuit

variable {program : Hdl.Program} {circuit : Circuit} (h : Circuit.ofProgram program = .ok circuit)
include h

/-- Every wire of a built circuit was built from a declared one at its place. -/
theorem exists_declared {i : Nat} {wire : Wire} (hwire : circuit.wires[i]? = some wire) :
    ∃ declared, Wire.ofDeclared declared i = .ok wire := by
  obtain ⟨wires, hwires, h⟩ := bind_eq_ok_iff.1 h
  obtain ⟨gates, -, h⟩ := bind_eq_ok_iff.1 h
  cases h
  have hbuilt := forall₂_getElem? (mapM_eq_ok_iff.1 hwires) i
  dsimp only at hwire
  rw [hwire, List.getElem?_zipIdx, Nat.zero_add] at hbuilt
  cases hdeclared : program.wires[i]? with
  | none =>
    rw [hdeclared] at hbuilt
    cases hbuilt
  | some declared =>
    rw [hdeclared] at hbuilt
    cases hbuilt with
    | some hbuilt => exact ⟨declared, hbuilt⟩

/-- The wires of a built circuit are numbered by their places. -/
theorem numbered_ofProgram : Numbered circuit.wires := by
  intro i wire hwire
  obtain ⟨declared, hbuilt⟩ := exists_declared h hwire
  exact Wire.stands_ofDeclared hbuilt

/-- A built circuit has the names that were declared, in order. -/
theorem names_ofProgram : circuit.wires.map (·.name) = program.wires.map (·.name) := by
  obtain ⟨wires, hwires, h⟩ := bind_eq_ok_iff.1 h
  obtain ⟨gates, -, h⟩ := bind_eq_ok_iff.1 h
  cases h
  have hnames : List.Forall₂ (· = ·) (wires.map (·.name)) (program.wires.map (·.name)) := by
    rw [List.forall₂_map_left_iff, List.forall₂_map_right_iff]
    exact ((forall₂_of_zipIdx (mapM_eq_ok_iff.1 hwires)).imp
      (fun declared wire ⟨_, hbuilt⟩ => (Wire.name_ofDeclared hbuilt))).flip
  rwa [List.forall₂_eq_eq_eq] at hnames

/-- A built program is ready to be simulated: all codes are those of levels. -/
theorem intact_ofProgram (cap : Int) : Simulator.Intact { circuit, cap } where
  wires wire hwire := by
    obtain ⟨i, hi⟩ := List.mem_iff_getElem?.1 hwire
    obtain ⟨declared, hbuilt⟩ := exists_declared h hi
    exact Wire.coded_ofDeclared hbuilt
  gates := by
    obtain ⟨wires, -, h⟩ := bind_eq_ok_iff.1 h
    obtain ⟨gates, hgates, h⟩ := bind_eq_ok_iff.1 h
    cases h
    exact forall_mem_of_forall₂ (mapM_eq_ok_iff.1 hgates).flip
      (fun gate entry hbuilt => Gate.coded_ofDeclared hbuilt)

end Circuit

/-! ## Setting inputs -/

/-- A number below the length is the place itself. -/
theorem place?_of_lt {length i : Nat} (h : i < length) : place? length i = some i := by
  rw [place?, if_pos (Int.natCast_nonneg i), if_pos (Int.ofNat_lt.2 h), Int.toNat_natCast]

namespace Numbered

variable {sim : Simulator} (h : Numbered sim.circuit.wires)
include h

/-- A name denotes the last wire that has it, unless no wire has it. -/
theorem wireFor_cases (name : String) :
    (sim.circuit.wires.reverse.find? (·.name = name) = none ∧
      sim.wireFor name = .error (.unknownWire name)) ∨
    ∃ place wire, sim.circuit.wires.reverse.find? (·.name = name) = some wire ∧
      sim.wireFor name = .ok (place, wire) := by
  unfold Simulator.wireFor
  cases hfind : sim.circuit.wires.reverse.find? (·.name = name) with
  | none => exact .inl ⟨rfl, rfl⟩
  | some named =>
    obtain ⟨i, hi⟩ := List.mem_iff_getElem?.1
      (List.mem_reverse.1 (List.mem_of_find?_eq_some hfind))
    obtain ⟨hlt, -⟩ := List.getElem?_eq_some_iff.1 hi
    dsimp only
    rw [(h i named hi).id_eq, place?_of_lt hlt]
    dsimp only
    rw [hi]
    exact .inr ⟨i, named, rfl, rfl⟩

/-- A bit of the last wire of a name is set unless no wire has the name, the wire does not have the
bit, or the value denotes no level. -/
theorem setInput_cases (name : String) (value : Json) (bit : Int) :
    (sim.circuit.wires.reverse.find? (·.name = name) = none ∧
      sim.setInput name value bit = .error (.unknownWire name)) ∨
    ∃ wire, sim.circuit.wires.reverse.find? (·.name = name) = some wire ∧
      ((bit < 0 ∨ wire.width ≤ bit) ∧
          sim.setInput name value bit = .error (.bitOutOfRange bit name wire.width) ∨
        ¬ (bit < 0 ∨ wire.width ≤ bit) ∧
          (Signal.ofJson? value = none ∧
              sim.setInput name value bit = .error (.invalidLevel value) ∨
            (Signal.ofJson? value).isSome = true ∧
              ∃ next, sim.setInput name value bit = .ok next)) := by
  unfold Simulator.setInput
  rcases h.wireFor_cases name with ⟨hnone, hfault⟩ | ⟨place, wire, hfind, hwire⟩
  · rw [hfault]
    exact .inl ⟨hnone, rfl⟩
  · have hstands := h place wire (Simulator.wireFor_eq_ok hwire)
    refine .inr ⟨wire, hfind, ?_⟩
    rw [hwire]
    dsimp only [bind, Except.bind]
    by_cases hrange : bit < 0 ∨ wire.width ≤ bit
    · rw [if_pos hrange]
      exact .inl ⟨hrange, rfl⟩
    · have hlength : bit.toNat < wire.state.length := by
        have := hstands.width_eq
        omega
      rw [if_neg hrange]
      refine .inr ⟨hrange, ?_⟩
      dsimp only [pure, Except.pure]
      cases Signal.ofJson? value with
      | none => exact .inl ⟨rfl, rfl⟩
      | some level =>
        dsimp only
        rw [if_pos hlength]
        exact .inr ⟨rfl, _, rfl⟩

end Numbered

/-- What the inputs were set to is refused with a wording, or all of them are set. -/
theorem setWires_cases : ∀ (inputs : List (String × Json)) {sim : Simulator}, sim.Intact →
    Numbered sim.circuit.wires →
    (∃ fault, setWires sim inputs = .error fault ∧ fault.message?.isSome = true) ∨
    ∃ set, setWires sim inputs = .ok set ∧ sim.Ran [] 0 set
  | [], sim, hintact, _ => .inr ⟨sim, rfl, .refl hintact⟩
  | (name, value) :: rest, sim, hintact, hnumbered => by
    rw [setWires]
    rcases hnumbered.setInput_cases name value 0 with
      ⟨-, hunknown⟩ | ⟨wire, -, ⟨-, houtside⟩ | ⟨-, ⟨-, hinvalid⟩ | ⟨-, next, hnext⟩⟩⟩
    · rw [hunknown]
      exact .inl ⟨_, rfl, rfl⟩
    · rw [houtside]
      exact .inl ⟨_, rfl, rfl⟩
    · rw [hinvalid]
      exact .inl ⟨_, rfl, rfl⟩
    · have hran := hintact.setInput hnext
      rw [hnext]
      rcases setWires_cases rest hran.intact (hnumbered.of_shape hran.shape_eq) with
        hfault | ⟨set, hset, hrest⟩
      · exact .inl hfault
      · exact .inr ⟨set, hset, hran.trans hrest⟩

/-- A built program is simulated to the end, unless one of its inputs is refused with a wording. -/
theorem simulate_cases {program : Hdl.Program} {circuit : Circuit}
    (h : Circuit.ofProgram program = .ok circuit) (cap : Int) (inputs : List (String × Json))
    (cycles : Int) :
    (∃ fault, setWires { circuit, cap } inputs = .error fault ∧ fault.message?.isSome = true ∧
      simulate cap circuit inputs cycles = .error fault) ∨
    ∃ set next report pulses, setWires { circuit, cap } inputs = .ok set ∧
      set.run cycles = (next, .ok report) ∧
      simulate cap circuit inputs cycles = .ok (next.circuit, report) ∧ next.Tells report ∧
      Simulator.Ran { circuit, cap } (set.starts (.run cycles)) pulses next := by
  have hintact := Circuit.intact_ofProgram h cap
  unfold simulate
  rcases setWires_cases inputs hintact (Circuit.numbered_ofProgram h) with
    ⟨fault, hfault, hworded⟩ | ⟨set, hset, hran⟩
  · rw [hfault]
    exact .inl ⟨fault, rfl, hworded, rfl⟩
  · obtain ⟨next, report, pulses, hrun, htells, hcycles, -⟩ := hran.intact.run cycles
    rw [hset]
    dsimp only [bind, Except.bind]
    rw [hrun]
    refine .inr ⟨set, next, report, pulses, rfl, hrun, rfl, htells, ?_⟩
    have hboth := hran.trans hcycles
    rwa [List.nil_append, Nat.zero_add] at hboth

/-- What the last propagation leaves behind is stable if all come to rest. -/
theorem Simulator.Ran.stable_of_rests {sim next : Simulator} {starts : List Simulator} {pulses : Nat}
    (h : sim.Ran starts pulses next) (hne : starts ≠ []) (hrests : ∀ s ∈ starts, s.Rests) :
    next.circuit.stable = true := by
  have hlast := List.getLast?_eq_some_getLast hne
  exact (h.stable_iff _ hlast).2 (hrests _ (List.mem_of_getLast? hlast))

/-! ## Outputs -/

/-- Of wires with distinct names that have a bit, each is reported with its bit zero. -/
theorem get?_wireOutputs {circuit : Circuit} (hnumbered : Numbered circuit.wires)
    (hnames : (circuit.wires.map (·.name)).Nodup) {wire : Wire} (hwire : wire ∈ circuit.wires) :
    ∃ code, wire.state.head? = some code ∧
      Assoc.get? (Ident.text wire.name) (wireOutputs circuit) = some code := by
  have hpairs : circuit.wires.filterMap
      (fun wire => wire.state.head?.map (fun code => (Ident.text wire.name, code))) =
      circuit.wires.map (fun wire => (Ident.text wire.name, wire.state.headD 0)) := by
    rw [← List.filterMap_eq_map]
    refine List.filterMap_congr (fun other hother => ?_)
    obtain ⟨i, hi⟩ := List.mem_iff_getElem?.1 hother
    obtain ⟨code, rest, hstate⟩ := List.exists_cons_of_ne_nil (hnumbered i other hi).state_ne_nil
    rw [Function.comp_apply, hstate]
    rfl
  obtain ⟨i, hi⟩ := List.mem_iff_getElem?.1 hwire
  obtain ⟨code, rest, hstate⟩ := List.exists_cons_of_ne_nil (hnumbered i wire hi).state_ne_nil
  refine ⟨code, by rw [hstate]; rfl, ?_⟩
  rw [wireOutputs, hpairs]
  refine Assoc.get?_ofPairs_map (fun other hother hsame => ?_) ⟨wire, hwire, BEq.rfl⟩
  have hname : other.name = wire.name := by
    simpa [Ident.beq_iff, Ident.key, Ident.text, Json.key] using hsame
  rw [List.inj_on_of_nodup_map hnames hother hwire hname, hstate]
  rfl

end Logic

end Switchyard
