import Mathlib.Logic.Function.Iterate
import Switchyard.Proofs.Logic.Bits
import Switchyard.Proofs.Outcomes

/-!
# One round as an update of all bits

On coded wires a round always succeeds (`round_ok`), so that it is a function on wire states
(`advance`). Bit by bit: a bit takes what its driver, the last gate that puts it out, makes of the
old states (`codeAt?_advance_of_driver`), and a bit without one keeps its code
(`codeAt?_advance_of_none`). Settling is iterating this function up to the first state that it
leaves alone, if the fuel reaches that far (`settle_eq`).
-/

namespace Switchyard.Logic

/-! ## Evaluating gates -/

section
variable {wires : List Wire} {gate : Gate}

/-- A gate without inputs puts out the unknown level, and any other what its kind makes of the
levels it reads. -/
theorem evaluate_of_reads {levels : List Signal}
    (h : gate.inputs.mapM (read wires) = .ok levels) :
    evaluate wires gate =
      if levels.isEmpty then .ok .unknown
      else match GateKind.ofLabel? gate.kind with
        | some .dff => storedLevel gate
        | some .latch => latchLevel wires gate levels
        | some kind => .ok (combine kind levels)
        | none => .ok .unknown := by
  rw [evaluate, h]
  cases levels with
  | nil => rfl
  | cons level levels =>
    change (match GateKind.ofLabel? gate.kind with
      | some .dff => storedLevel gate
      | some .latch => latchLevel wires gate (level :: levels)
      | some kind => pure (combine kind (level :: levels))
      | none => pure .unknown) = _
    rfl

/-- A gate that stores a code, or nothing, has a stored level. -/
theorem Gate.Coded.storedLevel_ok (h : gate.Coded) : ∃ level, storedLevel gate = .ok level := by
  unfold storedLevel
  split
  · next code hcode =>
    obtain ⟨level, rfl⟩ := h code hcode
    exact ⟨level, levelOf_code level⟩
  · exact ⟨.unknown, rfl⟩

/-- A latch always has a level to put out, its own output being coded or missing. -/
theorem Coded.latchLevel_ok (h : Coded wires) (gate : Gate) (levels : List Signal) :
    ∃ level, latchLevel wires gate levels = .ok level := by
  unfold latchLevel
  split
  · exact ⟨_, rfl⟩
  · split
    · exact h.read_ok _
    · exact ⟨_, rfl⟩
  · exact ⟨_, rfl⟩

/-- Every gate can be evaluated where all codes are those of levels. -/
theorem evaluate_ok (h : Coded wires) (hgate : gate.Coded) :
    ∃ level, evaluate wires gate = .ok level := by
  obtain ⟨levels, hlevels⟩ := exists_mapM_eq_ok (fun p (_ : p ∈ gate.inputs) => h.read_ok p)
  rw [evaluate_of_reads hlevels]
  split
  · exact ⟨_, rfl⟩
  · split
    · exact hgate.storedLevel_ok
    · exact h.latchLevel_ok gate levels
    · exact ⟨_, rfl⟩
    · exact ⟨_, rfl⟩

end

/-- A gate that is no latch reads its inputs only. -/
theorem evaluate_congr {a b : List Wire} {gate : Gate}
    (hlatch : GateKind.ofLabel? gate.kind ≠ some .latch)
    (h : ∀ p ∈ gate.inputs, codeAt? a p = codeAt? b p) : evaluate a gate = evaluate b gate := by
  have hreads : gate.inputs.mapM (read a) = gate.inputs.mapM (read b) :=
    mapM_congr (fun p hp => read_congr (h p hp))
  cases ha : gate.inputs.mapM (read a) with
  | error fault =>
    rw [evaluate, evaluate, ← hreads, ha]
    rfl
  | ok levels =>
    rw [evaluate_of_reads ha, evaluate_of_reads (hreads.symm.trans ha)]
    split
    · rfl
    · split
      · rfl
      · next hkind => exact absurd hkind hlatch
      · rfl
      · rfl

/-- A flip-flop with an input puts out what it stores. -/
theorem evaluate_eq_storedLevel {wires : List Wire} (h : Coded wires) {gate : Gate}
    (hkind : GateKind.ofLabel? gate.kind = some .dff) :
    evaluate wires gate = if gate.inputs.isEmpty then .ok .unknown else storedLevel gate := by
  obtain ⟨levels, hlevels⟩ := exists_mapM_eq_ok (fun p (_ : p ∈ gate.inputs) => h.read_ok p)
  have hempty : levels.isEmpty = gate.inputs.isEmpty := by
    rw [Bool.eq_iff_iff, List.isEmpty_iff_length_eq_zero, List.isEmpty_iff_length_eq_zero,
      (mapM_eq_ok_iff.1 hlevels).length_eq]
  rw [evaluate_of_reads hlevels, hkind, hempty]

/-- A flip-flop puts out the same whatever it reads. -/
theorem evaluate_flipFlop {a b : List Wire} (ha : Coded a) (hb : Coded b) {gate : Gate}
    (hkind : GateKind.ofLabel? gate.kind = some .dff) : evaluate a gate = evaluate b gate := by
  rw [evaluate_eq_storedLevel ha hkind, evaluate_eq_storedLevel hb hkind]

/-! ## Drivers -/

/-- The driver of a bit: the last gate that puts it out. -/
def driver? (gates : List Gate) (p : Port) : Option Gate :=
  gates.reverse.find? (p ∈ ·.outputs)

/-- The last gate of a list to put out a bit drives it. -/
theorem driver?_cons (gate : Gate) (gates : List Gate) (p : Port) :
    driver? (gate :: gates) p =
      (driver? gates p).or (if p ∈ gate.outputs then some gate else none) := by
  rw [driver?, List.reverse_cons, List.find?_append, List.find?_singleton]
  simp [driver?]

theorem mem_of_driver? {gates : List Gate} {p : Port} {gate : Gate}
    (h : driver? gates p = some gate) : gate ∈ gates :=
  List.mem_reverse.1 (List.mem_of_find?_eq_some h)

theorem mem_outputs_of_driver? {gates : List Gate} {p : Port} {gate : Gate}
    (h : driver? gates p = some gate) : p ∈ gate.outputs := by
  simpa using List.find?_some (show gates.reverse.find? (p ∈ ·.outputs) = some gate from h)

/-- Writing the results of the gates in their order leaves each bit with that of its driver. -/
theorem codeAt?_foldl_drive {f : Gate → Except Fault Signal} (p : Port) :
    ∀ {gates : List Gate} {levels : List Signal} (wires : List Wire),
      List.Forall₂ (fun gate level => f gate = .ok level) gates levels →
      (driver? gates p = none →
        codeAt? ((gates.zip levels).foldl (fun wires (gate, level) => drive wires gate level) wires)
          p = codeAt? wires p) ∧
      ∀ gate, driver? gates p = some gate → ∃ level, f gate = .ok level ∧
        codeAt? ((gates.zip levels).foldl (fun wires (gate, level) => drive wires gate level) wires)
          p = (codeAt? wires p).map (fun _ => level.code)
  | [], _, wires, .nil => ⟨fun _ => rfl, nofun⟩
  | first :: gates, level :: levels, wires, .cons hfirst hrest => by
    obtain ⟨hnone, hsome⟩ := codeAt?_foldl_drive p (drive wires first level) hrest
    rw [List.zip_cons_cons, List.foldl_cons, driver?_cons]
    rw [codeAt?_drive] at hnone hsome
    cases hdriver : driver? gates p with
    | some driver =>
      refine ⟨nofun, ?_⟩
      rintro _ ⟨⟩
      obtain ⟨result, hresult, hcode⟩ := hsome driver hdriver
      refine ⟨result, hresult, hcode.trans ?_⟩
      split
      · rw [Option.map_map]
        rfl
      · rfl
    | none =>
      rw [Option.none_or]
      split
      · next hout =>
        refine ⟨nofun, ?_⟩
        rintro _ ⟨⟩
        exact ⟨level, hfirst, (hnone hdriver).trans (if_pos hout)⟩
      · next hout => exact ⟨fun _ => (hnone hdriver).trans (if_neg hout), nofun⟩

/-- Driving gates one after the other keeps the shape of the wires. -/
theorem shape_foldl_drive : ∀ (results : List (Gate × Signal)) (wires : List Wire),
    shape (results.foldl (fun wires (gate, level) => drive wires gate level) wires) = shape wires
  | [], _ => rfl
  | (gate, level) :: results, wires =>
    (shape_foldl_drive results _).trans (shape_drive wires gate level)

/-! ## Rounds -/

/-- The wires after a round, as they were if it fails. -/
def advance (gates : List Gate) (wires : List Wire) : List Wire :=
  match round gates wires with
  | .ok next => next
  | .error _ => wires

section
variable {gates : List Gate} (hgates : ∀ gate ∈ gates, gate.Coded) {wires : List Wire}
  (h : Coded wires)
include hgates h

/-- A round on coded wires evaluates all gates and writes their results. -/
theorem round_eq : ∃ levels : List Signal,
    List.Forall₂ (fun gate level => evaluate wires gate = .ok level) gates levels ∧
    round gates wires = .ok (advance gates wires) ∧
    advance gates wires =
      (gates.zip levels).foldl (fun wires (gate, level) => drive wires gate level) wires := by
  obtain ⟨levels, hlevels⟩ := exists_mapM_eq_ok
    (fun gate hgate => evaluate_ok h (hgates gate hgate))
  have hround : round gates wires = .ok
      ((gates.zip levels).foldl (fun wires (gate, level) => drive wires gate level) wires) := by
    rw [round, hlevels]
    rfl
  have hadvance : advance gates wires =
      (gates.zip levels).foldl (fun wires (gate, level) => drive wires gate level) wires := by
    rw [advance, hround]
  exact ⟨levels, mapM_eq_ok_iff.1 hlevels, hround.trans (congrArg _ hadvance.symm), hadvance⟩

/-- A round gives a result. -/
theorem round_ok : round gates wires = .ok (advance gates wires) := by
  obtain ⟨-, -, hround, -⟩ := round_eq hgates h
  exact hround

/-- A round keeps the shape of the wires. -/
theorem shape_advance : shape (advance gates wires) = shape wires := by
  obtain ⟨levels, -, -, hadvance⟩ := round_eq hgates h
  rw [hadvance]
  exact shape_foldl_drive _ wires

/-- A round keeps the code of an undriven bit. -/
theorem codeAt?_advance_of_none {p : Port} (hp : driver? gates p = none) :
    codeAt? (advance gates wires) p = codeAt? wires p := by
  obtain ⟨levels, hlevels, -, hadvance⟩ := round_eq hgates h
  rw [hadvance]
  exact (codeAt?_foldl_drive p wires hlevels).1 hp

/-- A round gives a driven bit the level to which its driver evaluates on the wires before it. -/
theorem codeAt?_advance_of_driver {p : Port} {gate : Gate} (hp : driver? gates p = some gate) :
    ∃ level, evaluate wires gate = .ok level ∧
      codeAt? (advance gates wires) p = (codeAt? wires p).map (fun _ => level.code) := by
  obtain ⟨levels, hlevels, -, hadvance⟩ := round_eq hgates h
  rw [hadvance]
  exact (codeAt?_foldl_drive p wires hlevels).2 gate hp

/-- A round keeps the wires coded. -/
theorem coded_advance : Coded (advance gates wires) := by
  refine coded_of_codeAt? (fun p code hcode => ?_)
  cases hp : driver? gates p with
  | none =>
    rw [codeAt?_advance_of_none hgates h hp] at hcode
    exact h.isCode hcode
  | some gate =>
    obtain ⟨level, -, hlevel⟩ := codeAt?_advance_of_driver hgates h hp
    rw [hlevel] at hcode
    obtain ⟨_, -, rfl⟩ := Option.map_eq_some_iff.1 hcode
    exact ⟨level, rfl⟩

omit h in
/-- Rounds stop at the first state that a round leaves alone, if the fuel reaches that far. -/
theorem settle_eq : ∀ (fuel done : Nat) (wires : List Wire), Coded wires →
    (∃ k < fuel, advance gates ((advance gates)^[k] wires) = (advance gates)^[k] wires ∧
      (∀ j < k, advance gates ((advance gates)^[j] wires) ≠ (advance gates)^[j] wires) ∧
      settle gates fuel done wires =
        ((advance gates)^[k] wires, .ok (some (done + k + 1)))) ∨
    (∀ k < fuel, advance gates ((advance gates)^[k] wires) ≠ (advance gates)^[k] wires) ∧
      settle gates fuel done wires = ((advance gates)^[fuel] wires, .ok none)
  | 0, done, wires, _ => .inr ⟨nofun, rfl⟩
  | fuel + 1, done, wires, h => by
    rw [settle, round_ok hgates h]
    dsimp only
    split
    · next hfixed => exact .inl ⟨0, Nat.succ_pos _, hfixed, nofun, rfl⟩
    · next hmoved =>
      have hmovedBefore : ∀ n, (∀ j < n, advance gates ((advance gates)^[j] (advance gates wires)) ≠
          (advance gates)^[j] (advance gates wires)) → ∀ j < n + 1,
          advance gates ((advance gates)^[j] wires) ≠ (advance gates)^[j] wires := by
        intro n hn j hj
        cases j with
        | zero => exact hmoved
        | succ j => exact hn j (Nat.lt_of_succ_lt_succ hj)
      rcases settle_eq fuel (done + 1) (advance gates wires) (coded_advance hgates h) with
        ⟨k, hk, hfixed, hbefore, hsettle⟩ | ⟨hbefore, hsettle⟩
      · refine .inl ⟨k + 1, Nat.succ_lt_succ hk, hfixed, hmovedBefore k hbefore, ?_⟩
        rw [hsettle, Function.iterate_succ_apply, Nat.add_right_comm done 1 k, Nat.add_assoc done k]
      · exact .inr ⟨hmovedBefore fuel hbefore, hsettle⟩

end

end Switchyard.Logic
