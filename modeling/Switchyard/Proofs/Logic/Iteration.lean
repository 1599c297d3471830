import Mathlib.Logic.Function.Iterate
import Switchyard.Proofs.Logic.Abstraction

/-!
# Propagation as the iteration of one update

A round evaluates the gates one after the other and writes their results into the wires one after
the other. On coded wires that is one update of all bits at once (`updated`): a bit takes what its
driver makes of the old states, and a bit without a driver keeps its code
(`advance_eq_updated`). A propagation applies this update as often as the cap says, and stops early
only where that makes no difference; its count tells where the update came to rest first, if it did
(`Simulator.propagate_iterates`).
-/

namespace Switchyard.Logic

/-! ## The update -/

/-- The code that a bit takes: what its driver makes of the given states, or the one that it has if
it has no driver. -/
def nextCode (gates : List Gate) (wires : List Wire) (p : Port) (code : Int) : Int :=
  match (driver? gates p).map (evaluate wires) with
  | some (.ok level) => level.code
  | some (.error _) | none => code

/-- The wires with all bits updated at once, from the states that they have. -/
def updated (gates : List Gate) (wires : List Wire) : List Wire :=
  wires.mapIdx (fun i wire =>
    { wire with state := wire.state.mapIdx (fun j => nextCode gates wires ⟨i, j⟩) })

/-- The simultaneous update keeps the shape of the wires. -/
theorem shape_updated (gates : List Gate) (wires : List Wire) :
    shape (updated gates wires) = shape wires := by
  refine List.ext_getElem? (fun i => ?_)
  rw [shape, shape, updated, List.getElem?_map, List.getElem?_map, List.getElem?_mapIdx,
    Option.map_map]
  refine congrArg (fun f => Option.map f wires[i]?) (funext fun wire => ?_)
  simp [Wire.shape]

/-- Under the simultaneous update every bit takes its next code. -/
theorem codeAt?_updated (gates : List Gate) (wires : List Wire) (p : Port) :
    codeAt? (updated gates wires) p = (codeAt? wires p).map (nextCode gates wires p) := by
  unfold codeAt?
  split
  · next hp =>
    have hport : (⟨p.wire.toNat, p.bit.toNat⟩ : Port) = p := by
      rw [Int.toNat_of_nonneg hp.1, Int.toNat_of_nonneg hp.2]
    rw [updated, List.getElem?_mapIdx]
    cases wires[p.wire.toNat]? with
    | none => rfl
    | some wire =>
      rw [Option.map_some, Option.bind_some, Option.bind_some, List.getElem?_mapIdx, hport]
  · rfl

section
variable {gates : List Gate} (hgates : ∀ gate ∈ gates, gate.Coded) {wires : List Wire}
  (h : Coded wires)
include hgates h

/-- Evaluating the gates and writing their results in order is one update of all bits. -/
theorem advance_eq_updated : advance gates wires = updated gates wires := by
  refine eq_of_codeAt? ((shape_advance hgates h).trans (shape_updated gates wires).symm)
    (fun p => ?_)
  rw [codeAt?_updated]
  cases hp : driver? gates p with
  | none =>
    have hkept : nextCode gates wires p = id := by
      funext code
      rw [nextCode, hp]
      rfl
    rw [codeAt?_advance_of_none hgates h hp, hkept, Option.map_id, id]
  | some gate =>
    obtain ⟨level, hlevel, hcode⟩ := codeAt?_advance_of_driver hgates h hp
    have htaken : nextCode gates wires p = fun _ => level.code := by
      funext code
      rw [nextCode, hp, Option.map_some, hlevel]
    rw [hcode, htaken]

/-- Iterating the simultaneous update is iterating the rounds. -/
theorem iterate_updated (k : Nat) : (updated gates)^[k] wires = (advance gates)^[k] wires := by
  induction k with
  | zero => rfl
  | succ k ih =>
    obtain ⟨hcoded, -, -⟩ := iterate_advance hgates h k
    rw [Function.iterate_succ_apply', Function.iterate_succ_apply', ih,
      advance_eq_updated hgates hcoded]

end

/-- The state to which a number of updates leads is left alone by the next one. -/
def RestsAfter (gates : List Gate) (wires : List Wire) (k : Nat) : Prop :=
  updated gates ((updated gates)^[k] wires) = (updated gates)^[k] wires

instance (gates : List Gate) (wires : List Wire) (k : Nat) : Decidable (RestsAfter gates wires k) :=
  inferInstanceAs (Decidable (_ = _))

/-- Resting after some rounds means that one more round changes nothing. -/
theorem restsAfter_iff {gates : List Gate} (hgates : ∀ gate ∈ gates, gate.Coded)
    {wires : List Wire} (h : Coded wires) {k : Nat} : RestsAfter gates wires k ↔
      advance gates ((advance gates)^[k] wires) = (advance gates)^[k] wires := by
  rw [RestsAfter, ← Function.iterate_succ_apply' (updated gates), iterate_updated hgates h,
    iterate_updated hgates h, Function.iterate_succ_apply']

/-! ## Propagation -/

namespace Simulator

section
variable {sim : Simulator} (hwires : Coded sim.circuit.wires)
  (hgates : ∀ gate ∈ sim.circuit.gates, gate.Coded)
include hwires hgates

/-- A propagation stops at the first state at rest, or it runs into the cap. -/
theorem propagate_cases :
    (∃ k < sim.cap.toNat, RestsAfter sim.circuit.gates sim.circuit.wires k ∧
      (∀ j < k, ¬ RestsAfter sim.circuit.gates sim.circuit.wires j) ∧
      sim.propagate = ({ sim with circuit := { sim.circuit with
          wires := (updated sim.circuit.gates)^[k] sim.circuit.wires, stable := true } },
        .ok (k + 1))) ∨
    (∀ k < sim.cap.toNat, ¬ RestsAfter sim.circuit.gates sim.circuit.wires k) ∧
      sim.propagate = ({ sim with
          circuit := { sim.circuit with
            wires := (updated sim.circuit.gates)^[sim.cap.toNat] sim.circuit.wires
            stable := false }
          failed := true },
        .ok sim.cap) := by
  simp only [restsAfter_iff hgates hwires, iterate_updated hgates hwires]
  rcases settle_eq hgates sim.cap.toNat 0 sim.circuit.wires hwires with
    ⟨k, hk, hfixed, hbefore, hsettle⟩ | ⟨hmoved, hsettle⟩
  · refine .inl ⟨k, hk, hfixed, hbefore, ?_⟩
    rw [sim.propagate_of_settle hsettle, Nat.zero_add, Int.natCast_succ]
  · refine .inr ⟨hmoved, ?_⟩
    rw [propagate, hsettle]

/-- A propagation from a state at rest takes one round. -/
theorem propagate_of_rests (hrests : RestsAfter sim.circuit.gates sim.circuit.wires 0)
    (hcap : 0 < sim.cap.toNat) :
    sim.propagate = ({ sim with circuit := { sim.circuit with stable := true } }, .ok 1) := by
  rcases propagate_cases hwires hgates with ⟨k, -, -, hbefore, hpropagate⟩ | ⟨hmoved, -⟩
  · cases k with
    | zero => exact hpropagate
    | succ k => exact absurd hrests (hbefore 0 (Nat.succ_pos k))
  · exact absurd hrests (hmoved 0 hcap)

end

/-- A propagation updates all bits as often as the cap says. It is stable if and only if one of the
states before the last is at rest. Then the count is one more than the updates that lead to the
first of these, which is where the wires stay; every bit with a driver holds what its driver makes
of that state, and propagating again takes one round and changes nothing. Otherwise the count is the
cap. Bits without a driver never change, and of the rest of the simulator only whether it is stable
and whether it has failed. -/
theorem propagate_iterates (sim : Simulator) (hwires : Coded sim.circuit.wires)
    (hgates : ∀ gate ∈ sim.circuit.gates, gate.Coded) :
    ∃ (stable : Bool) (count : Int) (after : Simulator), sim.propagate = (after, .ok count) ∧
      after = { sim with
        circuit := { sim.circuit with
          wires := (updated sim.circuit.gates)^[sim.cap.toNat] sim.circuit.wires, stable }
        failed := sim.failed || !stable } ∧
      (stable = true ↔
        ∃ k < sim.cap.toNat, RestsAfter sim.circuit.gates sim.circuit.wires k) ∧
      (∀ k < sim.cap.toNat, RestsAfter sim.circuit.gates sim.circuit.wires k →
        (∀ j < k, ¬ RestsAfter sim.circuit.gates sim.circuit.wires j) →
        count = k + 1 ∧
          after.circuit.wires = (updated sim.circuit.gates)^[k] sim.circuit.wires) ∧
      (stable = false → count = sim.cap) ∧
      (stable = true → Solution sim.circuit.gates sim.circuit.wires after.circuit.wires ∧
        after.propagate = (after, .ok 1)) ∧
      ∀ p, driver? sim.circuit.gates p = none →
        codeAt? after.circuit.wires p = codeAt? sim.circuit.wires p := by
  have hkept : ∀ p, driver? sim.circuit.gates p = none →
      codeAt? ((updated sim.circuit.gates)^[sim.cap.toNat] sim.circuit.wires) p =
        codeAt? sim.circuit.wires p := by
    rw [iterate_updated hgates hwires]
    exact (iterate_advance hgates hwires _).2.2
  rcases propagate_cases hwires hgates with
    ⟨k, hk, hrests, hbefore, hpropagate⟩ | ⟨hmoved, hpropagate⟩
  · have hlast := iterate_of_fixed hrests hk.le
    refine ⟨true, k + 1, _, hpropagate, ?_, ?_, ?_, nofun, fun _ => ⟨?_, ?_⟩, ?_⟩
    · rw [hlast, Bool.not_true, Bool.or_false]
    · exact iff_of_true rfl ⟨k, hk, hrests⟩
    · intro first _ hfirst hfirstBefore
      rcases Nat.lt_trichotomy k first with hlt | rfl | hlt
      · exact absurd hrests (hfirstBefore k hlt)
      · exact ⟨rfl, rfl⟩
      · exact absurd hfirst (hbefore first hlt)
    · dsimp only
      rw [iterate_updated hgates hwires]
      exact solution_of_fixed hgates hwires ((restsAfter_iff hgates hwires).1 hrests)
    · refine propagate_of_rests ?_ hgates hrests (Nat.zero_lt_of_lt hk)
      dsimp only
      rw [iterate_updated hgates hwires]
      exact (iterate_advance hgates hwires k).1
    · rw [← hlast]
      exact hkept
  · refine ⟨false, _, _, hpropagate, ?_, ?_, ?_, fun _ => rfl, nofun, hkept⟩
    · rw [Bool.not_false, Bool.or_true]
    · exact iff_of_false Bool.false_ne_true (fun ⟨k, hk, hrests⟩ => hmoved k hk hrests)
    · exact fun k hk hrests => absurd hrests (hmoved k hk)

/-- Two gates that hold each other, with a first input each and both outputs high, behind a gate
whose output the first of them overrides; the latter also writes to a bit that there is not. -/
def paired (level : Int) : Simulator where
  circuit := {
    wires := [{ id := 0, name := "s", width := 1, state := [level] },
      { id := 1, name := "r", width := 1, state := [0] },
      { id := 2, name := "q", width := 1, state := [1] },
      { id := 3, name := "n", width := 1, state := [1] }]
    gates := [
      { id := 0, name := "over", kind := "BUF", inputs := [⟨0, 0⟩], outputs := [⟨2, 0⟩] },
      { id := 1, name := "set", kind := "NOR", inputs := [⟨1, 0⟩, ⟨3, 0⟩]
        outputs := [⟨2, 0⟩, ⟨2, 1⟩] },
      { id := 2, name := "reset", kind := "NOR", inputs := [⟨0, 0⟩, ⟨2, 0⟩]
        outputs := [⟨3, 0⟩] }] }
  cap := 4

/-- The pair swings for ever while its inputs are low, and comes to rest after two updates if the
second gate is held low. -/
theorem propagate_paired :
    (∃ after, (paired 0).propagate = (after, .ok 4) ∧ after.circuit.stable = false ∧
      after.circuit.wires = (paired 0).circuit.wires) ∧
    ∃ after, (paired 1).propagate = (after, .ok 3) ∧ after.circuit.stable = true ∧
      after.propagate = (after, .ok 1) ∧ codeAt? after.circuit.wires ⟨2, 0⟩ = some 1 := by
  obtain ⟨stable, count, after, hpropagate, hafter, hstable, -, hcap, -, -⟩ :=
    propagate_iterates (paired 0) (by decide) (by decide)
  obtain ⟨stable', count', after', hpropagate', hafter', hstable', hfirst, -, hrests, -⟩ :=
    propagate_iterates (paired 1) (by decide) (by decide)
  refine ⟨?_, ?_⟩
  · have hswings : stable = false := by
      rw [← Bool.not_eq_true, hstable]
      decide +kernel
    have hreturns : (updated (paired 0).circuit.gates)^[(paired 0).cap.toNat]
        (paired 0).circuit.wires = (paired 0).circuit.wires := by
      decide +kernel
    exact ⟨after, by rw [hpropagate, hcap hswings]; rfl, by rw [hafter, hswings],
      by rw [hafter]; exact hreturns⟩
  · have hcomes : stable' = true := hstable'.2 (by decide +kernel)
    obtain ⟨hcount, hwires⟩ := hfirst 2 (by decide) (by decide +kernel) (by decide +kernel)
    refine ⟨after', by rw [hpropagate', hcount]; rfl, by rw [hafter', hcomes], (hrests hcomes).2, ?_⟩
    rw [hwires]
    decide +kernel

end Simulator

end Switchyard.Logic
