import Switchyard.Proofs.Grading.Rowwise

/-!
# One bench for all gates

A checker tries a circuit for one gate after the other on a bench that is left as each of them left
it. Each verdict is that on a new bench (`exists_check`), so all gates are checked to the end
(`exists_checkAll`). A circuit that unlocks two gates gives the values of both for all bits, but
gates with as many inputs differ for some bits (`Gate.eq_of_holds`): no circuit unlocks more than
one (`checkAll_unlocks_one`).
-/

namespace Switchyard.Grading

open Relay

variable {arrays : Arrays} {circuit : Circuit} {cap : Int}

/-! ## Checking on one bench -/

section
variable (h : circuit.Searchable) (hpresent : ∀ port ∈ circuit.inputs, port.component ≠ .null)
include h hpresent

/-- A circuit is checked for a gate on any bench as on a new one. -/
theorem exists_check (bench : Bench) (gate : Gate) :
    ∃ next verdict, check arrays bench circuit gate = (next, .ok verdict) ∧
      next.sim.cap = bench.sim.cap ∧ unlock arrays bench.sim.cap circuit gate = .ok verdict := by
  unfold check
  cases hcomplaint : portComplaint? circuit (Table.standard arrays gate) with
  | some text =>
    refine ⟨bench, _, rfl, rfl, ?_⟩
    unfold unlock Trial.ofGate
    rw [hcomplaint]
    rfl
  | none =>
    have hreload : (bench.sim.reload circuit).2 = .ok () := by rw [h.reload_eq]
    have hloaded : (bench.replace circuit).load = (Bench.fresh circuit bench.sim.cap, .ok ()) :=
      Bench.load_eq_fresh rfl rfl hreload
    have hfresh : (Bench.fresh circuit bench.sim.cap).Holds circuit bench.sim.cap := holds_fresh h
    obtain ⟨next, outcomes, htried, hnext, -⟩ := exists_tryRows (portComponents circuit.outputs)
      h (settable_of_present hpresent) (Table.standard arrays gate).rows 0
      ⟨hfresh.cap_eq, hfresh.reset_eq⟩ (isLevel_of_mem_standard gate)
    refine ⟨next, Verdict.ofTable (Table.standard arrays gate) outcomes, ?_, hnext.cap_eq, ?_⟩
    · dsimp only
      unfold testOn tryChecked
      rw [hloaded]
      dsimp only
      rw [checkRows_of_portComplaint? hcomplaint]
      dsimp only
      rw [htried]
      rfl
    · have hgraded : gradeRows (portComponents circuit.inputs) (portComponents circuit.outputs) 0
          (Bench.fresh circuit bench.sim.cap) (Table.standard arrays gate).rows =
        .ok (next, outcomes) := by
        rw [gradeRows_eq_tryRows, htried]
        rfl
      exact unlock_of_gradeRows h hcomplaint hgraded

/-- So it is for gates one after the other. -/
theorem exists_checkAll : ∀ (gates : List Gate) (bench : Bench),
    ∃ next unlocked, checkAll arrays bench circuit gates = (next, .ok unlocked) ∧
      unlockedOf arrays bench.sim.cap circuit gates = .ok unlocked
  | [], bench => ⟨bench, [], rfl, rfl⟩
  | gate :: gates, bench => by
    obtain ⟨middle, verdict, hfirst, hcap, hverdict⟩ := exists_check h hpresent bench gate
    obtain ⟨next, unlocked, hrest, hothers⟩ := exists_checkAll gates middle
    rw [hcap] at hothers
    refine ⟨next, if verdict.passed then gate :: unlocked else unlocked, ?_, ?_⟩
    · rw [checkAll, hfirst]
      dsimp only
      rw [hrest]
      rfl
    · rw [unlockedOf, hverdict]
      dsimp only [bind, Except.bind]
      rw [hothers]
      rfl

end

/-! ## At most one gate -/

/-- Gates with as many inputs that are high for the same bits are the same. -/
theorem Gate.eq_of_holds {a b : Gate}
    (hinputs : (Table.standard arrays a).inputs.length = (Table.standard arrays b).inputs.length)
    (hholds : ∀ bits : List Bool, bits.length = (Table.standard arrays a).inputs.length →
      (a.Holds bits ↔ b.Holds bits)) : a = b := by
  have hall : ∀ bits ∈ assignments (if a = .not then 1 else 2), (a.Holds bits ↔ b.Holds bits) := by
    intro bits hbits
    exact hholds bits ((mem_assignments.1 hbits).trans (Table.inputs_standard arrays a).symm)
  rw [Table.inputs_standard, Table.inputs_standard] at hinputs
  revert hinputs hall
  clear hholds
  cases a <;> cases b <;> decide

/-- Levels that stand for propositions are the same only if these are equivalent. -/
theorem iff_of_levels {p q : Prop} [Decidable p] [Decidable q]
    (h : (if p then Signal.high else .low) = if q then .high else .low) : p ↔ q := by
  by_cases hp : p <;> by_cases hq : q <;> simp_all

/-- A circuit unlocks no other gate beside one. -/
theorem eq_of_unlock {a b : Gate}
    (ha : ∃ verdict, unlock arrays cap circuit a = .ok verdict ∧ verdict.passed = true)
    (hb : ∃ verdict, unlock arrays cap circuit b = .ok verdict ∧ verdict.passed = true) : a = b := by
  obtain ⟨hinputsA, houtputs, -, hanswersA⟩ := unlock_passed_iff.1 ha
  obtain ⟨hinputsB, -, -, hanswersB⟩ := unlock_passed_iff.1 hb
  refine Gate.eq_of_holds (hinputsA.symm.trans hinputsB) (fun bits hbits => ?_)
  rw [← hinputsA] at hbits
  obtain ⟨setA, resultA, hsetA, -, -, hreadA⟩ := hanswersA bits hbits
  obtain ⟨setB, resultB, hsetB, -, -, hreadB⟩ := hanswersB bits hbits
  cases hsetA.symm.trans hsetB
  have hone : 0 < circuit.outputs.length := by
    rw [houtputs, Table.outputs_standard]
    exact Nat.one_pos
  obtain ⟨port, hport⟩ := List.exists_mem_of_length_pos hone
  exact iff_of_levels (Except.ok.inj ((hreadA port hport).symm.trans (hreadB port hport)))

/-- What a circuit unlocks of some gates, in their order. -/
theorem unlockedOf_eq_ok : ∀ {gates unlocked : List Gate},
    unlockedOf arrays cap circuit gates = .ok unlocked →
      unlocked.Sublist gates ∧
      ∀ gate ∈ unlocked,
        ∃ verdict, unlock arrays cap circuit gate = .ok verdict ∧ verdict.passed = true
  | [], unlocked, h => by
    cases h
    exact ⟨.slnil, List.forall_mem_nil _⟩
  | gate :: gates, unlocked, h => by
    obtain ⟨verdict, hverdict, h⟩ := bind_eq_ok_iff.1 h
    obtain ⟨rest, hrest, h⟩ := bind_eq_ok_iff.1 h
    obtain ⟨hsublist, hpassed⟩ := unlockedOf_eq_ok hrest
    cases hpasses : verdict.passed with
    | true =>
      rw [hpasses] at h
      cases h
      exact ⟨hsublist.cons_cons gate,
        List.forall_mem_cons.2 ⟨⟨verdict, hverdict, hpasses⟩, hpassed⟩⟩
    | false =>
      rw [hpasses] at h
      cases h
      exact ⟨hsublist.cons gate, hpassed⟩

/-- A circuit unlocks at most one gate. -/
theorem length_unlocked_le_one {unlocked : List Gate}
    (h : Grading.unlocked arrays cap circuit = .ok unlocked) : unlocked.length ≤ 1 := by
  obtain ⟨hsublist, hpassed⟩ := unlockedOf_eq_ok h
  have hnodup : unlocked.Nodup := hsublist.nodup (by decide)
  match unlocked, hnodup, hpassed with
  | [], _, _ => exact Nat.zero_le _
  | [_], _, _ => exact Nat.le_refl _
  | a :: b :: rest, hnodup, hpassed =>
    have hsame : a = b := eq_of_unlock (hpassed a List.mem_cons_self)
      (hpassed b (List.mem_cons_of_mem _ List.mem_cons_self))
    exact absurd (hsame ▸ List.mem_cons_self) (List.nodup_cons.1 hnodup).1

/-- Checking a circuit for all gates on one bench, whatever was graded there before and whatever the
circuit is, comes to an end with the gates that it unlocks on a new bench, and these are at most
one. -/
theorem checkAll_unlocks_one (h : circuit.Searchable)
    (hpresent : ∀ port ∈ circuit.inputs, port.component ≠ .null) (bench : Bench) :
    ∃ next unlocked, checkAll arrays bench circuit Gate.all = (next, .ok unlocked) ∧
      Grading.unlocked arrays bench.sim.cap circuit = .ok unlocked ∧ unlocked.length ≤ 1 := by
  obtain ⟨next, unlocked, hchecked, hunlocked⟩ := exists_checkAll h hpresent Gate.all bench
  exact ⟨next, unlocked, hchecked, hunlocked, length_unlocked_le_one hunlocked⟩

/-- The inverter with a component of no known kind and a wire that hangs loose, and with the name of
its input for that of its output. -/
def cluttered : Circuit :=
  { inverter with
    placed := inverter.placed.put
      ⟨.text "?", .other (.str "fuse"), .zero false, .zero false, .int 0, .null⟩
    wires := inverter.wires ++ [⟨.text "w4", ⟨.text "gone", outPort⟩, ⟨.text "?", .text "pin"⟩⟩]
    outputs := [⟨.text "in_0", .text "A", .str "output", .text "y"⟩] }

/-- The cluttered inverter unlocks the inverter alone, also on a bench where a latch was loaded and
another circuit checked before. -/
theorem checkAll_cluttered :
    let arrays := .ofNesting 64
    let used := (check arrays (Bench.ofCircuit Bench.latch 10).load.1.step.1 inverter .not).1
    cluttered.Searchable ∧ (∀ port ∈ cluttered.inputs, port.component ≠ .null) ∧
      ∃ next, checkAll arrays used cluttered Gate.all = (next, .ok [.not]) := by
  intro arrays used
  have hsearchable : cluttered.Searchable :=
    ⟨by decide +kernel, by decide +kernel, by decide +kernel, by decide +kernel⟩
  have hpresent : ∀ port ∈ cluttered.inputs, port.component ≠ .null := by decide +kernel
  obtain ⟨next, unlocked, hchecked, hunlocked, -⟩ :=
    @checkAll_unlocks_one arrays _ hsearchable hpresent used
  have hinverts : Grading.unlocked arrays used.sim.cap cluttered = .ok [.not] := by decide +kernel
  cases hunlocked.symm.trans hinverts
  exact ⟨hsearchable, hpresent, next, hchecked⟩

end Switchyard.Grading
