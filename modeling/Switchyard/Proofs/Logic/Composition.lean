import Switchyard.Proofs.Logic.Reports

/-!
# Runs one after the other

A run begins with a propagation of its own, which a run that goes on from an earlier one does not
need: a propagation that came to rest has nothing to do when it is started again
(`Simulator.settled_of_propagate`), and every cycle that is done without a failure ends with one. So
what is done in two runs is done in one (`Simulator.cycles_add`, `Simulator.run_compose`), and where
the second fails, the one run fails in the same cycle.
-/

namespace Switchyard.Logic

/-- The wires at which rounds stop are left alone by a further round. -/
theorem round_of_settle {gates : List Gate} {fuel done rounds : Nat} {wires after : List Wire}
    (h : settle gates fuel done wires = (after, .ok (some rounds))) :
    0 < fuel ∧ round gates after = .ok after := by
  induction fuel generalizing done wires with
  | zero => cases h
  | succ fuel ih =>
    refine ⟨Nat.succ_pos fuel, ?_⟩
    rw [settle] at h
    split at h
    · cases h
    · next next hround =>
      split at h
      · next hsame =>
        cases h
        rwa [hsame] at hround
      · exact (ih h).2

namespace Simulator

variable {sim after : Simulator}

/-! ## Propagating again -/

/-- Propagating takes one round and changes nothing. -/
def Settled (sim : Simulator) : Prop :=
  sim.propagate = (sim, .ok 1)

/-- A propagation that came to rest has nothing to do when it is started again. -/
theorem settled_of_propagate {rounds : Int} (h : sim.propagate = (after, .ok rounds))
    (hok : after.failed = false) : after.Settled := by
  unfold propagate at h
  split at h
  · cases h
  · next wires count hsettle =>
    cases h
    obtain ⟨hfuel, hround⟩ := round_of_settle hsettle
    obtain ⟨fuel, hcap⟩ := Nat.exists_eq_succ_of_ne_zero hfuel.ne'
    rw [Settled, propagate]
    dsimp only
    rw [hcap, settle, hround]
    simp
  · cases h
    cases hok

/-- A propagation keeps the cycle. -/
theorem cycle_of_propagate {rounds : Int} (h : sim.propagate = (after, .ok rounds)) :
    after.circuit.cycle = sim.circuit.cycle := by
  unfold propagate at h
  split at h <;> cases h <;> rfl

/-- A clock pulse advances the cycle by one. -/
theorem cycle_of_clock (h : sim.clock = (after, .ok ())) :
    after.circuit.cycle = sim.circuit.cycle + 1 := by
  unfold clock at h
  split at h <;> cases h
  rfl

/-- A settled simulator settles in one round and does not change. -/
theorem settleStep_of_settled (h : sim.Settled) :
    sim.settleStep = (sim, .ok (sim.report 1 sim.cappedOnce)) := by
  rw [settleStep, h]

/-! ## Cycles -/

/-- A cycle without a failure leaves a settled simulator and counts as one. -/
theorem settled_of_step {report : StepReport} (h : sim.step = (after, .ok report))
    (hok : after.failed = false) :
    after.Settled ∧ after.circuit.cycle = sim.circuit.cycle + 1 := by
  unfold step at h
  split at h
  · cases h
  · next before rounds hbefore =>
    split at h
    · cases h
    · next clocked _ hclock =>
      split at h
      · cases h
      · next next more hnext =>
        cases h
        refine ⟨settled_of_propagate hnext hok, ?_⟩
        rw [cycle_of_propagate hnext, cycle_of_clock hclock, cycle_of_propagate hbefore]

/-- A failed simulator does no cycle and repeats the report it was given. -/
theorem cycles_of_failed {last : StepReport} (h : sim.failed = true) (count : Nat) :
    cycles count sim last = (sim, .ok last) := by
  cases count with
  | zero => rfl
  | succ count => rw [cycles, if_pos h]

/-- No cycles make up for a failure before them. -/
theorem running_of_cycles {count : Nat} {last told : StepReport}
    (h : cycles count sim last = (after, .ok told)) (hok : after.failed = false) :
    sim.failed = false := by
  rw [← Bool.not_eq_true]
  intro hfailed
  rw [cycles_of_failed hfailed] at h
  cases h
  rw [hfailed] at hok
  cases hok

/-- Cycles after which a settled simulator has not failed are all done and leave it settled, and
further cycles go on from there. -/
theorem cycles_add {m : Nat} {last told : StepReport} (hsettled : sim.Settled)
    (h : cycles m sim last = (after, .ok told)) (hok : after.failed = false) :
    after.Settled ∧ after.circuit.cycle = sim.circuit.cycle + m ∧
      ∀ n, cycles (m + n) sim last = cycles n after told := by
  induction m generalizing sim last with
  | zero =>
    cases h
    refine ⟨hsettled, (Int.add_zero _).symm, fun n => ?_⟩
    rw [Nat.zero_add]
  | succ m ih =>
    have hrunning := running_of_cycles h hok
    rw [cycles, hrunning, if_neg Bool.false_ne_true] at h
    split at h
    · cases h
    · next stepped next hstep =>
      obtain ⟨hrests, hcycle⟩ := settled_of_step hstep (running_of_cycles h hok)
      obtain ⟨hafter, hcycles, hadd⟩ := ih hrests h
      refine ⟨hafter, ?_, fun n => ?_⟩
      · omega
      · rw [Nat.succ_add, cycles, hrunning, if_neg Bool.false_ne_true, hstep]
        exact hadd n

/-- The report from before the cycles is told only if none of them is done. -/
theorem cycles_last (count : Nat) (sim : Simulator) (last last' : StepReport) :
    (cycles count sim last).1 = (cycles count sim last').1 ∧
      (0 < count → sim.failed = false → cycles count sim last = cycles count sim last') := by
  cases count with
  | zero => exact ⟨rfl, fun hpos => absurd hpos (Nat.lt_irrefl 0)⟩
  | succ count =>
    cases hfailed : sim.failed with
    | true =>
      rw [cycles_of_failed hfailed, cycles_of_failed hfailed]
      exact ⟨rfl, nofun⟩
    | false =>
      rw [cycles, cycles, hfailed]
      exact ⟨rfl, fun _ _ => rfl⟩

/-! ## Runs -/

/-- A simulator that settles without failing is settled, and its cycle is the same. -/
theorem settled_of_settleStep {report : StepReport} (h : sim.settleStep = (after, .ok report))
    (hok : after.failed = false) : after.Settled ∧ after.circuit.cycle = sim.circuit.cycle := by
  unfold settleStep at h
  split at h
  · cases h
  · next next rounds hnext =>
    cases h
    exact ⟨settled_of_propagate hnext hok, cycle_of_propagate hnext⟩

/-- A run of a settled simulator is its cycles. -/
theorem run_of_settled (h : sim.Settled) (count : Nat) :
    sim.run count = cycles count sim (sim.report 1 sim.cappedOnce) := by
  rw [run, settleStep_of_settled h]
  rfl

/-- A run without a failure does all its cycles and leaves a settled simulator, and a longer run
goes on from there. -/
theorem run_add {m : Nat} {first : StepReport} (h : sim.run m = (after, .ok first))
    (hok : after.failed = false) :
    after.Settled ∧ after.circuit.cycle = sim.circuit.cycle + m ∧
      ∀ n : Nat, sim.run (m + n) = cycles n after first := by
  unfold run at h
  split at h
  · cases h
  · next settled start hsettle =>
    rw [Int.toNat_natCast] at h
    obtain ⟨hrests, hcycle⟩ := settled_of_settleStep hsettle (running_of_cycles h hok)
    obtain ⟨hafter, hcycles, hadd⟩ := cycles_add hrests h hok
    refine ⟨hafter, by rw [hcycles, hcycle], fun n => ?_⟩
    rw [run, hsettle, ← Int.natCast_add, Int.toNat_natCast]
    exact hadd n

/-- Runs compose. A run that ends without an error has done all its cycles; a second one after it
leaves the simulator that one run of all cycles leaves, and the reports of both tell its state. If
the second run has any cycles, the reports are the same. -/
theorem run_compose {sim : Simulator} (h : sim.Intact) (m n : Nat) :
    ∃ between first, sim.run m = (between, .ok first) ∧
      (between.error? = none →
        between.circuit.cycle = sim.circuit.cycle + m ∧
        ∃ after second whole, between.run n = (after, .ok second) ∧
          sim.run (m + n) = (after, .ok whole) ∧ after.Tells second ∧ after.Tells whole ∧
          (0 < n → second = whole)) := by
  obtain ⟨between, first, pulses, hfirst, -, hran, -⟩ := h.run m
  refine ⟨between, first, hfirst, fun hnone => ?_⟩
  have hok : between.failed = false := by
    rw [← error?_isSome, hnone]
    rfl
  obtain ⟨hsettled, hcycle, hadd⟩ := run_add hfirst hok
  obtain ⟨after, second, -, hsecond, htells, -⟩ := hran.intact.run n
  obtain ⟨after', whole, -, hwhole, htells', -⟩ := h.run (m + n)
  obtain ⟨hafter, hreports⟩ := cycles_last n between (between.report 1 between.cappedOnce) first
  rw [← run_of_settled hsettled, ← hadd, hsecond, hwhole] at hafter hreports
  dsimp only at hafter
  subst hafter
  refine ⟨hcycle, after, second, whole, hsecond, hwhole, htells, htells', fun hpos => ?_⟩
  have hsame := hreports hpos hok
  cases hsame
  rfl

/-- A ring that a level sets swinging once two flip-flops have passed it on. -/
def delayedRing : Simulator where
  circuit := {
    wires := [{ id := 0, name := "on", width := 1, state := [1] },
      { id := 1, name := "passed", width := 2, state := [0, 0] },
      { id := 2, name := "ring", width := 1, state := [1] }]
    gates := [
      { id := 0, name := "early", kind := "DFF", inputs := [⟨0, 0⟩], outputs := [⟨1, 0⟩]
        stored := some 0 },
      { id := 1, name := "late", kind := "DFF", inputs := [⟨1, 0⟩], outputs := [⟨1, 1⟩]
        stored := some 0 },
      { id := 2, name := "turn", kind := "NAND", inputs := [⟨1, 1⟩, ⟨2, 0⟩]
        outputs := [⟨2, 0⟩] }] }
  cap := 5

/-- The first cycle ends without an error. Of five more only one is done, after which the ring
swings, and so it is in a run of all six. -/
theorem run_compose_delayedRing :
    delayedRing.Intact ∧ ∃ between first after second,
      delayedRing.run 1 = (between, .ok first) ∧ between.error? = none ∧
      between.run 5 = (after, .ok second) ∧ delayedRing.run 6 = (after, .ok second) ∧
      between.circuit.cycle = 1 ∧ after.circuit.cycle = 2 ∧
      after.error? = some (unstableMessage 5) := by
  have hintact : delayedRing.Intact := { wires := by decide, gates := by decide }
  obtain ⟨between, first, hfirst, hcompose⟩ := run_compose hintact 1 5
  have hbetween : (delayedRing.run 1).1 = between := congrArg Prod.fst hfirst
  have hnone : between.error? = none := by
    rw [← hbetween]
    decide +kernel
  obtain ⟨hcycle, after, second, whole, hsecond, hwhole, -, -, hsame⟩ := hcompose hnone
  have hafter : (delayedRing.run 6).1 = after := congrArg Prod.fst hwhole
  obtain rfl := hsame (by decide)
  refine ⟨hintact, between, first, after, second, hfirst, hnone, hsecond, hwhole, hcycle, ?_, ?_⟩
  · rw [← hafter]
    decide +kernel
  · rw [← hafter]
    decide +kernel

end Simulator

end Switchyard.Logic
