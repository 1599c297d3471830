import Switchyard.Proofs.Logic.Clocking

/-!
# What the reports of a session tell

A propagation comes to rest if one of its rounds changes nothing (`Simulator.Rests`). The reports of
a session are about all propagations of it: an operation starts some of them (`Simulator.starts`),
and what these leave behind (`Simulator.Ran`) adds up along a step, a run and a session
(`Simulator.Ran.trans`, `Simulator.Intact.performAll`). A report is stable if and only if the last
propagation came to rest, but it carries an error if and only if some propagation of the session did
not (`Simulator.reports_of_session`). So the two agree as long as all earlier ones came to rest;
after one that did not, every report carries its error and no run does a cycle.
-/

namespace Switchyard.Logic

/-- An operation gives a report. -/
def Action.Reports : Action → Prop
  | .settle | .step | .run _ => True
  | _ => False

namespace Simulator

/-! ## Propagations -/

/-- All codes of the circuit, on the wires and in the flip-flops, are those of levels. -/
structure Intact (sim : Simulator) : Prop where
  wires : Coded sim.circuit.wires
  gates : ∀ gate ∈ sim.circuit.gates, gate.Coded

/-- A propagation from here comes to rest: one of its rounds changes nothing. -/
def Rests (sim : Simulator) : Prop :=
  ∃ k < sim.cap.toNat, advance sim.circuit.gates
    ((advance sim.circuit.gates)^[k] sim.circuit.wires) =
      (advance sim.circuit.gates)^[k] sim.circuit.wires

instance (sim : Simulator) : Decidable sim.Rests :=
  inferInstanceAs (Decidable (∃ k < sim.cap.toNat, _ = _))

/-- What operations leave behind whose propagations start from the given simulators, one after the
other, and that give a number of clock pulses: the simulator has failed if it had before or one of
the propagations did not come to rest, and it is stable if the last one did. -/
structure Ran (sim : Simulator) (starts : List Simulator) (pulses : Nat) (next : Simulator) :
    Prop where
  intact : next.Intact
  cap_eq : next.cap = sim.cap
  shape_eq : shape next.circuit.wires = shape sim.circuit.wires
  cycle_eq : next.circuit.cycle = sim.circuit.cycle + pulses
  failed_iff : next.failed = true ↔ sim.failed = true ∨ ∃ s ∈ starts, ¬ s.Rests
  stable_of_nil : starts = [] → next.circuit.stable = sim.circuit.stable
  stable_iff : ∀ last ∈ starts.getLast?, (next.circuit.stable = true ↔ last.Rests)

namespace Ran

variable {sim mid next : Simulator} {starts more : List Simulator} {pulses others : Nat}

/-- Nothing has run yet. -/
theorem refl (h : sim.Intact) : Ran sim [] 0 sim where
  intact := h
  cap_eq := rfl
  shape_eq := rfl
  cycle_eq := (Int.add_zero _).symm
  failed_iff := by simp
  stable_of_nil _ := rfl
  stable_iff := nofun

/-- Operations one after the other. -/
theorem trans (h : Ran sim starts pulses mid) (h' : Ran mid more others next) :
    Ran sim (starts ++ more) (pulses + others) next where
  intact := h'.intact
  cap_eq := h'.cap_eq.trans h.cap_eq
  shape_eq := h'.shape_eq.trans h.shape_eq
  cycle_eq := by
    rw [h'.cycle_eq, h.cycle_eq, Int.natCast_add, Int.add_assoc]
  failed_iff := by
    simp only [h'.failed_iff, h.failed_iff, List.mem_append, or_and_right, exists_or, or_assoc]
  stable_of_nil hnil := by
    obtain ⟨rfl, rfl⟩ := List.append_eq_nil_iff.1 hnil
    rw [h'.stable_of_nil rfl, h.stable_of_nil rfl]
  stable_iff last hlast := by
    cases more with
    | nil =>
      rw [List.append_nil] at hlast
      rw [h'.stable_of_nil rfl]
      exact h.stable_iff last hlast
    | cons s more =>
      rw [List.getLast?_append_of_ne_nil _ (List.cons_ne_nil s more)] at hlast
      exact h'.stable_iff last hlast

end Ran

/-! ## What an operation starts -/

/-- The simulators from which the propagations of a cycle start: one before the clock pulse and one
after it. -/
def stepStarts (sim : Simulator) : List Simulator :=
  [sim, sim.propagate.1.clock.1]

/-- The simulators from which the propagations of at most the given number of cycles start, none
after the simulator has failed. -/
def cyclesStarts : (count : Nat) → Simulator → List Simulator
  | 0, _ => []
  | count + 1, sim =>
    if sim.failed then [] else sim.stepStarts ++ cyclesStarts count sim.step.1

/-- The simulators from which the propagations of an operation start. -/
def starts (sim : Simulator) : Action → List Simulator
  | .propagate | .settle => [sim]
  | .step => sim.stepStarts
  | .run count => sim :: cyclesStarts count.toNat sim.propagate.1
  | .set .. | .get .. | .clock | .evaluate _ | .snapshot => []

/-- The simulators from which the propagations of a session start. -/
def propagations (sim : Simulator) : List Action → List Simulator
  | [] => []
  | action :: actions => sim.starts action ++ (sim.perform action).1.propagations actions

/-- The propagations of a session in two parts are those of the first, and those of the second after
it. -/
theorem propagations_append (sim : Simulator) (first second : List Action) :
    sim.propagations (first ++ second) =
      sim.propagations first ++ (sim.performAll first).propagations second := by
  induction first generalizing sim with
  | nil => rfl
  | cons action first ih =>
    rw [List.cons_append, propagations, propagations, ih, List.append_assoc]
    rfl

/-! ## What an operation leaves behind -/

/-- A report tells the state of a simulator. -/
structure Tells (sim : Simulator) (report : StepReport) : Prop where
  stable_eq : report.stable = sim.circuit.stable
  cycle_eq : report.cycle = sim.circuit.cycle
  error_eq : report.error = sim.error?

/-- A report made of a simulator tells what the simulator is. -/
theorem tells_report (sim : Simulator) (iterations : Int) (capped : Nat) :
    sim.Tells (sim.report iterations capped) :=
  ⟨rfl, rfl, rfl⟩

namespace Intact

variable {sim : Simulator} (h : sim.Intact)
include h

/-- A propagation is one propagation and no pulse. -/
theorem propagate :
    ∃ next rounds, sim.propagate = (next, .ok rounds) ∧ Ran sim [sim] 0 next := by
  have hiterate := iterate_advance h.gates h.wires
  unfold Simulator.propagate
  rcases settle_eq h.gates sim.cap.toNat 0 sim.circuit.wires h.wires with
    ⟨k, hk, hfixed, -, hsettle⟩ | ⟨hmoved, hsettle⟩
  · have hrests : sim.Rests := ⟨k, hk, hfixed⟩
    rw [hsettle]
    refine ⟨_, _, rfl, ⟨(hiterate k).1, h.gates⟩, rfl, (hiterate k).2.1, (Int.add_zero _).symm,
      ?_, nofun, ?_⟩
    · simp [hrests]
    · simp [hrests]
  · have hmoves : ¬ sim.Rests := fun ⟨k, hk, hfixed⟩ => hmoved k hk hfixed
    rw [hsettle]
    refine ⟨_, _, rfl, ⟨(hiterate _).1, h.gates⟩, rfl, (hiterate _).2.1, (Int.add_zero _).symm,
      ?_, nofun, ?_⟩
    · simp [hmoves]
    · simp [hmoves]

/-- A clock pulse is one pulse and no propagation. -/
theorem clock : ∃ next, sim.clock = (next, .ok ()) ∧ Ran sim [] 1 next := by
  unfold Simulator.clock
  rw [capture_eq h.wires]
  refine ⟨_, rfl, ⟨h.wires, ?_⟩, rfl, rfl, rfl, by simp, fun _ => rfl, nofun⟩
  intro gate hgate
  obtain ⟨old, hold, rfl⟩ := List.mem_map.1 hgate
  exact (h.gates old hold).captured h.wires

/-- Settling is one propagation, and its report tells how it ended. -/
theorem settleStep : ∃ next report, sim.settleStep = (next, .ok report) ∧ next.Tells report ∧
    Ran sim [sim] 0 next := by
  obtain ⟨next, rounds, hpropagate, hran⟩ := h.propagate
  rw [Simulator.settleStep, hpropagate]
  exact ⟨next, _, rfl, tells_report _ _ _, hran⟩

/-- A step is two propagations about one pulse, and its report tells how they ended. -/
theorem step : ∃ next report, sim.step = (next, .ok report) ∧ next.Tells report ∧
    Ran sim sim.stepStarts 1 next := by
  obtain ⟨settled, rounds, hsettle, hsettled⟩ := h.propagate
  obtain ⟨clocked, hclock, hclocked⟩ := hsettled.intact.clock
  obtain ⟨next, more, hresettle, hnext⟩ := hclocked.intact.propagate
  rw [Simulator.step, stepStarts, hsettle]
  dsimp only
  rw [hclock]
  dsimp only
  rw [hresettle]
  exact ⟨next, _, rfl, tells_report _ _ _, (hsettled.trans hclocked).trans hnext⟩

omit h in
/-- Cycles are done until one of their propagations does not come to rest; all of them if there is
none, and none at all after an earlier failure. -/
theorem cycles : ∀ (count : Nat) {sim : Simulator} {last : StepReport}, sim.Intact →
    sim.Tells last → ∃ next report pulses,
      Simulator.cycles count sim last = (next, .ok report) ∧ next.Tells report ∧
      Ran sim (cyclesStarts count sim) pulses next ∧
      (sim.failed = true → pulses = 0) ∧
      (sim.failed = false → (∀ s ∈ cyclesStarts count sim, s.Rests) → pulses = count)
  | 0, sim, last, h, hlast => ⟨sim, last, 0, rfl, hlast, .refl h, fun _ => rfl, fun _ _ => rfl⟩
  | count + 1, sim, last, h, hlast => by
    cases hfailed : sim.failed with
    | true =>
      rw [Simulator.cycles, cyclesStarts, hfailed]
      exact ⟨sim, last, 0, rfl, hlast, .refl h, fun _ => rfl, nofun⟩
    | false =>
      obtain ⟨stepped, told, hstep, htold, hstepped⟩ := h.step
      obtain ⟨next, report, pulses, hcycles, hreport, hran, -, hall⟩ :=
        cycles count hstepped.intact htold
      rw [Simulator.cycles, cyclesStarts, hfailed, hstep]
      refine ⟨next, report, 1 + pulses, hcycles, hreport, hstepped.trans hran, nofun, ?_⟩
      intro _ hrests
      obtain ⟨hfirst, hrest⟩ := List.forall_mem_append.1 hrests
      have hrunning : stepped.failed = false := by
        rw [← Bool.not_eq_true, hstepped.failed_iff, hfailed]
        rintro (hbefore | ⟨s, hs, hmoves⟩)
        · cases hbefore
        · exact hmoves (hfirst s hs)
      rw [hall hrunning hrest, Nat.add_comm]

/-- A run reports how it ended. It has no pulse after a failure, and all it was asked for if every
propagation comes to rest. -/
theorem run (count : Int) : ∃ next report pulses,
    sim.run count = (next, .ok report) ∧ next.Tells report ∧
    Ran sim (sim.starts (.run count)) pulses next ∧
    (sim.failed = true → pulses = 0) ∧
    (sim.failed = false → (∀ s ∈ sim.starts (.run count), s.Rests) → pulses = count.toNat) := by
  obtain ⟨settled, first, hsettle, hfirst, hsettled⟩ := h.settleStep
  have hpropagate : sim.propagate.1 = settled := by
    obtain ⟨next, rounds, hnext, -⟩ := h.propagate
    rw [Simulator.settleStep, hnext] at hsettle
    rw [hnext]
    exact congrArg Prod.fst hsettle
  obtain ⟨next, report, pulses, hcycles, hreport, hran, hnone, hall⟩ :=
    cycles count.toNat hsettled.intact hfirst
  rw [Simulator.run, hsettle, starts, hpropagate]
  refine ⟨next, report, pulses, hcycles, hreport, ?_, ?_, ?_⟩
  · have hboth := hsettled.trans hran
    rwa [Nat.zero_add] at hboth
  · intro hfailed
    exact hnone (hsettled.failed_iff.2 (.inl hfailed))
  · intro hrunning hrests
    obtain ⟨hfirst, hrest⟩ := List.forall_mem_cons.1 hrests
    refine hall ?_ hrest
    rw [← Bool.not_eq_true, hsettled.failed_iff, hrunning]
    simpa using hfirst

/-- An input is set without a propagation and without a pulse. -/
theorem setInput {name : String} {value : Json} {bit : Int} {next : Simulator}
    (hset : sim.setInput name value bit = .ok next) : Ran sim [] 0 next := by
  rcases sim.setInput_cases name value bit with ⟨fault, hfault⟩ | ⟨p, level, -, -, hwritten⟩
  · rw [hfault] at hset
    cases hset
  · rw [hwritten] at hset
    cases hset
    exact ⟨⟨h.wires.write p level, h.gates⟩, rfl, shape_write _ p level, (Int.add_zero _).symm,
      by simp [withWires], fun _ => rfl, nofun⟩

/-- Every operation leaves behind what its propagations do. -/
theorem perform (action : Action) :
    ∃ pulses, Ran sim (sim.starts action) pulses (sim.perform action).1 := by
  cases action with
  | set name value bit =>
    refine ⟨0, ?_⟩
    rw [Simulator.perform]
    cases hset : sim.setInput name value bit with
    | error fault => exact .refl h
    | ok next => exact h.setInput hset
  | propagate =>
    obtain ⟨next, rounds, hpropagate, hran⟩ := h.propagate
    rw [Simulator.perform, hpropagate]
    exact ⟨0, hran⟩
  | settle =>
    obtain ⟨next, report, hsettle, -, hran⟩ := h.settleStep
    rw [Simulator.perform, hsettle]
    exact ⟨0, hran⟩
  | step =>
    obtain ⟨next, report, hstep, -, hran⟩ := h.step
    rw [Simulator.perform, hstep]
    exact ⟨1, hran⟩
  | run count =>
    obtain ⟨next, report, pulses, hrun, -, hran, -⟩ := h.run count
    rw [Simulator.perform, hrun]
    exact ⟨pulses, hran⟩
  | clock =>
    obtain ⟨next, hclock, hran⟩ := h.clock
    rw [Simulator.perform, hclock]
    exact ⟨1, hran⟩
  | evaluate place =>
    refine ⟨0, ?_⟩
    rw [Simulator.perform]
    split <;> exact .refl h
  | get name bit | snapshot => exact ⟨0, .refl h⟩

/-- So does a session. -/
theorem performAll (actions : List Action) :
    ∃ pulses, Ran sim (sim.propagations actions) pulses (sim.performAll actions) := by
  induction actions generalizing sim with
  | nil => exact ⟨0, .refl h⟩
  | cons action actions ih =>
    obtain ⟨pulses, hran⟩ := h.perform action
    obtain ⟨others, hrest⟩ := ih hran.intact
    exact ⟨pulses + others, hran.trans hrest⟩

/-- An operation that gives a report reports the simulator that it leaves behind. A run does no
cycle after a failure, and all of its cycles if all propagations before and in it come to rest. -/
theorem report {action : Action} (haction : action.Reports) : ∃ next report pulses,
    sim.perform action = (next, .ok (.report report)) ∧ next.Tells report ∧
    Ran sim (sim.starts action) pulses next ∧ sim.starts action ≠ [] ∧
    ∀ count, action = .run count → (sim.failed = true → pulses = 0) ∧
      (sim.failed = false → (∀ s ∈ sim.starts action, s.Rests) → pulses = count.toNat) := by
  cases action with
  | settle =>
    obtain ⟨next, report, hsettle, htells, hran⟩ := h.settleStep
    rw [Simulator.perform, hsettle]
    refine ⟨next, report, 0, rfl, htells, hran, List.cons_ne_nil _ _, ?_⟩
    rintro _ ⟨⟩
  | step =>
    obtain ⟨next, report, hstep, htells, hran⟩ := h.step
    rw [Simulator.perform, hstep]
    refine ⟨next, report, 1, rfl, htells, hran, List.cons_ne_nil _ _, ?_⟩
    rintro _ ⟨⟩
  | run count =>
    obtain ⟨next, report, pulses, hrun, htells, hran, hnone, hall⟩ := h.run count
    rw [Simulator.perform, hrun]
    refine ⟨next, report, pulses, rfl, htells, hran, List.cons_ne_nil _ _, ?_⟩
    rintro _ ⟨⟩
    exact ⟨hnone, hall⟩
  | set | get | propagate | clock | evaluate | snapshot => cases haction

end Intact

/-- An error is reported exactly if the simulator has failed. -/
theorem error?_isSome (sim : Simulator) : sim.error?.isSome = sim.failed := by
  unfold error?
  cases sim.failed <;> rfl

/-- Every report of a session tells whether its propagations came to rest. It is stable if and only
if the last of them did, the one that the report is about. It carries an error, which is that of the
cap, if and only if any of them did not, since the session began. So a report carries an error
exactly if it is not stable, unless the last propagation came to rest and an earlier one did not. A
run whose propagations all come to rest does all its cycles if those before it did, and none
otherwise. -/
theorem reports_of_session {sim : Simulator} (h : sim.Intact) (hnew : sim.failed = false)
    (before : List Action) (action : Action) (haction : action.Reports) :
    ∃ report earlier last,
      ((sim.performAll before).perform action).2 = .ok (.report report) ∧
      sim.propagations (before ++ [action]) = earlier ++ [last] ∧
      (report.stable = true ↔ last.Rests) ∧
      (report.error.isSome = true ↔ ∃ s ∈ earlier ++ [last], ¬ s.Rests) ∧
      (∀ text ∈ report.error, text = unstableMessage sim.cap) ∧
      ((report.error.isSome = true ↔ report.stable = false) ↔
        (∀ s ∈ earlier, s.Rests) ∨ ¬ last.Rests) ∧
      ∀ count, action = .run count →
        ((∀ s ∈ earlier ++ [last], s.Rests) →
          report.cycle = (sim.performAll before).circuit.cycle + count.toNat) ∧
        ((∃ s ∈ sim.propagations before, ¬ s.Rests) →
          report.cycle = (sim.performAll before).circuit.cycle) := by
  obtain ⟨elapsed, hbefore⟩ := h.performAll before
  obtain ⟨next, report, pulses, hperform, htells, hran, hstarts, hrun⟩ :=
    hbefore.intact.report haction
  have hsession : sim.propagations (before ++ [action]) =
      sim.propagations before ++ (sim.performAll before).starts action := by
    rw [propagations_append, propagations, propagations, List.append_nil]
  have hall := hbefore.trans hran
  rw [← hsession] at hall
  obtain ⟨earlier, last, hsplit⟩ : ∃ earlier last,
      sim.propagations (before ++ [action]) = earlier ++ [last] := by
    refine ⟨_, _, (List.dropLast_append_getLast ?_).symm⟩
    rw [hsession]
    exact List.append_ne_nil_of_right_ne_nil _ hstarts
  rw [hsplit] at hall
  have hstable : report.stable = true ↔ last.Rests := by
    rw [htells.stable_eq]
    exact hall.stable_iff last List.getLast?_concat
  have herror : report.error.isSome = true ↔ ∃ s ∈ earlier ++ [last], ¬ s.Rests := by
    rw [htells.error_eq, error?_isSome, hall.failed_iff, hnew]
    simp
  refine ⟨report, earlier, last, by rw [hperform], hsplit, hstable, herror, ?_, ?_, ?_⟩
  · intro text htext
    rw [htells.error_eq, error?, hall.cap_eq] at htext
    split at htext
    · exact (Option.some.inj htext).symm
    · cases htext
  · rw [herror, ← Bool.not_eq_true, hstable]
    simp only [List.mem_append, List.mem_singleton, or_and_right, exists_or, exists_eq_left]
    by_cases hlast : last.Rests
    · simp [hlast]
    · simp [hlast]
  · rintro count hcount
    obtain ⟨hnone, hdone⟩ := hrun count hcount
    rw [htells.cycle_eq, hran.cycle_eq]
    constructor
    · intro hrests
      rw [← hsplit, hsession] at hrests
      obtain ⟨hfirst, hrest⟩ := List.forall_mem_append.1 hrests
      have hrunning : (sim.performAll before).failed = false := by
        rw [← Bool.not_eq_true, hbefore.failed_iff, hnew]
        simpa using hfirst
      rw [hdone hrunning hrest]
    · intro hmoves
      rw [hnone (hbefore.failed_iff.2 (.inr hmoves))]
      exact Int.add_zero _

/-- An inverter on its own output behind a switch. -/
def switchedRing : Simulator where
  circuit := {
    wires := [{ id := 0, name := "on", width := 1, state := [0] },
      { id := 1, name := "ring", width := 1, state := [1] }]
    gates := [{ id := 0, name := "turn", kind := "NAND", inputs := [⟨0, 0⟩, ⟨1, 0⟩]
                outputs := [⟨1, 0⟩] }] }
  cap := 5

/-- While the ring is switched on it does not come to rest. Switched off again it does, but the
report still carries the error, and a run of three cycles does none. -/
theorem reports_of_switchedRing :
    let before : List Action := [.set "on" (.int 1) 0, .settle, .set "on" (.int 0) 0]
    switchedRing.Intact ∧ switchedRing.failed = false ∧ (Action.run 3).Reports ∧
      (∃ s ∈ switchedRing.propagations before, ¬ s.Rests) ∧
      ∃ report, ((switchedRing.performAll before).perform (.run 3)).2 = .ok (.report report) ∧
        report.stable = true ∧ report.error = some (unstableMessage 5) ∧ report.cycle = 0 := by
  intro before
  have hintact : switchedRing.Intact := { wires := by decide, gates := by decide }
  have hmoves : ∃ s ∈ switchedRing.propagations before, ¬ s.Rests := by
    decide +kernel
  obtain ⟨report, earlier, last, hreport, -, -, -, -, -, hrun⟩ :=
    reports_of_session hintact rfl before (.run 3) trivial
  have hcycle : report.cycle = 0 :=
    ((hrun 3 rfl).2 hmoves).trans (by decide +kernel)
  have htold : ((switchedRing.performAll before).perform (.run 3)).2 =
      .ok (.report { stable := true, iterations := 2, cycle := 0
                     error := some (unstableMessage 5), capped := 0 }) := by
    decide +kernel
  cases hreport.symm.trans htold
  exact ⟨hintact, rfl, trivial, hmoves, _, hreport, rfl, rfl, hcycle⟩

end Simulator

end Switchyard.Logic
