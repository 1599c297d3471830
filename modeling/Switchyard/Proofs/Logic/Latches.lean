import Switchyard.Proofs.Logic.Composition

/-!
# Latches

A latch has no memory of its own: while its enable bit is low it puts out what it reads at its own
output, and so keeps it only as long as every round does. What every round and every clock pulse
keeps (`Invariant`), every operation keeps, whether the propagations come to rest, run into the cap
or meet a fault (`Invariant.perform`). If no other gate puts out the bit of a latch and none its
enable bit, the bit is such a thing while the latch is closed (`Holding.invariant`). While it is
open the bit follows the data as soon as a round changes nothing (`Latching.follows`), which is what
a propagation that came to rest ends with. Both together are `Simulator.latch_holds_and_follows`.
-/

namespace Switchyard.Logic

/-! ## Rounds and clock pulses -/

/-- The bits of the wires after a round: those with a driver take what it makes of the old states,
the others stay. -/
theorem bits_of_round {gates : List Gate} {wires next : List Wire}
    (h : round gates wires = .ok next) : shape next = shape wires ∧ ∀ p,
      (driver? gates p = none → codeAt? next p = codeAt? wires p) ∧
      ∀ gate, driver? gates p = some gate → ∃ level, evaluate wires gate = .ok level ∧
        codeAt? next p = (codeAt? wires p).map (fun _ => level.code) := by
  obtain ⟨levels, hlevels, h⟩ := bind_eq_ok_iff.1 h
  cases h
  exact ⟨shape_foldl_drive _ wires,
    fun p => codeAt?_foldl_drive p wires (mapM_eq_ok_iff.1 hlevels)⟩

/-- A clock pulse leaves the outputs of all gates as they are, and all of a gate that is no
flip-flop, also if it meets a fault. -/
theorem capture_alike (wires : List Wire) : ∀ gates : List Gate,
    List.Forall₂ (fun gate next : Gate => next.outputs = gate.outputs ∧
      (GateKind.ofLabel? gate.kind ≠ some .dff → next = gate)) gates
      (Simulator.capture wires gates).1
  | [] => .nil
  | gate :: gates => by
    have hrest := capture_alike wires gates
    rw [Simulator.capture]
    split
    · next hkind =>
      split
      · exact .cons ⟨rfl, fun _ => rfl⟩ hrest
      · split
        · exact .cons ⟨rfl, fun hne => absurd hkind hne⟩ hrest
        · exact List.forall₂_same.2 (fun _ _ => ⟨rfl, fun _ => rfl⟩)
    · exact .cons ⟨rfl, fun _ => rfl⟩ hrest

/-- A bit is undriven exactly if no gate puts it out. -/
theorem driver?_eq_none_iff {gates : List Gate} {p : Port} :
    driver? gates p = none ↔ ∀ gate ∈ gates, p ∉ gate.outputs := by
  simp [driver?, List.find?_eq_none]

/-! ## What operations keep -/

/-- What every round and every clock pulse keeps, whatever it meets. -/
structure Invariant (I : List Gate → List Wire → Prop) : Prop where
  round : ∀ {gates wires next}, I gates wires → Logic.round gates wires = .ok next → I gates next
  capture : ∀ {gates wires}, I gates wires → I (Simulator.capture wires gates).1 wires

/-- What a round keeps, a propagation keeps, however many rounds it takes. -/
theorem Invariant.settle {I : List Gate → List Wire → Prop} (hI : Invariant I) {gates : List Gate}
    (fuel done : Nat) {wires : List Wire} (h : I gates wires) :
    I gates (Logic.settle gates fuel done wires).1 := by
  induction fuel generalizing done wires with
  | zero => exact h
  | succ fuel ih =>
    rw [Logic.settle]
    split
    · exact h
    · next hround =>
      split
      · exact h
      · exact ih (done + 1) (hI.round h hround)

namespace Simulator

section
variable (I : List Gate → List Wire → Prop)

/-- The gates and wires of a simulator are as described. -/
def Meets (sim : Simulator) : Prop :=
  I sim.circuit.gates sim.circuit.wires

/-- A simulator as a propagation leaves it that started from gates and wires as described. -/
def Comes (after : Simulator) : Prop :=
  ∃ (start : Simulator) (rounds : Int), start.Meets I ∧ start.propagate = (after, .ok rounds)

/-- What an operation leaves behind that ends with a propagation, unless it meets a fault. -/
structure Leaves {α : Type} (left : Simulator × Except Fault α) : Prop where
  meets : left.1.Meets I
  comes : ∀ a, left.2 = .ok a → Comes I left.1

end

section
variable {I : List Gate → List Wire → Prop}

/-- A fault that changes nothing leaves what was there. -/
theorem Leaves.of_fault {α : Type} {sim : Simulator} (h : sim.Meets I) (fault : Fault) :
    Leaves I (sim, (.error fault : Except Fault α)) :=
  ⟨h, nofun⟩

/-- What is left behind does not depend on what is made of the result. -/
theorem Leaves.map {α β : Type} {left : Simulator × Except Fault α} (h : Leaves I left)
    (f : α → β) : Leaves I (left.1, left.2.map f) := by
  refine ⟨h.meets, fun b hb => ?_⟩
  cases hleft : left.2 with
  | error fault =>
    rw [hleft] at hb
    cases hb
  | ok a => exact h.comes a hleft

end

end Simulator

/-- An operation leaves gates and wires as described if it sets a bit; any other one may do so or
not. -/
def Action.Keeps (I : List Gate → List Wire → Prop) (action : Action) : Prop :=
  ∀ (sim : Simulator) name value bit p level, sim.Meets I → action = .set name value bit →
    sim.Denotes name bit p → I sim.circuit.gates (write sim.circuit.wires p level)

namespace Invariant

open Simulator (Meets Comes Leaves)

variable {I : List Gate → List Wire → Prop} (hI : Invariant I) {sim : Simulator}
include hI

/-- A propagation keeps an invariant, and leaves a round without change behind if it comes to rest.
-/
theorem propagate (h : sim.Meets I) : Leaves I sim.propagate := by
  refine ⟨?_, fun rounds hrounds => ⟨sim, rounds, h, Prod.ext rfl hrounds⟩⟩
  have hsettle := hI.settle sim.cap.toNat 0 h
  unfold Simulator.propagate
  split <;> next heq => exact (congrArg (fun outcome => I _ outcome.1) heq).mp hsettle

/-- A clock pulse keeps an invariant. -/
theorem clock (h : sim.Meets I) : sim.clock.1.Meets I := by
  have hcapture := hI.capture h
  unfold Simulator.clock
  split <;> next heq => exact (congrArg (fun outcome => I outcome.1 _) heq).mp hcapture

/-- A simulator that comes as an operation leaves it is left so. -/
theorem leaves_ok {α : Type} (h : Comes I sim) (a : α) : Leaves I (sim, .ok a) := by
  refine ⟨?_, fun _ _ => h⟩
  obtain ⟨start, rounds, hstart, hpropagate⟩ := h
  have hleaves := hI.propagate hstart
  rw [hpropagate] at hleaves
  exact hleaves.meets

/-- Settling keeps an invariant. -/
theorem settleStep (h : sim.Meets I) : Leaves I sim.settleStep := by
  have hleaves := hI.propagate h
  unfold Simulator.settleStep
  split
  · next hpropagate =>
    rw [hpropagate] at hleaves
    exact .of_fault hleaves.meets _
  · next hpropagate =>
    rw [hpropagate] at hleaves
    exact hI.leaves_ok (hleaves.comes _ rfl) _

/-- A step keeps an invariant, in both of its propagations and in its pulse. -/
theorem step (h : sim.Meets I) : Leaves I sim.step := by
  have hsettled := hI.propagate h
  unfold Simulator.step
  split
  · next hpropagate =>
    rw [hpropagate] at hsettled
    exact .of_fault hsettled.meets _
  · next before rounds hpropagate =>
    rw [hpropagate] at hsettled
    have hclocked := hI.clock hsettled.meets
    split
    · next hclock =>
      rw [hclock] at hclocked
      exact .of_fault hclocked _
    · next clocked _ hclock =>
      rw [hclock] at hclocked
      have hleaves := hI.propagate hclocked
      split
      · next hresettle =>
        rw [hresettle] at hleaves
        exact .of_fault hleaves.meets _
      · next hresettle =>
        rw [hresettle] at hleaves
        exact hI.leaves_ok (hleaves.comes _ rfl) _

/-- Cycles keep an invariant, by induction on their number. -/
theorem cycles : ∀ (count : Nat) {sim : Simulator} (last : StepReport), Comes I sim →
    Leaves I (Simulator.cycles count sim last)
  | 0, _, last, h => hI.leaves_ok h last
  | count + 1, sim, last, h => by
    have hleaves := hI.step (hI.leaves_ok h last).meets
    rw [Simulator.cycles]
    split
    · exact hI.leaves_ok h last
    · split
      · next hstep =>
        rw [hstep] at hleaves
        exact .of_fault hleaves.meets _
      · next next report hstep =>
        rw [hstep] at hleaves
        exact cycles count report (hleaves.comes report rfl)

/-- A run keeps an invariant, whether or not it does any cycle. -/
theorem run (h : sim.Meets I) (count : Int) : Leaves I (sim.run count) := by
  have hleaves := hI.settleStep h
  unfold Simulator.run
  split
  · next hsettle =>
    rw [hsettle] at hleaves
    exact .of_fault hleaves.meets _
  · next settled first hsettle =>
    rw [hsettle] at hleaves
    exact hI.cycles count.toNat first (hleaves.comes first rfl)

/-- An operation that propagates ends with a propagation, unless it meets a fault. -/
theorem leaves (h : sim.Meets I) {action : Action}
    (haction : action = .propagate ∨ action.Reports) : Leaves I (sim.perform action) := by
  cases action with
  | propagate => exact (hI.propagate h).map _
  | settle => exact (hI.settleStep h).map _
  | step => exact (hI.step h).map _
  | run count => exact (hI.run h count).map _
  | set | get | clock | evaluate | snapshot => simp [Action.Reports] at haction

/-- Every operation keeps it, if setting a bit does. -/
theorem perform (h : sim.Meets I) {action : Action} (hset : action.Keeps I) :
    (sim.perform action).1.Meets I := by
  have hleaves : ∀ {action : Action}, (action = .propagate ∨ action.Reports) →
      (sim.perform action).1.Meets I := fun haction => (hI.leaves h haction).meets
  cases action with
  | set name value bit =>
    rw [Simulator.perform]
    rcases sim.setInput_cases name value bit with ⟨fault, hfault⟩ | ⟨p, level, hp, -, hwritten⟩
    · rw [hfault]
      exact h
    · rw [hwritten]
      exact hset sim name value bit p level h rfl hp
  | propagate => exact hleaves (.inl rfl)
  | settle | step | run => exact hleaves (.inr trivial)
  | clock => exact hI.clock h
  | evaluate place =>
    rw [Simulator.perform]
    split <;> exact h
  | get | snapshot => exact h

/-- A session keeps an invariant that each of its inputs keeps. -/
theorem performAll (h : sim.Meets I) {actions : List Action}
    (hset : ∀ action ∈ actions, action.Keeps I) : (sim.performAll actions).Meets I := by
  induction actions generalizing sim with
  | nil => exact h
  | cons action actions ih =>
    rw [List.forall_mem_cons] at hset
    exact ih (hI.perform h hset.1) hset.2

end Invariant

/-! ## Latches -/

/-- A latch among gates on wires. It reads the data at its first input and the enable bit at its
second one, and puts its level out at its first output. The bits are there, no other gate puts out
that of the latch, and no gate at all the enable bit. -/
structure IsLatch (gate : Gate) (data enable bit : Port) (gates : List Gate) (wires : List Wire) :
    Prop where
  mem : gate ∈ gates
  kind : GateKind.ofLabel? gate.kind = some .latch
  inputs : ∃ rest, gate.inputs = data :: enable :: rest
  output : gate.outputs.head? = some bit
  isSome_data : (codeAt? wires data).isSome = true
  isSome_bit : (codeAt? wires bit).isSome = true
  alone : ∀ other ∈ gates, bit ∈ other.outputs → other = gate
  free : ∀ other ∈ gates, enable ∉ other.outputs

/-- A latch on wires of the given shape, with a level on its enable bit. -/
structure Latching (gate : Gate) (data enable bit : Port) (level : Signal) (start : List Wire)
    (gates : List Gate) (wires : List Wire) : Prop
    extends IsLatch gate data enable bit gates wires where
  enabled : codeAt? wires enable = some level.code
  shape_eq : shape wires = shape start

/-- A latch whose enable bit is low, with a code on its own bit. -/
structure Holding (gate : Gate) (data enable bit : Port) (code : Int) (start : List Wire)
    (gates : List Gate) (wires : List Wire) : Prop
    extends Latching gate data enable bit .low start gates wires where
  held : codeAt? wires bit = some code

section
variable {gate : Gate} {data enable bit : Port} {gates : List Gate} {wires next : List Wire}

namespace IsLatch

variable (h : IsLatch gate data enable bit gates wires)
include h

theorem mem_outputs : bit ∈ gate.outputs :=
  List.mem_of_mem_head? h.output

theorem driver?_bit : driver? gates bit = some gate := by
  cases hdriver : driver? gates bit with
  | none => exact absurd h.mem_outputs (driver?_eq_none_iff.1 hdriver gate h.mem)
  | some other =>
    rw [h.alone other (mem_of_driver? hdriver) (mem_outputs_of_driver? hdriver)]

/-- The enable bit of a latch is driven by no gate. -/
theorem driver?_enable : driver? gates enable = none :=
  driver?_eq_none_iff.2 h.free

/-- A latch is the same in wires of the same shape. -/
theorem of_shape (hshape : shape next = shape wires) : IsLatch gate data enable bit gates next where
  __ := h
  isSome_data := (isSome_codeAt?_of_shape hshape data).trans h.isSome_data
  isSome_bit := (isSome_codeAt?_of_shape hshape bit).trans h.isSome_bit

/-- A clock pulse leaves a latch alone. -/
theorem capture : IsLatch gate data enable bit (Simulator.capture wires gates).1 wires where
  __ := h
  mem := by
    obtain ⟨next, hnext, -, hsame⟩ := exists_mem_of_forall₂ (capture_alike wires gates) h.mem
    rwa [hsame (by rw [h.kind]; nofun)] at hnext
  alone := by
    intro next hnext hbit
    obtain ⟨other, hother, houtputs, hsame⟩ :=
      exists_mem_of_forall₂ (capture_alike wires gates).flip hnext
    rw [houtputs] at hbit
    obtain rfl := h.alone other hother hbit
    exact hsame (by rw [h.kind]; nofun)
  free := by
    intro next hnext
    obtain ⟨other, hother, houtputs, -⟩ :=
      exists_mem_of_forall₂ (capture_alike wires gates).flip hnext
    rw [houtputs]
    exact h.free other hother

/-- What a latch puts out, in terms of the levels that it reads. -/
theorem evaluate_eq {level : Signal} (heval : evaluate wires gate = .ok level) :
    ∃ d e levels, read wires data = .ok d ∧ read wires enable = .ok e ∧
      latchLevel wires gate (d :: e :: levels) = .ok level := by
  obtain ⟨levels, hlevels, -⟩ := bind_eq_ok_iff.1 heval
  rw [evaluate_of_reads hlevels, h.kind] at heval
  obtain ⟨rest, hinputs⟩ := h.inputs
  have hreads := mapM_eq_ok_iff.1 hlevels
  rw [hinputs] at hreads
  cases hreads with
  | cons hdata hreads =>
    cases hreads with
    | cons henable hreads => exact ⟨_, _, _, hdata, henable, heval⟩

end IsLatch

/-- That no gate drives the enable bit is enough for its level to stay, so that a latch keeps the
rest of what it is. -/
theorem Latching.invariant (level : Signal) (start : List Wire) :
    Invariant (Latching gate data enable bit level start) where
  round h hround := by
    obtain ⟨hshape, hbits⟩ := bits_of_round hround
    exact { h.toIsLatch.of_shape hshape with
      enabled := ((hbits enable).1 h.driver?_enable).trans h.enabled
      shape_eq := hshape.trans h.shape_eq }
  capture h := { h.toIsLatch.capture with enabled := h.enabled, shape_eq := h.shape_eq }

/-- A latch whose enable bit is low puts out what its bit holds. -/
theorem Holding.invariant (code : Int) (start : List Wire) :
    Invariant (Holding gate data enable bit code start) where
  round {gates wires next} h hround := by
    refine { (Latching.invariant .low start).round h.toLatching hround with held := ?_ }
    obtain ⟨level, hlevel, hnext⟩ := ((bits_of_round hround).2 bit).2 gate h.driver?_bit
    obtain ⟨d, e, levels, -, henable, hlatch⟩ := h.evaluate_eq hlevel
    obtain rfl : e = .low := by
      rw [read_eq_ok_iff (by rw [h.enabled]; rfl), h.enabled] at henable
      cases e <;> cases henable
      rfl
    obtain ⟨outputs, houtputs⟩ := List.head?_eq_some_iff.1 h.output
    rw [latchLevel, houtputs] at hlatch
    have hcode := (read_eq_ok_iff h.isSome_bit).1 hlatch
    rw [hnext, hcode, ← h.held, hcode]
    rfl
  capture h := { (Latching.invariant .low start).capture h.toLatching with held := h.held }

/-- Where a round changes nothing, the bit of a latch whose enable bit is high has the level of the
data. -/
theorem Latching.follows {start : List Wire}
    (h : Latching gate data enable bit .high start gates wires)
    (hround : round gates wires = .ok wires) : codeAt? wires bit = codeAt? wires data := by
  obtain ⟨level, hlevel, hbit⟩ := ((bits_of_round hround).2 bit).2 gate h.driver?_bit
  obtain ⟨d, e, levels, hdata, henable, hlatch⟩ := h.evaluate_eq hlevel
  obtain rfl : e = .high := by
    rw [read_eq_ok_iff (by rw [h.enabled]; rfl), h.enabled] at henable
    cases e <;> cases henable
    rfl
  cases hlatch
  obtain ⟨code, hcode⟩ := Option.isSome_iff_exists.1 h.isSome_bit
  rw [hbit, hcode, (read_eq_ok_iff h.isSome_data).1 hdata]
  rfl

end

/-! ## Operations on a circuit with a latch -/

/-- An operation does not set a bit. -/
def Action.Spares (sim : Simulator) (p : Port) : Action → Prop
  | .set name _ bit => ¬ sim.Denotes name bit p
  | _ => True

section
variable {sim : Simulator} {gate : Gate} {data enable bit : Port} {action : Action}

/-- What names denote depends on the shape of the wires only. -/
theorem Action.Spares.ne {p q : Port} {name : String} {value : Json} {place : Int}
    (h : (Action.set name value place).Spares sim p) {current : Simulator}
    (hshape : shape current.circuit.wires = shape sim.circuit.wires)
    (hq : current.Denotes name place q) : q ≠ p := by
  rintro rfl
  exact h (hq.of_shape hshape.symm)

/-- Setting bits of one wire spares those of all others. -/
theorem Action.spares_of_wireFor {p : Port} {name : String} {value : Json} {place : Nat} {i : Int}
    {wire : Wire} (hwire : sim.wireFor name = .ok (place, wire)) (hne : place ≠ p.wire) :
    (Action.set name value i).Spares sim p := by
  rintro ⟨found, _, hfound, -, rfl, -⟩
  cases hwire.symm.trans hfound
  exact hne rfl

/-- An operation that spares the enable bit keeps a latch at its enable level. -/
theorem Latching.keeps (level : Signal) (henable : action.Spares sim enable) :
    action.Keeps (Latching gate data enable bit level sim.circuit.wires) := by
  rintro current name value place p _ h rfl hp
  refine { h.toIsLatch.of_shape (shape_write _ p _) with
    enabled := ?_, shape_eq := (shape_write _ p _).trans h.shape_eq }
  rw [codeAt?_write, if_neg (henable.ne h.shape_eq hp)]
  exact h.enabled

/-- An operation that spares both bits of a closed latch keeps what it holds. -/
theorem Holding.keeps (code : Int) (henable : action.Spares sim enable)
    (hbit : action.Spares sim bit) :
    action.Keeps (Holding gate data enable bit code sim.circuit.wires) := by
  rintro current name value place p level h rfl hp
  refine { Latching.keeps .low henable current name value place p level h.toLatching rfl hp with
    held := ?_ }
  rw [codeAt?_write, if_neg (hbit.ne h.shape_eq hp)]
  exact h.held

namespace Simulator

/-- A propagation that reports stable ends where a round changes nothing. -/
theorem round_of_propagate {after : Simulator} {rounds : Int}
    (h : sim.propagate = (after, .ok rounds)) (hstable : after.circuit.stable = true) :
    round after.circuit.gates after.circuit.wires = .ok after.circuit.wires := by
  unfold propagate at h
  split at h
  · cases h
  · next hsettle =>
    cases h
    exact (round_of_settle hsettle).2
  · cases h
    cases hstable

/-- Latches hold and follow. Let no other gate put out the bit of a latch and none its enable bit,
and let operations be performed that do not set the enable bit. If it is low and the bit of the
latch is not set either, that bit stays as it is, whatever the propagations come to. If it is high,
every operation that then propagates and reports stable leaves the bit at the final level of the
data. -/
theorem latch_holds_and_follows
    (h : IsLatch gate data enable bit sim.circuit.gates sim.circuit.wires) {actions : List Action}
    (henable : ∀ action ∈ actions, action.Spares sim enable) :
    (codeAt? sim.circuit.wires enable = some Signal.low.code →
      (∀ action ∈ actions, action.Spares sim bit) →
      codeAt? (sim.performAll actions).circuit.wires bit = codeAt? sim.circuit.wires bit) ∧
    (codeAt? sim.circuit.wires enable = some Signal.high.code →
      ∀ action, action = .propagate ∨ action.Reports → ∀ after answer,
        (sim.performAll actions).perform action = (after, .ok answer) →
        after.circuit.stable = true →
        codeAt? after.circuit.wires bit = codeAt? after.circuit.wires data) := by
  constructor
  · intro hlow hbit
    obtain ⟨code, hcode⟩ := Option.isSome_iff_exists.1 h.isSome_bit
    have hholding : sim.Meets (Holding gate data enable bit code sim.circuit.wires) :=
      { h with enabled := hlow, shape_eq := rfl, held := hcode }
    have hleft := (Holding.invariant code sim.circuit.wires).performAll hholding
      (fun action haction => Holding.keeps code (henable action haction) (hbit action haction))
    rw [hleft.held, hcode]
  · intro hhigh action haction after answer hperform hstable
    have hinvariant : Invariant (Latching gate data enable bit .high sim.circuit.wires) :=
      Latching.invariant .high sim.circuit.wires
    have hlatching : sim.Meets (Latching gate data enable bit .high sim.circuit.wires) :=
      { h with enabled := hhigh, shape_eq := rfl }
    have hleft := hinvariant.performAll hlatching
      (fun action haction => Latching.keeps .high (henable action haction))
    have hleaves := hinvariant.leaves hleft haction
    rw [hperform] at hleaves
    obtain ⟨start, rounds, -, hpropagate⟩ := hleaves.comes answer rfl
    exact hleaves.meets.follows (round_of_propagate hpropagate hstable)

end Simulator

end

namespace Simulator

/-- A latch whose data is high if a level or its own output is, beside a ring that another level
sets swinging. -/
def selfFed (enable : Signal) : Simulator where
  circuit := {
    wires := [{ id := 0, name := "d", width := 1, state := [0] },
      { id := 1, name := "en", width := 1, state := [enable.code] },
      { id := 2, name := "q", width := 1, state := [0] },
      { id := 3, name := "either", width := 1, state := [0] },
      { id := 4, name := "on", width := 1, state := [0] },
      { id := 5, name := "ring", width := 1, state := [1] }]
    gates := [
      { id := 0, name := "or", kind := "OR", inputs := [⟨2, 0⟩, ⟨0, 0⟩], outputs := [⟨3, 0⟩] },
      { id := 1, name := "latch", kind := "LATCH", inputs := [⟨3, 0⟩, ⟨1, 0⟩]
        outputs := [⟨2, 0⟩] },
      { id := 2, name := "turn", kind := "NAND", inputs := [⟨4, 0⟩, ⟨5, 0⟩]
        outputs := [⟨5, 0⟩] }] }
  cap := 6

/-- Closed, the latch stays low while its data turns high and the ring runs into the cap. Open, it
has the level of its data once the circuit is at rest. -/
theorem latch_holds_and_follows_selfFed :
    (∀ enable, ∃ latch, IsLatch latch ⟨3, 0⟩ ⟨1, 0⟩ ⟨2, 0⟩ (selfFed enable).circuit.gates
      (selfFed enable).circuit.wires) ∧
    (∃ after, (selfFed .low).performAll [.set "d" (.int 1) 0, .set "on" (.int 1) 0, .step, .run 3] =
        after ∧ after.failed = true ∧ codeAt? after.circuit.wires ⟨3, 0⟩ = some 1 ∧
      codeAt? after.circuit.wires ⟨2, 0⟩ = some 0) ∧
    ∃ after answer, ((selfFed .high).performAll [.set "d" (.int 1) 0]).perform .settle =
        (after, .ok answer) ∧ after.circuit.stable = true ∧
      codeAt? after.circuit.wires ⟨2, 0⟩ = some 1 := by
  let latch : Gate :=
    { id := 1, name := "latch", kind := "LATCH", inputs := [⟨3, 0⟩, ⟨1, 0⟩], outputs := [⟨2, 0⟩] }
  have hlatch : ∀ enable, IsLatch latch ⟨3, 0⟩ ⟨1, 0⟩ ⟨2, 0⟩ (selfFed enable).circuit.gates
      (selfFed enable).circuit.wires := fun enable => {
    mem := .tail _ (.head _)
    kind := by decide +kernel
    inputs := ⟨[], rfl⟩
    output := rfl
    isSome_data := rfl
    isSome_bit := rfl
    alone := by
      change ∀ other ∈ (selfFed .low).circuit.gates, _
      decide
    free := by
      change ∀ other ∈ (selfFed .low).circuit.gates, _
      decide }
  have hd : ∀ enable value (p : Port), 0 ≠ p.wire →
      (Action.set "d" value 0).Spares (selfFed enable) p := by
    intro enable value p hp
    obtain ⟨⟨place, wire⟩, hwire, hplace⟩ : ∃ found, (selfFed enable).wireFor "d" = .ok found ∧
        found.1 = 0 := exists_of_toOption (by cases enable <;> decide)
    obtain rfl : place = 0 := hplace
    exact Action.spares_of_wireFor hwire hp
  have hon : ∀ value (p : Port), 4 ≠ p.wire →
      (Action.set "on" value 0).Spares (selfFed .low) p := by
    intro value p hp
    obtain ⟨⟨place, wire⟩, hwire, hplace⟩ : ∃ found, (selfFed .low).wireFor "on" = .ok found ∧
        found.1 = 4 := exists_of_toOption (by decide)
    obtain rfl : place = 4 := hplace
    exact Action.spares_of_wireFor hwire hp
  refine ⟨fun enable => ⟨latch, hlatch enable⟩, ⟨_, rfl, ?_, ?_, ?_⟩, ?_⟩
  · decide +kernel
  · decide +kernel
  · have hspares : ∀ p : Port, 0 ≠ p.wire → 4 ≠ p.wire →
        ∀ action ∈ [Action.set "d" (.int 1) 0, .set "on" (.int 1) 0, .step, .run 3],
          action.Spares (selfFed .low) p := by
      intro p h0 h4
      simp only [List.forall_mem_cons]
      exact ⟨hd .low _ p h0, hon _ p h4, trivial, trivial, List.forall_mem_nil _⟩
    rw [(latch_holds_and_follows (hlatch .low) (hspares ⟨1, 0⟩ (by decide) (by decide))).1 rfl
      (hspares ⟨2, 0⟩ (by decide) (by decide))]
    rfl
  · have hspares : ∀ action ∈ [Action.set "d" (.int 1) 0],
        action.Spares (selfFed .high) ⟨1, 0⟩ := by
      simp only [List.forall_mem_cons]
      exact ⟨hd .high _ _ (by decide), List.forall_mem_nil _⟩
    let opened := (selfFed .high).performAll [.set "d" (.int 1) 0]
    obtain ⟨answer, hanswer⟩ : ∃ answer, (opened.perform .settle).2 = .ok answer := ⟨_, rfl⟩
    have hafter : opened.perform .settle = ((opened.perform .settle).1, .ok answer) :=
      Prod.ext rfl hanswer
    have hstable : (opened.perform .settle).1.circuit.stable = true := by decide +kernel
    refine ⟨_, answer, hafter, hstable, ?_⟩
    rw [(latch_holds_and_follows (hlatch .high) hspares).2 rfl .settle (.inr trivial) _ answer
      hafter hstable]
    decide +kernel

end Simulator

end Switchyard.Logic
