import Mathlib.Data.Finset.Card
import Mathlib.Logic.Relation
import Switchyard.Proofs.Logic.Updates

/-!
# Propagation through acyclic logic

A bit feeds the bits whose driver reads it, flip-flops apart (`Feeds`). Without a cycle of such bits
the depth of a bit, the number of drivers upstream of it, grows along every feed
(`Acyclic.depth_lt`) and does not exceed the number of gates. After as many rounds as its depth a
bit does not change any more (`Acyclic.codeAt?_iterate`), so that all bits are at rest after one
round for each gate. The state they come to rest in is the only one in which every driven bit holds
what its driver makes of that state and the others are as they were (`Solution.unique`).
-/

namespace Switchyard.Logic

/-- The first bit is an input of the driver of the second one, which is no flip-flop. -/
def Feeds (gates : List Gate) (wires : List Wire) (p q : Port) : Prop :=
  (codeAt? wires p).isSome = true ∧ (codeAt? wires q).isSome = true ∧
    ∃ gate, driver? gates q = some gate ∧ GateKind.ofLabel? gate.kind ≠ some .dff ∧
      p ∈ gate.inputs

/-- No bit feeds itself, directly or through others. -/
def Acyclic (gates : List Gate) (wires : List Wire) : Prop :=
  ∀ p, ¬ Relation.TransGen (Feeds gates wires) p p

/-- The wires after all gates have come to rest: every bit without a driver is as it was before, and
every other one holds what its driver puts out in this state. -/
structure Solution (gates : List Gate) (before after : List Wire) : Prop where
  shape_eq : shape after = shape before
  kept : ∀ p, driver? gates p = none → codeAt? after p = codeAt? before p
  driven : ∀ p gate, driver? gates p = some gate → (codeAt? before p).isSome = true →
    ∃ level, evaluate after gate = .ok level ∧ codeAt? after p = some level.code

/-! ## Depth -/

open Classical in
/-- The drivers of a bit and of the bits that feed it, directly or through others. -/
noncomputable def upstream (gates : List Gate) (wires : List Wire) (q : Port) : Finset Gate :=
  gates.toFinset.filter (fun gate => ∃ p, (codeAt? wires p).isSome = true ∧
    driver? gates p = some gate ∧ Relation.ReflTransGen (Feeds gates wires) p q)

/-- The number of drivers upstream of a bit. -/
noncomputable def depth (gates : List Gate) (wires : List Wire) (q : Port) : Nat :=
  (upstream gates wires q).card

section
variable {gates : List Gate} {wires : List Wire}

/-- The gates upstream of a bit drive some bit that feeds into it. -/
theorem mem_upstream {q : Port} {gate : Gate} :
    gate ∈ upstream gates wires q ↔ ∃ p, (codeAt? wires p).isSome = true ∧
      driver? gates p = some gate ∧ Relation.ReflTransGen (Feeds gates wires) p q := by
  classical
  rw [upstream, Finset.mem_filter, List.mem_toFinset, and_iff_right_iff_imp]
  rintro ⟨p, -, hp, -⟩
  exact mem_of_driver? hp

/-- No bit lies deeper than there are gates. -/
theorem depth_le (gates : List Gate) (wires : List Wire) (q : Port) :
    depth gates wires q ≤ gates.length := by
  have hsub : upstream gates wires q ⊆ gates.toFinset := by
    intro gate hgate
    obtain ⟨p, -, hp, -⟩ := mem_upstream.1 hgate
    exact List.mem_toFinset.2 (mem_of_driver? hp)
  exact (Finset.card_le_card hsub).trans (List.toFinset_card_le gates)

/-- A driven bit is not at depth zero, since its own gate is upstream of it. -/
theorem depth_pos {q : Port} {gate : Gate} (hq : (codeAt? wires q).isSome = true)
    (hgate : driver? gates q = some gate) : 0 < depth gates wires q :=
  Finset.card_pos.2 ⟨gate, mem_upstream.2 ⟨q, hq, hgate, .refl⟩⟩

/-- A bit lies deeper than those that feed it: its driver is upstream of it, and were it upstream of
one of them too, that one would feed itself. -/
theorem Acyclic.depth_lt (h : Acyclic gates wires) {p q : Port} (hpq : Feeds gates wires p q) :
    depth gates wires p < depth gates wires q := by
  obtain ⟨hp, hq, gate, hgate, hkind, hinput⟩ := id hpq
  refine Finset.card_lt_card ((Finset.ssubset_iff_of_subset ?_).2 ⟨gate, ?_, ?_⟩)
  · intro other hother
    obtain ⟨r, hr, hdriver, hrp⟩ := mem_upstream.1 hother
    exact mem_upstream.2 ⟨r, hr, hdriver, hrp.tail hpq⟩
  · exact mem_upstream.2 ⟨q, hq, hgate, .refl⟩
  · intro hgate'
    obtain ⟨r, hr, hdriver, hrp⟩ := mem_upstream.1 hgate'
    have hpr : Feeds gates wires p r := ⟨hp, hr, gate, hdriver, hkind, hinput⟩
    exact h r (Relation.TransGen.tail' hrp hpr)

end

/-- Logic whose gates put out higher ranks than they take in, flip-flops apart, is acyclic. -/
theorem acyclic_of_rank {gates : List Gate} (rank : Port → Nat)
    (h : ∀ gate ∈ gates, GateKind.ofLabel? gate.kind ≠ some .dff →
      ∀ p ∈ gate.inputs, ∀ q ∈ gate.outputs, rank p < rank q) (wires : List Wire) :
    Acyclic gates wires := by
  have hfeeds : ∀ p q, Feeds gates wires p q → rank p < rank q := by
    rintro p q ⟨-, -, gate, hgate, hkind, hinput⟩
    have hout : q ∈ gate.outputs := by simpa using List.find?_some hgate
    exact h gate (mem_of_driver? hgate) hkind p hinput q hout
  have hpaths : ∀ p q, Relation.TransGen (Feeds gates wires) p q → rank p < rank q := by
    intro p q hpath
    induction hpath with
    | single hstep => exact hfeeds _ _ hstep
    | tail _ hstep ih => exact ih.trans (hfeeds _ _ hstep)
  exact fun p hp => absurd (hpaths p p hp) (Nat.lt_irrefl _)

/-- Which bits feed which depends on the shape of the wires only. -/
theorem Acyclic.of_shape {gates : List Gate} {a b : List Wire} (h : Acyclic gates a)
    (hshape : shape a = shape b) : Acyclic gates b := by
  have hfeeds : Feeds gates b = Feeds gates a := by
    funext p q
    unfold Feeds
    rw [isSome_codeAt?_of_shape hshape, isSome_codeAt?_of_shape hshape]
  rw [Acyclic, hfeeds]
  exact h

/-! ## Agreement on what feeds a bit -/

/-- A bit that is missing from wires of a shape is missing from all of that shape. -/
theorem codeAt?_eq_none_of_shape {a b : List Wire} (h : shape a = shape b) {p : Port}
    (hp : ¬ (codeAt? b p).isSome = true) : codeAt? a p = none := by
  rw [← isSome_codeAt?_of_shape h p, Bool.not_eq_true, Option.isSome_eq_false_iff,
    Option.isNone_iff_eq_none] at hp
  exact hp

/-- A driver puts out the same in two states that agree on the bits that feed its bit. -/
theorem evaluate_eq_of_feeds {gates : List Gate} {wires a b : List Wire} {q : Port} {gate : Gate}
    (ha : Coded a) (hb : Coded b) (hsa : shape a = shape wires) (hsb : shape b = shape wires)
    (hlatch : GateKind.ofLabel? gate.kind ≠ some .latch)
    (hq : (codeAt? wires q).isSome = true) (hgate : driver? gates q = some gate)
    (hfeeds : ∀ p, Feeds gates wires p q → codeAt? a p = codeAt? b p) :
    evaluate a gate = evaluate b gate := by
  by_cases hkind : GateKind.ofLabel? gate.kind = some .dff
  · exact evaluate_flipFlop ha hb hkind
  · refine evaluate_congr hlatch (fun p hinput => ?_)
    by_cases hp : (codeAt? wires p).isSome = true
    · exact hfeeds p ⟨hp, hq, gate, hgate, hkind, hinput⟩
    · rw [codeAt?_eq_none_of_shape hsa hp, codeAt?_eq_none_of_shape hsb hp]

/-! ## Coming to rest -/

/-- Two states that agree on what a bit holds, or on what its driver puts out, agree on the bit
after a round. -/
theorem codeAt?_advance_congr {gates : List Gate} (hgates : ∀ gate ∈ gates, gate.Coded)
    {a b : List Wire} (ha : Coded a) (hb : Coded b) (hshape : shape a = shape b) {q : Port}
    (hnone : driver? gates q = none → codeAt? a q = codeAt? b q)
    (hsome : ∀ gate, driver? gates q = some gate → (codeAt? a q).isSome = true →
      evaluate a gate = evaluate b gate) :
    codeAt? (advance gates a) q = codeAt? (advance gates b) q := by
  cases hdriver : driver? gates q with
  | none =>
    rw [codeAt?_advance_of_none hgates ha hdriver, codeAt?_advance_of_none hgates hb hdriver]
    exact hnone hdriver
  | some gate =>
    obtain ⟨level, hlevel, hcode⟩ := codeAt?_advance_of_driver hgates ha hdriver
    obtain ⟨level', hlevel', hcode'⟩ := codeAt?_advance_of_driver hgates hb hdriver
    rw [hcode, hcode']
    by_cases hin : (codeAt? a q).isSome = true
    · have hin' := hin
      rw [hsome gate hdriver hin, hlevel', Except.ok.injEq] at hlevel
      rw [isSome_codeAt?_of_shape hshape] at hin'
      obtain ⟨code, hq⟩ := Option.isSome_iff_exists.1 hin
      obtain ⟨code', hq'⟩ := Option.isSome_iff_exists.1 hin'
      rw [hq, hq', Option.map_some, Option.map_some, hlevel]
    · have hnone := codeAt?_eq_none_of_shape rfl hin
      rw [isSome_codeAt?_of_shape hshape] at hin
      rw [hnone, codeAt?_eq_none_of_shape rfl hin]
      rfl

section
variable {gates : List Gate} {wires : List Wire}
  (hgates : ∀ gate ∈ gates, gate.Coded)
  (hlatch : ∀ gate ∈ gates, GateKind.ofLabel? gate.kind ≠ some .latch)
  (hwires : Coded wires)
include hgates hwires

/-- Rounds keep the wires coded and in shape, and the bits without a driver as they were. -/
theorem iterate_advance (k : Nat) :
    Coded ((advance gates)^[k] wires) ∧ shape ((advance gates)^[k] wires) = shape wires ∧
      ∀ p, driver? gates p = none → codeAt? ((advance gates)^[k] wires) p = codeAt? wires p := by
  induction k with
  | zero => exact ⟨hwires, rfl, fun _ _ => rfl⟩
  | succ k ih =>
    obtain ⟨hcoded, hshape, hkept⟩ := ih
    rw [Function.iterate_succ_apply']
    refine ⟨coded_advance hgates hcoded, (shape_advance hgates hcoded).trans hshape, ?_⟩
    intro p hp
    rw [codeAt?_advance_of_none hgates hcoded hp]
    exact hkept p hp

include hlatch

/-- A bit does not change after as many rounds as its depth. -/
theorem Acyclic.codeAt?_iterate (h : Acyclic gates wires) (k : Nat) :
    ∀ q, depth gates wires q ≤ k →
      codeAt? ((advance gates)^[k + 1] wires) q = codeAt? ((advance gates)^[k] wires) q := by
  induction k with
  | zero =>
    intro q hq
    obtain ⟨-, hshape, hkept⟩ := iterate_advance hgates hwires 1
    cases hdriver : driver? gates q with
    | none => exact hkept q hdriver
    | some gate =>
      have hout : ¬ (codeAt? wires q).isSome = true := by
        intro hin
        exact absurd (depth_pos hin hdriver) (Nat.not_lt.2 hq)
      rw [codeAt?_eq_none_of_shape hshape hout]
      exact (codeAt?_eq_none_of_shape rfl hout).symm
  | succ k ih =>
    intro q hq
    obtain ⟨hcoded, hshape, hkept⟩ := iterate_advance hgates hwires k
    obtain ⟨hcoded', hshape', hkept'⟩ := iterate_advance hgates hwires (k + 1)
    rw [Function.iterate_succ_apply' _ (k + 1), Function.iterate_succ_apply' _ k]
    rw [Function.iterate_succ_apply'] at hcoded' hshape' hkept' ih
    refine codeAt?_advance_congr hgates hcoded' hcoded (hshape'.trans hshape.symm) ?_ ?_
    · intro hnone
      rw [hkept q hnone, hkept' q hnone]
    · intro gate hgate hin
      rw [isSome_codeAt?_of_shape hshape'] at hin
      refine evaluate_eq_of_feeds hcoded' hcoded hshape' hshape
        (hlatch gate (mem_of_driver? hgate)) hin hgate (fun p hpq => ih p ?_)
      have hlt := h.depth_lt hpq
      omega

/-- All bits are at rest after one round for each gate. -/
theorem Acyclic.advance_iterate (h : Acyclic gates wires) :
    advance gates ((advance gates)^[gates.length] wires) =
      (advance gates)^[gates.length] wires := by
  obtain ⟨hcoded, -, -⟩ := iterate_advance hgates hwires gates.length
  refine eq_of_codeAt? (shape_advance hgates hcoded) (fun q => ?_)
  rw [← Function.iterate_succ_apply' (advance gates)]
  exact h.codeAt?_iterate hgates hlatch hwires gates.length q (depth_le gates wires q)

end

/-! ## Solutions -/

section
variable {gates : List Gate} {wires : List Wire}

/-- A state that a round leaves alone is a solution. -/
theorem solution_of_fixed (hgates : ∀ gate ∈ gates, gate.Coded) (hwires : Coded wires) {k : Nat}
    (hfixed : advance gates ((advance gates)^[k] wires) = (advance gates)^[k] wires) :
    Solution gates wires ((advance gates)^[k] wires) := by
  obtain ⟨hcoded, hshape, hkept⟩ := iterate_advance hgates hwires k
  refine ⟨hshape, hkept, fun p gate hgate hin => ?_⟩
  obtain ⟨level, hlevel, hcode⟩ := codeAt?_advance_of_driver hgates hcoded hgate
  refine ⟨level, hlevel, ?_⟩
  rw [← isSome_codeAt?_of_shape hshape] at hin
  obtain ⟨code, hin⟩ := Option.isSome_iff_exists.1 hin
  rw [hfixed, hin, Option.map_some] at hcode
  rw [hin, hcode]

/-- A solution over coded wires is coded: driven bits have levels, and the others are kept. -/
theorem Solution.coded {after : List Wire} (h : Solution gates wires after)
    (hwires : Coded wires) : Coded after := by
  refine coded_of_codeAt? (fun p code hcode => ?_)
  cases hp : driver? gates p with
  | none =>
    rw [h.kept p hp] at hcode
    exact hwires.isCode hcode
  | some gate =>
    have hin : (codeAt? wires p).isSome = true := by
      rw [← isSome_codeAt?_of_shape h.shape_eq, hcode]
      rfl
    obtain ⟨level, -, hlevel⟩ := h.driven p gate hp hin
    rw [hlevel, Option.some.injEq] at hcode
    exact ⟨level, hcode.symm⟩

/-- A solution stays one if the bits that have drivers held something else before. -/
theorem Solution.of_kept {before after : List Wire} (h : Solution gates before after)
    (hshape : shape before = shape wires)
    (hkept : ∀ p, driver? gates p = none → codeAt? before p = codeAt? wires p) :
    Solution gates wires after where
  shape_eq := h.shape_eq.trans hshape
  kept p hp := (h.kept p hp).trans (hkept p hp)
  driven p gate hgate hin := by
    rw [← isSome_codeAt?_of_shape hshape] at hin
    exact h.driven p gate hgate hin

/-- Acyclic logic has one solution: two of them agree on every bit, by induction on its depth. -/
theorem Solution.unique (hlatch : ∀ gate ∈ gates, GateKind.ofLabel? gate.kind ≠ some .latch)
    (hacyclic : Acyclic gates wires) (hwires : Coded wires) {a b : List Wire}
    (ha : Solution gates wires a) (hb : Solution gates wires b) : a = b := by
  have hbits : ∀ (n : Nat) (q : Port), depth gates wires q < n → codeAt? a q = codeAt? b q := by
    intro n
    induction n with
    | zero => exact fun q hq => absurd hq (Nat.not_lt_zero _)
    | succ n ih =>
      intro q hq
      cases hgate : driver? gates q with
      | none => rw [ha.kept q hgate, hb.kept q hgate]
      | some gate =>
        by_cases hin : (codeAt? wires q).isSome = true
        · have hsame : evaluate a gate = evaluate b gate := by
            refine evaluate_eq_of_feeds (ha.coded hwires) (hb.coded hwires) ha.shape_eq hb.shape_eq
              (hlatch gate (mem_of_driver? hgate)) hin hgate (fun p hpq => ih p ?_)
            have hlt := hacyclic.depth_lt hpq
            omega
          obtain ⟨level, hlevel, hcode⟩ := ha.driven q gate hgate hin
          obtain ⟨level', hlevel', hcode'⟩ := hb.driven q gate hgate hin
          rw [hsame, hlevel', Except.ok.injEq] at hlevel
          rw [hcode, hcode', hlevel]
        · rw [codeAt?_eq_none_of_shape ha.shape_eq hin, codeAt?_eq_none_of_shape hb.shape_eq hin]
  exact eq_of_codeAt? (ha.shape_eq.trans hb.shape_eq.symm)
    (fun q => hbits _ q (Nat.lt_succ_self _))

end

/-- Settling acyclic logic with fuel for more rounds than there are gates comes to the solution. -/
theorem settle_acyclic {gates : List Gate} {wires : List Wire}
    (hgates : ∀ gate ∈ gates, gate.Coded)
    (hlatch : ∀ gate ∈ gates, GateKind.ofLabel? gate.kind ≠ some .latch) (hwires : Coded wires)
    (hacyclic : Acyclic gates wires) {fuel : Nat} (hfuel : gates.length < fuel) :
    ∃ (final : List Wire) (rounds : Nat), settle gates fuel 0 wires = (final, .ok (some rounds)) ∧
      rounds ≤ gates.length + 1 ∧ Solution gates wires final := by
  have hrest := hacyclic.advance_iterate hgates hlatch hwires
  rcases settle_eq hgates fuel 0 wires hwires with ⟨k, -, hfixed, hbefore, hsettle⟩ | ⟨hmoved, -⟩
  · have hk : k ≤ gates.length := by
      by_contra hlt
      exact hbefore gates.length (Nat.not_le.1 hlt) hrest
    exact ⟨_, 0 + k + 1, hsettle, by omega, solution_of_fixed hgates hwires hfixed⟩
  · exact absurd hrest (hmoved gates.length hfuel)

/-- A propagation that comes to rest reports its rounds and leaves the wires it ended with. -/
theorem Simulator.propagate_of_settle (sim : Simulator) {final : List Wire} {rounds : Nat}
    (h : settle sim.circuit.gates sim.cap.toNat 0 sim.circuit.wires =
      (final, .ok (some rounds))) :
    sim.propagate =
      ({ sim with circuit := { sim.circuit with wires := final, stable := true } },
        .ok rounds) := by
  rw [propagate, h]

/-- Propagation through acyclic logic without latches, under a cap above the number of gates, ends
stable after at most one round more than there are gates. It leaves the wires in the only state in
which every driven bit holds what its driver makes of that state and every other bit is as it was;
so what the driven bits held before has no part in the outcome. -/
theorem Simulator.propagate_acyclic (sim : Simulator) (hwires : Coded sim.circuit.wires)
    (hgates : ∀ gate ∈ sim.circuit.gates, gate.Coded)
    (hlatch : ∀ gate ∈ sim.circuit.gates, GateKind.ofLabel? gate.kind ≠ some .latch)
    (hacyclic : Acyclic sim.circuit.gates sim.circuit.wires)
    (hcap : (sim.circuit.gates.length : Int) + 1 ≤ sim.cap) :
    ∃ (final : List Wire) (rounds : Nat),
      sim.propagate =
        ({ sim with circuit := { sim.circuit with wires := final, stable := true } },
          .ok rounds) ∧
      rounds ≤ sim.circuit.gates.length + 1 ∧
      Solution sim.circuit.gates sim.circuit.wires final ∧
      (∀ other, Solution sim.circuit.gates sim.circuit.wires other → other = final) ∧
      ∀ wires, shape wires = shape sim.circuit.wires → Coded wires →
        (∀ p, driver? sim.circuit.gates p = none →
          codeAt? wires p = codeAt? sim.circuit.wires p) →
        (sim.withWires wires).propagate.1 = sim.propagate.1 := by
  have hfuel : sim.circuit.gates.length < sim.cap.toNat := by omega
  obtain ⟨final, rounds, hsettle, hrounds, hsolution⟩ :=
    settle_acyclic hgates hlatch hwires hacyclic hfuel
  have hunique : ∀ other, Solution sim.circuit.gates sim.circuit.wires other → other = final :=
    fun other hother => hother.unique hlatch hacyclic hwires hsolution
  have hpropagate := sim.propagate_of_settle hsettle
  refine ⟨final, rounds, hpropagate, hrounds, hsolution, hunique, ?_⟩
  intro wires hshape hcoded hkept
  obtain ⟨final', rounds', hsettle', -, hsolution'⟩ :=
    settle_acyclic hgates hlatch hcoded (hacyclic.of_shape hshape.symm) hfuel
  have hsame : final' = final := hunique final' (hsolution'.of_kept hshape hkept)
  have hpropagate' := (sim.withWires wires).propagate_of_settle hsettle'
  rw [hpropagate, hpropagate', hsame]
  rfl

/-- A flip-flop behind its own output and two inverters, listed against the flow. A buffer also puts
out a bit of a later inverter, which in turn puts out one that is not there. -/
def twisted : Simulator where
  circuit := {
    wires := [{ id := 0, name := "w", width := 4, state := [0, 0, 2, 0] }]
    gates := [
      { id := 0, name := "last", kind := "NOT", inputs := [⟨0, 2⟩], outputs := [⟨0, 3⟩] },
      { id := 1, name := "idle", kind := "BUF", inputs := [⟨0, 0⟩], outputs := [⟨0, 2⟩] },
      { id := 2, name := "first", kind := "NOT", inputs := [⟨0, 1⟩],
        outputs := [⟨0, 2⟩, ⟨0, 9⟩] },
      { id := 3, name := "store", kind := "DFF", inputs := [⟨0, 3⟩, ⟨0, 0⟩],
        outputs := [⟨0, 1⟩], stored := some 1 }] }
  cap := 5

/-- The inverters follow what the flip-flop stores, whatever the bits held before. -/
theorem propagate_twisted :
    Acyclic twisted.circuit.gates twisted.circuit.wires ∧
      twisted.propagate.1.circuit.stable = true ∧
      twisted.propagate.1.circuit.wires.map (·.state) = [[0, 1, 0, 1]] ∧
      Solution twisted.circuit.gates twisted.circuit.wires twisted.propagate.1.circuit.wires := by
  have hacyclic : Acyclic twisted.circuit.gates twisted.circuit.wires :=
    acyclic_of_rank (fun p => p.bit.toNat) (by decide +kernel) _
  obtain ⟨final, rounds, hpropagate, -, hsolution, -⟩ :=
    Simulator.propagate_acyclic twisted (by decide) (by decide) (by decide +kernel) hacyclic
      (by decide)
  have hstates : twisted.propagate.1.circuit.wires.map (·.state) = [[0, 1, 0, 1]] := by
    decide +kernel
  rw [hpropagate] at hstates ⊢
  exact ⟨hacyclic, rfl, hstates, hsolution⟩

end Switchyard.Logic
