import Mathlib.Data.List.Perm.Basic
import Switchyard.Proofs.Logic.Updates

/-!
# Gates with any number of inputs

Conjunction, disjunction and exclusive or of many levels are folds of the connectives of two. What
they come to is said here without an order: a conjunction is low if any level is low and high if all
are high, a disjunction is high if any is high and low if all are low, and an exclusive or of known
levels is their parity (`Signal.conjunction`, `Signal.disjunction`, `Signal.parity`). Each of these
extends its connective (`Signal.Extends`), from which it follows that the fold is this, that parts
can be taken together, and that the order does not matter. Gates with any number of inputs follow
these rules (`evaluate_of_rule?`, `evaluate_wide`).
-/

namespace Switchyard

/-! ## Connectives of many levels -/

namespace Signal

/-- The conjunction of levels: low if any is low, high if all are high, and unknown otherwise. -/
def conjunction (levels : List Signal) : Signal :=
  if low ∈ levels then low else if ∀ v ∈ levels, v = high then high else unknown

/-- The disjunction of levels: high if any is high, low if all are low, and unknown otherwise. -/
def disjunction (levels : List Signal) : Signal :=
  if high ∈ levels then high else if ∀ v ∈ levels, v = low then low else unknown

/-- The exclusive or of levels: unknown if any is unknown, and otherwise high if the number of high
ones is odd and low if it is even. -/
def parity (levels : List Signal) : Signal :=
  if unknown ∈ levels then unknown else if levels.count high % 2 = 1 then high else low

/-- Two levels that are low together and high together are equal. -/
theorem eq_of_known_iff {v w : Signal} (hlow : v = low ↔ w = low) (hhigh : v = high ↔ w = high) :
    v = w := by
  cases v <;> cases w <;> simp at hlow hhigh ⊢

/-- A conjunction of two levels is low exactly if one of them is. -/
theorem and_eq_low_iff {v w : Signal} : v.and w = low ↔ v = low ∨ w = low := by
  cases v <;> cases w <;> decide

/-- A conjunction of two levels is high exactly if both are. -/
theorem and_eq_high_iff {v w : Signal} : v.and w = high ↔ v = high ∧ w = high := by
  cases v <;> cases w <;> decide

/-- A conjunction is low exactly if one of the levels is. -/
theorem conjunction_eq_low_iff {levels : List Signal} :
    conjunction levels = low ↔ low ∈ levels := by
  unfold conjunction
  split
  · next hlow => exact iff_of_true rfl hlow
  · next hlow => split <;> exact iff_of_false nofun hlow

/-- A conjunction is high exactly if all the levels are. -/
theorem conjunction_eq_high_iff {levels : List Signal} :
    conjunction levels = high ↔ ∀ v ∈ levels, v = high := by
  unfold conjunction
  split
  · next hlow => exact iff_of_false nofun (fun h => by cases h low hlow)
  · split
    · next hhigh => exact iff_of_true rfl hhigh
    · next hhigh => exact iff_of_false nofun hhigh

/-- Negating twice changes nothing, the unknown level included. -/
protected theorem not_not (v : Signal) : v.not.not = v := by
  cases v <;> rfl

/-- The negation of a conjunction is the disjunction of the negations. -/
protected theorem not_and (v w : Signal) : (v.and w).not = v.not.or w.not := by
  cases v <;> cases w <;> rfl

/-- The disjunction of negated levels is the negated conjunction. -/
theorem disjunction_map_not (levels : List Signal) :
    disjunction (levels.map Signal.not) = (conjunction levels).not := by
  have hlow : high ∈ levels.map Signal.not ↔ low ∈ levels := by
    rw [List.mem_map]
    constructor
    · rintro ⟨v, hv, hnot⟩
      cases v with
      | low => exact hv
      | high | unknown => cases hnot
    · exact fun h => ⟨low, h, rfl⟩
  have hhigh : (∀ w ∈ levels.map Signal.not, w = low) ↔ ∀ v ∈ levels, v = high := by
    rw [List.forall_mem_map]
    exact forall₂_congr (fun v _ => by cases v <;> decide)
  simp only [conjunction, disjunction, hlow, hhigh]
  split
  · rfl
  · split <;> rfl

/-- The conjunction of negated levels is the negated disjunction. -/
theorem conjunction_map_not (levels : List Signal) :
    conjunction (levels.map Signal.not) = (disjunction levels).not := by
  rw [← Signal.not_not (conjunction _), ← disjunction_map_not, List.map_map]
  simp [Function.comp_def, Signal.not_not]

/-- A function of level lists puts a connective between the levels of a list, whose order and
grouping do not matter; of no levels it makes what the connective leaves out. -/
structure Extends (connective : Signal → Signal → Signal) (rule : List Signal → Signal) : Prop where
  assoc : ∀ u v w, connective (connective u v) w = connective u (connective v w)
  comm : ∀ v w, connective v w = connective w v
  nil : ∀ v, connective (rule []) v = v
  cons : ∀ v levels, rule (v :: levels) = connective v (rule levels)

/-- Conjunctions of any length extend the conjunction of two levels. -/
theorem extends_conjunction : Extends Signal.and conjunction where
  assoc u v w := by cases u <;> cases v <;> cases w <;> rfl
  comm v w := by cases v <;> cases w <;> rfl
  nil v := by cases v <;> rfl
  cons v levels := by
    refine eq_of_known_iff ?_ ?_
    · rw [and_eq_low_iff, conjunction_eq_low_iff, conjunction_eq_low_iff, List.mem_cons, eq_comm]
    · rw [and_eq_high_iff, conjunction_eq_high_iff, conjunction_eq_high_iff, List.forall_mem_cons]

/-- Disjunctions of any length extend the disjunction of two levels. -/
theorem extends_disjunction : Extends Signal.or disjunction where
  assoc u v w := by cases u <;> cases v <;> cases w <;> rfl
  comm v w := by cases v <;> cases w <;> rfl
  nil v := by cases v <;> rfl
  cons v levels := by
    -- the law of the conjunction, at the negated levels
    rw [← Signal.not_not (disjunction (v :: levels)), ← Signal.not_not (disjunction levels),
      ← conjunction_map_not, ← conjunction_map_not, List.map_cons, extends_conjunction.cons,
      Signal.not_and, Signal.not_not]

/-- Parities of any length extend the exclusive disjunction of two levels. -/
theorem extends_parity : Extends Signal.xor parity where
  assoc u v w := by cases u <;> cases v <;> cases w <;> rfl
  comm v w := by cases v <;> cases w <;> rfl
  nil v := by cases v <;> rfl
  cons v levels := by
    unfold parity
    by_cases hunknown : unknown ∈ levels
    · cases v <;> simp [hunknown, Signal.xor]
    · rcases Nat.mod_two_eq_zero_or_one (levels.count high) with heven | hodd
      · cases v <;> simp [hunknown, heven, Nat.add_mod, Signal.xor]
      · cases v <;> simp [hunknown, hodd, Nat.add_mod, Signal.xor]

namespace Extends

variable {connective : Signal → Signal → Signal} {rule : List Signal → Signal}
  (h : Extends connective rule)
include h

/-- The rule is the fold of the connective over the levels. -/
theorem foldl_eq (v : Signal) (levels : List Signal) :
    levels.foldl connective v = rule (v :: levels) := by
  induction levels generalizing v with
  | nil => rw [h.cons, h.comm, h.nil, List.foldl_nil]
  | cons w levels ih => rw [List.foldl_cons, ih, h.cons, h.cons, h.cons, h.assoc]

/-- The levels of two lists together make what the connective makes of both results. -/
theorem append (levels others : List Signal) :
    rule (levels ++ others) = connective (rule levels) (rule others) := by
  induction levels with
  | nil => rw [h.nil, List.nil_append]
  | cons v levels ih => rw [List.cons_append, h.cons, h.cons, h.assoc, ih]

/-- The order of the levels does not matter. -/
theorem perm {levels others : List Signal} (hperm : levels.Perm others) :
    rule levels = rule others := by
  induction hperm with
  | nil => rfl
  | cons v _ ih => rw [h.cons, h.cons, ih]
  | swap v w levels => rw [h.cons, h.cons, h.cons, h.cons, ← h.assoc, ← h.assoc, h.comm v w]
  | trans _ _ ih ih' => exact ih.trans ih'

end Extends

end Signal

/-- What a kind that takes any number of inputs makes of their levels; the other kinds have no such
rule. -/
def GateKind.rule? : GateKind → Option (List Signal → Signal)
  | .and => some Signal.conjunction
  | .or => some Signal.disjunction
  | .nand => some (fun levels => (Signal.conjunction levels).not)
  | .nor => some (fun levels => (Signal.disjunction levels).not)
  | .xor => some Signal.parity
  | .not | .buf | .mux | .dff | .latch => none

namespace Logic

open Signal

/-! ## Gates -/

/-- The gate is of a kind. -/
def Gate.Is (gate : Gate) (kind : GateKind) : Prop :=
  GateKind.ofLabel? gate.kind = some kind

instance (gate : Gate) (kind : GateKind) : Decidable (gate.Is kind) :=
  inferInstanceAs (Decidable (_ = _))

/-- The inputs of a gate read as levels. -/
def Gate.Reads (gate : Gate) (wires : List Wire) (levels : List Signal) : Prop :=
  List.Forall₂ (fun p level => read wires p = .ok level) gate.inputs levels

/-- A gate whose kind has a rule combines its levels by it. -/
theorem combine_of_rule? {kind : GateKind} {rule : List Signal → Signal}
    (hrule : kind.rule? = some rule) {levels : List Signal} (hlevels : levels ≠ []) :
    combine kind levels = rule levels := by
  obtain ⟨v, levels, rfl⟩ := List.exists_cons_of_ne_nil hlevels
  cases kind <;> cases hrule
  · exact extends_conjunction.foldl_eq v levels
  · exact extends_disjunction.foldl_eq v levels
  · exact extends_parity.foldl_eq v levels
  · exact congrArg Signal.not (extends_conjunction.foldl_eq v levels)
  · exact congrArg Signal.not (extends_disjunction.foldl_eq v levels)

/-- No rule depends on the order of the levels. -/
theorem rule?_perm {kind : GateKind} {rule : List Signal → Signal}
    (hrule : kind.rule? = some rule) {levels others : List Signal} (h : levels.Perm others) :
    rule levels = rule others := by
  cases kind <;> cases hrule
  · exact extends_conjunction.perm h
  · exact extends_disjunction.perm h
  · exact extends_parity.perm h
  · exact congrArg Signal.not (extends_conjunction.perm h)
  · exact congrArg Signal.not (extends_disjunction.perm h)

section
variable {wires : List Wire} {gate : Gate} {levels : List Signal}

/-- A gate reads levels from coded wires. -/
theorem Coded.exists_reads (h : Coded wires) (gate : Gate) : ∃ levels, gate.Reads wires levels := by
  obtain ⟨levels, hlevels⟩ := exists_mapM_eq_ok (fun p (_ : p ∈ gate.inputs) => h.read_ok p)
  exact ⟨levels, mapM_eq_ok_iff.1 hlevels⟩

/-- A gate of a kind that takes any number of inputs follows the rule of the kind. -/
theorem evaluate_of_rule? {kind : GateKind} {rule : List Signal → Signal} (hkind : gate.Is kind)
    (hrule : kind.rule? = some rule) (hinputs : gate.inputs ≠ [])
    (hreads : gate.Reads wires levels) : evaluate wires gate = .ok (rule levels) := by
  have hlevels : levels ≠ [] := by
    rw [← List.length_pos_iff, ← hreads.length_eq, List.length_pos_iff]
    exact hinputs
  rw [evaluate_of_reads (mapM_eq_ok_iff.2 hreads), ← combine_of_rule? hrule hlevels, hkind,
    List.isEmpty_eq_false_iff.2 hlevels, if_neg Bool.false_ne_true]
  cases kind with
  | dff | latch => cases hrule
  | _ => rfl

/-- The order of the inputs does not matter to such a gate. -/
theorem evaluate_of_perm {kind : GateKind} {rule : List Signal → Signal}
    (hrule : kind.rule? = some rule) (hkind : gate.Is kind) (hinputs : gate.inputs ≠ [])
    (hreads : gate.Reads wires levels) {other : Gate} (hother : other.Is kind)
    (hperm : other.inputs.Perm gate.inputs) : evaluate wires other = evaluate wires gate := by
  obtain ⟨moved, hmoved, hlevels⟩ := List.perm_comp_forall₂ hperm hreads
  have hinputs' : other.inputs ≠ [] := by
    intro hnil
    rw [hnil, List.nil_perm] at hperm
    exact hinputs hperm
  rw [evaluate_of_rule? hkind hrule hinputs hreads, evaluate_of_rule? hother hrule hinputs' hmoved,
    rule?_perm hrule hlevels]

/-- A gate of a kind whose rule extends a connective makes of the inputs of two gates of this kind
what the connective makes of both results. -/
theorem evaluate_append {kind : GateKind} {connective : Signal → Signal → Signal}
    {rule : List Signal → Signal} (hrule : kind.rule? = some rule)
    (hextends : Extends connective rule) (hkind : gate.Is kind) (hreads : gate.Reads wires levels)
    {first second : Gate} (hfirst : first.Is kind) (hsecond : second.Is kind)
    (hne : first.inputs ≠ []) (hne' : second.inputs ≠ [])
    (happend : gate.inputs = first.inputs ++ second.inputs) :
    ∃ v w, evaluate wires first = .ok v ∧ evaluate wires second = .ok w ∧
      evaluate wires gate = .ok (connective v w) := by
  have hread : ∀ p ∈ first.inputs ++ second.inputs, ∃ level, read wires p = .ok level := by
    rw [← happend]
    exact forall_mem_of_forall₂ hreads (fun p level h => ⟨level, h⟩)
  rw [List.forall_mem_append] at hread
  obtain ⟨vs, hvs⟩ := exists_mapM_eq_ok hread.1
  obtain ⟨ws, hws⟩ := exists_mapM_eq_ok hread.2
  have hvs := mapM_eq_ok_iff.1 hvs
  have hws := mapM_eq_ok_iff.1 hws
  have hboth : gate.Reads wires (vs ++ ws) := by
    rw [Gate.Reads, happend]
    exact List.rel_append hvs hws
  refine ⟨rule vs, rule ws, evaluate_of_rule? hfirst hrule hne hvs,
    evaluate_of_rule? hsecond hrule hne' hws, ?_⟩
  rw [evaluate_of_rule? hkind hrule (by rw [happend]; simp [hne]) hboth, hextends.append]

/-- Gates with any number of inputs follow the rules of three levels. The inputs can be read where
all codes are those of levels, and whatever they read as, a conjunction is low if any is low, high
if all are high and unknown otherwise, a disjunction the other way round, and an exclusive or is
unknown if any is unknown and the parity of the high ones otherwise; the other two kinds negate the
first two. So the order of the inputs does not matter, the inputs can be divided between two gates
of the kind followed by one of two inputs, and a gate that negates is one of the other kind on
negated inputs. -/
theorem evaluate_wide {wires : List Wire} {gate : Gate} (hinputs : gate.inputs ≠ []) :
    (Coded wires → ∃ levels, gate.Reads wires levels) ∧
    ∀ levels, gate.Reads wires levels →
      (gate.Is .and → evaluate wires gate = .ok (conjunction levels)) ∧
      (gate.Is .or → evaluate wires gate = .ok (disjunction levels)) ∧
      (gate.Is .nand → evaluate wires gate = .ok (conjunction levels).not) ∧
      (gate.Is .nor → evaluate wires gate = .ok (disjunction levels).not) ∧
      (gate.Is .xor → evaluate wires gate = .ok (parity levels)) ∧
      (∀ kind ∈ [GateKind.and, .or, .nand, .nor, .xor], gate.Is kind → ∀ other : Gate,
        other.Is kind → other.inputs.Perm gate.inputs →
        evaluate wires other = evaluate wires gate) ∧
      (∀ kind connective,
        (kind, connective) ∈ [(GateKind.and, Signal.and), (.or, Signal.or), (.xor, Signal.xor)] →
        gate.Is kind → ∀ first second : Gate, first.Is kind → second.Is kind →
        first.inputs ≠ [] → second.inputs ≠ [] → gate.inputs = first.inputs ++ second.inputs →
        ∃ v w, evaluate wires first = .ok v ∧ evaluate wires second = .ok w ∧
          evaluate wires gate = .ok (connective v w)) ∧
      ∀ (others : List Wire) (other : Gate), other.Reads others (levels.map Signal.not) →
        (gate.Is .nand → other.Is .or → evaluate wires gate = evaluate others other) ∧
        (gate.Is .nor → other.Is .and → evaluate wires gate = evaluate others other) := by
  refine ⟨fun h => h.exists_reads gate, fun levels hreads => ?_⟩
  have hrules : ∀ kind {rule}, kind.rule? = some rule → gate.Is kind →
      evaluate wires gate = .ok (rule levels) :=
    fun kind _ hrule hkind => evaluate_of_rule? hkind hrule hinputs hreads
  refine ⟨hrules .and rfl, hrules .or rfl, hrules .nand rfl, hrules .nor rfl, hrules .xor rfl,
    ?_, ?_, ?_⟩
  · intro kind hwide hkind other hother hperm
    obtain ⟨rule, hrule⟩ : ∃ rule, kind.rule? = some rule := by
      cases kind with
      | and | or | nand | nor | xor => exact ⟨_, rfl⟩
      | not | buf | mux | dff | latch => simp at hwide
    exact evaluate_of_perm hrule hkind hinputs hreads hother hperm
  · intro kind connective hmem hkind first second hfirst hsecond hne hne' happend
    obtain ⟨rule, hrule, hextends⟩ :
        ∃ rule, kind.rule? = some rule ∧ Extends connective rule := by
      simp only [List.mem_cons, Prod.mk.injEq, List.not_mem_nil, or_false] at hmem
      rcases hmem with ⟨rfl, rfl⟩ | ⟨rfl, rfl⟩ | ⟨rfl, rfl⟩
      · exact ⟨_, rfl, extends_conjunction⟩
      · exact ⟨_, rfl, extends_disjunction⟩
      · exact ⟨_, rfl, extends_parity⟩
    exact evaluate_append hrule hextends hkind hreads hfirst hsecond hne hne' happend
  · intro others other hothers
    have hinputs' : other.inputs ≠ [] := by
      rw [← List.length_pos_iff, hothers.length_eq, List.length_map, ← hreads.length_eq,
        List.length_pos_iff]
      exact hinputs
    refine ⟨fun hkind hother => ?_, fun hkind hother => ?_⟩
    · rw [hrules .nand rfl hkind, evaluate_of_rule? hother rfl hinputs' hothers,
        disjunction_map_not]
    · rw [hrules .nor rfl hkind, evaluate_of_rule? hother rfl hinputs' hothers,
        conjunction_map_not]

/-- A gate on a high, an unknown and a low bit and on a bit that there is not. -/
def mixed (kind : String) : Gate where
  id := 0
  name := "mixed"
  kind := kind
  inputs := [⟨0, 0⟩, ⟨1, 0⟩, ⟨2, 1⟩, ⟨7, 0⟩]

/-- The low bit decides a negated conjunction, in whatever order and on however many gates, and an
exclusive or remains unknown. -/
theorem evaluate_wide_mixed :
    let wires : List Wire := [{ id := 0, name := "a", width := 1, state := [1] },
      { id := 1, name := "b", width := 1, state := [2] },
      { id := 2, name := "c", width := 2, state := [1, 0] }]
    let levels := [Signal.high, .unknown, .low, .unknown]
    (mixed "nand").inputs ≠ [] ∧ (mixed "nand").Reads wires levels ∧
      evaluate wires (mixed "nand") = .ok .high ∧
      evaluate wires { mixed "Nand" with inputs := (mixed "nand").inputs.reverse } = .ok .high ∧
      evaluate wires (mixed "xor") = .ok .unknown ∧
      ∃ v w, evaluate wires { mixed "and" with inputs := [⟨0, 0⟩, ⟨1, 0⟩] } = .ok v ∧
        evaluate wires { mixed "and" with inputs := [⟨2, 1⟩, ⟨7, 0⟩] } = .ok w ∧ v.and w = .low := by
  intro wires levels
  have hreads : ∀ kind, (mixed kind).Reads wires levels := fun kind =>
    .cons rfl (.cons rfl (.cons rfl (.cons rfl .nil)))
  have hinputs : ∀ kind, (mixed kind).inputs ≠ [] := fun kind => List.cons_ne_nil _ _
  obtain ⟨-, -, hnand, -, -, hperm, -, -⟩ :=
    (evaluate_wide (hinputs "nand")).2 levels (hreads "nand")
  obtain ⟨-, -, -, -, hxor, -, -, -⟩ := (evaluate_wide (hinputs "xor")).2 levels (hreads "xor")
  obtain ⟨hand, -, -, -, -, -, happend, -⟩ :=
    (evaluate_wide (hinputs "and")).2 levels (hreads "and")
  have hhigh : evaluate wires (mixed "nand") = .ok .high := hnand (by decide +kernel)
  obtain ⟨v, w, hv, hw, hboth⟩ := happend .and Signal.and (by simp) (by decide +kernel)
    { mixed "and" with inputs := [⟨0, 0⟩, ⟨1, 0⟩] } { mixed "and" with inputs := [⟨2, 1⟩, ⟨7, 0⟩] }
    (by decide +kernel) (by decide +kernel) (List.cons_ne_nil _ _) (List.cons_ne_nil _ _) rfl
  refine ⟨hinputs _, hreads _, hhigh, ?_, hxor (by decide +kernel), v, w, hv, hw, ?_⟩
  · rw [← hhigh]
    exact hperm .nand (by simp) (by decide +kernel) _ (by decide +kernel) (List.reverse_perm _)
  · exact Except.ok.inj (hboth.symm.trans (hand (by decide +kernel)))

end

end Logic

end Switchyard
