import Mathlib.Order.Basic
import Switchyard.Proofs.Logic.Updates

/-!
# The order of information

Of two levels one is below the other if it is unknown or the same. Gates respect this order: when
some of their inputs become known, a known result stays what it is (`combine_mono`,
`evaluate_mono`). So does a round on wires that are in order bit by bit (`advance_mono`), whatever
drives what, and hence a run of any number of rounds (`iterate_advance_mono`).
-/

namespace Switchyard

namespace Signal

/-- The unknown level is below all levels, each other level below itself only. -/
instance : PartialOrder Signal where
  le a b := a = unknown ∨ a = b
  le_refl a := .inr rfl
  le_trans a b c hab hbc := by
    rcases hab with rfl | rfl
    · exact .inl rfl
    · exact hbc
  le_antisymm a b hab hba := by
    rcases hab with rfl | rfl
    · rcases hba with rfl | rfl <;> rfl
    · rfl

/-- Less is known of a level exactly if it is unknown or the levels are equal. -/
theorem le_iff {a b : Signal} : a ≤ b ↔ a = unknown ∨ a = b := Iff.rfl

instance (a b : Signal) : Decidable (a ≤ b) := decidable_of_iff _ le_iff.symm

/-- Nothing is less known than the unknown level. -/
theorem unknown_le (a : Signal) : unknown ≤ a := .inl rfl

/-- Above a known level there is only that level. -/
theorem eq_of_le {a b : Signal} (h : a ≤ b) (ha : a ≠ unknown) : a = b := h.resolve_left ha

/-- Knowing more of a level, one knows no less of its negation. -/
theorem not_mono {a b : Signal} (h : a ≤ b) : a.not ≤ b.not := by
  rcases h with rfl | rfl
  · exact unknown_le _
  · exact le_refl _

/-- A connective of two levels respects the order if it does so in each of them. -/
theorem mono_of_unknown {f : Signal → Signal → Signal} (hleft : ∀ a b, f unknown b ≤ f a b)
    (hright : ∀ a b, f a unknown ≤ f a b) {a a' b b' : Signal} (ha : a ≤ a') (hb : b ≤ b') :
    f a b ≤ f a' b' := by
  have hab : f a b ≤ f a' b := by
    rcases ha with rfl | rfl
    · exact hleft a' b
    · exact le_refl _
  have hab' : f a' b ≤ f a' b' := by
    rcases hb with rfl | rfl
    · exact hright a' b'
    · exact le_refl _
  exact hab.trans hab'

/-- Knowing more of two levels, one knows no less of their conjunction. -/
theorem and_mono {a a' b b' : Signal} (ha : a ≤ a') (hb : b ≤ b') : a.and b ≤ a'.and b' :=
  mono_of_unknown (fun a b => by cases a <;> cases b <;> decide)
    (fun a b => by cases a <;> cases b <;> decide) ha hb

/-- Knowing more of two levels, one knows no less of their disjunction. -/
theorem or_mono {a a' b b' : Signal} (ha : a ≤ a') (hb : b ≤ b') : a.or b ≤ a'.or b' :=
  mono_of_unknown (fun a b => by cases a <;> cases b <;> decide)
    (fun a b => by cases a <;> cases b <;> decide) ha hb

/-- Knowing more of two levels, one knows no less of their exclusive disjunction. -/
theorem xor_mono {a a' b b' : Signal} (ha : a ≤ a') (hb : b ≤ b') : a.xor b ≤ a'.xor b' :=
  mono_of_unknown (fun a b => by cases a <;> cases b <;> decide)
    (fun a b => by cases a <;> cases b <;> decide) ha hb

end Signal

namespace Logic

/-! ## Wires and gates that differ in levels -/

/-- A number is the code of a level, and another one is the same or the code of the unknown level.
-/
def CodeBelow (m n : Int) : Prop :=
  IsCode n ∧ (m = Signal.unknown.code ∨ m = n)

instance (m n : Int) : Decidable (CodeBelow m n) :=
  inferInstanceAs (Decidable (IsCode n ∧ (m = Signal.unknown.code ∨ m = n)))

/-- Wires that are the same but for their bits, each bit of the first below that of the second. -/
def Wire.Below (v w : Wire) : Prop :=
  { v with state := w.state } = w ∧ List.Forall₂ CodeBelow v.state w.state

instance (v w : Wire) : Decidable (v.Below w) :=
  inferInstanceAs (Decidable (_ ∧ _))

/-- The code that a gate stores, that of the unknown level if it stores nothing. -/
def Gate.storedCode (gate : Gate) : Int :=
  gate.stored.getD Signal.unknown.code

/-- Gates that are the same but for what they store, which is in order. -/
def Gate.Below (g h : Gate) : Prop :=
  { g with stored := h.stored } = h ∧ CodeBelow g.storedCode h.storedCode

instance (g h : Gate) : Decidable (g.Below h) :=
  inferInstanceAs (Decidable (_ ∧ _))

/-- Codes are ordered exactly if they are those of ordered levels. -/
theorem codeBelow_iff {m n : Int} :
    CodeBelow m n ↔ ∃ x y : Signal, m = x.code ∧ n = y.code ∧ x ≤ y := by
  constructor
  · rintro ⟨⟨y, rfl⟩, rfl | rfl⟩
    · exact ⟨.unknown, y, rfl, rfl, Signal.unknown_le y⟩
    · exact ⟨y, y, rfl, rfl, le_refl y⟩
  · rintro ⟨x, y, rfl, rfl, rfl | rfl⟩
    · exact ⟨⟨y, rfl⟩, .inl rfl⟩
    · exact ⟨⟨x, rfl⟩, .inr rfl⟩

/-- Lists of ordered codes hold codes, on both sides. -/
theorem isCode_of_forall₂ {ms ns : List Int} (h : List.Forall₂ CodeBelow ms ns) :
    (∀ code ∈ ms, IsCode code) ∧ ∀ code ∈ ns, IsCode code := by
  induction h with
  | nil => exact ⟨nofun, nofun⟩
  | cons hcode _ ih =>
    obtain ⟨x, y, rfl, rfl, -⟩ := codeBelow_iff.1 hcode
    exact ⟨List.forall_mem_cons.2 ⟨⟨x, rfl⟩, ih.1⟩, List.forall_mem_cons.2 ⟨⟨y, rfl⟩, ih.2⟩⟩

/-- Ordered wires hold codes, on both sides. -/
theorem Wire.Below.coded {v w : Wire} (h : v.Below w) :
    (∀ code ∈ v.state, IsCode code) ∧ ∀ code ∈ w.state, IsCode code :=
  isCode_of_forall₂ h.2

/-- Ordered wires have one shape. -/
theorem Wire.Below.shape_eq {v w : Wire} (h : v.Below w) : v.shape = w.shape := by
  obtain ⟨hsame, hstate⟩ := h
  calc v.shape = Wire.shape { v with state := w.state } := by
        rw [Wire.shape, Wire.shape, hstate.length_eq]
    _ = w.shape := by rw [hsame]

/-- Wires that are in order bit by bit. -/
abbrev WiresBelow (a b : List Wire) : Prop :=
  List.Forall₂ Wire.Below a b

/-- Gates that are in order one by one. -/
abbrev GatesBelow (gates others : List Gate) : Prop :=
  List.Forall₂ Gate.Below gates others

section
variable {a b : List Wire} (h : WiresBelow a b)
include h

/-- Ordered wires are coded, on both sides. -/
theorem WiresBelow.coded : Coded a ∧ Coded b := by
  induction h with
  | nil => exact ⟨nofun, nofun⟩
  | cons hwire _ ih =>
    exact ⟨List.forall_mem_cons.2 ⟨hwire.coded.1, ih.1⟩,
      List.forall_mem_cons.2 ⟨hwire.coded.2, ih.2⟩⟩

/-- Lists of ordered wires have one shape. -/
theorem WiresBelow.shape_eq : shape a = shape b := by
  induction h with
  | nil => rfl
  | cons hwire _ ih => exact congrArg₂ List.cons hwire.shape_eq ih

end

/-- Ordered gates are coded, on both sides. -/
theorem GatesBelow.coded {gates others : List Gate} (h : GatesBelow gates others) :
    (∀ gate ∈ gates, gate.Coded) ∧ ∀ gate ∈ others, gate.Coded := by
  induction h with
  | nil => exact ⟨nofun, nofun⟩
  | @cons g h _ _ hgate _ ih =>
    obtain ⟨x, y, hx, hy, -⟩ := codeBelow_iff.1 hgate.2
    refine ⟨List.forall_mem_cons.2 ⟨fun code hcode => ⟨x, ?_⟩, ih.1⟩,
      List.forall_mem_cons.2 ⟨fun code hcode => ⟨y, ?_⟩, ih.2⟩⟩
    · rwa [Gate.storedCode, hcode, Option.getD_some] at hx
    · rwa [Gate.storedCode, hcode, Option.getD_some] at hy

/-! ## Lists in order -/

section
variable {α β γ δ : Type} {R : α → β → Prop} {S : γ → δ → Prop} {xs : List α} {ys : List β}

/-- Related lists have related items at each place, or none there. -/
theorem forall₂_getElem? (h : List.Forall₂ R xs ys) (i : Nat) : Option.Rel R xs[i]? ys[i]? := by
  induction h generalizing i with
  | nil => exact .none
  | cons hxy _ ih =>
    cases i with
    | zero => exact .some hxy
    | succ i => exact ih i

/-- Replacing an item on both sides by related ones keeps lists related. -/
theorem forall₂_set (h : List.Forall₂ R xs ys) {x : α} {y : β} (hxy : R x y) (i : Nat) :
    List.Forall₂ R (xs.set i x) (ys.set i y) := by
  induction h generalizing i with
  | nil => exact .nil
  | cons hfirst hrest ih =>
    cases i with
    | zero => exact .cons hxy hrest
    | succ i => exact .cons hfirst (ih i)

/-- Changing an item on both sides by functions that keep the relation keeps lists related. -/
theorem forall₂_modify (h : List.Forall₂ R xs ys) {f : α → α} {g : β → β}
    (hfg : ∀ x y, R x y → R (f x) (g y)) (i : Nat) :
    List.Forall₂ R (xs.modify i f) (ys.modify i g) := by
  induction h generalizing i with
  | nil => simp
  | cons hfirst hrest ih =>
    cases i with
    | zero => exact .cons (hfg _ _ hfirst) hrest
    | succ i => exact .cons hfirst (ih i)

/-- Two pairs of related lists are related pair by pair. -/
theorem forall₂_zip {us : List γ} {vs : List δ} (h : List.Forall₂ R xs ys)
    (h' : List.Forall₂ S us vs) :
    List.Forall₂ (fun p q => R p.1 q.1 ∧ S p.2 q.2) (xs.zip us) (ys.zip vs) := by
  induction h generalizing us vs with
  | nil => exact .nil
  | cons hxy _ ih =>
    cases h' with
    | nil => exact .nil
    | cons huv hrest => exact .cons ⟨hxy, huv⟩ (ih hrest)

/-- Computations along two lists that succeed in pairs with results in order. -/
theorem exists_mapM_forall₂ {ε : Type} {f : α → Except ε γ} {g : β → Except ε δ}
    (h : List.Forall₂ (fun x y => ∃ u v, f x = .ok u ∧ g y = .ok v ∧ S u v) xs ys) :
    ∃ us vs, xs.mapM f = .ok us ∧ ys.mapM g = .ok vs ∧ List.Forall₂ S us vs := by
  simp only [mapM_eq_ok_iff]
  induction h with
  | nil => exact ⟨[], [], .nil, .nil, .nil⟩
  | cons hxy _ ih =>
    obtain ⟨u, v, hu, hv, huv⟩ := hxy
    obtain ⟨us, vs, hus, hvs, hrest⟩ := ih
    exact ⟨u :: us, v :: vs, .cons hu hus, .cons hv hvs, .cons huv hrest⟩

end

/-! ## Reading and writing bits -/

section
variable {a b : List Wire} (h : WiresBelow a b)
include h

/-- The codes of a bit are ordered, or the bit is missing from both. -/
theorem codeAt?_mono (p : Port) : Option.Rel CodeBelow (codeAt? a p) (codeAt? b p) := by
  unfold codeAt?
  split
  · have hwire := forall₂_getElem? h p.wire.toNat
    generalize a[p.wire.toNat]? = v at hwire
    generalize b[p.wire.toNat]? = w at hwire
    cases hwire with
    | none => exact .none
    | some hwire => exact forall₂_getElem? hwire.2 p.bit.toNat
  · exact .none

/-- The levels read at a port are ordered, and both are read. -/
theorem read_mono (p : Port) : ∃ x y, read a p = .ok x ∧ read b p = .ok y ∧ x ≤ y := by
  have hcode := codeAt?_mono h p
  unfold read
  generalize codeAt? a p = m at hcode
  generalize codeAt? b p = n at hcode
  cases hcode with
  | none => exact ⟨.unknown, .unknown, rfl, rfl, le_refl _⟩
  | some hcode =>
    obtain ⟨x, y, rfl, rfl, hxy⟩ := codeBelow_iff.1 hcode
    exact ⟨x, y, levelOf_code x, levelOf_code y, hxy⟩

/-- Writing ordered levels keeps wires ordered. -/
theorem write_mono (p : Port) {x y : Signal} (hxy : x ≤ y) :
    WiresBelow (write a p x) (write b p y) := by
  unfold write
  split
  · refine forall₂_modify h (fun v w hwire => ⟨?_, ?_⟩) _
    · rw [← hwire.1]
    · exact forall₂_set hwire.2 (codeBelow_iff.2 ⟨x, y, rfl, rfl, hxy⟩) _
  · exact h

end

/-! ## Gates -/

/-- A gate that knows more of its inputs knows no less of its output. -/
theorem combine_mono (kind : GateKind) {xs ys : List Signal} (h : List.Forall₂ (· ≤ ·) xs ys) :
    combine kind xs ≤ combine kind ys := by
  cases h with
  | nil => exact le_refl _
  | @cons x y xs ys hxy hrest =>
    have hfold : ∀ {f : Signal → Signal → Signal},
        (∀ {a a' b b'}, a ≤ a' → b ≤ b' → f a b ≤ f a' b') → xs.foldl f x ≤ ys.foldl f y :=
      fun hf => List.rel_foldl (P := (· ≤ ·)) (R := (· ≤ ·))
        (fun _ _ ha _ _ hb => hf ha hb) hxy hrest
    cases kind with
    | and => exact hfold Signal.and_mono
    | or => exact hfold Signal.or_mono
    | xor => exact hfold Signal.xor_mono
    | not => exact Signal.not_mono hxy
    | buf => exact hxy
    | nand => exact Signal.not_mono (hfold Signal.and_mono)
    | nor => exact Signal.not_mono (hfold Signal.or_mono)
    | mux =>
      -- a multiplexer looks at its first three inputs
      cases hrest with
      | nil => exact le_refl _
      | cons hxy' hrest =>
        cases hrest with
        | nil => exact le_refl _
        | @cons select _ _ _ hselect _ =>
          rcases hselect with rfl | rfl
          · exact Signal.unknown_le _
          · cases select with
            | low => exact hxy
            | high => exact hxy'
            | unknown => exact le_refl _
    | dff => exact le_refl _
    | latch => exact le_refl _

/-- The level a gate stores is the one its code stands for. -/
theorem storedLevel_eq (gate : Gate) : storedLevel gate = levelOf gate.storedCode := by
  unfold storedLevel Gate.storedCode
  cases gate.stored with
  | none => rfl
  | some code => rfl

section
variable {a b : List Wire} {g h : Gate}

theorem Gate.Below.kind_eq (hgate : g.Below h) : g.kind = h.kind :=
  (congrArg Gate.kind hgate.1 :)

theorem Gate.Below.inputs_eq (hgate : g.Below h) : g.inputs = h.inputs :=
  (congrArg Gate.inputs hgate.1 :)

theorem Gate.Below.outputs_eq (hgate : g.Below h) : g.outputs = h.outputs :=
  (congrArg Gate.outputs hgate.1 :)

/-- The levels stored by ordered gates are ordered. -/
theorem storedLevel_mono (hgate : g.Below h) :
    ∃ x y, storedLevel g = .ok x ∧ storedLevel h = .ok y ∧ x ≤ y := by
  obtain ⟨x, y, hx, hy, hxy⟩ := codeBelow_iff.1 hgate.2
  refine ⟨x, y, ?_, ?_, hxy⟩
  · rw [storedLevel_eq, hx, levelOf_code]
  · rw [storedLevel_eq, hy, levelOf_code]

/-- The level a latch puts out is known no less if more is known of its inputs and of its output. -/
theorem latchLevel_mono (hwires : WiresBelow a b) (hgate : g.Below h) {xs ys : List Signal}
    (hlevels : List.Forall₂ (· ≤ ·) xs ys) :
    ∃ x y, latchLevel a g xs = .ok x ∧ latchLevel b h ys = .ok y ∧ x ≤ y := by
  cases hlevels with
  | nil => exact ⟨.unknown, .unknown, rfl, rfl, le_refl _⟩
  | @cons x y _ _ hxy hrest =>
    cases hrest with
    | nil =>
      refine ⟨.unknown, .unknown, ?_, ?_, le_refl _⟩ <;> rfl
    | @cons enable enable' _ _ henable _ =>
      obtain ⟨y', hy'⟩ := hwires.coded.2.latchLevel_ok h (y :: enable' :: _)
      rcases henable with rfl | rfl
      · exact ⟨.unknown, y', rfl, hy', Signal.unknown_le y'⟩
      · cases enable with
        | low =>
          unfold latchLevel
          rw [hgate.outputs_eq]
          cases h.outputs with
          | nil => exact ⟨.unknown, .unknown, rfl, rfl, le_refl _⟩
          | cons p _ => exact read_mono hwires p
        | high => exact ⟨x, y, rfl, rfl, hxy⟩
        | unknown => exact ⟨.unknown, .unknown, rfl, rfl, le_refl _⟩

/-- What a gate puts out only becomes more known when its inputs and what it stores do. -/
theorem evaluate_mono (hwires : WiresBelow a b) (hgate : g.Below h) :
    ∃ x y, evaluate a g = .ok x ∧ evaluate b h = .ok y ∧ x ≤ y := by
  obtain ⟨xs, ys, hxs, hys, hlevels⟩ := exists_mapM_forall₂
    (List.forall₂_same.2 (fun p (_ : p ∈ g.inputs) => read_mono hwires p))
  have hempty : xs.isEmpty = ys.isEmpty := by
    cases hlevels <;> rfl
  rw [evaluate_of_reads hxs, evaluate_of_reads (hgate.inputs_eq ▸ hys), hgate.kind_eq, hempty]
  split
  · exact ⟨.unknown, .unknown, rfl, rfl, le_refl _⟩
  · split
    · exact storedLevel_mono hgate
    · exact latchLevel_mono hwires hgate hlevels
    · exact ⟨_, _, rfl, rfl, combine_mono _ hlevels⟩
    · exact ⟨.unknown, .unknown, rfl, rfl, le_refl _⟩

/-- Driving a gate with ordered levels keeps wires ordered. -/
theorem drive_mono (hwires : WiresBelow a b) (hgate : g.Below h) {x y : Signal} (hxy : x ≤ y) :
    WiresBelow (drive a g x) (drive b h y) := by
  unfold drive
  rw [hgate.outputs_eq]
  refine List.rel_foldl (R := Eq) (fun _ _ hwires p q hpq => ?_) hwires
    (List.forall₂_same.2 (fun _ _ => rfl))
  subst hpq
  exact write_mono hwires p hxy

end

/-! ## Rounds -/

section
variable {a b : List Wire} {gates others : List Gate}

/-- A round of gates in order keeps wires in order. -/
theorem advance_mono (hgates : GatesBelow gates others) (hwires : WiresBelow a b) :
    WiresBelow (advance gates a) (advance others b) := by
  obtain ⟨xs, ys, hxs, hys, hlevels⟩ :=
    exists_mapM_forall₂ (hgates.imp (fun _ _ hgate => evaluate_mono hwires hgate))
  have hround : ∀ {gates : List Gate} {wires : List Wire} {levels : List Signal},
      gates.mapM (evaluate wires) = .ok levels → advance gates wires =
        (gates.zip levels).foldl (fun wires p => drive wires p.1 p.2) wires := by
    intro gates wires levels hlevels
    rw [advance, round, hlevels]
    rfl
  rw [hround hxs, hround hys]
  exact List.rel_foldl (P := WiresBelow) (R := fun p q => p.1.Below q.1 ∧ p.2 ≤ q.2)
    (fun _ _ hwires p q hpq => drive_mono hwires hpq.1 hpq.2) hwires (forall₂_zip hgates hlevels)

/-- Any number of rounds on both sides keeps wires ordered. -/
theorem iterate_advance_mono (hgates : GatesBelow gates others) (hwires : WiresBelow a b) (n : Nat) :
    WiresBelow ((advance gates)^[n] a) ((advance others)^[n] b) := by
  induction n with
  | zero => exact hwires
  | succ n ih =>
    rw [Function.iterate_succ_apply', Function.iterate_succ_apply']
    exact advance_mono hgates ih

end

end Logic

end Switchyard
