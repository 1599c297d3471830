import Mathlib.Tactic.Common
import Switchyard.Logic.Simulator

/-!
# Wire states bit by bit

Gates read and write single bits. What a write does to the wires is said here by the bits: the bit
written takes the code (`codeAt?_write`), all others and the shape of the wires stay
(`shape_write`), and wires of one shape with the same bits are the same (`eq_of_codeAt?`). Codes
that denote levels (`Coded`) can be read (`Coded.read_ok`).
-/

namespace Switchyard.Logic

/-- A wire with every bit low. -/
def Wire.shape (wire : Wire) : Wire :=
  { wire with state := List.replicate wire.state.length Signal.low.code }

/-- The wires with every bit low: what no gate can change. -/
def shape (wires : List Wire) : List Wire :=
  wires.map Wire.shape

/-- A number is the code of a level. -/
def IsCode (code : Int) : Prop :=
  ∃ level : Signal, code = level.code

/-- There are three codes. -/
theorem isCode_iff {code : Int} : IsCode code ↔ code = 0 ∨ code = 1 ∨ code = 2 := by
  constructor
  · rintro ⟨level, rfl⟩
    cases level
    · exact .inl rfl
    · exact .inr (.inl rfl)
    · exact .inr (.inr rfl)
  · rintro (rfl | rfl | rfl)
    · exact ⟨.low, rfl⟩
    · exact ⟨.high, rfl⟩
    · exact ⟨.unknown, rfl⟩

instance (code : Int) : Decidable (IsCode code) :=
  decidable_of_iff _ isCode_iff.symm

/-- Every bit holds the code of a level. -/
def Coded (wires : List Wire) : Prop :=
  ∀ wire ∈ wires, ∀ code ∈ wire.state, IsCode code

instance (wires : List Wire) : Decidable (Coded wires) :=
  inferInstanceAs (Decidable (∀ wire ∈ wires, ∀ code ∈ wire.state, IsCode code))

/-- What a gate stores, if anything, is the code of a level. -/
def Gate.Coded (gate : Gate) : Prop :=
  ∀ code ∈ gate.stored, IsCode code

instance (gate : Gate) : Decidable gate.Coded :=
  inferInstanceAs (Decidable (∀ code ∈ gate.stored, IsCode code))

/-! ## Bits of a shape -/

/-- Setting a bit keeps the shape of a wire. -/
theorem Wire.shape_set (wire : Wire) (i : Nat) (code : Int) :
    Wire.shape { wire with state := wire.state.set i code } = wire.shape := by
  simp [Wire.shape]

/-- Writing to a bit keeps the shape of the wires. -/
theorem shape_write (wires : List Wire) (p : Port) (level : Signal) :
    shape (write wires p level) = shape wires := by
  unfold write
  split
  · refine List.ext_getElem? (fun i => ?_)
    rw [shape, shape, List.getElem?_map, List.getElem?_map, List.getElem?_modify]
    cases wires[i]? with
    | none => rfl
    | some wire =>
      by_cases hi : p.wire.toNat = i
      · simp [hi, Wire.shape_set]
      · simp [hi]
  · rfl

/-- Wires of one shape have wires of one shape at each place. -/
theorem getElem?_of_shape {a b : List Wire} (h : shape a = shape b) (i : Nat) :
    a[i]?.map Wire.shape = b[i]?.map Wire.shape := by
  rw [← List.getElem?_map, ← List.getElem?_map]
  exact congrArg (·[i]?) h

/-- Wires of one shape have the same number of bits. -/
theorem Wire.length_state_of_shape {v w : Wire} (h : v.shape = w.shape) :
    v.state.length = w.state.length := by
  simpa [Wire.shape] using congrArg (fun wire => wire.state.length) h

/-- A wire is its shape and its state. -/
theorem Wire.eq_of_shape {v w : Wire} (h : v.shape = w.shape) (hstate : v.state = w.state) :
    v = w := by
  calc v = { v.shape with state := v.state } := rfl
    _ = { w.shape with state := w.state } := by rw [h, hstate]
    _ = w := rfl

/-- The code at a port is found in the state of its wire. -/
theorem codeAt?_eq (wires : List Wire) (i j : Nat) :
    codeAt? wires ⟨i, j⟩ = wires[i]?.bind (fun wire => wire.state[j]?) := by
  simp [codeAt?]

/-- Wires of one shape have the same bits. -/
theorem isSome_codeAt?_of_shape {a b : List Wire} (h : shape a = shape b) (p : Port) :
    (codeAt? a p).isSome = (codeAt? b p).isSome := by
  unfold codeAt?
  split
  · have hwire := getElem?_of_shape h p.wire.toNat
    cases ha : a[p.wire.toNat]? with
    | none =>
      rw [ha, Option.map_none] at hwire
      rw [Option.map_eq_none_iff.1 hwire.symm]
    | some v =>
      rw [ha, Option.map_some] at hwire
      obtain ⟨w, hw, hshape⟩ := Option.map_eq_some_iff.1 hwire.symm
      have hlength := Wire.length_state_of_shape hshape
      rw [hw, Option.bind_some, Option.bind_some, Bool.eq_iff_iff, Option.isSome_iff_ne_none,
        Option.isSome_iff_ne_none, ne_eq, ne_eq, List.getElem?_eq_none_iff,
        List.getElem?_eq_none_iff, hlength]
  · rfl

/-- Wires of one shape with the same bits are the same. -/
theorem eq_of_codeAt? {a b : List Wire} (h : shape a = shape b)
    (hbits : ∀ p, codeAt? a p = codeAt? b p) : a = b := by
  refine List.ext_getElem? (fun i => ?_)
  have hwire := getElem?_of_shape h i
  cases ha : a[i]? with
  | none =>
    rw [ha, Option.map_none] at hwire
    exact (Option.map_eq_none_iff.1 hwire.symm).symm
  | some v =>
    rw [ha, Option.map_some] at hwire
    obtain ⟨w, hw, hshape⟩ := Option.map_eq_some_iff.1 hwire.symm
    have hstate : v.state = w.state := by
      refine List.ext_getElem? (fun j => ?_)
      have hbit := hbits ⟨i, j⟩
      rwa [codeAt?_eq, codeAt?_eq, ha, hw] at hbit
    rw [hw, Wire.eq_of_shape hshape.symm hstate]

/-- The written bit takes the code of the level, if it is there, and all others keep theirs. -/
theorem codeAt?_write (wires : List Wire) (p q : Port) (level : Signal) :
    codeAt? (write wires p level) q =
      if p = q then (codeAt? wires q).map (fun _ => level.code) else codeAt? wires q := by
  unfold write
  by_cases hp : 0 ≤ p.wire ∧ 0 ≤ p.bit
  · rw [if_pos hp]
    unfold codeAt?
    by_cases hq : 0 ≤ q.wire ∧ 0 ≤ q.bit
    · rw [if_pos hq, if_pos hq, List.getElem?_modify]
      have hports : p = q ↔ p.wire.toNat = q.wire.toNat ∧ p.bit.toNat = q.bit.toNat := by
        obtain ⟨w, b⟩ := p
        obtain ⟨w', b'⟩ := q
        dsimp only at hp hq ⊢
        rw [Port.mk.injEq]
        omega
      cases hwire : wires[q.wire.toNat]? with
      | none => simp
      | some wire =>
        by_cases hw : p.wire.toNat = q.wire.toNat
        · simp only [hports, hw, true_and, if_true, Option.map_eq_map, Option.map_some,
            Option.bind_some, List.getElem?_set']
          rfl
        · simp [hports, hw]
    · rw [if_neg hq, if_neg hq]
      simp
  · rw [if_neg hp]
    split
    · next heq =>
      rw [← heq, codeAt?, if_neg hp, Option.map_none]
    · rfl

/-- Driving keeps the shape of the wires. -/
theorem shape_drive (wires : List Wire) (gate : Gate) (level : Signal) :
    shape (drive wires gate level) = shape wires := by
  unfold drive
  induction gate.outputs generalizing wires with
  | nil => rfl
  | cons p outputs ih => exact (ih _).trans (shape_write wires p level)

/-- The bits that a gate puts out take the code of its level. -/
theorem codeAt?_drive (wires : List Wire) (gate : Gate) (level : Signal) (q : Port) :
    codeAt? (drive wires gate level) q =
      if q ∈ gate.outputs then (codeAt? wires q).map (fun _ => level.code)
      else codeAt? wires q := by
  unfold drive
  induction gate.outputs generalizing wires with
  | nil => rfl
  | cons p outputs ih =>
    rw [List.foldl_cons, ih, codeAt?_write]
    by_cases hp : p = q
    · subst hp
      simp [Option.map_map, Function.comp_def]
    · have hp' : ¬ q = p := fun h => hp h.symm
      simp [hp, hp']

/-! ## Codes of levels -/

/-- All codes of the wires are those found at ports. -/
theorem forall_code_iff {wires : List Wire} {P : Int → Prop} :
    (∀ wire ∈ wires, ∀ code ∈ wire.state, P code) ↔
      ∀ p code, codeAt? wires p = some code → P code := by
  constructor
  · intro h p code hp
    unfold codeAt? at hp
    split at hp
    · obtain ⟨wire, hwire, hcode⟩ := Option.bind_eq_some_iff.1 hp
      exact h wire (List.mem_of_getElem? hwire) code (List.mem_of_getElem? hcode)
    · cases hp
  · intro h wire hwire code hcode
    obtain ⟨i, hi⟩ := List.mem_iff_getElem?.1 hwire
    obtain ⟨j, hj⟩ := List.mem_iff_getElem?.1 hcode
    exact h ⟨i, j⟩ code (by rw [codeAt?_eq, hi, Option.bind_some, hj])

/-- What a bit of coded wires holds is a code. -/
theorem Coded.isCode {wires : List Wire} (h : Coded wires) {p : Port} {code : Int}
    (hp : codeAt? wires p = some code) : IsCode code :=
  forall_code_iff.1 h p code hp

/-- Wires are coded if every bit holds a code, those that ports name being all there are. -/
theorem coded_of_codeAt? {wires : List Wire}
    (h : ∀ p code, codeAt? wires p = some code → IsCode code) : Coded wires :=
  forall_code_iff.2 h

/-- Writing a level keeps wires coded. -/
theorem Coded.write {wires : List Wire} (h : Coded wires) (p : Port) (level : Signal) :
    Coded (write wires p level) := by
  refine coded_of_codeAt? (fun q code hcode => ?_)
  rw [codeAt?_write] at hcode
  split at hcode
  · obtain ⟨_, -, rfl⟩ := Option.map_eq_some_iff.1 hcode
    exact ⟨level, rfl⟩
  · exact h.isCode hcode

/-- The code of a level is read as that level. -/
theorem levelOf_code (level : Signal) : levelOf level.code = .ok level := by
  rw [levelOf, Signal.ofCode?_code]

/-- Only its own code is read as a level. -/
theorem levelOf_eq_ok_iff {code : Int} {level : Signal} :
    levelOf code = .ok level ↔ code = level.code := by
  constructor
  · intro h
    unfold levelOf Signal.ofCode? at h
    split at h
    · next found hfound =>
      cases h
      split at hfound
      · next hcode => cases hfound; exact hcode
      · split at hfound
        · next hcode => cases hfound; exact hcode
        · split at hfound
          · next hcode => cases hfound; exact hcode
          · cases hfound
    · cases h
  · rintro rfl
    exact levelOf_code level

/-- A bit that is there reads as the level of its code. -/
theorem read_eq_ok_iff {wires : List Wire} {p : Port} (hp : (codeAt? wires p).isSome = true)
    {level : Signal} : read wires p = .ok level ↔ codeAt? wires p = some level.code := by
  obtain ⟨code, hcode⟩ := Option.isSome_iff_exists.1 hp
  rw [read, hcode, Option.some.injEq]
  exact levelOf_eq_ok_iff

/-- Every port of coded wires can be read. -/
theorem Coded.read_ok {wires : List Wire} (h : Coded wires) (p : Port) :
    ∃ level, read wires p = .ok level := by
  unfold read
  split
  · next code hcode =>
    obtain ⟨level, rfl⟩ := h.isCode hcode
    exact ⟨level, levelOf_code level⟩
  · exact ⟨.unknown, rfl⟩

/-- What is read at a port depends on the code there only. -/
theorem read_congr {a b : List Wire} {p : Port} (h : codeAt? a p = codeAt? b p) :
    read a p = read b p := by
  rw [read, read, h]

end Switchyard.Logic
