import Mathlib.Data.List.Forall2

/-!
# Outcomes of fallible computations

When a computation that may fail succeeds: after another one (`bind_eq_ok_iff`), with its result
changed (`exists_map_eq_ok`, for two of them `cases_of_map_eq_map`), or along a list
(`mapM_eq_ok_iff`). Of a closed one this is found by evaluation (`exists_of_toOption`). When a
computation fails, its fault is the first that it comes to (`failure?_bind`, `failure?_mapM`).
-/

namespace Switchyard

variable {ε α β : Type}

/-- Two steps give a result exactly if the first gives one from which the second gives it. -/
theorem bind_eq_ok_iff {x : Except ε α} {f : α → Except ε β} {b : β} :
    (x >>= f) = .ok b ↔ ∃ a, x = .ok a ∧ f a = .ok b := by
  cases x with
  | error e => exact ⟨nofun, nofun⟩
  | ok a => exact ⟨fun h => ⟨a, rfl, h⟩, fun ⟨_, rfl, h⟩ => h⟩

/-- A computation that is refused under a condition. -/
theorem unless_eq_ok_iff {c : Prop} [Decidable c] {e : ε} {x : Except ε α} {a : α} :
    (if c then do throw e; x else x) = .ok a ↔ ¬ c ∧ x = .ok a := by
  split
  · next h => exact ⟨nofun, fun hx => absurd h hx.1⟩
  · next h => exact (and_iff_right h).symm

/-- A mapped outcome has a property of results exactly if the outcome has it of what is mapped. -/
theorem exists_map_eq_ok {x : Except ε α} {f : α → β} {P : β → Prop} :
    (∃ b, x.map f = .ok b ∧ P b) ↔ ∃ a, x = .ok a ∧ P (f a) := by
  cases x with
  | error e => exact ⟨nofun, nofun⟩
  | ok a => exact ⟨fun ⟨_, rfl, h⟩ => ⟨a, rfl, h⟩, fun ⟨_, rfl, h⟩ => ⟨f a, rfl, h⟩⟩

/-- Two computations that come to the same once their results are changed fail alike, or both
succeed. -/
theorem cases_of_map_eq_map {x y : Except ε α} {f g : α → β} (h : x.map f = y.map g) :
    (∃ e, x = .error e ∧ y = .error e) ∨ ∃ a b, x = .ok a ∧ y = .ok b ∧ f a = g b := by
  cases x with
  | error e =>
    cases y with
    | error e' => exact .inl ⟨e, rfl, congrArg Except.error (Except.error.inj h).symm⟩
    | ok b => cases h
  | ok a =>
    cases y with
    | error e => cases h
    | ok b => exact .inr ⟨a, b, rfl, rfl, Except.ok.inj h⟩

/-- A computation that succeeds, by evaluation. -/
theorem exists_of_toOption {x : Except ε α} {f : α → β} {b : β}
    (h : x.toOption.map f = some b) : ∃ a, x = .ok a ∧ f a = b := by
  cases x with
  | error e => cases h
  | ok a => exact ⟨a, rfl, Option.some.inj h⟩

/-- A list of steps gives the results of each. -/
theorem mapM_eq_ok_iff {f : α → Except ε β} :
    ∀ {xs : List α} {ys : List β},
      xs.mapM f = .ok ys ↔ List.Forall₂ (fun x y => f x = .ok y) xs ys
  | [], ys => by
    rw [List.mapM_nil, List.forall₂_nil_left_iff]
    exact ⟨fun h => (Except.ok.inj h).symm, fun h => congrArg Except.ok h.symm⟩
  | x :: xs, ys => by
    rw [List.mapM_cons, List.forall₂_cons_left_iff]
    simp only [bind_eq_ok_iff, mapM_eq_ok_iff]
    constructor
    · rintro ⟨y, hy, ys, hys, ⟨⟩⟩
      exact ⟨y, ys, hy, hys, rfl⟩
    · rintro ⟨y, ys, hy, hys, rfl⟩
      exact ⟨y, hy, ys, hys, rfl⟩

/-- What one of two related entries is, every entry on its side is. -/
theorem forall_mem_of_forall₂ {R : α → β → Prop} {P : α → Prop} {xs : List α} {ys : List β}
    (h : List.Forall₂ R xs ys) (hP : ∀ x y, R x y → P x) : ∀ x ∈ xs, P x := by
  have hboth : List.Forall₂ (fun x _ => P x ∧ True) xs ys :=
    h.imp (fun x y hxy => ⟨hP x y hxy, trivial⟩)
  exact ((List.forall₂_and_left _ _).1 hboth).1

/-- An entry on one side of related lists has its partner on the other one. -/
theorem exists_mem_of_forall₂ {R : α → β → Prop} {xs : List α} {ys : List β}
    (h : List.Forall₂ R xs ys) {x : α} (hx : x ∈ xs) : ∃ y ∈ ys, R x y := by
  induction h with
  | nil => cases hx
  | cons hxy _ ih =>
    rcases List.mem_cons.1 hx with rfl | hx
    · exact ⟨_, List.mem_cons_self, hxy⟩
    · obtain ⟨y, hy, hxy⟩ := ih hx
      exact ⟨y, List.mem_cons_of_mem _ hy, hxy⟩

/-- A list of computations that all succeed. -/
theorem exists_mapM_eq_ok {f : α → Except ε β} {xs : List α}
    (h : ∀ x ∈ xs, ∃ y, f x = .ok y) : ∃ ys, xs.mapM f = .ok ys := by
  induction xs with
  | nil => exact ⟨[], rfl⟩
  | cons x xs ih =>
    obtain ⟨y, hy⟩ := h x List.mem_cons_self
    obtain ⟨ys, hys⟩ := ih (fun x' hx => h x' (List.mem_cons_of_mem _ hx))
    exact ⟨y :: ys, mapM_eq_ok_iff.2 (.cons hy (mapM_eq_ok_iff.1 hys))⟩

/-- Steps that agree on the items of a list give the same for the list. -/
theorem mapM_congr {f g : α → Except ε β} {xs : List α}
    (h : ∀ x ∈ xs, f x = g x) : xs.mapM f = xs.mapM g := by
  induction xs with
  | nil => rfl
  | cons x xs ih =>
    rw [List.mapM_cons, List.mapM_cons, h x List.mem_cons_self,
      ih (fun y hy => h y (List.mem_cons_of_mem _ hy))]

/-! ## Faults -/

/-- The fault of a computation that fails. -/
def failure? : Except ε α → Option ε
  | .ok _ => none
  | .error e => some e

/-- The failure of an outcome is the error it is. -/
theorem failure?_eq_some_iff {x : Except ε α} {e : ε} : failure? x = some e ↔ x = .error e := by
  cases x with
  | error e' => rw [failure?, Option.some_inj, Except.error.injEq]
  | ok a => exact ⟨nofun, nofun⟩

/-- An outcome has no failure exactly if it is a result. -/
theorem failure?_eq_none_iff {x : Except ε α} : failure? x = none ↔ ∃ a, x = .ok a := by
  cases x with
  | error e => exact ⟨nofun, nofun⟩
  | ok a => exact ⟨fun _ => ⟨a, rfl⟩, fun _ => rfl⟩

/-- A computation after another one that fails alike whatever the first gives. -/
theorem failure?_bind {x : Except ε α} {f : α → Except ε β} {r : Option ε}
    (h : ∀ a, failure? (f a) = r) : failure? (x >>= f) = (failure? x).or r := by
  cases x with
  | error e => rfl
  | ok a => exact h a

/-- A computation after another one that never fails. -/
theorem failure?_bind_of_ok {x : Except ε α} {f : α → Except ε β} (h : ∀ a, failure? (f a) = none) :
    failure? (x >>= f) = failure? x := by
  rw [failure?_bind h, Option.or_none]

/-- Renaming errors renames the failure. -/
theorem failure?_mapError {ε' : Type} (f : ε → ε') (x : Except ε α) :
    failure? (x.mapError f) = (failure? x).map f := by
  cases x <;> rfl

/-- Along a list of computations the first fault counts. -/
theorem failure?_mapM (f : α → Except ε β) :
    ∀ xs : List α, failure? (xs.mapM f) = xs.findSome? (fun x => failure? (f x))
  | [] => rfl
  | x :: xs => by
    rw [List.mapM_cons, List.findSome?_cons]
    cases hx : f x with
    | error e => rfl
    | ok y =>
      have hrest : failure? (xs.mapM f >>= fun ys => pure (y :: ys)) = failure? (xs.mapM f) :=
        failure?_bind_of_ok (fun _ => rfl)
      exact hrest.trans (failure?_mapM f xs)

/-- The faults along a numbered list do not depend on the numbers if those of the members do not. -/
theorem failure?_mapM_zipIdx {f : α → Nat → Except ε β} {g : α → Option ε}
    (h : ∀ x i, failure? (f x i) = g x) (xs : List α) :
    failure? (xs.zipIdx.mapM (fun (x, i) => f x i)) = xs.findSome? g := by
  rw [failure?_mapM, ← List.zipIdx_map_fst 0 xs, List.findSome?_map, List.zipIdx_map_fst 0 xs]
  exact congrArg (fun g => xs.zipIdx.findSome? g) (funext fun entry => h entry.1 entry.2)

/-- The first of a list that meets a condition decides. -/
theorem findSome?_guard_map (p : α → Bool) (f : α → β) (xs : List α) :
    xs.findSome? (fun x => (Option.guard p x).map f) = (xs.find? p).map f := by
  rw [← List.findSome?_guard, List.map_findSome?]
  rfl

end Switchyard
