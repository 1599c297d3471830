import Mathlib.Data.List.Basic
import Mathlib.Order.Lattice
import Switchyard.Sorting

/-!
# Sorting by insertion puts in order

Whatever the comparison answers, a sorted list holds the items of the list and no others
(`sort_perm`): the run at the beginning and what is behind it make up the list (`firstRun_perm`),
and an item is placed once (`placeWithin_perm`). If the comparison of the items is that of their
ranks in a linear order (`Ranked`), the list comes out in the order of ranks (`sort_rising`): the
run at the beginning is in it (`firstRun_rising`), and halving finds a place for an item that keeps
it (`placeWithin_rising`) as long as there is fuel for all halvings. Items of distinct ranks come
out in strict order (`sort_pairwise_lt`).
-/

namespace Switchyard.Sorting

variable {α β : Type} {below : α → α → Bool}

/-! ## No item is lost -/

/-- A run and what is left after it are the list. -/
theorem run_append {continues : α → α → Bool} {last : α} {xs : List α} :
    (run continues last xs).1 ++ (run continues last xs).2 = xs := by
  induction xs generalizing last with
  | nil => rfl
  | cons x rest ih =>
    rw [run]
    split
    · simpa using ih
    · rfl

/-- The first run, turned round if it falls, and the rest have the items of the list. -/
theorem firstRun_perm (xs : List α) :
    ((firstRun below xs).1 ++ (firstRun below xs).2).Perm xs := by
  match xs with
  | [] | [_] => exact .refl _
  | x :: y :: rest =>
    rw [firstRun]
    split
    · calc ((x :: (run below x (y :: rest)).1).reverse ++ (run below x (y :: rest)).2).Perm
            ((x :: (run below x (y :: rest)).1) ++ (run below x (y :: rest)).2) :=
          (List.reverse_perm _).append_right _
        _ = x :: y :: rest := by rw [List.cons_append, run_append]
    · simp only [List.cons_append, run_append]
      exact .refl _

/-- A list whose upper half is empty has no items. -/
theorem eq_nil_of_drop_half {xs : List α} (h : xs.drop (xs.length / 2) = []) : xs = [] := by
  have := List.drop_eq_nil_iff.1 h
  exact List.length_eq_zero_iff.1 (by omega)

/-- A list is what is before its middle, the middle and what is behind it. -/
theorem take_half_append {xs behind : List α} {middle : α}
    (h : xs.drop (xs.length / 2) = middle :: behind) :
    xs.take (xs.length / 2) ++ middle :: behind = xs := by
  rw [← h, List.take_append_drop]

/-- Placing an item within a list adds it and loses nothing. -/
theorem placeWithin_perm (x : α) (fuel : Nat) (xs : List α) :
    (placeWithin below x fuel xs).Perm (x :: xs) := by
  fun_induction placeWithin below x fuel xs with
  | case1 => exact .refl _
  | case2 fuel xs h => rw [eq_nil_of_drop_half h]
  | case3 fuel xs middle behind h before hx ih =>
    calc (placeWithin below x fuel before ++ middle :: behind).Perm
          (x :: (before ++ middle :: behind)) := ih.append_right _
      _ = x :: xs := by rw [take_half_append h]
  | case4 fuel xs middle behind h before hx ih =>
    calc (before ++ middle :: placeWithin below x fuel behind).Perm
          (before ++ middle :: x :: behind) := (ih.cons middle).append_left _
      List.Perm _ (before ++ x :: middle :: behind) := (List.Perm.swap x middle _).append_left _
      List.Perm _ (x :: (before ++ middle :: behind)) := List.perm_middle
      _ = x :: xs := by rw [take_half_append h]

/-- Placing an item takes it from a list to the one that is in order. -/
theorem place_append_perm {x : α} {start xs : List α} :
    (place below x start ++ xs).Perm (start ++ x :: xs) :=
  ((placeWithin_perm x _ start).append_right xs).trans List.perm_middle.symm

/-- Placing items one after the other adds them all. -/
theorem foldl_place_perm (xs start : List α) :
    (xs.foldl (fun sorted x => place below x sorted) start).Perm (start ++ xs) := by
  induction xs generalizing start with
  | nil => simp
  | cons x xs ih => exact (ih _).trans place_append_perm

/-- Sorting loses and repeats no item. -/
theorem sort_perm (xs : List α) : (sort below xs).Perm xs :=
  (foldl_place_perm _ _).trans (firstRun_perm xs)

/-! ## Items come out in the order of their ranks -/

variable [LinearOrder β] {rank : α → β}

/-- The comparison of the items of a list is that of their ranks. -/
def Ranked (below : α → α → Bool) (rank : α → β) (xs : List α) : Prop :=
  ∀ a ∈ xs, ∀ b ∈ xs, below a b = true ↔ rank a < rank b

/-- The items are in the order of their ranks. -/
abbrev Rising (rank : α → β) (xs : List α) : Prop :=
  xs.Pairwise (fun a b => rank a ≤ rank b)

/-- The items of a run are in the order that holds between neighbours. -/
theorem run_pairwise {continues : α → α → Bool} {R : α → α → Prop} [IsTrans α R] {last : α}
    {xs : List α} (h : ∀ a ∈ last :: xs, ∀ b ∈ last :: xs, continues b a = true → R a b) :
    (last :: (run continues last xs).1).Pairwise R := by
  rw [← List.isChain_iff_pairwise]
  induction xs generalizing last with
  | nil => exact .singleton last
  | cons x rest ih =>
    rw [run]
    split
    · next hx =>
      have hrest := ih (fun a ha b hb => h a (.tail _ ha) b (.tail _ hb))
      exact .cons_cons (h last (.head _) x (.tail _ (.head _)) hx) hrest
    · exact .singleton last

/-- The first run rises once it is turned round, if items are compared by rank. -/
theorem firstRun_rising {xs : List α} (h : Ranked below rank xs) :
    Rising rank (firstRun below xs).1 := by
  match xs with
  | [] | [_] => simp [firstRun]
  | x :: y :: rest =>
    rw [firstRun]
    split
    · -- a falling run is turned round
      have : IsTrans α (fun a b => rank b ≤ rank a) := ⟨fun _ _ _ hab hbc => hbc.trans hab⟩
      refine List.pairwise_reverse.2 (run_pairwise fun a ha b hb hba => ?_)
      exact ((h b hb a ha).1 hba).le
    · have : IsTrans α (fun a b => rank a ≤ rank b) := ⟨fun _ _ _ hab hbc => hab.trans hbc⟩
      refine run_pairwise fun a ha b hb hba => ?_
      rw [Bool.not_eq_true', ← Bool.not_eq_true, h b hb a ha, not_lt] at hba
      exact hba

/-- A list rises if it does so before and behind an item, all items before it are at most that one,
and all behind it are at least that one. -/
theorem rising_append_cons {before behind : List α} {middle : α} :
    Rising rank (before ++ middle :: behind) ↔
      Rising rank before ∧ Rising rank behind ∧ (∀ a ∈ before, rank a ≤ rank middle) ∧
        ∀ a ∈ behind, rank middle ≤ rank a := by
  rw [Rising, List.pairwise_append, List.pairwise_cons]
  constructor
  · rintro ⟨hb, ⟨hm, hc⟩, hacross⟩
    exact ⟨hb, hc, fun a ha => hacross a ha middle (.head _), hm⟩
  · rintro ⟨hb, hc, hle, hm⟩
    refine ⟨hb, ⟨hm, hc⟩, fun a ha c hc => ?_⟩
    rcases List.mem_cons.1 hc with rfl | hc
    · exact hle a ha
    · exact (hle a ha).trans (hm c hc)

/-- Placing an item by halves into a rising list leaves it rising, given enough fuel for the halves.
-/
theorem placeWithin_rising {x : α} {fuel : Nat} {xs : List α} (hfuel : xs.length < fuel)
    (h : ∀ a ∈ xs, below x a = true ↔ rank x < rank a) (hxs : Rising rank xs) :
    Rising rank (placeWithin below x fuel xs) := by
  fun_induction placeWithin below x fuel xs with
  | case1 => omega
  | case2 => exact List.pairwise_singleton _ x
  | case3 fuel xs middle behind hd before hx ih =>
    have hsplit : before ++ middle :: behind = xs := take_half_append hd
    rw [← hsplit] at h hxs hfuel
    obtain ⟨hbefore, h⟩ := List.forall_mem_append.1 h
    have hmiddle := h middle (.head _)
    obtain ⟨hb, hc, hle, hm⟩ := rising_append_cons.1 hxs
    have hlength : before.length < fuel := by simp at hfuel; omega
    refine rising_append_cons.2 ⟨ih hlength hbefore hb, hc, fun a ha => ?_, hm⟩
    rcases List.mem_cons.1 ((placeWithin_perm x fuel before).mem_iff.1 ha) with rfl | ha
    · exact (hmiddle.1 hx).le
    · exact hle a ha
  | case4 fuel xs middle behind hd before hx ih =>
    have hsplit : before ++ middle :: behind = xs := take_half_append hd
    rw [← hsplit] at h hxs hfuel
    obtain ⟨hmiddle, hbehind⟩ := List.forall_mem_cons.1 (List.forall_mem_append.1 h).2
    obtain ⟨hb, hc, hle, hm⟩ := rising_append_cons.1 hxs
    have hlength : behind.length < fuel := by simp at hfuel; omega
    refine rising_append_cons.2 ⟨hb, ih hlength hbehind hc, hle, fun a ha => ?_⟩
    rcases List.mem_cons.1 ((placeWithin_perm x fuel behind).mem_iff.1 ha) with rfl | ha
    · exact not_lt.1 (fun hlt => hx (hmiddle.2 hlt))
    · exact hm a ha

/-- Placing items one after the other into a rising list leaves it rising. -/
theorem foldl_place_rising {xs start : List α} (h : Ranked below rank (start ++ xs))
    (hstart : Rising rank start) :
    Rising rank (xs.foldl (fun sorted x => place below x sorted) start) := by
  induction xs generalizing start with
  | nil => exact hstart
  | cons x xs ih =>
    have hx : ∀ a ∈ start, below x a = true ↔ rank x < rank a :=
      fun a ha => h x (by simp) a (List.mem_append_left _ ha)
    refine ih (fun a ha b hb => ?_) (placeWithin_rising (Nat.lt_succ_self _) hx hstart)
    exact h a (place_append_perm.mem_iff.1 ha) b (place_append_perm.mem_iff.1 hb)

/-- A sorted list is in the order of the ranks. -/
theorem sort_rising {xs : List α} (h : Ranked below rank xs) : Rising rank (sort below xs) := by
  refine foldl_place_rising (fun a ha b hb => ?_) (firstRun_rising h)
  exact h a ((firstRun_perm xs).mem_iff.1 ha) b ((firstRun_perm xs).mem_iff.1 hb)

/-- Items of distinct ranks come out in strict order. -/
theorem sort_pairwise_lt {xs : List α} (h : Ranked below rank xs) (hd : (xs.map rank).Nodup) :
    (sort below xs).Pairwise (fun a b => rank a < rank b) := by
  have hne : (sort below xs).Pairwise (fun a b => rank a ≠ rank b) :=
    List.pairwise_map.1 (((sort_perm xs).map rank).nodup_iff.2 hd)
  exact ((sort_rising h).and hne).imp fun hab => lt_of_le_of_ne hab.1 hab.2

end Switchyard.Sorting
