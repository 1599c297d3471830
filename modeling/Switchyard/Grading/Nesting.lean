import Switchyard.Grading.Rows

/-!
# Nested lists as grids

A library of arrays reads lists that are nested to any depth up to a bound of its own: the lengths
on one level must be the same (`shape?`), and what stands at the bottom (`leaves`) must denote
words. Read like this, lists of lists of numbers are the rows that they look like
(`shape?_rowsJson`, `leaves_rowsJson`), so this reading meets what grading relies on
(`Arrays.ofNesting`).
-/

namespace Switchyard.Grading

mutual

/-- The lengths of nested lists from the outermost to the innermost; `none` if two lists on one
level differ. -/
def shape? : Json → Option (List Nat)
  | .arr [] => some [0]
  | .arr (item :: items) =>
    match shape? item with
    | some shape => if allShaped shape items then some ((items.length + 1) :: shape) else none
    | none => none
  | _ => some []

/-- Whether all items have the given shape. -/
def allShaped (shape : List Nat) : List Json → Bool
  | [] => true
  | item :: items => shape? item == some shape && allShaped shape items

end

mutual

/-- The values at the bottom of nested lists. -/
def leaves : Json → List Json
  | .arr items => leavesOf items
  | value => [value]

/-- The values at the bottom of the given items. -/
def leavesOf : List Json → List Json
  | [] => []
  | item :: items => leaves item ++ leavesOf items

end

/-- The word that a value denotes. -/
def wordOf (value : Json) : Except RowsFault Int :=
  match value.toInteger with
  | .ok n => if fitsWord n then .ok n else .error .tooLarge
  | .error .infinite => .error .tooLarge
  | .error .wrongType => .error .notNumber
  | .error _ => .error .notRectangular

/-- The grid that a value is read as, where so many lists may be nested. -/
def readNested (maxNesting : Nat) (value : Json) : Except RowsFault Grid :=
  match shape? value with
  | none => .error .notRectangular
  | some shape =>
    if maxNesting < shape.length then .error .notRectangular
    else ((leaves value).mapM wordOf).map (fun numbers => { shape, numbers })

/-! ## Lists of lists of numbers -/

/-- Numbers are no lists: all of them have the shape without axes. -/
theorem allShaped_ints (ns : List Int) : allShaped [] (ns.map .int) = true := by
  induction ns with
  | nil => rfl
  | cons n ns ih =>
    rw [List.map_cons, allShaped, ih]
    rfl

/-- A list of numbers has one axis. -/
theorem shape?_ints (ns : List Int) : shape? (.arr (ns.map .int)) = some [ns.length] := by
  cases ns with
  | nil => rfl
  | cons n ns =>
    rw [List.map_cons, shape?]
    dsimp only [shape?]
    rw [if_pos (allShaped_ints ns), List.length_map, List.length_cons]

/-- Rows have the shape of one of them if and only if they are as long as it. -/
theorem allShaped_rows (width : Nat) (rows : List (List Int)) :
    allShaped [width] (rows.map (fun row => .arr (row.map .int))) =
      rows.all (fun row => decide (row.length = width)) := by
  induction rows with
  | nil => rfl
  | cons row rows ih =>
    have hsame : (some [row.length] == some [width]) = decide (row.length = width) := by
      rw [Bool.eq_iff_iff]
      simp
    rw [List.map_cons, allShaped, shape?_ints, ih, List.all_cons, hsame]

/-- Rows have two axes if all of them have one length, and else no shape at all. -/
theorem shape?_rowsJson (row : List Int) (rows : List (List Int)) :
    shape? (rowsJson (row :: rows)) =
      if isRectangular (row :: rows) then some [rows.length + 1, row.length] else none := by
  rw [rowsJson, List.map_cons, shape?, shape?_ints]
  dsimp only
  rw [allShaped_rows, isRectangular, List.length_map]

/-- At the bottom of a list of numbers there are these numbers. -/
theorem leavesOf_ints (ns : List Int) : leavesOf (ns.map .int) = ns.map .int := by
  induction ns with
  | nil => rfl
  | cons n ns ih =>
    rw [List.map_cons, leavesOf, ih]
    rfl

/-- At the bottom of rows there are their numbers, row by row. -/
theorem leaves_rowsJson (rows : List (List Int)) :
    leaves (rowsJson rows) = rows.flatten.map .int := by
  rw [rowsJson, leaves]
  induction rows with
  | nil => rfl
  | cons row rows ih =>
    rw [List.map_cons, leavesOf, ih, leaves, leavesOf_ints, List.flatten_cons, List.map_append]

/-- Numbers denote themselves, if all of them are words. -/
theorem mapM_wordOf (ns : List Int) : (ns.map Json.int).mapM wordOf =
    if ns.all fitsWord then .ok ns else .error .tooLarge := by
  induction ns with
  | nil => rfl
  | cons n ns ih =>
    rw [List.map_cons, List.mapM_cons, ih, List.all_cons, wordOf]
    dsimp only [Json.toInteger]
    cases fitsWord n with
    | false => rfl
    | true => cases ns.all fitsWord <;> rfl

/-- Rows of numbers are read as what they are, unless one has another length than the first or a
number that is no word. -/
theorem readNested_rowsJson {maxNesting : Nat} (h : 2 ≤ maxNesting) (row : List Int)
    (rows : List (List Int)) : readNested maxNesting (rowsJson (row :: rows)) =
      if isRectangular (row :: rows) then
        if (row :: rows).all (·.all fitsWord) then
          .ok ⟨[rows.length + 1, row.length], (row :: rows).flatten⟩
        else .error .tooLarge
      else .error .notRectangular := by
  unfold readNested
  rw [shape?_rowsJson, leaves_rowsJson, mapM_wordOf, List.all_flatten]
  cases isRectangular (row :: rows) with
  | false => rfl
  | true =>
    have hshallow : ¬ maxNesting < [rows.length + 1, row.length].length := Nat.not_lt.2 h
    rw [if_pos rfl]
    dsimp only
    rw [if_neg hshallow]
    cases (row :: rows).all (·.all fitsWord) <;> rfl

/-- A library that reads lists nested up to a bound, which rows in a table keep within. -/
def Arrays.ofNesting (maxNesting : Nat) (h : 2 ≤ maxNesting := by decide) : Arrays where
  read := readNested maxNesting
  reduce op start bits := bits.foldl op start
  read_nil := by
    have hshallow : ¬ maxNesting < [0].length := Nat.not_lt.2 (Nat.le_of_succ_le h)
    unfold readNested
    dsimp only [rowsJson, List.map, shape?]
    rw [if_neg hshallow]
    rfl
  read_rows := by
    intro row rows hrectangular hwords
    rw [readNested_rowsJson h, hrectangular, hwords, if_pos rfl, if_pos rfl]
  read_ragged := by
    intro rows hragged
    cases rows with
    | nil => cases hragged
    | cons row rows =>
      rw [readNested_rowsJson h, hragged]
      rfl
  read_tooLarge := by
    intro rows hrectangular hlarge
    cases rows with
    | nil => cases hlarge
    | cons row rows =>
      rw [readNested_rowsJson h, hrectangular, hlarge]
      rfl
  reduce_eq _ _ _ := rfl

end Switchyard.Grading
