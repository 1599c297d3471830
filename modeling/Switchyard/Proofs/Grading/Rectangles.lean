import Mathlib.Data.List.Basic
import Switchyard.Grading.Rows

/-!
# The rows of a table as they are read

Any library of arrays reads the rows of a table as what they are, if they are words and each row has
the length asked for (`checkRows_of_words`), and it refuses them if some row has another length
(`checkRows_refused`).
-/

namespace Switchyard.Grading

variable {width : Nat} {rows : List (List Int)}

/-- Rows of one length are cut from the numbers in them. -/
theorem cutRows_flatten (h : ∀ row ∈ rows, row.length = width) :
    cutRows width rows.length rows.flatten = rows := by
  induction rows with
  | nil => rfl
  | cons row rows ih =>
    obtain ⟨rfl, hrest⟩ := List.forall_mem_cons.1 h
    rw [List.length_cons, List.flatten_cons, cutRows, List.take_left, List.drop_left, ih hrest]

/-- Rows of one length form a rectangle. -/
theorem isRectangular_of_length (h : ∀ row ∈ rows, row.length = width) :
    isRectangular rows = true := by
  cases rows with
  | nil => rfl
  | cons row rest =>
    obtain ⟨hfirst, hrest⟩ := List.forall_mem_cons.1 h
    exact List.all_eq_true.2
      (fun other hother => decide_eq_true ((hrest other hother).trans hfirst.symm))

/-- All rows of a rectangle are as long as the first one. -/
theorem length_of_isRectangular {row : List Int} (h : isRectangular (row :: rows) = true) :
    ∀ other ∈ row :: rows, other.length = row.length := by
  simpa [isRectangular] using h

variable {arrays : Arrays}

/-- Words in rows of the length asked for are read as they are. -/
theorem checkRows_of_words (hwidth : 0 < width) (hlength : ∀ row ∈ rows, row.length = width)
    (hwords : ∀ row ∈ rows, ∀ n ∈ row, fitsWord n = true) :
    checkRows arrays width rows = .ok rows := by
  have hrectangular := isRectangular_of_length hlength
  have hall : rows.all (·.all fitsWord) = true :=
    List.all_eq_true.2 (fun row hrow => List.all_eq_true.2 (hwords row hrow))
  unfold checkRows rowsOf
  cases rows with
  | nil =>
    rw [arrays.read_nil]
    rfl
  | cons row rest =>
    have hfirst : row.length = width := hlength row List.mem_cons_self
    have hfilled : [rest.length + 1, row.length].contains 0 = false := by
      rw [hfirst]
      simp [Nat.ne_of_lt hwidth]
    rw [arrays.read_rows hrectangular hall]
    dsimp only [bind, Except.bind]
    rw [hfilled, if_pos hfirst]
    exact congrArg Except.ok (cutRows_flatten hlength)

/-- A table of words that holds a value is refused with a wording if some row has another length
than asked for. -/
theorem checkRows_refused (hfilled : ∃ row ∈ rows, row ≠ [])
    (hwords : ∀ row ∈ rows, ∀ n ∈ row, fitsWord n = true)
    (hodd : ∃ row ∈ rows, row.length ≠ width) :
    ∃ fault, checkRows arrays width rows = .error fault ∧ fault.message?.isSome = true := by
  have hall : rows.all (·.all fitsWord) = true :=
    List.all_eq_true.2 (fun row hrow => List.all_eq_true.2 (hwords row hrow))
  unfold checkRows rowsOf
  cases hrectangular : isRectangular rows with
  | false =>
    rw [arrays.read_ragged hrectangular]
    exact ⟨.notRectangular, rfl, rfl⟩
  | true =>
    obtain ⟨odd, hmem, hne⟩ := hodd
    cases rows with
    | nil => cases hmem
    | cons first rest =>
      have hlength := length_of_isRectangular hrectangular
      have hnonempty : [rest.length + 1, first.length].contains 0 = false := by
        obtain ⟨row, hrow, hrowFilled⟩ := hfilled
        have hpos : 0 < first.length := by
          rw [← hlength row hrow]
          exact List.length_pos_iff.2 hrowFilled
        simp [Nat.ne_of_lt hpos]
      have hwidth : first.length ≠ width := hlength odd hmem ▸ hne
      rw [arrays.read_rows hrectangular hall]
      dsimp only [bind, Except.bind]
      rw [hnonempty, if_neg hwidth]
      exact ⟨_, rfl, rfl⟩

end Switchyard.Grading
