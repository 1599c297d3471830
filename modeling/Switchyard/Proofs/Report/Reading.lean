import Switchyard.Report.Csv

/-!
# Comma-separated values can be read back

A table is read character by character. The reader (`Reader`) stands in a cell, between quotes,
behind a quote that may close a cell or be the first of two, or behind the carriage return of a line
end (`Place`); where a character cannot stand there is no table. What is written is read as it was
meant, row by row: a cell leaves the reader where a comma or a line end completes that cell and
nothing else (`Reader.exists_readOn_writeCell`), so a row is read as that row
(`Reader.readOn_writeRow`) and a table as that table (`read_write`), whatever characters its cells
hold.
-/

namespace Switchyard.Report.Csv

/-! ## A reader -/

/-- Where a reader stands in a row: the cells of the row so far, and the characters of the next. -/
inductive Place where
  /-- In a cell without quotes, or where one may begin. -/
  | plain (cells : List String) (cell : List Char)
  /-- Between quotes. -/
  | quoted (cells : List String) (cell : List Char)
  /-- Behind a quote within quotes, which ends the cell unless a second one follows. -/
  | closing (cells : List String) (cell : List Char)
  /-- Behind the carriage return of a line end. -/
  | returned (cells : List String)
deriving DecidableEq

/-- The beginning of a row. -/
def Place.start : Place := .plain [] []

/-- A reader of a table: the rows that are complete, and where it stands in the next. -/
structure Reader where
  rows : List (List String) := []
  place : Place := .start
deriving DecidableEq

/-- The place behind a character that ends a cell. -/
def Place.behindCell (cells : List String) (c : Char) : Option Place :=
  if c = ',' then some (plain cells [])
  else if c = '\r' then some (returned cells)
  else none

/-- The place behind a character, unless that cannot stand there. A line end where no cell has begun
ends the row of no cells. -/
def Place.next : Place → Char → Option Place
  | plain cells cell, c =>
    if c = Text.doubleQuote then if cell = [] then some (quoted cells []) else none
    else if c = '\r' ∧ cells = [] ∧ cell = [] then some (returned [])
    else if c = ',' ∨ c = '\r' ∨ c = '\n' then behindCell (cells ++ [String.ofList cell]) c
    else some (plain cells (cell ++ [c]))
  | quoted cells cell, c =>
    if c = Text.doubleQuote then some (closing cells cell) else some (quoted cells (cell ++ [c]))
  | closing cells cell, c =>
    if c = Text.doubleQuote then some (quoted cells (cell ++ [c]))
    else behindCell (cells ++ [String.ofList cell]) c
  | returned _, _ => none

namespace Reader

/-- The reader behind a character. A row is complete behind the line feed of its line end. -/
def next (reader : Reader) (c : Char) : Option Reader :=
  match reader.place with
  | .returned cells => if c = '\n' then some { rows := reader.rows ++ [cells] } else none
  | place => (place.next c).map (fun place => { reader with place })

/-- The reader behind a text. -/
def readOn (reader : Reader) (cs : List Char) : Option Reader :=
  cs.foldlM next reader

/-- Reading nothing changes nothing. -/
@[simp] theorem readOn_nil (reader : Reader) : reader.readOn [] = some reader := rfl

/-- A text is read character by character. -/
@[simp] theorem readOn_cons (reader : Reader) (c : Char) (cs : List Char) :
    reader.readOn (c :: cs) = (reader.next c).bind (readOn · cs) :=
  List.foldlM_cons

/-- A text is read in two parts, the second where the first left the reader. -/
theorem readOn_append (reader : Reader) (cs ds : List Char) :
    reader.readOn (cs ++ ds) = (reader.readOn cs).bind (readOn · ds) :=
  List.foldlM_append

end Reader

/-- The table that a text holds, if every row of it is ended. -/
def read (text : String) : Option (List (List String)) :=
  match Reader.readOn {} text.toList with
  | some reader => if reader.place = .start then some reader.rows else none
  | none => none

/-! ## What is written is read -/

namespace Reader

variable {rows : List (List String)} {cells : List String}

/-- Outside quotes, characters that are not special are taken as they are. -/
theorem readOn_of_not_special {cell cs : List Char} (h : ∀ c ∈ cs, isSpecial c = false) :
    readOn ⟨rows, .plain cells cell⟩ cs = some ⟨rows, .plain cells (cell ++ cs)⟩ := by
  induction cs generalizing cell with
  | nil => simp
  | cons c cs ih =>
    obtain ⟨hc, hcs⟩ := List.forall_mem_cons.1 h
    simp only [isSpecial, Bool.or_eq_false_iff, beq_eq_false_iff_ne, and_assoc] at hc
    obtain ⟨hcomma, hquote, hreturn, hfeed⟩ := hc
    simp [next, Place.next, hcomma, hquote, hreturn, hfeed, ih hcs]

/-- Between quotes every character is read as it is, a doubled quote as one. -/
theorem readOn_escape {cell cs : List Char} :
    readOn ⟨rows, .quoted cells cell⟩ (escape cs) = some ⟨rows, .quoted cells (cell ++ cs)⟩ := by
  induction cs generalizing cell with
  | nil => simp [escape]
  | cons c cs ih =>
    rw [escape, List.flatMap_cons, ← escape]
    split
    · next hc => subst hc; simp [next, Place.next, ih]
    · next hc => simp [next, Place.next, hc, ih]

/-- A comma, or a line end unless it would end the row of no cells, completes a cell. -/
structure Completes (reader : Reader) (rows : List (List String)) (cells : List String) : Prop where
  comma : reader.next ',' = some ⟨rows, .plain cells []⟩
  lineEnd : cells ≠ [""] → reader.next '\r' = some ⟨rows, .returned cells⟩

/-- A written cell is read as the cell, quoted or not. -/
theorem exists_readOn_writeCell (rows : List (List String)) (cells : List String) (cell : String) :
    ∃ reader, readOn ⟨rows, .plain cells []⟩ (writeCell cell) = some reader ∧
      reader.Completes rows (cells ++ [cell]) := by
  rw [writeCell]
  split
  · refine ⟨⟨rows, .closing cells cell.toList⟩, ?_, ?_, fun _ => ?_⟩
    · simp [quote, next, Place.next, readOn_append, readOn_escape]
    · simp [next, Place.next, Place.behindCell, Text.doubleQuote]
    · simp [next, Place.next, Place.behindCell, Text.doubleQuote]
  · next h =>
    refine ⟨⟨rows, .plain cells cell.toList⟩, ?_, ?_, fun hne => ?_⟩
    · exact readOn_of_not_special (by simpa using h)
    · simp [next, Place.next, Place.behindCell, Text.doubleQuote]
    · have hrow : ¬(cells = [] ∧ cell = "") := by
        rintro ⟨rfl, rfl⟩
        exact hne rfl
      simp [next, Place.next, Place.behindCell, Text.doubleQuote, hrow]

/-- A written row is read cell by cell, by induction on the cells, unless it is one empty cell. -/
theorem readOn_writeCells {row : List String} (hrow : row ≠ []) (hne : cells ++ row ≠ [""]) :
    readOn ⟨rows, .plain cells []⟩ (writeCells row ++ ['\r', '\n']) =
      some { rows := rows ++ [cells ++ row] } := by
  fun_induction writeCells row generalizing cells with
  | case1 => exact absurd rfl hrow
  | case2 cell =>
    obtain ⟨reader, hread, hcell⟩ := exists_readOn_writeCell rows cells cell
    rw [readOn_append, hread, Option.bind_some, readOn_cons, hcell.lineEnd hne]
    rfl
  | case3 cell row hrow' ih =>
    obtain ⟨reader, hread, hcell⟩ := exists_readOn_writeCell rows cells cell
    have hrest : (cells ++ [cell]) ++ row ≠ [""] := by
      intro h
      have hlength : cells.length + (row.length + 1) = 1 := by
        simpa using congrArg List.length h
      exact hrow' (List.length_eq_zero_iff.1 (by omega))
    rw [List.append_assoc, readOn_append, hread, Option.bind_some, List.cons_append, readOn_cons,
      hcell.comma, Option.bind_some, ih (by simpa using hrow') hrest, List.append_assoc]
    rfl

/-- A written row is read as the row, that of one empty cell being quoted. -/
theorem readOn_writeRow (row : List String) :
    readOn { rows } (writeRow row) = some { rows := rows ++ [row] } := by
  rw [writeRow]
  split
  · next h => subst h; rfl
  · next h =>
    cases row with
    | nil => rfl
    | cons cell row => exact readOn_writeCells (by simp) h

/-- Written rows are read one after the other. -/
theorem readOn_flatMap_writeRow (table : List (List String)) :
    readOn { rows } (table.flatMap writeRow) = some { rows := rows ++ table } := by
  induction table generalizing rows with
  | nil => simp
  | cons row table ih => simp [readOn_append, readOn_writeRow, ih]

end Reader

/-- A table that is written is read as it was. -/
theorem read_write (table : List (List String)) : read (write table) = some table := by
  simp [read, write, Reader.readOn_flatMap_writeRow]

example : read "a,\x22b\x22\x22\r\x22\r\n\r\n,\r\n" = some [["a", "b\x22\r"], [], ["", ""]] := by
  decide +kernel

example : read "a\x22b\r\n" = none ∧ read "\x22a\x22b\r\n" = none ∧ read "a\rb\r\n" = none := by
  decide +kernel

end Switchyard.Report.Csv
