import Switchyard.Proofs.Hdl.Grammar

/-!
# Reading is local to lines

A text below another has the lines of both, the lower ones numbered on from where the upper text
ends (`significantLines_append`). Every significant line gives one entry, the one that it gives as a
text of its own, and its number is its place among all lines (`Program.read_local`). The one thing
that lines do to each other is that a number too long to be read leaves nothing of the text.
-/

namespace Switchyard.Hdl

open Text

/-! ## Lines further down -/

/-- The line with so many more lines above it. -/
def Line.moved (shift : Nat) (line : Line) : Line :=
  { line with number := line.number + shift }

/-- The statement on a line with so many more lines above it. -/
def Statement.moved (shift : Nat) : Statement → Statement
  | .unread line => .unread (line.moved shift)
  | statement => statement

/-- A program with another below it, the lines of which are numbered on. -/
def Program.above (shift : Nat) (upper lower : Program) : Program where
  wires := upper.wires ++ lower.wires
  gates := upper.gates ++ lower.gates
  unread := upper.unread ++ lower.unread.map (Line.moved shift)

/-- Moving a line to another number keeps its numerals. -/
theorem Line.numerals_moved (shift : Nat) (line : Line) :
    (line.moved shift).numerals = line.numerals :=
  rfl

/-- A line is read the same wherever it stands, but for the number it is reported with. -/
theorem Statement.ofLine_moved (shift : Nat) (line : Line) :
    ofLine (line.moved shift) = (ofLine line).moved shift := by
  unfold ofLine Line.moved
  dsimp only
  cases wireDecl? line.chars with
  | some decl => rfl
  | none => cases gateInst? line.chars <;> rfl

/-- The significant lines of two texts are those of the first, and those of the second numbered on
from there. -/
theorem significantFrom_append (number : Nat) (raws raws' : List (List Char)) :
    significantFrom number (raws ++ raws') =
      significantFrom number raws ++ significantFrom (number + raws.length) raws' := by
  simp only [Survey.significantFrom_eq]
  rw [List.zipIdx_append, List.map_append, List.filter_append]

/-- Counting from a higher number moves every line by the difference. -/
theorem significantFrom_add (number shift : Nat) (raws : List (List Char)) :
    significantFrom (number + shift) raws =
      (significantFrom number raws).map (Line.moved shift) := by
  induction raws generalizing number with
  | nil => rfl
  | cons raw raws ih =>
    rw [significantFrom, significantFrom, Nat.add_right_comm, ih]
    split <;> rfl

/-- A text has as many significant lines as raw lines that are significant once trimmed. -/
theorem length_significantFrom (number : Nat) (raws : List (List Char)) :
    (significantFrom number raws).length = raws.countP (fun raw => isSignificant (trim raw)) := by
  induction raws generalizing number with
  | nil => rfl
  | cons raw raws ih =>
    rw [significantFrom, List.countP_cons]
    split
    · rw [List.length_cons, ih]
    · rw [ih]
      rfl

/-- A text below another has the lines of both. -/
theorem significantLines_append (upper lower : List Char) :
    significantLines (upper ++ '\n' :: lower) =
      significantLines upper ++
        (significantLines lower).map (Line.moved (upper.count '\n' + 1)) := by
  rw [significantLines, split_append_cons, significantFrom_append, length_split,
    significantFrom_add]
  rfl

/-- A significant line is trimmed, stands on one line of the text, and its number is its place. -/
theorem mem_significantLines {text : List Char} {line : Line} (h : line ∈ significantLines text) :
    0 < line.number ∧ isSignificant line.chars = true ∧
      ∃ raw, (split '\n' text)[line.number - 1]? = some raw ∧ line.chars = trim raw := by
  rw [significantLines, Survey.significantFrom_eq, List.mem_filter] at h
  obtain ⟨hmem, hsignificant⟩ := h
  obtain ⟨⟨raw, number⟩, hraw, rfl⟩ := List.mem_map.1 hmem
  obtain ⟨hle, hget⟩ := List.mk_mem_zipIdx_iff_le_and_getElem?_sub.1 hraw
  exact ⟨hle, hsignificant, raw, hget, rfl⟩

/-- A significant line of a text is what its characters give on their own, moved to its number. -/
theorem moved_of_mem {text : List Char} {line : Line} (h : line ∈ significantLines text) :
    line = Line.moved (line.number - 1) ⟨1, line.chars⟩ := by
  have hpos := (mem_significantLines h).1
  rw [Line.moved, Nat.add_sub_cancel' hpos]

/-- A significant line is the one significant line of the text that it is. -/
theorem significantLines_of_mem {text : List Char} {line : Line}
    (h : line ∈ significantLines text) : significantLines line.chars = [⟨1, line.chars⟩] := by
  obtain ⟨-, hsignificant, raw, hraw, hchars⟩ := mem_significantLines h
  have hone : '\n' ∉ line.chars :=
    hchars ▸ not_mem_trim (not_mem_of_mem_split (List.mem_of_getElem? hraw))
  have htrim : trim line.chars = line.chars := by
    rw [hchars, trim_trim]
  rw [significantLines_of_not_mem hone (by rw [htrim]; exact hsignificant), htrim]

/-! ## Entries -/

/-- What a line gives: what it is read as if it is the whole text, at its place. -/
def Line.Gives (line : Line) (entry : Statement) : Prop :=
  ∃ alone, Program.read line.text = .ok (Program.ofStatements [alone]) ∧
    entry = alone.moved (line.number - 1)

namespace Program

/-- Reading statements in a row joins what the upper and what the lower ones give. -/
theorem ofStatements_append (upper lower : List Statement) :
    ofStatements (upper ++ lower) =
      { wires := (ofStatements upper).wires ++ (ofStatements lower).wires
        gates := (ofStatements upper).gates ++ (ofStatements lower).gates
        unread := (ofStatements upper).unread ++ (ofStatements lower).unread } := by
  simp only [ofStatements, List.filterMap_append]

/-- Only the unread lines know where they stand. -/
theorem ofStatements_moved (shift : Nat) (statements : List Statement) :
    ofStatements (statements.map (Statement.moved shift)) =
      { ofStatements statements with
        unread := (ofStatements statements).unread.map (Line.moved shift) } := by
  have hwire : Statement.wire? ∘ Statement.moved shift = Statement.wire? := by
    funext statement
    cases statement <;> rfl
  have hgate : Statement.gate? ∘ Statement.moved shift = Statement.gate? := by
    funext statement
    cases statement <;> rfl
  have hunread : Statement.unread? ∘ Statement.moved shift =
      fun statement => statement.unread?.map (Line.moved shift) := by
    funext statement
    cases statement <;> rfl
  simp only [ofStatements, List.filterMap_map, hwire, hgate, hunread, List.map_filterMap]

/-- Each statement is one entry. -/
theorem length_ofStatements (statements : List Statement) :
    (ofStatements statements).wires.length + (ofStatements statements).gates.length +
      (ofStatements statements).unread.length = statements.length := by
  unfold ofStatements
  dsimp only
  induction statements with
  | nil => rfl
  | cons statement statements ih =>
    cases statement <;>
    · simp only [List.filterMap_cons, Statement.wire?, Statement.gate?, Statement.unread?,
        List.length_cons]
      omega

section
variable (upper lower : String)

/-- The significant lines of one text above another are those of both, the lower ones moved below
the upper text. -/
theorem significantLines_append_newline :
    significantLines (upper ++ "\n" ++ lower).toList =
      significantLines upper.toList ++
        (significantLines lower.toList).map (Line.moved (upper.toList.count '\n' + 1)) := by
  rw [String.toList_append, String.toList_append, List.append_assoc]
  exact significantLines_append upper.toList lower.toList

/-- A program read from one text above another is the one above the other, the lower one moved. -/
theorem ofText_append :
    ofText (upper ++ "\n" ++ lower) =
      (ofText upper).above (upper.toList.count '\n' + 1) (ofText lower) := by
  have hmoved : ∀ shift, Statement.ofLine ∘ Line.moved shift =
      Statement.moved shift ∘ Statement.ofLine :=
    fun shift => funext (Statement.ofLine_moved shift)
  rw [ofText, significantLines_append_newline, List.map_append, List.map_map, hmoved,
    ← List.map_map, ofStatements_append, ofStatements_moved]
  rfl

/-- No numeral is gained or lost where two texts meet. -/
theorem numerals_append_newline :
    (significantLines (upper ++ "\n" ++ lower).toList).flatMap Line.numerals =
      (significantLines upper.toList).flatMap Line.numerals ++
        (significantLines lower.toList).flatMap Line.numerals := by
  rw [significantLines_append_newline, List.flatMap_append, List.flatMap_map]
  simp only [Line.numerals_moved]

/-- A text below another is read as both texts are, unless one of them is not read. -/
theorem read_append :
    read (upper ++ "\n" ++ lower) = (do
      let above ← read upper
      let below ← read lower
      return above.above (upper.toList.count '\n' + 1) below) := by
  have hoverlong : ∀ numerals numerals', overlong? (numerals ++ numerals') =
      (overlong? numerals).or (overlong? numerals') := by
    intro numerals numerals'
    rw [overlong?, List.find?_append, Option.map_or]
    rfl
  unfold read
  rw [numerals_append_newline, hoverlong, ofText_append]
  cases overlong? ((significantLines upper.toList).flatMap Line.numerals) with
  | some digits => rfl
  | none => cases overlong? ((significantLines lower.toList).flatMap Line.numerals) <;> rfl

end

/-- The unread lines are among the significant ones and in their order. -/
theorem unread_sublist (text : String) :
    (ofText text).unread.Sublist (significantLines text.toList) := by
  have hunread : Statement.unread? ∘ Statement.ofLine = Option.guard
      (fun line : Line => decide (wireDecl? line.chars = none ∧ line.gate? = none)) := by
    funext line
    simp [Statement.unread?_ofLine, Option.guard]
  unfold ofText ofStatements
  dsimp only
  rw [List.filterMap_map, hunread, List.filterMap_eq_filter]
  exact List.filter_sublist

/-- If no number is too long, every line gives the statement that it holds. -/
theorem gives_ofLine {text : String} (h : HasShortNumbers text) {line : Line}
    (hline : line ∈ significantLines text.toList) : line.Gives (Statement.ofLine line) := by
  have hone : significantLines line.text.toList = [⟨1, line.chars⟩] := by
    rw [Line.text, String.toList_ofList, significantLines_of_mem hline]
  have hshort : AreShort line.numerals :=
    fun numeral hnumeral => h numeral (List.mem_flatMap.2 ⟨line, hline, hnumeral⟩)
  refine ⟨Statement.ofLine ⟨1, line.chars⟩, (read_eq_ok_iff hone).2 ⟨hshort, rfl⟩, ?_⟩
  rw [← Statement.ofLine_moved, ← moved_of_mem hline]

/-- Reading is local to lines. A text below another is read as both are, the lower one with its
lines numbered on. A text is read unless a number in it is too long, and then each of its
significant lines gives one entry, which is what the line is read as on its own. So there are as
many entries as significant lines, and the lines that could not be read stand in order, each with
its place in the text. -/
theorem read_local (upper lower text : String) :
    (read (upper ++ "\n" ++ lower) = do
      let above ← read upper
      let below ← read lower
      return above.above (upper.toList.count '\n' + 1) below) ∧
    ((∃ program, read text = .ok program) ↔ HasShortNumbers text) ∧
    ∀ program, read text = .ok program →
      (∃ entries, List.Forall₂ Line.Gives (significantLines text.toList) entries ∧
        program = ofStatements entries) ∧
      program.wires.length + program.gates.length + program.unread.length =
        (split '\n' text.toList).countP (fun raw => isSignificant (trim raw)) ∧
      (program.unread.map (·.number)).Pairwise (· < ·) ∧
      ∀ line ∈ program.unread, 0 < line.number ∧
        ∃ raw, (split '\n' text.toList)[line.number - 1]? = some raw ∧ line.chars = trim raw := by
  refine ⟨read_append upper lower, ?_, fun program hread => ?_⟩
  · simp only [read_eq_iff, exists_and_left, exists_eq', and_true]
  · obtain ⟨hshort, rfl⟩ := read_eq_iff.1 hread
    have hentries : List.Forall₂ Line.Gives (significantLines text.toList)
        ((significantLines text.toList).map Statement.ofLine) := by
      rw [List.forall₂_map_right_iff, List.forall₂_same]
      exact fun line hline => gives_ofLine hshort hline
    refine ⟨⟨_, hentries, rfl⟩, ?_, ?_, ?_⟩
    · rw [ofText, length_ofStatements, List.length_map, significantLines, length_significantFrom]
    · exact (Survey.pairwise_number_significantLines text.toList).sublist
        ((unread_sublist text).map _)
    · intro line hline
      obtain ⟨hpos, -, hraw⟩ := mem_significantLines ((unread_sublist text).subset hline)
      exact ⟨hpos, hraw⟩

end Program

/-- A text that ends with a line feed, with another below it: a blank line stands between them, and
the two lines that are no statements are the third and the fifth. -/
theorem read_local_nonsense :
    let upper := "wire a\n\t# spare\r\nnonsense\n"
    let lower := "bogus\n WIRE b[2] "
    let program : Program := {
      wires := [{ name := "a" }, { name := "b", width := 2 }]
      unread := [⟨3, "nonsense".toList⟩, ⟨5, "bogus".toList⟩] }
    Program.read (upper ++ "\n" ++ lower) = .ok program ∧
      ∃ entries, program = Program.ofStatements entries ∧ List.Forall₂ Line.Gives
        (significantLines (upper ++ "\n" ++ lower).toList) entries := by
  intro upper lower program
  obtain ⟨hjoined, -, hread⟩ := Program.read_local upper lower (upper ++ "\n" ++ lower)
  have hprogram : Program.read (upper ++ "\n" ++ lower) = .ok program := by
    rw [hjoined]
    decide +kernel
  obtain ⟨⟨entries, hgives, hentries⟩, -⟩ := hread program hprogram
  exact ⟨hprogram, entries, hentries, hgives⟩

/-- A number that is too long keeps also the line above it from giving anything. -/
theorem read_local_overlong :
    let text := "wire b" ++ "\n" ++ String.ofList overlongDecl
    Program.read "wire b" = .ok { wires := [{ name := "b" }] } ∧
      significantLines text.toList = [⟨1, "wire b".toList⟩, ⟨2, overlongDecl⟩] ∧
      ∀ program, Program.read text ≠ .ok program := by
  intro text
  have hlines : significantLines text.toList = [⟨1, "wire b".toList⟩, ⟨2, overlongDecl⟩] := by
    have hdecl : (String.ofList overlongDecl).toList = overlongDecl := String.toList_ofList
    rw [Program.significantLines_append_newline, hdecl, significantLines_overlongDecl]
    rfl
  refine ⟨by decide +kernel, hlines, fun program hread => ?_⟩
  have hshort := (Program.read_eq_iff.1 hread).1
  rw [HasShortNumbers, hlines] at hshort
  refine not_areShort_overlongBits (fun numeral hnumeral => hshort numeral ?_)
  refine List.mem_flatMap.2 ⟨⟨2, overlongDecl⟩, List.mem_cons_of_mem _ List.mem_cons_self, ?_⟩
  rwa [Line.numerals_of_decl _ declLine_overlongDecl]

end Switchyard.Hdl
