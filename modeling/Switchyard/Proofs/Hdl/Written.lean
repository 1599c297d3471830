import Switchyard.Proofs.Hdl.Spelling
import Switchyard.Proofs.Hdl.Stages

/-!
# Programs as they are written

A program is written as a list of clauses, one a line, each declaring a wire or placing a gate
(`Clause.Writes`), with blanks around them and with blank lines and comments between them
(`WrittenLines`). Reading gives the clauses back: each of their lines is read as what the clause
says (`Clause.Writes.readAs`), and a written program is read without complaint, with exactly the
wires and gates written, in order, if and only if none of its numbers has too many digits
(`Program.read_written_iff`).
-/

namespace Switchyard.Hdl

open Text

/-! ## What is written -/

/-- An identifier: an ASCII letter or an underscore, then ASCII letters, digits and underscores. -/
structure Identifier where
  chars : List Char
  isRun : IsRun isNameStart isNameChar chars

/-- How far a declared wire reaches. -/
inductive Extent where
  /-- One bit. -/
  | single
  /-- The given number of bits. -/
  | width (bits : Nat)
  /-- The bits from the high one down to the low one. -/
  | range (high low : Nat)

/-- An operand: a wire with the number of a bit or without one. -/
structure Mention where
  wire : Identifier
  bit : Option Nat := none

/-- A line with a meaning: the declaration of a wire, or a gate with its operands. -/
inductive Clause where
  | wire (name : Identifier) (extent : Extent)
  | gate (kind name : Identifier) (inputs outputs : List Mention)
      (inputs_ne : inputs ≠ []) (outputs_ne : outputs ≠ [])

/-! ## What it means -/

/-- The width of a wire; the range from a lower bit to a higher one counts backwards. -/
def Extent.bits : Extent → Int
  | .single => 1
  | .width bits => bits
  | .range high low => high - low + 1

/-- The bit that an operand means, the first one unless it says which. -/
def Mention.ref (mention : Mention) : Ref where
  wire := String.ofList mention.wire.chars
  bit := ((mention.bit.getD 0 : Nat) : Int)

/-- The wire that a clause declares. -/
def Clause.wire? : Clause → Option Wire
  | .wire name extent => some { name := String.ofList name.chars, width := extent.bits }
  | .gate .. => none

/-- The gate that a clause places, its type in lower case. -/
def Clause.gate? : Clause → Option Gate
  | .wire .. => none
  | .gate kind name inputs outputs _ _ => some {
      kind := String.ofList (kind.chars.map Char.toLower)
      name := String.ofList name.chars
      inputs := inputs.map Mention.ref
      outputs := outputs.map Mention.ref }

/-- The numbers in an extent. -/
def Extent.numbers : Extent → List Nat
  | .single => []
  | .width bits => [bits]
  | .range high low => [high, low]

/-- The numbers in a clause. -/
def Clause.numbers : Clause → List Nat
  | .wire _ extent => extent.numbers
  | .gate _ _ inputs outputs _ _ => (inputs ++ outputs).flatMap (fun mention => mention.bit.toList)

/-! ## How it is written -/

/-- The extent with its numbers in decimal digits. -/
def Extent.span : Extent → Span
  | .single => .single
  | .width bits => .width (Nat.toDigits 10 bits)
  | .range high low => .range (Nat.toDigits 10 high) (Nat.toDigits 10 low)

/-- The operand with its number in decimal digits. -/
def Mention.operand (mention : Mention) : Operand where
  name := mention.wire.chars
  bit := mention.bit.map (Nat.toDigits 10)

def Mention.written (mention : Mention) : List Char :=
  mention.operand.name ++ mention.operand.span.written

/-- Operands with a comma and a space between them. -/
def listed (mentions : List Mention) : List Char :=
  [',', ' '].intercalate (mentions.map Mention.written)

/-- A gate with its two lists, each behind its keyword. -/
def gateText (kind name : Identifier) (input output : List Char) (inputs outputs : List Mention) :
    List Char :=
  kind.chars ++ ' ' :: (name.chars ++ ' ' :: '(' :: (input ++ ' ' :: (listed inputs ++
    ';' :: ' ' :: (output ++ ' ' :: (listed outputs ++ [')'])))))

/-- How a clause is written, the keywords in any case: `wire name`, `wire name[width]`, `wire
name[high:low]` or `type name (input: a, b[3]; output: c)`. -/
inductive Clause.Writes : Clause → List Char → Prop
  | wire (name : Identifier) (extent : Extent) (keyword : List Char) :
      keyword.map Char.toLower = "wire".toList →
      Writes (.wire name extent) (keyword ++ ' ' :: (name.chars ++ extent.span.written))
  | gate (kind name : Identifier) (inputs outputs : List Mention) (inputs_ne : inputs ≠ [])
      (outputs_ne : outputs ≠ []) (input output : List Char) :
      input.map Char.toLower = "input:".toList → output.map Char.toLower = "output:".toList →
      Writes (.gate kind name inputs outputs inputs_ne outputs_ne)
        (gateText kind name input output inputs outputs)

/-- Blanks within a line. -/
def IsMargin (cs : List Char) : Prop :=
  ∀ c ∈ cs, isBlank c = true ∧ c ≠ '\n'

/-- A line that says nothing: only blanks, or a comment behind them. -/
inductive IsIdle : List Char → Prop
  | blank {margin : List Char} : IsMargin margin → IsIdle margin
  | comment {margin note : List Char} : IsMargin margin → '\n' ∉ note →
      IsIdle (margin ++ '#' :: note)

/-- Clauses written one a line, with blanks around them and idle lines between them. -/
inductive WrittenLines : List Clause → List (List Char) → Prop
  | nil : WrittenLines [] []
  | idle {clauses : List Clause} {line : List Char} {lines : List (List Char)} : IsIdle line →
      WrittenLines clauses lines → WrittenLines clauses (line :: lines)
  | clause {clause : Clause} {clauses : List Clause} {before core after : List Char}
      {lines : List (List Char)} : IsMargin before → clause.Writes core → IsMargin after →
      WrittenLines clauses lines →
      WrittenLines (clause :: clauses) ((before ++ (core ++ after)) :: lines)

/-! ## Names and spans -/

section
variable {c : Char}

/-- An identifier has no character that names do not have. -/
theorem Identifier.not_mem (name : Identifier) (hc : isNameChar c = false) : c ∉ name.chars := by
  intro hmem
  rw [name.isRun.nameChars c hmem] at hc
  cases hc

/-- A written span has only digits and its three marks. -/
theorem Span.Numeric.not_mem {span : Span} (h : span.Numeric) (hc : isDigit c = false)
    (hmark : c ∉ ['[', ':', ']']) : c ∉ span.written := by
  have hnumeral : ∀ {numeral : List Char}, IsNumeral numeral → c ∉ numeral := by
    intro numeral hnumeral hmem
    rw [hnumeral.2 c hmem] at hc
    cases hc
  cases span with
  | single => exact List.not_mem_nil
  | width bits =>
    have hbits := hnumeral (h bits (by simp [numerals]))
    simp only [List.mem_cons, List.not_mem_nil, or_false, not_or] at hmark
    simp [written, hbits, hmark]
  | range high low =>
    have hhigh := hnumeral (h high (by simp [numerals]))
    have hlow := hnumeral (h low (by simp [numerals]))
    simp only [List.mem_cons, List.not_mem_nil, or_false, not_or] at hmark
    simp [written, hhigh, hlow, hmark]

end

/-- The span of an extent is made of numerals. -/
theorem Extent.numeric_span (extent : Extent) : extent.span.Numeric := by
  cases extent with
  | single => simp [Span.Numeric, Span.numerals, span]
  | width bits => simp [Span.Numeric, Span.numerals, span, isNumeral_toDigits]
  | range high low => simp [Span.Numeric, Span.numerals, span, isNumeral_toDigits]

/-- A written extent has the bits it stands for. -/
theorem Extent.bits_span (extent : Extent) : extent.span.bits = extent.bits := by
  cases extent <;> simp [span, Span.bits, bits, ofDigits_toDigits]

/-- A range from a number to itself is one bit wide. -/
theorem Extent.bits_of_equal_ends (n : Nat) : (Extent.range n n).bits = 1 := by
  rw [bits, Int.sub_self, Int.zero_add]

/-- The numerals of a written extent are its numbers in digits. -/
theorem Extent.numerals_span (extent : Extent) :
    extent.span.numerals = extent.numbers.map (Nat.toDigits 10) := by
  cases extent <;> rfl

/-- The span of a written operand is made of numerals. -/
theorem Mention.numeric_operand (mention : Mention) : mention.operand.span.Numeric := by
  obtain ⟨wire, bit⟩ := mention
  cases bit <;> simp [operand, Operand.span, Span.Numeric, Span.numerals, isNumeral_toDigits]

/-! ## Operand lists -/

/-- A written operand has only characters of names and the marks of spans. -/
theorem Mention.not_mem (mention : Mention) {c : Char} (hname : isNameChar c = false)
    (hmark : c ∉ ['[', ':', ']']) : c ∉ mention.written := by
  have hdigit : isDigit c = false := by
    unfold isNameChar Char.isAlphanum at hname
    rw [Bool.or_eq_false_iff, Bool.or_eq_false_iff] at hname
    exact hname.1.2
  exact List.not_mem_append (mention.wire.not_mem hname)
    (mention.numeric_operand.not_mem hdigit hmark)

/-- A written operand is read back as it was meant. -/
theorem Mention.ofText?_written (mention : Mention) :
    Operand.ofText? mention.written = some mention.operand :=
  Operand.ofText?_eq_some_iff.2 ⟨mention.wire.isRun, mention.numeric_operand, rfl⟩

/-- A written operand is read back as a reference to the wire it names. -/
theorem Mention.ofOperand?_written (mention : Mention) :
    Ref.ofOperand? mention.written = some mention.ref := by
  rw [Ref.ofOperand?, ofText?_written, Option.map_some, Operand.toRef, ref, operand]
  cases mention.bit with
  | none => rfl
  | some bit => simp [ofDigits_toDigits]

/-- A written operand neither begins nor ends with a blank. -/
theorem Mention.trim_written (mention : Mention) :
    trim (' ' :: mention.written) = mention.written := by
  have hlast : ∀ c ∈ mention.written.getLast?, isBlank c = false := by
    intro c hc
    rcases Span.getLast?_append_written hc with hname | rfl
    · exact isBlank_of_isNameChar (mention.wire.isRun.nameChars c hname)
    · decide
  obtain ⟨c, rest, hchars, hstart, -⟩ := mention.wire.isRun
  have hwritten : mention.written = c :: (rest ++ mention.operand.span.written) := by
    rw [written, operand, hchars, List.cons_append]
  have hfirst : ∀ c ∈ mention.written.head?, isBlank c = false := by
    rw [hwritten]
    rintro _ ⟨⟩
    exact isBlank_of_isNameChar (isNameChar_of_start hstart)
  have htrim : trim ([' '] ++ (mention.written ++ [])) = mention.written :=
    trim_margins (List.forall_mem_singleton.2 rfl) nofun
      (by rw [hwritten]; exact List.cons_ne_nil _ _) hfirst hlast
  rwa [List.append_nil] at htrim

/-- A written list has only characters of operands, commas and spaces. -/
theorem not_mem_listed {c : Char} (hname : isNameChar c = false)
    (hmark : c ∉ ['[', ':', ']', ',', ' ']) : ∀ mentions : List Mention, c ∉ listed mentions
  | [] => List.not_mem_nil
  | [mention] => by
    simp only [List.mem_cons, not_or] at hmark
    rw [listed, List.map_singleton, List.intercalate_singleton]
    exact mention.not_mem hname (by simp [hmark])
  | mention :: next :: rest => by
    have hrest := not_mem_listed hname hmark (next :: rest)
    simp only [List.mem_cons, not_or] at hmark
    have hmention : c ∉ mention.written := mention.not_mem hname (by simp [hmark])
    rw [listed, List.map_cons, List.map_cons, List.intercalate_cons_cons, ← List.map_cons,
      ← listed]
    simp [hmention, hrest, hmark]

/-- A written list is cut at its commas. -/
theorem cons_listed : ∀ {mentions : List Mention}, mentions ≠ [] →
    ' ' :: listed mentions =
      [','].intercalate (mentions.map (fun mention => ' ' :: mention.written))
  | [], h => absurd rfl h
  | [mention], _ => by simp [listed]
  | mention :: next :: rest, _ => by
    have hrest := cons_listed (List.cons_ne_nil next rest)
    simp only [listed, List.map_cons, List.intercalate_cons_cons] at hrest ⊢
    rw [← hrest]
    simp

/-- A written list is cut into the operands it was written from. -/
theorem operands_listed {mentions : List Mention} (h : mentions ≠ []) :
    operands (' ' :: listed mentions) = mentions.map Mention.written := by
  have hcut : split ',' (' ' :: listed mentions) =
      mentions.map (fun mention => ' ' :: mention.written) := by
    rw [cons_listed h]
    refine split_intercalate (List.forall_mem_map.2 (fun mention _ => ?_)) (by simpa using h)
    have hcomma : ',' ∉ mention.written := mention.not_mem rfl (by decide)
    simpa using hcomma
  have htrim : (mentions.map (fun mention => ' ' :: mention.written)).map trim =
      mentions.map Mention.written := by
    rw [List.map_map]
    exact List.map_congr_left (fun mention _ => mention.trim_written)
  rw [operands, hcut, htrim, List.filter_eq_self, List.forall_mem_map]
  intro mention _
  obtain ⟨c, rest, hchars, -⟩ := mention.wire.isRun
  simp [Mention.written, Mention.operand, hchars]

/-- A written list is read back as references to what it mentions. -/
theorem ofOperands_listed {mentions : List Mention} (h : mentions ≠ []) :
    Ref.ofOperands (' ' :: listed mentions) = mentions.map Mention.ref := by
  rw [Ref.ofOperands, operands_listed h, List.filterMap_map]
  have hread : Ref.ofOperand? ∘ Mention.written = some ∘ Mention.ref :=
    funext Mention.ofOperand?_written
  rw [hread, List.filterMap_eq_map]

/-! ## Clauses -/

/-- The space before a name is all there is to drop. -/
theorem dropBlanks?_name {name : List Char} (h : IsRun isNameStart isNameChar name)
    (rest : List Char) : dropBlanks? (' ' :: (name ++ rest)) = some (name ++ rest) := by
  obtain ⟨c, chars, rfl, hstart, -⟩ := h
  rw [dropBlanks?, if_pos (by decide), List.cons_append, trimLeft_of_isNameStart hstart]

/-- A name is taken whole where what follows does not go on with it. -/
theorem takeName?_name {name rest : List Char} (h : IsRun isNameStart isNameChar name)
    (hrest : ∀ c ∈ rest.head?, isLooseNameChar c = false) :
    takeName? (name ++ rest) = some (name, rest) :=
  takeRun?_eq_some_iff.2 ⟨rfl, h.loose, hrest⟩

/-- A part without the stop is taken whole. -/
theorem takeUntil?_append {stop : Char} {before : List Char} (hstop : stop ∉ before)
    (hne : before ≠ []) (rest : List Char) :
    takeUntil? stop (before ++ stop :: rest) = some (before, rest) := by
  have hbefore : ∀ c ∈ before, (c != stop) = true := by
    intro c hc
    rw [bne_iff_ne]
    rintro rfl
    exact hstop hc
  have hcut : (before ++ stop :: rest).takeWhile (· != stop) = before ∧
      (before ++ stop :: rest).dropWhile (· != stop) = stop :: rest :=
    cut_iff.2 ⟨rfl, hbefore, by simp⟩
  unfold takeUntil?
  dsimp only
  rw [hcut.1, hcut.2, if_neg (by simpa using hne), dropChar?, if_pos rfl, Option.map_some]

/-- A keyword in any case is dropped after the space before it. -/
theorem dropWord?_spelled {word spelled : List Char} {w : Char}
    (h : spelled.map Char.toLower = w :: word) (hw : isNameStart w = true)
    (hword : InAscii (w :: word)) (rest : List Char) :
    dropWord? (w :: word) (trimLeft (' ' :: (spelled ++ rest))) = some rest := by
  have hdrop := dropWord?_append h hword rest
  obtain ⟨c, chars, rfl, hstart⟩ := exists_cons_of_spelled h hw
  have htrim : trimLeft (' ' :: (c :: chars ++ rest)) = trimLeft (c :: chars ++ rest) :=
    List.dropWhile_cons_of_pos (by decide)
  rw [htrim, List.cons_append, trimLeft_of_isNameStart hstart]
  exact hdrop

/-- A written declaration is read back as its name and its span. -/
theorem wireDecl?_wire {keyword : List Char} (h : keyword.map Char.toLower = "wire".toList)
    (name : Identifier) (extent : Extent) :
    wireDecl? (keyword ++ ' ' :: (name.chars ++ extent.span.written)) =
      some ⟨name.chars, extent.span⟩ := by
  have hend : ∀ c ∈ extent.span.written.head?, isLooseNameChar c = false := by
    cases extent with
    | single => exact nofun
    | width bits => rintro _ ⟨⟩; rfl
    | range high low => rintro _ ⟨⟩; rfl
  refine Option.bind_eq_some_iff.2 ⟨_, dropWord?_append h (by decide) _, ?_⟩
  refine Option.bind_eq_some_iff.2 ⟨_, dropBlanks?_name name.isRun _, ?_⟩
  refine Option.bind_eq_some_iff.2 ⟨_, takeName?_name name.isRun hend, ?_⟩
  exact Option.bind_eq_some_iff.2 ⟨_, span?_eq_some_iff.2 ⟨extent.numeric_span, rfl⟩, rfl⟩

/-- A written gate ends with its bracket. -/
theorem exists_gateText_eq (kind name : Identifier) (input output : List Char)
    (inputs outputs : List Mention) :
    ∃ front, gateText kind name input output inputs outputs = front ++ [')'] := by
  refine ⟨kind.chars ++ ' ' :: (name.chars ++ ' ' :: '(' :: (input ++ ' ' :: (listed inputs ++
    ';' :: ' ' :: (output ++ ' ' :: listed outputs)))), ?_⟩
  simp [gateText]

/-- A written gate is read back as its kind, its name and its two lists, whatever the case of its
keywords. -/
theorem gateInst?_gate {input output : List Char} (hin : input.map Char.toLower = "input:".toList)
    (hout : output.map Char.toLower = "output:".toList) (kind name : Identifier)
    (inputs outputs : List Mention) :
    gateInst? (gateText kind name input output inputs outputs) =
      some ⟨kind.chars, name.chars, ' ' :: listed inputs, ' ' :: listed outputs⟩ := by
  have hinputs : ';' ∉ ' ' :: listed inputs := by
    have hlisted := not_mem_listed (c := ';') rfl (by decide) inputs
    simpa using hlisted
  have houtputs : ')' ∉ ' ' :: listed outputs := by
    have hlisted := not_mem_listed (c := ')') rfl (by decide) outputs
    simpa using hlisted
  refine Option.bind_eq_some_iff.2 ⟨_, takeName?_name kind.isRun (by rintro _ ⟨⟩; rfl), ?_⟩
  refine Option.bind_eq_some_iff.2 ⟨_, dropBlanks?_name name.isRun _, ?_⟩
  refine Option.bind_eq_some_iff.2 ⟨_, takeName?_name name.isRun (by rintro _ ⟨⟩; rfl), ?_⟩
  refine Option.bind_eq_some_iff.2 ⟨_, dropChar?_eq_some_iff.2 rfl, ?_⟩
  refine Option.bind_eq_some_iff.2 ⟨_, dropWord?_spelled hin rfl (by decide) _, ?_⟩
  refine Option.bind_eq_some_iff.2 ⟨_, takeUntil?_append hinputs (by simp) _, ?_⟩
  refine Option.bind_eq_some_iff.2 ⟨_, dropWord?_spelled hout rfl (by decide) _, ?_⟩
  exact Option.bind_eq_some_iff.2 ⟨_, takeUntil?_append houtputs (by simp) _, rfl⟩

/-- The clause is what the line says. -/
structure Clause.ReadAs (clause : Clause) (line : Line) : Prop where
  wire_eq : (Statement.ofLine line).wire? = clause.wire?
  gate_eq : (Statement.ofLine line).gate? = clause.gate?
  unread_eq : (Statement.ofLine line).unread? = none
  numerals_eq : line.numerals = clause.numbers.map (Nat.toDigits 10)

/-- The numerals of written operands are the bits they name, in digits. -/
theorem operandNumerals_written (mentions : List Mention) :
    (mentions.map Mention.written).flatMap operandNumerals =
      (mentions.flatMap (fun mention => mention.bit.toList)).map (Nat.toDigits 10) := by
  rw [List.flatMap_map, List.map_flatMap]
  refine List.flatMap_congr (fun mention _ => ?_)
  rw [operandNumerals, mention.ofText?_written, Option.bind_some, Mention.operand]
  cases mention.bit <;> rfl

/-- A written clause is read as what it says. -/
theorem Clause.Writes.readAs {clause : Clause} {core : List Char} (h : clause.Writes core)
    (number : Nat) : clause.ReadAs ⟨number, core⟩ := by
  cases h with
  | wire name extent keyword hkeyword =>
    have hdecl := wireDecl?_wire hkeyword name extent
    refine ⟨?_, ?_, ?_, ?_⟩
    · rw [Statement.wire?_ofLine, hdecl, Option.map_some, Wire.ofDecl, extent.bits_span, wire?]
    · rw [Statement.gate?_ofLine, Line.gate?, hdecl, Option.map_none, gate?]
    · rw [Statement.unread?_ofLine, hdecl, if_neg (fun hunread => Option.some_ne_none _ hunread.1)]
    · rw [Line.numerals, hdecl, numbers]
      exact extent.numerals_span
  | gate kind name inputs outputs inputs_ne outputs_ne input output hin hout =>
    have hinst := gateInst?_gate hin hout kind name inputs outputs
    obtain ⟨front, hfront⟩ := exists_gateText_eq kind name input output inputs outputs
    have hdecl : wireDecl? (gateText kind name input output inputs outputs) = none := by
      rw [hfront]
      exact wireDecl?_of_parenthesis front
    refine ⟨?_, ?_, ?_, ?_⟩
    · rw [Statement.wire?_ofLine, hdecl, Option.map_none, wire?]
    · rw [Statement.gate?_ofLine, Line.gate?, hdecl]
      dsimp only
      rw [hinst, Option.map_some, Gate.ofInst, kind.isRun.lower_eq, ofOperands_listed inputs_ne,
        ofOperands_listed outputs_ne, gate?]
    · rw [Statement.unread?_ofLine, Line.gate?, hdecl]
      dsimp only
      rw [hinst, if_neg (fun hunread => Option.some_ne_none _ hunread.2)]
    · rw [Line.numerals, Line.operands, hdecl, hinst]
      dsimp only
      rw [operands_listed inputs_ne, operands_listed outputs_ne, ← List.map_append,
        operandNumerals_written, numbers]

/-- A written clause begins with a letter and ends with no blank. -/
theorem Clause.Writes.ends {clause : Clause} {core : List Char} (h : clause.Writes core) :
    (∃ c rest, core = c :: rest ∧ isNameStart c = true) ∧
      ∀ c ∈ core.getLast?, isBlank c = false := by
  cases h with
  | wire name extent keyword hkeyword =>
    constructor
    · obtain ⟨c, rest, rfl, hstart⟩ := exists_cons_of_spelled hkeyword rfl
      exact ⟨c, _, rfl, hstart⟩
    · intro c hc
      have hne : name.chars ++ extent.span.written ≠ [] := by
        obtain ⟨first, rest, hchars, -⟩ := name.isRun
        rw [hchars]
        exact List.cons_ne_nil _ _
      rw [List.append_cons, List.getLast?_append_of_ne_nil _ hne] at hc
      rcases Span.getLast?_append_written hc with hname | rfl
      · exact isBlank_of_isNameChar (name.isRun.nameChars c hname)
      · rfl
  | gate kind name inputs outputs inputs_ne outputs_ne input output hin hout =>
    constructor
    · obtain ⟨c, rest, hchars, hstart, -⟩ := kind.isRun
      exact ⟨c, _, by rw [gateText, hchars, List.cons_append], hstart⟩
    · intro c hc
      obtain ⟨front, hfront⟩ := exists_gateText_eq kind name input output inputs outputs
      rw [hfront, List.getLast?_concat] at hc
      cases hc
      rfl

/-- A written clause is one line. -/
theorem Clause.Writes.not_mem {clause : Clause} {core : List Char} (h : clause.Writes core) :
    '\n' ∉ core := by
  cases h with
  | wire name extent keyword hkeyword =>
    have hword := not_mem_of_spelled hkeyword (c := '\n') rfl (by decide)
    have hname := name.not_mem (c := '\n') rfl
    have hspan := extent.numeric_span.not_mem (c := '\n') rfl (by decide)
    simp [hword, hname, hspan]
  | gate kind name inputs outputs inputs_ne outputs_ne input output hin hout =>
    have hinput := not_mem_of_spelled hin (c := '\n') rfl (by decide)
    have houtput := not_mem_of_spelled hout (c := '\n') rfl (by decide)
    have hkind := kind.not_mem (c := '\n') rfl
    have hname := name.not_mem (c := '\n') rfl
    have hinputs := not_mem_listed (c := '\n') rfl (by decide) inputs
    have houtputs := not_mem_listed (c := '\n') rfl (by decide) outputs
    simp [gateText, hinput, houtput, hkind, hname, hinputs, houtputs]

/-! ## Lines -/

/-- A margin is made of blanks. -/
theorem IsMargin.isBlank {cs : List Char} (h : IsMargin cs) : ∀ c ∈ cs, isBlank c = true :=
  fun c hc => (h c hc).1

/-- A margin has no newline, so it stays within its line. -/
theorem IsMargin.not_mem {cs : List Char} (h : IsMargin cs) : '\n' ∉ cs :=
  fun hmem => (h '\n' hmem).2 rfl

/-- An idle line is one line. -/
theorem IsIdle.not_mem {line : List Char} (h : IsIdle line) : '\n' ∉ line := by
  cases h with
  | blank hmargin => exact hmargin.not_mem
  | comment hmargin hnote => simp [hmargin.not_mem, hnote]

/-- An idle line is not significant, being empty or a comment. -/
theorem IsIdle.isSignificant_trim {line : List Char} (h : IsIdle line) :
    isSignificant (trim line) = false := by
  cases h with
  | blank hmargin =>
    rw [trim_of_blank hmargin.isBlank]
    rfl
  | @comment margin note hmargin =>
    have hhead : (trim (margin ++ '#' :: note)).head? = some '#' := head?_trim hmargin.isBlank rfl
    obtain ⟨rest, hrest⟩ := List.head?_eq_some_iff.1 hhead
    rw [hrest]
    rfl

/-- Trimming a written line leaves what was written between the margins, and the line counts. -/
theorem Clause.Writes.trim_eq {clause : Clause} {before core after : List Char}
    (h : clause.Writes core) (hbefore : IsMargin before) (hafter : IsMargin after) :
    trim (before ++ (core ++ after)) = core ∧ isSignificant core = true := by
  obtain ⟨⟨c, rest, rfl, hstart⟩, hlast⟩ := h.ends
  have hblank := isBlank_of_isNameChar (isNameChar_of_start hstart)
  refine ⟨trim_margins hbefore.isBlank hafter.isBlank (List.cons_ne_nil c rest)
    (by simpa using hblank) hlast, ?_⟩
  rw [isSignificant, bne_iff_ne]
  rintro rfl
  cases hstart

namespace WrittenLines

variable {clauses : List Clause} {lines : List (List Char)} (h : WrittenLines clauses lines)
include h

/-- No written line has a newline. -/
theorem not_mem : ∀ line ∈ lines, '\n' ∉ line := by
  induction h with
  | nil => exact nofun
  | idle hidle _ ih => exact List.forall_mem_cons.2 ⟨hidle.not_mem, ih⟩
  | clause hbefore hcore hafter _ ih =>
    refine List.forall_mem_cons.2 ⟨?_, ih⟩
    simp [hbefore.not_mem, hcore.not_mem, hafter.not_mem]

/-- The significant lines are those of the clauses. -/
theorem readAs (number : Nat) :
    List.Forall₂ Clause.ReadAs clauses (significantFrom number lines) := by
  induction h generalizing number with
  | nil => exact .nil
  | idle hidle _ ih =>
    rw [significantFrom, hidle.isSignificant_trim, if_neg Bool.false_ne_true]
    exact ih (number + 1)
  | clause hbefore hcore hafter _ ih =>
    obtain ⟨htrim, hsignificant⟩ := hcore.trim_eq hbefore hafter
    rw [significantFrom, htrim, if_pos hsignificant]
    exact .cons (hcore.readAs number) (ih (number + 1))

/-- The text of the lines is cut into them. -/
theorem readAs_text : List.Forall₂ Clause.ReadAs clauses
    (significantLines (['\n'].intercalate lines)) := by
  rw [significantLines]
  by_cases hne : lines = []
  · subst hne
    cases h
    exact .nil
  · rw [split_intercalate h.not_mem hne]
    exact h.readAs 1

end WrittenLines

/-! ## Programs -/

/-- The program that clauses mean. -/
def Program.ofClauses (clauses : List Clause) : Program where
  wires := clauses.filterMap Clause.wire?
  gates := clauses.filterMap Clause.gate?

/-- Lines that read as clauses give the program of these clauses. -/
theorem Program.ofStatements_readAs {clauses : List Clause} {lines : List Line}
    (h : List.Forall₂ Clause.ReadAs clauses lines) :
    ofStatements (lines.map Statement.ofLine) = ofClauses clauses := by
  have hread : (lines.map Statement.ofLine).filterMap Statement.wire? =
        clauses.filterMap Clause.wire? ∧
      (lines.map Statement.ofLine).filterMap Statement.gate? = clauses.filterMap Clause.gate? ∧
      (lines.map Statement.ofLine).filterMap Statement.unread? = [] := by
    induction h with
    | nil => exact ⟨rfl, rfl, rfl⟩
    | cons hline _ ih =>
      obtain ⟨hwires, hgates, hunread⟩ := ih
      simp only [List.map_cons, List.filterMap_cons, hline.wire_eq, hline.gate_eq,
        hline.unread_eq, hwires, hgates, hunread, and_self]
  obtain ⟨hwires, hgates, hunread⟩ := hread
  rw [ofStatements, hwires, hgates, hunread, ofClauses]

/-- The numerals of lines that read as clauses are the numbers of these clauses in digits. -/
theorem numerals_readAs {clauses : List Clause} {lines : List Line}
    (h : List.Forall₂ Clause.ReadAs clauses lines) :
    lines.flatMap Line.numerals = (clauses.flatMap Clause.numbers).map (Nat.toDigits 10) := by
  induction h with
  | nil => rfl
  | cons hline _ ih =>
    rw [List.flatMap_cons, List.flatMap_cons, List.map_append, hline.numerals_eq, ih]

/-- The text of written lines is read without complaint, with exactly the wires and gates written,
in order, if and only if no number in it has more digits than are read. -/
theorem Program.read_written_iff {clauses : List Clause} {lines : List (List Char)}
    (h : WrittenLines clauses lines) :
    Program.read (String.ofList (['\n'].intercalate lines)) = .ok {
        wires := clauses.filterMap Clause.wire?
        gates := clauses.filterMap Clause.gate?
        unread := [] } ↔
      ∀ clause ∈ clauses, ∀ n ∈ clause.numbers, n < 10 ^ maxDigits := by
  have hlines := h.readAs_text
  have htext : Program.ofText (String.ofList (['\n'].intercalate lines)) =
      Program.ofClauses clauses := by
    rw [ofText, String.toList_ofList, ofStatements_readAs hlines]
  rw [← ofClauses, ← htext, Program.read_iff, HasShortNumbers, String.toList_ofList,
    numerals_readAs hlines, List.forall_mem_map, List.forall_mem_flatMap]
  exact forall₄_congr (fun _ _ _ _ => length_toDigits_iff)

/-- A comment, a wire whose bits are counted backwards, an empty line, and a gate with its keywords
in mixed case are read as the wire and the gate. -/
theorem read_written_nor :
    let a : Identifier := ⟨['a'], 'a', [], rfl, rfl, nofun⟩
    let nor : Identifier := ⟨['N', 'o', 'R'], 'N', ['o', 'R'], rfl, rfl,
      List.forall_mem_cons.2 ⟨rfl, List.forall_mem_singleton.2 rfl⟩⟩
    let clauses : List Clause := [.wire a (.range 2 15),
      .gate nor a [⟨a, some 10⟩, ⟨a, none⟩] [⟨a, some 0⟩] (by simp) (by simp)]
    let lines := ["\t# bits".toList, " WIRE a[2:15] ".toList, [],
      "NoR a (Input: a[10], a; OUTPUT: a[0])".toList]
    WrittenLines clauses lines ∧
      Program.read (String.ofList (['\n'].intercalate lines)) = .ok {
        wires := [{ name := "a", width := -12 }]
        gates := [{ kind := "nor", name := "a", inputs := [⟨"a", 10⟩, ⟨"a", 0⟩]
                    outputs := [⟨"a", 0⟩] }]
        unread := [] } := by
  intro a nor clauses lines
  have hwire : (Clause.wire a (.range 2 15)).Writes "WIRE a[2:15]".toList :=
    .wire a (.range 2 15) "WIRE".toList (by decide)
  have hgate : (Clause.gate nor a [⟨a, some 10⟩, ⟨a, none⟩] [⟨a, some 0⟩] (by simp)
      (by simp)).Writes "NoR a (Input: a[10], a; OUTPUT: a[0])".toList :=
    .gate nor a _ _ _ _ "Input:".toList "OUTPUT:".toList (by decide) (by decide)
  have hnone : IsMargin [] := nofun
  have htab : IsMargin ['\t'] := by simp [IsMargin, isBlank]
  have hspace : IsMargin [' '] := by simp [IsMargin, isBlank]
  have hcomment : IsIdle "\t# bits".toList := @IsIdle.comment _ " bits".toList htab (by decide)
  have hlines : WrittenLines clauses lines :=
    .idle hcomment (.clause hspace hwire hspace (.idle (.blank hnone)
      (.clause hnone hgate hnone .nil)))
  have hsmall : ∀ n < 10 ^ 2, n < 10 ^ maxDigits :=
    fun n hn => hn.trans_le (Nat.pow_le_pow_right (by decide) (by decide))
  refine ⟨hlines, (Program.read_written_iff hlines).2 ?_⟩
  simp [clauses, Clause.numbers, Extent.numbers, hsmall]

/-- A number with one digit more than are read keeps its program from being read, though the range
has a single bit. -/
theorem read_written_overlong :
    let a : Identifier := ⟨['a'], 'a', [], rfl, rfl, nofun⟩
    let clause : Clause := .wire a (.range (10 ^ maxDigits) (10 ^ maxDigits))
    let line := "wire".toList ++ ' ' ::
      (['a'] ++ (Extent.range (10 ^ maxDigits) (10 ^ maxDigits)).span.written)
    WrittenLines [clause] [line] ∧ clause.wire? = some { name := "a", width := 1 } ∧
      Program.read (String.ofList line) = .error (.tooLong (maxDigits + 1)) := by
  intro a clause line
  have hnone : IsMargin [] := nofun
  have hcore : clause.Writes line := .wire a _ "wire".toList (by decide)
  have hlines : WrittenLines [clause] [line] := by
    have hpadded := WrittenLines.clause hnone hcore hnone .nil
    rwa [List.nil_append, List.append_nil] at hpadded
  have hlength : (Nat.toDigits 10 (10 ^ maxDigits)).length = maxDigits + 1 := by
    have hle : (Nat.toDigits 10 (10 ^ maxDigits)).length ≤ maxDigits + 1 :=
      (Nat.length_toDigits_le_iff (by decide) (Nat.succ_pos _)).2
        (Nat.pow_lt_pow_right (by decide) (Nat.lt_succ_self _))
    have hgt : ¬ (Nat.toDigits 10 (10 ^ maxDigits)).length ≤ maxDigits :=
      fun h => Nat.lt_irrefl _ (length_toDigits_iff.1 h)
    omega
  have hwire : clause.wire? = some { name := "a", width := 1 } := by
    dsimp only [clause, Clause.wire?]
    rw [Extent.bits_of_equal_ends]
  refine ⟨hlines, hwire, ?_⟩
  have hnumerals := numerals_readAs hlines.readAs_text
  rw [List.intercalate_singleton] at hnumerals
  rw [Program.read, String.toList_ofList, hnumerals]
  simp [clause, Clause.numbers, Extent.numbers, overlong?, hlength]

end Switchyard.Hdl
