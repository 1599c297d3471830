import Switchyard.Proofs.Hdl.Written

/-!
# The grammar of lines

A declaration is the word `wire`, blanks, a name and a span (`DeclLine`). A gate can be cut into its
type, its name and its two operand lists with keywords and punctuation between them (`GateCut`); the
cuts of a line differ in which blanks they count to the operand lists. Reading a line accepts
exactly the declarations (`wireDecl?_eq_some_iff`) and the lines that can be cut, of which it finds
the cut that leaves all blanks to the lists (`gateInst?_eq_some_iff`). As operands are trimmed, all
cuts of a line have the same operands (`GateCut.operands_unique`). So a significant line is read as
what the grammar says, unless a number on it is too long to be read at all (`Program.read_line`).
-/

namespace Switchyard.Hdl

open Text

/-! ## Pieces of a line -/

/-- A text of blanks. -/
def IsSlack (cs : List Char) : Prop :=
  ∀ c ∈ cs, isBlank c = true

/-- A text of one or more blanks. -/
def IsGap (cs : List Char) : Prop :=
  cs ≠ [] ∧ IsSlack cs

/-- A text is a word with case disregarded. -/
def Spells (word cs : List Char) : Prop :=
  cs.map fold = word

/-- A declared name, with case disregarded. -/
abbrev IsLooseName (cs : List Char) : Prop :=
  IsRun isLooseNameStart isLooseNameChar cs

-- The members of a list are looked through, not all characters.
instance (cs : List Char) : Decidable (IsSlack cs) :=
  List.decidableBAll _ cs

instance (cs : List Char) : Decidable (IsGap cs) :=
  inferInstanceAs (Decidable (_ ∧ _))

instance (word cs : List Char) : Decidable (Spells word cs) :=
  inferInstanceAs (Decidable (_ = _))

instance (first later : Char → Bool) : ∀ cs, Decidable (IsRun first later cs)
  | [] => isFalse (fun ⟨_, _, h, _⟩ => nomatch h)
  | c :: rest =>
    have : Decidable (∀ d ∈ rest, later d = true) := List.decidableBAll _ rest
    decidable_of_iff (first c = true ∧ ∀ d ∈ rest, later d = true)
      ⟨fun h => ⟨c, rest, rfl, h⟩, fun ⟨_, _, h, hrun⟩ => by cases h; exact hrun⟩

/-- What is left after a keyword is what follows some spelling of it at the front. -/
theorem dropWord?_eq_some_iff {word cs rest : List Char} :
    dropWord? word cs = some rest ↔ ∃ spelled, Spells word spelled ∧ cs = spelled ++ rest := by
  unfold Spells
  induction word generalizing cs with
  | nil => simp [dropWord?]
  | cons w word ih =>
    cases cs with
    | nil =>
      refine iff_of_false (fun h => Option.some_ne_none _ h.symm) ?_
      rintro ⟨spelled, hspelled, hcs⟩
      obtain ⟨rfl, -⟩ := List.append_eq_nil_iff.1 hcs.symm
      cases hspelled
    | cons c cs =>
      rw [dropWord?]
      constructor
      · intro h
        split at h
        · next hc =>
          obtain ⟨spelled, hspelled, rfl⟩ := ih.1 h
          exact ⟨c :: spelled, by rw [List.map_cons, hc, hspelled], rfl⟩
        · cases h
      · rintro ⟨spelled, hspelled, hcs⟩
        obtain ⟨c', spelled, rfl, hc, hrest⟩ := List.map_eq_cons_iff.1 hspelled
        obtain ⟨rfl, rfl⟩ := List.cons.inj hcs
        rw [if_pos hc]
        exact ih.2 ⟨spelled, hrest, rfl⟩

/-- What is left after trimming is what follows the slack and does not begin with a blank. -/
theorem trimLeft_eq_iff {cs rest : List Char} :
    trimLeft cs = rest ↔
      ∃ slack, IsSlack slack ∧ cs = slack ++ rest ∧ ∀ c ∈ rest.head?, isBlank c = false := by
  constructor
  · intro h
    obtain ⟨hcs, hslack, hrest⟩ := cut_iff.1 ⟨rfl, h⟩
    exact ⟨_, hslack, hcs, hrest⟩
  · rintro ⟨slack, hslack, rfl, hrest⟩
    exact trimLeft_append hslack hrest

/-- What is left after some blanks is what follows a gap and does not begin with a blank. -/
theorem dropBlanks?_eq_some_iff {cs rest : List Char} :
    dropBlanks? cs = some rest ↔
      ∃ gap, IsGap gap ∧ cs = gap ++ rest ∧ ∀ c ∈ rest.head?, isBlank c = false := by
  constructor
  · intro h
    cases cs with
    | nil => cases h
    | cons c cs =>
      rw [dropBlanks?] at h
      split at h
      · next hc =>
        obtain ⟨slack, hslack, rfl, hrest⟩ := trimLeft_eq_iff.1 (Option.some.inj h)
        exact ⟨c :: slack, ⟨List.cons_ne_nil _ _, List.forall_mem_cons.2 ⟨hc, hslack⟩⟩, rfl, hrest⟩
      · cases h
  · rintro ⟨gap, ⟨hne, hgap⟩, rfl, hrest⟩
    obtain ⟨c, slack, rfl⟩ := List.exists_cons_of_ne_nil hne
    obtain ⟨hc, hslack⟩ := List.forall_mem_cons.1 hgap
    rw [List.cons_append, dropBlanks?, if_pos hc, trimLeft_append hslack hrest]

/-- A part is taken up to the first stop, and it is not empty. -/
theorem takeUntil?_eq_some_iff {stop : Char} {cs before rest : List Char} :
    takeUntil? stop cs = some (before, rest) ↔
      before ≠ [] ∧ stop ∉ before ∧ cs = before ++ stop :: rest := by
  have hfree : ∀ {before : List Char}, (∀ c ∈ before, (c != stop) = true) ↔ stop ∉ before := by
    intro before
    simp only [bne_iff_ne, ne_eq]
    exact ⟨fun h hmem => h stop hmem rfl, fun h c hc heq => h (heq ▸ hc)⟩
  unfold takeUntil?
  dsimp only
  constructor
  · intro h
    split at h
    · cases h
    · next hne =>
      obtain ⟨rest', hrest, hpair⟩ := Option.map_eq_some_iff.1 h
      cases hpair
      obtain ⟨hcs, hbefore, -⟩ := cut_iff.1 ⟨rfl, dropChar?_eq_some_iff.1 hrest⟩
      exact ⟨by simpa using hne, hfree.1 hbefore, hcs⟩
  · rintro ⟨hne, hstop, rfl⟩
    obtain ⟨htake, hdrop⟩ := cut_iff.2
      ⟨rfl, hfree.2 hstop, show ∀ c ∈ (stop :: rest).head?, (c != stop) = false by simp⟩
    rw [htake, hdrop, if_neg (by simpa using hne), dropChar?, if_pos rfl, Option.map_some]

/-- Nothing is slack too. -/
theorem IsSlack.nil : IsSlack [] :=
  List.forall_mem_nil _

/-- Slack has no character that is not blank. -/
theorem IsSlack.not_mem {cs : List Char} (h : IsSlack cs) {c : Char} (hc : isBlank c = false) :
    c ∉ cs := by
  intro hmem
  rw [h c hmem] at hc
  cases hc

/-- No letter of a declared name is a blank. -/
theorem isBlank_of_loose {c : Char} (h : isLooseNameChar c = true) : isBlank c = false := by
  by_cases hascii : c.toNat < 128
  · exact forall_ascii (P := fun c => isLooseNameChar c = true → isBlank c = false)
      (by decide +kernel) hascii h
  · unfold isLooseNameChar fold at h
    split at h
    · next hc => rcases hc with rfl | rfl <;> decide
    · split at h
      · next hc =>
        subst hc
        decide
      · split at h
        · next hc =>
          subst hc
          decide
        · rw [toLower_of_not_ascii (Nat.le_of_not_lt hascii)] at h
          exact absurd (toNat_lt_of_isNameChar h) hascii

/-- A character that may begin a name may go on with it. -/
theorem loose_of_start {c : Char} (h : isLooseNameStart c = true) : isLooseNameChar c = true :=
  isNameChar_of_start h

/-- No name has a blank. -/
theorem not_loose_of_blank {c : Char} (h : isBlank c = true) : isLooseNameChar c = false := by
  rw [← Bool.not_eq_true]
  intro hloose
  rw [isBlank_of_loose hloose] at h
  cases h

/-- A name ends where blanks begin, or what cannot belong to a name. -/
theorem IsSlack.head_not_loose {slack rest : List Char} (h : IsSlack slack)
    (hrest : ∀ c ∈ rest.head?, isLooseNameChar c = false) :
    ∀ c ∈ (slack ++ rest).head?, isLooseNameChar c = false := by
  cases slack with
  | nil => exact hrest
  | cons b slack =>
    rintro _ ⟨⟩
    exact not_loose_of_blank (h b List.mem_cons_self)

/-- After a gap a name does not go on, so it ends where the gap begins. -/
theorem IsGap.head_not_loose {gap : List Char} (h : IsGap gap) (rest : List Char) :
    ∀ c ∈ (gap ++ rest).head?, isLooseNameChar c = false := by
  obtain ⟨b, slack, rfl⟩ := List.exists_cons_of_ne_nil h.1
  rintro _ ⟨⟩
  exact not_loose_of_blank (h.2 b List.mem_cons_self)

/-- No declared name begins with a blank. -/
theorem IsRun.head_not_blank {name : List Char} (h : IsLooseName name) (rest : List Char) :
    ∀ c ∈ (name ++ rest).head?, isBlank c = false := by
  obtain ⟨c, later, rfl, hstart, -⟩ := h
  rintro _ ⟨⟩
  exact isBlank_of_loose (loose_of_start hstart)

/-- A keyword that begins with a letter begins with no blank. -/
theorem Spells.head_not_blank {w : Char} {word spelled : List Char} (h : Spells (w :: word) spelled)
    (hw : isNameChar w = true) (rest : List Char) :
    ∀ c ∈ (spelled ++ rest).head?, isBlank c = false := by
  obtain ⟨c, later, rfl, hc, -⟩ := List.map_eq_cons_iff.1 h
  rintro _ ⟨⟩
  exact isBlank_of_loose (by rw [isLooseNameChar, hc, hw])

/-! ## Declarations -/

/-- How a declaration stands on a line: the keyword, blanks, the name and the span. -/
inductive DeclLine : List Char → WireDecl → Prop
  | intro {keyword gap name : List Char} {span : Span} : Spells "wire".toList keyword → IsGap gap →
      IsLooseName name → span.Numeric →
      DeclLine (keyword ++ (gap ++ (name ++ span.written))) ⟨name, span⟩

/-- A written span does not begin with a character of a name, so a name before it ends there. -/
theorem Span.head_written (span : Span) :
    ∀ c ∈ span.written.head?, isLooseNameChar c = false := by
  cases span with
  | single => exact nofun
  | width bits => rintro _ ⟨⟩; rfl
  | range high low => rintro _ ⟨⟩; rfl

/-- The declarations are exactly the lines that are read as one. -/
theorem wireDecl?_eq_some_iff {line : List Char} {decl : WireDecl} :
    wireDecl? line = some decl ↔ DeclLine line decl := by
  constructor
  · intro h
    obtain ⟨_, hword, h⟩ := Option.bind_eq_some_iff.1 h
    obtain ⟨_, hblanks, h⟩ := Option.bind_eq_some_iff.1 h
    obtain ⟨⟨name, _⟩, hname, h⟩ := Option.bind_eq_some_iff.1 h
    obtain ⟨span, hspan, h⟩ := Option.bind_eq_some_iff.1 h
    cases h
    obtain ⟨keyword, hkeyword, rfl⟩ := dropWord?_eq_some_iff.1 hword
    obtain ⟨gap, hgap, rfl, -⟩ := dropBlanks?_eq_some_iff.1 hblanks
    obtain ⟨rfl, hrun, -⟩ := takeRun?_eq_some_iff.1 hname
    obtain ⟨hnumeric, rfl⟩ := span?_eq_some_iff.1 hspan
    exact .intro hkeyword hgap hrun hnumeric
  · rintro ⟨hkeyword, hgap, hname, hnumeric⟩
    refine Option.bind_eq_some_iff.2 ⟨_, dropWord?_eq_some_iff.2 ⟨_, hkeyword, rfl⟩, ?_⟩
    refine Option.bind_eq_some_iff.2
      ⟨_, dropBlanks?_eq_some_iff.2 ⟨_, hgap, rfl, hname.head_not_blank _⟩, ?_⟩
    refine Option.bind_eq_some_iff.2
      ⟨_, takeRun?_eq_some_iff.2 ⟨rfl, hname, Span.head_written _⟩, ?_⟩
    exact Option.bind_eq_some_iff.2 ⟨_, span?_eq_some_iff.2 ⟨hnumeric, rfl⟩, rfl⟩

/-! ## Gates -/

/-- A way to cut a gate into its parts. The blanks around the operand lists may be counted to the
lists or to what stands beside them. -/
structure GateCut where
  kind : List Char
  afterKind : List Char
  name : List Char
  afterName : List Char
  beforeInput : List Char
  input : List Char
  afterInput : List Char := []
  inputs : List Char
  beforeOutput : List Char
  output : List Char
  afterOutput : List Char := []
  outputs : List Char
  atEnd : List Char := []

namespace GateCut

/-- The parts put together. -/
def text (cut : GateCut) : List Char :=
  cut.kind ++ (cut.afterKind ++ (cut.name ++ (cut.afterName ++ '(' :: (cut.beforeInput ++
    (cut.input ++ (cut.afterInput ++ (cut.inputs ++ ';' :: (cut.beforeOutput ++
      (cut.output ++ (cut.afterOutput ++ (cut.outputs ++ (cut.atEnd ++ [')']))))))))))))

/-- The parts of a gate: a type and a name with blanks between them, an opening parenthesis, the two
keywords each with a nonempty list behind it, the first ended by the first semicolon in it and the
second by the first closing parenthesis, with blanks between these parts or without. -/
structure WellFormed (cut : GateCut) : Prop where
  kind : IsLooseName cut.kind
  afterKind : IsGap cut.afterKind
  name : IsLooseName cut.name
  afterName : IsSlack cut.afterName
  beforeInput : IsSlack cut.beforeInput
  input : Spells "input:".toList cut.input
  afterInput : IsSlack cut.afterInput
  inputs_ne : cut.inputs ≠ []
  inputs_free : ';' ∉ cut.inputs
  beforeOutput : IsSlack cut.beforeOutput
  output : Spells "output:".toList cut.output
  afterOutput : IsSlack cut.afterOutput
  outputs_ne : cut.outputs ≠ []
  outputs_free : ')' ∉ cut.outputs
  atEnd : IsSlack cut.atEnd

/-- All blanks around the operand lists are counted to the lists. -/
def Tight (cut : GateCut) : Prop :=
  cut.afterInput = [] ∧ cut.afterOutput = [] ∧ cut.atEnd = []

/-- A line is a gate that can be cut so. -/
structure Cuts (cut : GateCut) (line : List Char) : Prop where
  wellFormed : cut.WellFormed
  text_eq : cut.text = line

/-- The type, the name and the operand lists of a cut. -/
def inst (cut : GateCut) : GateInst :=
  ⟨cut.kind, cut.name, cut.inputs, cut.outputs⟩

/-- The cut with all blanks around the operand lists counted to the lists. -/
def tighten (cut : GateCut) : GateCut :=
  { cut with
    afterInput := []
    inputs := cut.afterInput ++ cut.inputs
    afterOutput := []
    outputs := cut.afterOutput ++ (cut.outputs ++ cut.atEnd)
    atEnd := [] }

/-- A tightened cut leaves no blanks to its parts that the reader would take away. -/
theorem tight_tighten (cut : GateCut) : cut.tighten.Tight :=
  ⟨rfl, rfl, rfl⟩

/-- Tightening moves blanks between the parts of a cut and keeps the text. -/
theorem text_tighten (cut : GateCut) : cut.tighten.text = cut.text := by
  simp [text, tighten]

/-- Tightening keeps a cut well-formed. -/
theorem WellFormed.tighten {cut : GateCut} (h : cut.WellFormed) : cut.tighten.WellFormed :=
  { h with
    afterInput := .nil
    inputs_ne := List.append_ne_nil_of_right_ne_nil _ h.inputs_ne
    inputs_free := List.not_mem_append (h.afterInput.not_mem rfl) h.inputs_free
    afterOutput := .nil
    outputs_ne := List.append_ne_nil_of_right_ne_nil _
      (List.append_ne_nil_of_left_ne_nil h.outputs_ne _)
    outputs_free := List.not_mem_append (h.afterOutput.not_mem rfl)
      (List.not_mem_append h.outputs_free (h.atEnd.not_mem rfl))
    atEnd := .nil }

/-- A tight cut is found. -/
theorem WellFormed.gateInst?_of_tight {cut : GateCut} (h : cut.WellFormed) (htight : cut.Tight) :
    gateInst? cut.text = some cut.inst := by
  obtain ⟨hafterInput, hafterOutput, hatEnd⟩ := htight
  rw [text, hafterInput, hafterOutput, hatEnd, List.nil_append, List.nil_append, List.nil_append]
  refine Option.bind_eq_some_iff.2
    ⟨_, takeRun?_eq_some_iff.2 ⟨rfl, h.kind, h.afterKind.head_not_loose _⟩, ?_⟩
  refine Option.bind_eq_some_iff.2
    ⟨_, dropBlanks?_eq_some_iff.2 ⟨_, h.afterKind, rfl, h.name.head_not_blank _⟩, ?_⟩
  refine Option.bind_eq_some_iff.2
    ⟨_, takeRun?_eq_some_iff.2 ⟨rfl, h.name, h.afterName.head_not_loose ?_⟩, ?_⟩
  · rintro _ ⟨⟩
    rfl
  refine Option.bind_eq_some_iff.2
    ⟨_, dropChar?_eq_some_iff.2 (trimLeft_append h.afterName ?_), ?_⟩
  · rintro _ ⟨⟩
    rfl
  refine Option.bind_eq_some_iff.2 ⟨_, dropWord?_eq_some_iff.2 ⟨_, h.input,
    trimLeft_append h.beforeInput (h.input.head_not_blank rfl _)⟩, ?_⟩
  refine Option.bind_eq_some_iff.2
    ⟨_, takeUntil?_eq_some_iff.2 ⟨h.inputs_ne, h.inputs_free, rfl⟩, ?_⟩
  refine Option.bind_eq_some_iff.2 ⟨_, dropWord?_eq_some_iff.2 ⟨_, h.output,
    trimLeft_append h.beforeOutput (h.output.head_not_blank rfl _)⟩, ?_⟩
  exact Option.bind_eq_some_iff.2
    ⟨_, takeUntil?_eq_some_iff.2 ⟨h.outputs_ne, h.outputs_free, rfl⟩, rfl⟩

/-- A gate that is found is cut tightly. -/
theorem exists_tight {line : List Char} {inst : GateInst} (h : gateInst? line = some inst) :
    ∃ cut : GateCut, cut.Cuts line ∧ cut.Tight ∧ cut.inst = inst := by
  obtain ⟨⟨kind, _⟩, hkind, h⟩ := Option.bind_eq_some_iff.1 h
  obtain ⟨_, hblanks, h⟩ := Option.bind_eq_some_iff.1 h
  obtain ⟨⟨name, _⟩, hname, h⟩ := Option.bind_eq_some_iff.1 h
  obtain ⟨_, hopen, h⟩ := Option.bind_eq_some_iff.1 h
  obtain ⟨_, hinput, h⟩ := Option.bind_eq_some_iff.1 h
  obtain ⟨⟨inputs, _⟩, hinputs, h⟩ := Option.bind_eq_some_iff.1 h
  obtain ⟨_, houtput, h⟩ := Option.bind_eq_some_iff.1 h
  obtain ⟨⟨outputs, _⟩, houtputs, h⟩ := Option.bind_eq_some_iff.1 h
  dsimp only at h
  split at h
  · next hend =>
    cases h
    obtain rfl := List.isEmpty_iff.1 hend
    obtain ⟨rfl, hkindRun, -⟩ := takeRun?_eq_some_iff.1 hkind
    obtain ⟨afterKind, hafterKind, rfl, -⟩ := dropBlanks?_eq_some_iff.1 hblanks
    obtain ⟨rfl, hnameRun, -⟩ := takeRun?_eq_some_iff.1 hname
    obtain ⟨afterName, hafterName, rfl, -⟩ := trimLeft_eq_iff.1 (dropChar?_eq_some_iff.1 hopen)
    obtain ⟨input, hspelled, htrim⟩ := dropWord?_eq_some_iff.1 hinput
    obtain ⟨beforeInput, hbeforeInput, rfl, -⟩ := trimLeft_eq_iff.1 htrim
    obtain ⟨hinputs_ne, hinputs_free, rfl⟩ := takeUntil?_eq_some_iff.1 hinputs
    obtain ⟨output, hspelled', htrim'⟩ := dropWord?_eq_some_iff.1 houtput
    obtain ⟨beforeOutput, hbeforeOutput, rfl, -⟩ := trimLeft_eq_iff.1 htrim'
    obtain ⟨houtputs_ne, houtputs_free, rfl⟩ := takeUntil?_eq_some_iff.1 houtputs
    let cut : GateCut := {
      kind, afterKind, name, afterName, beforeInput, input, inputs, beforeOutput, output, outputs }
    have hcut : cut.WellFormed := {
      kind := hkindRun, afterKind := hafterKind, name := hnameRun, afterName := hafterName
      beforeInput := hbeforeInput, input := hspelled, afterInput := .nil
      inputs_ne := hinputs_ne, inputs_free := hinputs_free
      beforeOutput := hbeforeOutput, output := hspelled', afterOutput := .nil
      outputs_ne := houtputs_ne, outputs_free := houtputs_free, atEnd := .nil }
    exact ⟨cut, ⟨hcut, rfl⟩, ⟨rfl, rfl, rfl⟩, rfl⟩
  · cases h

end GateCut

/-- The gates are exactly the lines that can be cut, and found is the tight cut. -/
theorem gateInst?_eq_some_iff {line : List Char} {inst : GateInst} :
    gateInst? line = some inst ↔ ∃ cut : GateCut, cut.Cuts line ∧ cut.Tight ∧ cut.inst = inst := by
  refine ⟨GateCut.exists_tight, ?_⟩
  rintro ⟨cut, ⟨hcut, rfl⟩, htight, rfl⟩
  exact hcut.gateInst?_of_tight htight

/-- Whatever a cut makes of a line, the tightened cut makes of it too. -/
theorem GateCut.Cuts.tighten {cut : GateCut} {line : List Char} (h : cut.Cuts line) :
    cut.tighten.Cuts line :=
  ⟨h.wellFormed.tighten, cut.text_tighten.trans h.text_eq⟩

/-- A cut line is a gate. -/
theorem GateCut.Cuts.gateInst? {cut : GateCut} {line : List Char} (h : cut.Cuts line) :
    Hdl.gateInst? line = some cut.tighten.inst :=
  gateInst?_eq_some_iff.2 ⟨_, h.tighten, cut.tight_tighten, rfl⟩

/-! ## Blanks around operand lists -/

/-- Slack in front does not count. -/
theorem trim_append_left {slack : List Char} (h : IsSlack slack) (cs : List Char) :
    trim (slack ++ cs) = trim cs :=
  congrArg trimRight (List.dropWhile_append_of_pos h)

/-- Slack at the end does not count. -/
theorem trim_append_right {slack : List Char} (h : IsSlack slack) (cs : List Char) :
    trim (cs ++ slack) = trim cs := by
  have hright : ∀ rest, trimRight (rest ++ slack) = trimRight rest := by
    intro rest
    rw [trimRight, List.reverse_append,
      List.dropWhile_append_of_pos (fun c hc => h c (List.mem_reverse.1 hc)), trimRight]
  rw [trim, trim, trimLeft, List.dropWhile_append]
  split
  · next hblank =>
    have hslack : slack.dropWhile isBlank = [] := List.dropWhile_eq_nil_iff.2 h
    rw [hslack, trimLeft, List.isEmpty_iff.1 hblank]
  · exact hright _

section
variable {sep : Char} (hsep : isBlank sep = false) {slack : List Char} (h : IsSlack slack)
include hsep h

/-- Slack in front goes to the first of the pieces, where trimming takes it away. -/
theorem map_trim_split_append_left (cs : List Char) :
    (split sep (slack ++ cs)).map trim = (split sep cs).map trim := by
  induction slack with
  | nil => rfl
  | cons b slack ih =>
    obtain ⟨hb, hslack⟩ := List.forall_mem_cons.1 h
    have hne : b ≠ sep := by
      rintro rfl
      rw [hb] at hsep
      cases hsep
    obtain ⟨piece, pieces, hpieces⟩ := List.exists_cons_of_ne_nil (split_ne_nil sep (slack ++ cs))
    have hfirst : trim ([b] ++ piece) = trim piece :=
      trim_append_left (List.forall_mem_singleton.2 hb) piece
    rw [← ih hslack, List.cons_append, split, if_neg hne, hpieces, List.map_cons, List.map_cons]
    exact congrArg (· :: _) hfirst

/-- Blanks at the end of a text are at the end of its last piece. -/
theorem split_append_right (cs : List Char) :
    List.Forall₂ (fun piece longer => ∃ slack, IsSlack slack ∧ longer = piece ++ slack)
      (split sep cs) (split sep (cs ++ slack)) := by
  induction cs with
  | nil =>
    rw [List.nil_append, split_eq_singleton (h.not_mem hsep)]
    exact .cons ⟨slack, h, rfl⟩ .nil
  | cons c cs ih =>
    rw [List.cons_append, split, split]
    by_cases hc : c = sep
    · rw [if_pos hc, if_pos hc]
      exact .cons ⟨[], .nil, rfl⟩ ih
    · rw [if_neg hc, if_neg hc]
      obtain ⟨piece, pieces, hpieces⟩ := List.exists_cons_of_ne_nil (split_ne_nil sep cs)
      rw [hpieces] at ih ⊢
      obtain ⟨longer, others, ⟨slack', hslack', rfl⟩, hrest, heq⟩ :=
        List.forall₂_cons_left_iff.1 ih
      rw [heq]
      exact .cons ⟨slack', hslack', rfl⟩ hrest

/-- Slack at the end goes to the last of the pieces, where trimming takes it away. -/
theorem map_trim_split_append_right (cs : List Char) :
    (split sep (cs ++ slack)).map trim = (split sep cs).map trim := by
  have hpieces := split_append_right hsep h cs
  generalize split sep cs = pieces at hpieces
  generalize split sep (cs ++ slack) = longer at hpieces
  induction hpieces with
  | nil => rfl
  | cons hpiece _ ih =>
    obtain ⟨slack', hslack', rfl⟩ := hpiece
    rw [List.map_cons, List.map_cons, ih, trim_append_right hslack']

end

/-- Blanks around an operand list make no difference to its operands. -/
theorem operands_margins {before after : List Char} (hbefore : IsSlack before)
    (hafter : IsSlack after) (cs : List Char) :
    operands (before ++ (cs ++ after)) = operands cs := by
  rw [operands, operands, map_trim_split_append_left rfl hbefore,
    map_trim_split_append_right rfl hafter]

/-- All cuts of a line have the same type, the same name and the same operands. -/
theorem GateCut.operands_unique {line : List Char} {cut other : GateCut} (h : cut.Cuts line)
    (h' : other.Cuts line) : cut.kind = other.kind ∧ cut.name = other.name ∧
      operands cut.inputs = operands other.inputs ∧
      operands cut.outputs = operands other.outputs := by
  have hlists : ∀ cut : GateCut, cut.Cuts line →
      operands cut.tighten.inputs = operands cut.inputs ∧
        operands cut.tighten.outputs = operands cut.outputs := by
    intro cut hcut
    have hinputs := @operands_margins _ [] hcut.wellFormed.afterInput .nil cut.inputs
    rw [List.append_nil] at hinputs
    exact ⟨hinputs,
      operands_margins hcut.wellFormed.afterOutput hcut.wellFormed.atEnd cut.outputs⟩
  have hsame : cut.tighten.inst = other.tighten.inst :=
    Option.some.inj (h.gateInst?.symm.trans h'.gateInst?)
  rw [← (hlists cut h).1, ← (hlists cut h).2, ← (hlists other h').1, ← (hlists other h').2]
  exact ⟨congrArg GateInst.kind hsame, congrArg GateInst.name hsame,
    congrArg (fun inst => operands inst.inputs) hsame,
    congrArg (fun inst => operands inst.outputs) hsame⟩

/-! ## Reading a line -/

/-- A text without a line feed is one line. -/
theorem significantLines_of_not_mem {cs : List Char} (h : '\n' ∉ cs)
    (hsignificant : isSignificant (trim cs) = true) : significantLines cs = [⟨1, trim cs⟩] := by
  rw [significantLines, split_eq_singleton h, significantFrom, if_pos hsignificant, significantFrom]

/-- No number has more digits than are read. -/
def AreShort (numerals : List (List Char)) : Prop :=
  ∀ numeral ∈ numerals, numeral.length ≤ maxDigits

/-- The numbers in the operands of a gate. -/
def GateInst.numerals (inst : GateInst) : List (List Char) :=
  (operands inst.inputs ++ operands inst.outputs).flatMap operandNumerals

/-- A line is a declaration. -/
def IsDecl (line : List Char) : Prop :=
  ∃ decl, DeclLine line decl

/-- A line can be cut as a gate. -/
def IsGate (line : List Char) : Prop :=
  ∃ cut : GateCut, cut.Cuts line

/-- A line is a declaration by the grammar exactly if it is read as one. -/
theorem isDecl_iff {line : List Char} : IsDecl line ↔ wireDecl? line ≠ none := by
  rw [IsDecl, Option.ne_none_iff_exists']
  exact exists_congr (fun decl => wireDecl?_eq_some_iff.symm)

/-- A line is a gate by the grammar exactly if it is read as one. -/
theorem isGate_iff {line : List Char} : IsGate line ↔ gateInst? line ≠ none := by
  rw [IsGate, Option.ne_none_iff_exists']
  constructor
  · rintro ⟨cut, hcut⟩
    exact ⟨_, hcut.gateInst?⟩
  · rintro ⟨inst, hinst⟩
    obtain ⟨cut, hcut, -⟩ := gateInst?_eq_some_iff.1 hinst
    exact ⟨cut, hcut⟩

/-- No line is both a declaration and a gate. -/
theorem not_isDecl_of_isGate {line : List Char} (h : IsGate line) : ¬ IsDecl line := by
  obtain ⟨cut, hcut⟩ := h
  rw [isDecl_iff, wireDecl?_of_gateInst? hcut.gateInst?]
  exact fun hne => hne rfl

/-- All cuts of a line give the same gate and the same numbers. -/
theorem GateCut.gate_unique {line : List Char} {cut other : GateCut} (h : cut.Cuts line)
    (h' : other.Cuts line) :
    Gate.ofInst cut.inst = Gate.ofInst other.inst ∧ cut.inst.numerals = other.inst.numerals := by
  obtain ⟨hkind, hname, hinputs, houtputs⟩ := operands_unique h h'
  simp [Gate.ofInst, GateInst.numerals, inst, Ref.ofOperands, hkind, hname, hinputs, houtputs]

section
variable (line : Line)

/-- A line is read as a wire exactly if the grammar has a declaration for it, and as the wire it
declares. -/
theorem Statement.ofLine_eq_wire_iff {wire : Wire} : Statement.ofLine line = .wire wire ↔
    ∃ decl, DeclLine line.chars decl ∧ wire = Wire.ofDecl decl := by
  simp only [← wireDecl?_eq_some_iff]
  unfold Statement.ofLine
  cases wireDecl? line.chars with
  | some decl => simp [eq_comm]
  | none => cases gateInst? line.chars <;> simp

/-- A line is read as a gate exactly if a tight cut gives its text, and as the gate of that cut. -/
theorem Statement.ofLine_eq_gate_iff {gate : Gate} : Statement.ofLine line = .gate gate ↔
    ∃ cut : GateCut, cut.Cuts line.chars ∧ cut.Tight ∧ gate = Gate.ofInst cut.inst := by
  have hinst : Statement.ofLine line = .gate gate ↔
      ∃ inst, gateInst? line.chars = some inst ∧ gate = Gate.ofInst inst := by
    unfold Statement.ofLine
    cases hdecl : wireDecl? line.chars with
    | some decl =>
      refine ⟨nofun, ?_⟩
      rintro ⟨inst, hinst, -⟩
      rw [wireDecl?_of_gateInst? hinst] at hdecl
      cases hdecl
    | none => cases gateInst? line.chars <;> simp [eq_comm]
  rw [hinst]
  constructor
  · rintro ⟨inst, hfound, hgate⟩
    obtain ⟨cut, hcut, htight, rfl⟩ := gateInst?_eq_some_iff.1 hfound
    exact ⟨cut, hcut, htight, hgate⟩
  · rintro ⟨cut, hcut, htight, hgate⟩
    exact ⟨cut.inst, gateInst?_eq_some_iff.2 ⟨cut, hcut, htight, rfl⟩, hgate⟩

/-- A line is left unread exactly if the grammar has neither a declaration nor a gate for it. -/
theorem Statement.ofLine_eq_unread_iff {other : Line} : Statement.ofLine line = .unread other ↔
    other = line ∧ ¬ IsDecl line.chars ∧ ¬ IsGate line.chars := by
  rw [isDecl_iff, isGate_iff, not_not, not_not]
  unfold Statement.ofLine
  cases wireDecl? line.chars with
  | some decl => simp
  | none => cases gateInst? line.chars <;> simp [eq_comm]

/-- The numerals of a declaration are those of its span, whichever way it is read. -/
theorem Line.numerals_of_decl {decl : WireDecl} (h : DeclLine line.chars decl) :
    line.numerals = decl.span.numerals := by
  rw [numerals, wireDecl?_eq_some_iff.2 h]

/-- The numerals of a gate are those of its operands, and every cut of the line has the same. -/
theorem Line.numerals_of_cuts {cut : GateCut} (h : cut.Cuts line.chars) :
    line.numerals = cut.inst.numerals := by
  have hinst := h.gateInst?
  have hdecl := wireDecl?_of_gateInst? hinst
  rw [← (GateCut.gate_unique h.tighten h).2, numerals, hdecl]
  dsimp only
  rw [Line.operands, hdecl, hinst]
  rfl

/-- A line that is neither has no numerals that matter. -/
theorem Line.numerals_of_unread (h : ¬ IsDecl line.chars ∧ ¬ IsGate line.chars) :
    line.numerals = [] := by
  rw [isDecl_iff, isGate_iff, not_not, not_not] at h
  rw [numerals, h.1]
  dsimp only
  rw [Line.operands, h.1, h.2]
  rfl

end

namespace Program

/-- The program of one statement has this statement as its only entry. -/
theorem ofStatements_singleton (statement : Statement) :
    (∀ wire, ofStatements [statement] = { wires := [wire] } ↔ statement = .wire wire) ∧
    (∀ gate, ofStatements [statement] = { gates := [gate] } ↔ statement = .gate gate) ∧
    ∀ line, ofStatements [statement] = { unread := [line] } ↔ statement = .unread line := by
  cases statement <;>
    simp [ofStatements, Statement.wire?, Statement.gate?, Statement.unread?]

section
variable {text : String} {line : Line} (h : significantLines text.toList = [line])
include h

/-- A text with one significant line is what this line says, if its numbers can be read. -/
theorem read_eq_ok_iff {program : Program} : read text = .ok program ↔
    AreShort line.numerals ∧ ofStatements [Statement.ofLine line] = program := by
  rw [read_eq_iff, HasShortNumbers, ofText, h, List.flatMap_singleton, List.map_singleton]
  rfl

/-- A line is not read at all exactly if one of its numerals is too long. -/
theorem read_eq_error_iff : (∃ fault, read text = .error fault) ↔ ¬ AreShort line.numerals := by
  cases hread : read text with
  | ok program => simp [((read_eq_ok_iff h).1 hread).1]
  | error fault =>
    refine iff_of_true ⟨fault, rfl⟩ (fun hshort => ?_)
    have hok := (read_eq_ok_iff h).2 ⟨hshort, rfl⟩
    rw [hread] at hok
    cases hok

/-- A line gives one wire and nothing else exactly if it declares that wire with short numerals. -/
theorem read_eq_wire_iff {wire : Wire} : read text = .ok { wires := [wire] } ↔
    ∃ decl, DeclLine line.chars decl ∧ AreShort decl.span.numerals ∧ wire = Wire.ofDecl decl := by
  rw [read_eq_ok_iff h, (ofStatements_singleton _).1, Statement.ofLine_eq_wire_iff]
  constructor
  · rintro ⟨hshort, decl, hdecl, hwire⟩
    exact ⟨decl, hdecl, line.numerals_of_decl hdecl ▸ hshort, hwire⟩
  · rintro ⟨decl, hdecl, hshort, hwire⟩
    exact ⟨line.numerals_of_decl hdecl ▸ hshort, decl, hdecl, hwire⟩

/-- A line gives one gate and nothing else exactly if it has a cut for that gate with short
numerals. -/
theorem read_eq_gate_iff {gate : Gate} : read text = .ok { gates := [gate] } ↔
    ∃ cut : GateCut, cut.Cuts line.chars ∧ cut.Tight ∧ AreShort cut.inst.numerals ∧
      gate = Gate.ofInst cut.inst := by
  rw [read_eq_ok_iff h, (ofStatements_singleton _).2.1, Statement.ofLine_eq_gate_iff]
  constructor
  · rintro ⟨hshort, cut, hcut, htight, hgate⟩
    exact ⟨cut, hcut, htight, line.numerals_of_cuts hcut ▸ hshort, hgate⟩
  · rintro ⟨cut, hcut, htight, hshort, hgate⟩
    exact ⟨line.numerals_of_cuts hcut ▸ hshort, cut, hcut, htight, hgate⟩

/-- A line gives one complaint and nothing else exactly if it is neither a declaration nor a gate.
-/
theorem read_eq_unread_iff : read text = .ok { unread := [line] } ↔
    ¬ IsDecl line.chars ∧ ¬ IsGate line.chars := by
  rw [read_eq_ok_iff h, (ofStatements_singleton _).2.2, Statement.ofLine_eq_unread_iff,
    and_iff_right (Eq.refl line)]
  refine and_iff_right_of_imp (fun hneither => ?_)
  rw [line.numerals_of_unread hneither]
  exact nofun

/-- Nothing is read only if a number of a declaration or of a gate is too long. -/
theorem exists_fault_iff : (∃ fault, read text = .error fault) ↔
    (∃ decl, DeclLine line.chars decl ∧ ¬ AreShort decl.span.numerals) ∨
      ∃ cut : GateCut, cut.Cuts line.chars ∧ ¬ AreShort cut.inst.numerals := by
  rw [read_eq_error_iff h]
  constructor
  · intro hlong
    by_cases hdecl : IsDecl line.chars
    · obtain ⟨decl, hdecl⟩ := hdecl
      exact .inl ⟨decl, hdecl, line.numerals_of_decl hdecl ▸ hlong⟩
    · by_cases hgate : IsGate line.chars
      · obtain ⟨cut, hcut⟩ := hgate
        exact .inr ⟨cut, hcut, line.numerals_of_cuts hcut ▸ hlong⟩
      · rw [line.numerals_of_unread ⟨hdecl, hgate⟩] at hlong
        exact absurd nofun hlong
  · rintro (⟨decl, hdecl, hlong⟩ | ⟨cut, hcut, hlong⟩)
    · rwa [line.numerals_of_decl hdecl]
    · rwa [line.numerals_of_cuts hcut]

/-- A significant line is read as the grammar says. It yields a wire if and only if it is a
declaration, and a gate if and only if it can be cut as one, unless one of its numbers is too long;
no line is both, and a line that is neither yields just the complaint about it. All cuts of a line
give the gate that it yields, whatever blanks they count to the operand lists. There is one entry,
and none only if a number is too long. -/
theorem read_line :
    (∀ wire, read text = .ok { wires := [wire] } ↔
      ∃ decl, DeclLine line.chars decl ∧ AreShort decl.span.numerals ∧ wire = Wire.ofDecl decl) ∧
    (∀ gate, read text = .ok { gates := [gate] } ↔
      ∃ cut : GateCut, cut.Cuts line.chars ∧ cut.Tight ∧ AreShort cut.inst.numerals ∧
        gate = Gate.ofInst cut.inst) ∧
    (∀ cut other : GateCut, cut.Cuts line.chars → other.Cuts line.chars →
      Gate.ofInst cut.inst = Gate.ofInst other.inst ∧
        cut.inst.numerals = other.inst.numerals) ∧
    ¬ (IsDecl line.chars ∧ IsGate line.chars) ∧
    (read text = .ok { unread := [line] } ↔ ¬ IsDecl line.chars ∧ ¬ IsGate line.chars) ∧
    (∀ program, read text = .ok program → (∃ wire, program = { wires := [wire] }) ∨
      (∃ gate, program = { gates := [gate] }) ∨ program = { unread := [line] }) ∧
    ((∃ fault, read text = .error fault) ↔
      (∃ decl, DeclLine line.chars decl ∧ ¬ AreShort decl.span.numerals) ∨
        ∃ cut : GateCut, cut.Cuts line.chars ∧ ¬ AreShort cut.inst.numerals) := by
  refine ⟨fun _ => read_eq_wire_iff h, fun _ => read_eq_gate_iff h,
    fun _ _ => GateCut.gate_unique, fun ⟨hdecl, hgate⟩ => not_isDecl_of_isGate hgate hdecl,
    read_eq_unread_iff h, fun program hprogram => ?_, exists_fault_iff h⟩
  obtain ⟨-, rfl⟩ := (read_eq_ok_iff h).1 hprogram
  cases hstatement : Statement.ofLine line with
  | wire wire => exact .inl ⟨wire, rfl⟩
  | gate gate => exact .inr (.inl ⟨gate, rfl⟩)
  | unread other =>
    obtain ⟨rfl, -⟩ := (Statement.ofLine_eq_unread_iff line).1 hstatement
    exact .inr (.inr rfl)

end

end Program

/-- A gate with its keywords in mixed case, one with a dotless letter, an opening parenthesis among
its inputs and a semicolon among its outputs. It is read as the gate that its cuts give, whether
they count the blanks around the operand lists to the lists or not. -/
theorem read_line_nand :
    let text := "NanD  g( ınput: a, (b[1] ,c ;OUTPUT: y ; z , w )"
    let cut : GateCut := {
      kind := "NanD".toList, afterKind := [' ', ' '], name := ['g'], afterName := []
      beforeInput := [' '], input := "ınput:".toList, afterInput := [' ']
      inputs := "a, (b[1] ,c ".toList, beforeOutput := [], output := "OUTPUT:".toList
      afterOutput := [' '], outputs := "y ; z , w".toList, atEnd := [' '] }
    significantLines text.toList = [⟨1, text.toList⟩] ∧ cut.Cuts text.toList ∧ ¬ cut.Tight ∧
      Program.read text = .ok { gates := [Gate.ofInst cut.inst] } ∧
      Gate.ofInst cut.inst =
        { kind := "nand", name := "g", inputs := [⟨"a", 0⟩, ⟨"c", 0⟩], outputs := [⟨"w", 0⟩] } := by
  intro text cut
  have hline : significantLines text.toList = [⟨1, text.toList⟩] := by decide +kernel
  have hcut : cut.Cuts text.toList := by
    refine ⟨⟨?_, ?_, ?_, ?_, ?_, ?_, ?_, ?_, ?_, ?_, ?_, ?_, ?_, ?_, ?_⟩, ?_⟩ <;> decide +kernel
  obtain ⟨-, hgate, hunique, -⟩ := Program.read_line hline
  have hnone : cut.tighten.inst.numerals = [] := by decide +kernel
  have hshort : AreShort cut.tighten.inst.numerals := by
    rw [hnone]
    exact nofun
  refine ⟨hline, hcut, nofun, ?_, by decide +kernel⟩
  rw [(hunique cut cut.tighten hcut hcut.tighten).1]
  exact (hgate _).2 ⟨cut.tighten, hcut.tighten, cut.tight_tighten, hshort, rfl⟩

/-! ## Numbers that are too long -/

/-- A number that is zero, in one digit more than are read. -/
def overlongBits : List Char :=
  List.replicate (maxDigits + 1) '0'

/-- A declaration with that number for its width. -/
def overlongDecl : List Char :=
  "wire a".toList ++ (Span.width overlongBits).written

/-- The numeral with a digit too many is a numeral all the same. -/
theorem numeric_overlongBits : (Span.width overlongBits).Numeric := by
  refine List.forall_mem_singleton.2 ⟨by simp [overlongBits], fun c hc => ?_⟩
  rw [List.eq_of_mem_replicate hc]
  rfl

/-- The declaration with that numeral follows the grammar. -/
theorem declLine_overlongDecl : DeclLine overlongDecl ⟨['a'], .width overlongBits⟩ :=
  @DeclLine.intro "wire".toList [' '] ['a'] _ (by decide) (by decide) (by decide)
    numeric_overlongBits

/-- Its numeral is too long to be read. -/
theorem not_areShort_overlongBits : ¬ AreShort (Span.width overlongBits).numerals := by
  intro hshort
  have hle := hshort overlongBits (List.mem_singleton.2 rfl)
  rw [overlongBits, List.length_replicate] at hle
  omega

/-- It is the one significant line of its text. -/
theorem significantLines_overlongDecl : significantLines overlongDecl = [⟨1, overlongDecl⟩] := by
  have hone : '\n' ∉ overlongDecl :=
    List.not_mem_append (by decide) (numeric_overlongBits.not_mem rfl (by decide))
  have hlast : overlongDecl.getLast? = some ']' := by
    have hchars : overlongDecl = "wire a".toList ++ ('[' :: overlongBits) ++ [']'] :=
      (List.append_assoc _ _ _).symm
    rw [hchars, List.getLast?_concat]
  have htrim : trim overlongDecl = overlongDecl :=
    trim_eq_self (by rintro _ ⟨⟩; rfl) (by rw [hlast]; rintro _ ⟨⟩; rfl)
  rw [significantLines_of_not_mem hone (by rw [htrim]; rfl), htrim]

/-- A declaration whose number has one digit more than are read is not read, though all of them are
zeros. -/
theorem read_line_overlong :
    significantLines (String.ofList overlongDecl).toList = [⟨1, overlongDecl⟩] ∧
      DeclLine overlongDecl ⟨['a'], .width overlongBits⟩ ∧
      ∀ program, Program.read (String.ofList overlongDecl) ≠ .ok program := by
  have hline : significantLines (String.ofList overlongDecl).toList = [⟨1, overlongDecl⟩] := by
    rw [String.toList_ofList, significantLines_overlongDecl]
  refine ⟨hline, declLine_overlongDecl, fun program hread => ?_⟩
  have hshort := ((Program.read_eq_ok_iff hline).1 hread).1
  rw [Line.numerals_of_decl _ declLine_overlongDecl] at hshort
  exact not_areShort_overlongBits hshort

end Switchyard.Hdl
