import Mathlib.Data.List.TakeWhile
import Mathlib.Tactic.Common
import Switchyard.Hdl.Program

/-!
# How names, numbers and operands are written

A run of characters of a class and a number are cut off where the class ends
(`takeRun?_eq_some_iff`, `takeNumber?_eq_some_iff`), so what was cut off and what is left make up
the text again. An operand is a name with a span behind it (`Span.written`). Stripping the span off
(`baseName`) and reading the operand (`Operand.ofText?`) agree on the name (`baseName_of_ofText?`),
but every span can be stripped off, while only a bit can be read: a range makes a text that names a
wire and is no operand (`isSome_ofText?_iff`).
-/

namespace Switchyard.Hdl

open Text

/-! ## Runs and numbers -/

/-- A nonempty text of a `first` character and `later` ones. -/
def IsRun (first later : Char → Bool) (cs : List Char) : Prop :=
  ∃ c rest, cs = c :: rest ∧ first c = true ∧ ∀ d ∈ rest, later d = true

/-- A nonempty text of digits. -/
def IsNumeral (cs : List Char) : Prop :=
  cs ≠ [] ∧ ∀ d ∈ cs, isDigit d = true

/-- A text is cut where a class of characters ends. -/
theorem cut_iff {p : Char → Bool} {cs run rest : List Char} :
    cs.takeWhile p = run ∧ cs.dropWhile p = rest ↔
      cs = run ++ rest ∧ (∀ c ∈ run, p c = true) ∧ ∀ c ∈ rest.head?, p c = false := by
  constructor
  · rintro ⟨rfl, rfl⟩
    refine ⟨List.takeWhile_append_dropWhile.symm, fun c hc => List.mem_takeWhile_imp hc, ?_⟩
    intro c hc
    have hhead := List.head?_dropWhile_not p cs
    rw [hc] at hhead
    simpa using hhead
  · rintro ⟨rfl, hrun, hrest⟩
    rw [List.takeWhile_append_of_pos hrun, List.dropWhile_append_of_pos hrun]
    cases rest with
    | nil => simp
    | cons c rest =>
      have hc := hrest c rfl
      simp [hc]

/-- A run is taken off the front as far as it goes, and it is not empty. -/
theorem takeRun?_eq_some_iff {first later : Char → Bool} {cs run rest : List Char} :
    takeRun? first later cs = some (run, rest) ↔
      cs = run ++ rest ∧ IsRun first later run ∧ ∀ c ∈ rest.head?, later c = false := by
  constructor
  · intro h
    cases cs with
    | nil => cases h
    | cons c cs =>
      rw [takeRun?] at h
      split at h
      · next hfirst =>
        cases h
        obtain ⟨hcut, hrun, hrest⟩ := cut_iff.1 ⟨rfl, rfl⟩
        exact ⟨congrArg (c :: ·) hcut, ⟨c, _, rfl, hfirst, hrun⟩, hrest⟩
      · cases h
  · rintro ⟨rfl, ⟨c, run, rfl, hfirst, hrun⟩, hrest⟩
    obtain ⟨htake, hdrop⟩ := cut_iff.2 ⟨rfl, hrun, hrest⟩
    rw [List.cons_append, takeRun?, if_pos hfirst, htake, hdrop]

/-- A number is taken off the front as far as its digits go. -/
theorem takeNumber?_eq_some_iff {cs digits rest : List Char} :
    takeNumber? cs = some (digits, rest) ↔
      cs = digits ++ rest ∧ IsNumeral digits ∧ ∀ c ∈ rest.head?, isDigit c = false := by
  unfold takeNumber?
  constructor
  · intro h
    dsimp only at h
    split at h
    · cases h
    · next hne =>
      cases h
      obtain ⟨hcut, hdigits, hrest⟩ := cut_iff.1 ⟨rfl, rfl⟩
      exact ⟨hcut, ⟨by simpa using hne, hdigits⟩, hrest⟩
  · rintro ⟨rfl, ⟨hne, hdigits⟩, hrest⟩
    obtain ⟨htake, hdrop⟩ := cut_iff.2 ⟨rfl, hdigits, hrest⟩
    dsimp only
    rw [htake, hdrop, if_neg (by simpa using hne)]

/-- A character is taken off the front exactly if it is the first. -/
theorem dropChar?_eq_some_iff {c : Char} {cs rest : List Char} :
    dropChar? c cs = some rest ↔ cs = c :: rest := by
  cases cs with
  | nil => exact ⟨nofun, nofun⟩
  | cons c' cs =>
    unfold dropChar?
    split
    · next hc => simp [hc]
    · next hc => simp [hc]

/-! ## Spans -/

/-- How a span is written behind a name. -/
def Span.written : Span → List Char
  | .single => []
  | .width bits => '[' :: bits ++ [']']
  | .range high low => '[' :: high ++ ':' :: low ++ [']']

/-- The numbers of a span are written with digits. -/
def Span.Numeric (span : Span) : Prop :=
  ∀ numeral ∈ span.numerals, IsNumeral numeral

/-- A span is read if and only if it is written. -/
theorem span?_eq_some_iff {cs : List Char} {span : Span} :
    span? cs = some span ↔ span.Numeric ∧ cs = span.written := by
  constructor
  · intro h
    unfold span? at h
    split at h
    · cases h
      exact ⟨by simp [Span.Numeric, Span.numerals], rfl⟩
    · obtain ⟨⟨high, rest⟩, hhigh, hrest⟩ := Option.bind_eq_some_iff.1 h
      obtain ⟨rfl, hnumeral, -⟩ := takeNumber?_eq_some_iff.1 hhigh
      dsimp only at hrest
      split at hrest
      · cases hrest
        exact ⟨by simpa [Span.Numeric, Span.numerals] using hnumeral, by simp [Span.written]⟩
      · obtain ⟨⟨low, rest'⟩, hlow, hclose⟩ := Option.bind_eq_some_iff.1 hrest
        obtain ⟨rfl, hnumeral', -⟩ := takeNumber?_eq_some_iff.1 hlow
        dsimp only at hclose
        split at hclose
        · cases hclose
          exact ⟨by simpa [Span.Numeric, Span.numerals] using ⟨hnumeral, hnumeral'⟩,
            by simp [Span.written]⟩
        · cases hclose
      · cases hrest
    · cases h
  · rintro ⟨hnumeric, rfl⟩
    cases span with
    | single => rfl
    | width bits =>
      have hbits : takeNumber? (bits ++ [']']) = some (bits, [']']) :=
        takeNumber?_eq_some_iff.2 ⟨rfl, hnumeric bits (by simp [Span.numerals]), by simp [isDigit]⟩
      simp [Span.written, span?, hbits]
    | range high low =>
      have hhigh : takeNumber? (high ++ ':' :: (low ++ [']'])) =
          some (high, ':' :: (low ++ [']'])) :=
        takeNumber?_eq_some_iff.2 ⟨rfl, hnumeric high (by simp [Span.numerals]), by simp [isDigit]⟩
      have hlow : takeNumber? (low ++ [']']) = some (low, [']']) :=
        takeNumber?_eq_some_iff.2 ⟨rfl, hnumeric low (by simp [Span.numerals]), by simp [isDigit]⟩
      simp [Span.written, span?, hhigh, hlow]

/-- A name with a span behind it ends with a character of the name or with a bracket. -/
theorem Span.getLast?_append_written {name : List Char} {span : Span} {c : Char}
    (h : c ∈ (name ++ span.written).getLast?) : c ∈ name ∨ c = ']' := by
  cases span with
  | single =>
    rw [written, List.append_nil] at h
    exact .inl (List.mem_of_getLast? h)
  | width bits =>
    rw [written, ← List.append_assoc, List.getLast?_concat] at h
    exact .inr (Option.some.inj h).symm
  | range high low =>
    rw [written, ← List.append_assoc, List.getLast?_concat] at h
    exact .inr (Option.some.inj h).symm

/-- A numeral read from behind is a numeral. -/
theorem IsNumeral.reverse {cs : List Char} (h : IsNumeral cs) : IsNumeral cs.reverse :=
  ⟨by simpa using h.1, fun d hd => h.2 d (List.mem_reverse.1 hd)⟩

/-- A span that is there is what a bit suffix is. -/
theorem dropBitSuffix?_eq_some_iff {reversed rest : List Char} :
    dropBitSuffix? reversed = some rest ↔
      ∃ span, span ≠ .single ∧ Span.Numeric span ∧ reversed = span.written.reverse ++ rest := by
  constructor
  · intro h
    obtain ⟨rest₁, hclose, hinner⟩ := Option.bind_eq_some_iff.1 h
    obtain ⟨⟨digits, rest₂⟩, hdigits, hopen⟩ := Option.bind_eq_some_iff.1 hinner
    obtain rfl := dropChar?_eq_some_iff.1 hclose
    obtain ⟨rfl, hnumeral, -⟩ := takeNumber?_eq_some_iff.1 hdigits
    dsimp only at hopen
    split at hopen
    · cases hopen
      refine ⟨.width digits.reverse, by simp, ?_, ?_⟩
      · simpa [Span.Numeric, Span.numerals] using hnumeral.reverse
      · simp [Span.written]
    · obtain ⟨⟨digits', rest₃⟩, hdigits', hlast⟩ := Option.bind_eq_some_iff.1 hopen
      obtain rfl := dropChar?_eq_some_iff.1 hlast
      obtain ⟨rfl, hnumeral', -⟩ := takeNumber?_eq_some_iff.1 hdigits'
      refine ⟨.range digits'.reverse digits.reverse, by simp, ?_, ?_⟩
      · simpa [Span.Numeric, Span.numerals] using ⟨hnumeral'.reverse, hnumeral.reverse⟩
      · simp [Span.written]
    · cases hopen
  · rintro ⟨span, hspan, hnumeric, rfl⟩
    cases span with
    | single => exact absurd rfl hspan
    | width bits =>
      have hbits : IsNumeral bits := hnumeric bits (by simp [Span.numerals])
      have hnumber : takeNumber? (bits.reverse ++ '[' :: rest) = some (bits.reverse, '[' :: rest) :=
        takeNumber?_eq_some_iff.2 ⟨rfl, hbits.reverse, by simp [isDigit]⟩
      simp [Span.written, dropBitSuffix?, dropChar?, hnumber]
    | range high low =>
      have hhigh : IsNumeral high := hnumeric high (by simp [Span.numerals])
      have hlow : IsNumeral low := hnumeric low (by simp [Span.numerals])
      have hfirst : takeNumber? (low.reverse ++ ':' :: (high.reverse ++ '[' :: rest)) =
          some (low.reverse, ':' :: (high.reverse ++ '[' :: rest)) :=
        takeNumber?_eq_some_iff.2 ⟨rfl, hlow.reverse, by simp [isDigit]⟩
      have hsecond : takeNumber? (high.reverse ++ '[' :: rest) = some (high.reverse, '[' :: rest) :=
        takeNumber?_eq_some_iff.2 ⟨rfl, hhigh.reverse, by simp [isDigit]⟩
      simp [Span.written, dropBitSuffix?, dropChar?, hfirst, hsecond]

/-! ## Letters -/

/-- If what begins a run may go on with it, every character of a run is of the later sort. -/
theorem IsRun.forall_mem {first later : Char → Bool} {cs : List Char} (h : IsRun first later cs)
    (hlater : ∀ c, first c = true → later c = true) : ∀ c ∈ cs, later c = true := by
  obtain ⟨c, rest, rfl, hfirst, hrest⟩ := h
  exact List.forall_mem_cons.2 ⟨hlater c hfirst, hrest⟩

/-- A character that may begin a name may go on with it. -/
theorem isNameChar_of_start {c : Char} (h : isNameStart c = true) : isNameChar c = true := by
  unfold isNameStart at h
  unfold isNameChar Char.isAlphanum
  rcases Bool.or_eq_true_iff.1 h with h | h <;> simp [h]

/-- A text is written in ASCII. -/
def InAscii (cs : List Char) : Prop :=
  ∀ c ∈ cs, c.toNat < 128

instance (cs : List Char) : Decidable (InAscii cs) :=
  List.decidableBAll (fun c : Char => c.toNat < 128) cs

/-- A property of all ASCII characters, checked one after the other. -/
theorem forall_ascii {P : Char → Prop} (h : ∀ n < 128, P (Char.ofNat n)) {c : Char}
    (hc : c.toNat < 128) : P c := by
  have hchar := h c.toNat hc
  rwa [Char.ofNat_toNat] at hchar

/-- In ASCII the letters that match when case is disregarded are the ordinary ones. -/
theorem loose_of_ascii {c : Char} (hc : c.toNat < 128) :
    isLooseNameStart c = isNameStart c ∧ isLooseNameChar c = isNameChar c :=
  forall_ascii (P := fun c => isLooseNameStart c = isNameStart c ∧
    isLooseNameChar c = isNameChar c) (by decide +kernel) hc

/-- Within ASCII the loose and the strict names are the same. -/
theorem IsRun.of_ascii {name : List Char} (h : IsRun isLooseNameStart isLooseNameChar name)
    (hascii : InAscii name) : IsRun isNameStart isNameChar name := by
  obtain ⟨c, rest, rfl, hfirst, hrest⟩ := h
  obtain ⟨hc, hascii⟩ := List.forall_mem_cons.1 hascii
  exact ⟨c, rest, rfl, (loose_of_ascii hc).1 ▸ hfirst,
    fun d hd => (loose_of_ascii (hascii d hd)).2 ▸ hrest d hd⟩

/-! ## Operands -/

/-- The span that an operand is written with. -/
def Operand.span (operand : Operand) : Span :=
  match operand.bit with
  | none => .single
  | some bit => .width bit

/-- A text is read as an operand exactly if it is a name with a span written behind it, and nothing
else. -/
theorem Operand.ofText?_eq_some_iff {text : List Char} {operand : Operand} :
    Operand.ofText? text = some operand ↔
      IsRun isNameStart isNameChar operand.name ∧ operand.span.Numeric ∧
        text = operand.name ++ operand.span.written := by
  constructor
  · intro h
    obtain ⟨⟨name, rest⟩, hname, hrest⟩ := Option.bind_eq_some_iff.1 h
    obtain ⟨rfl, hrun, -⟩ := takeRun?_eq_some_iff.1 hname
    dsimp only at hrest
    split at hrest
    · cases hrest
      exact ⟨hrun, by simp [Operand.span, Span.Numeric, Span.numerals],
        by simp [Operand.span, Span.written]⟩
    · obtain ⟨⟨bit, rest'⟩, hbit, hclose⟩ := Option.bind_eq_some_iff.1 hrest
      obtain ⟨rfl, hnumeral, -⟩ := takeNumber?_eq_some_iff.1 hbit
      dsimp only at hclose
      split at hclose
      · cases hclose
        exact ⟨hrun, by simpa [Operand.span, Span.Numeric, Span.numerals] using hnumeral,
          by simp [Operand.span, Span.written]⟩
      · cases hclose
    · cases hrest
  · rintro ⟨hrun, hnumeric, rfl⟩
    obtain ⟨name, bit⟩ := operand
    cases bit with
    | none =>
      have hname : takeRun? isNameStart isNameChar name = some (name, []) :=
        takeRun?_eq_some_iff.2 ⟨(List.append_nil _).symm, hrun, by simp⟩
      simp [Operand.span, Span.written, Operand.ofText?, hname]
    | some bit =>
      have hname : takeRun? isNameStart isNameChar (name ++ '[' :: (bit ++ [']'])) =
          some (name, '[' :: (bit ++ [']'])) :=
        takeRun?_eq_some_iff.2 ⟨rfl, hrun, by simp [isNameChar]⟩
      have hbit : takeNumber? (bit ++ [']']) = some (bit, [']']) :=
        takeNumber?_eq_some_iff.2
          ⟨rfl, hnumeric bit (by simp [Operand.span, Span.numerals]), by simp [isDigit]⟩
      simp [Operand.span, Span.written, Operand.ofText?, hname, hbit]

/-- The base name is what stands before a bit suffix, unless a newline at the end stands in the way
of one. -/
theorem baseName_eq {operand : List Char} (h : ∀ c ∈ operand.getLast?, c ≠ '\n') :
    baseName operand = ((dropBitSuffix? operand.reverse).map List.reverse).getD operand := by
  unfold baseName
  split
  · next reversed hreversed =>
    refine absurd rfl (h '\n' ?_)
    rw [← List.head?_reverse, hreversed]
    rfl
  · cases dropBitSuffix? operand.reverse <;> rfl

/-- An operand is the wire that it names with a span behind it. -/
theorem exists_span (operand : List Char) (h : ∀ c ∈ operand.getLast?, c ≠ '\n') :
    ∃ span : Span, span.Numeric ∧ operand = baseName operand ++ span.written := by
  rw [baseName_eq h]
  cases hdrop : dropBitSuffix? operand.reverse with
  | none => exact ⟨.single, by simp [Span.Numeric, Span.numerals], by simp [Span.written]⟩
  | some rest =>
    obtain ⟨span, -, hnumeric, hwritten⟩ := dropBitSuffix?_eq_some_iff.1 hdrop
    refine ⟨span, hnumeric, ?_⟩
    simpa using congrArg List.reverse hwritten

/-- A span behind a name is stripped off. -/
theorem baseName_append {name : List Char} (hname : ∀ c ∈ name.getLast?, c ≠ '\n' ∧ c ≠ ']')
    {span : Span} (hnumeric : span.Numeric) : baseName (name ++ span.written) = name := by
  by_cases hspan : span = .single
  · subst hspan
    rw [Span.written, List.append_nil, baseName_eq (fun c hc => (hname c hc).1)]
    cases hdrop : dropBitSuffix? name.reverse with
    | none => rfl
    | some rest =>
      -- a suffix would end in a bracket
      obtain ⟨rest₁, hclose, -⟩ := Option.bind_eq_some_iff.1 hdrop
      have hlast := congrArg List.head? (dropChar?_eq_some_iff.1 hclose)
      rw [List.head?_reverse] at hlast
      exact absurd rfl (hname ']' hlast).2
  · have hdrop : dropBitSuffix? (name ++ span.written).reverse = some name.reverse :=
      dropBitSuffix?_eq_some_iff.2 ⟨span, hspan, hnumeric, List.reverse_append⟩
    have hend : ∀ c ∈ (name ++ span.written).getLast?, c ≠ '\n' := by
      cases span with
      | single => exact absurd rfl hspan
      | width bits => simp [Span.written, List.getLast?_cons]
      | range high low => simp [Span.written, List.getLast?_cons]
    rw [baseName_eq hend, hdrop, Option.map_some, Option.getD_some, List.reverse_reverse]

/-- The operands of a list end in no blank. -/
theorem getLast?_of_mem_operands {cs text : List Char} (h : text ∈ operands cs) :
    ∀ c ∈ text.getLast?, isBlank c = false := by
  obtain ⟨piece, -, rfl⟩ := List.mem_map.1 (List.mem_filter.1 h).1
  intro c hc
  rw [trim, trimRight, List.getLast?_reverse] at hc
  have hhead := List.head?_dropWhile_not isBlank (trimLeft piece).reverse
  rw [hc] at hhead
  simpa using hhead

/-- An operand that can be read is read as one of the wire that its text names. -/
theorem baseName_of_ofText? {text : List Char} {operand : Operand}
    (h : Operand.ofText? text = some operand) : baseName text = operand.name := by
  obtain ⟨hrun, hnumeric, rfl⟩ := Operand.ofText?_eq_some_iff.1 h
  refine baseName_append (fun c hc => ?_) hnumeric
  have hchar := hrun.forall_mem (fun _ => isNameChar_of_start) c (List.mem_of_getLast? hc)
  constructor
  · rintro rfl
    cases hchar
  · rintro rfl
    cases hchar

/-- A text in ASCII that names a wire is an operand unless there is a range in it. -/
theorem isSome_ofText?_iff {text : List Char} (hend : ∀ c ∈ text.getLast?, c ≠ '\n')
    (hname : IsRun isLooseNameStart isLooseNameChar (baseName text))
    (hascii : InAscii text) :
    (Operand.ofText? text).isSome = true ↔ ':' ∉ text := by
  obtain ⟨span, hnumeric, htext⟩ := exists_span text hend
  have hrun : IsRun isNameStart isNameChar (baseName text) := by
    refine hname.of_ascii (fun c hc => hascii c ?_)
    rw [htext]
    exact List.mem_append_left _ hc
  have hcolon : ∀ {cs : List Char} {p : Char → Bool}, (∀ c ∈ cs, p c = true) → p ':' = false →
      ':' ∉ cs := by
    intro cs p hcs hp hmem
    rw [hcs _ hmem] at hp
    cases hp
  have hfree : ':' ∉ baseName text :=
    hcolon (hrun.forall_mem (fun _ => isNameChar_of_start)) (by decide)
  have hdigits : ∀ {numeral : List Char}, IsNumeral numeral → ':' ∉ numeral :=
    fun h => hcolon h.2 (by decide)
  constructor
  · intro hsome hmem
    obtain ⟨operand, hoperand⟩ := Option.isSome_iff_exists.1 hsome
    obtain ⟨-, hbit, hwritten⟩ := Operand.ofText?_eq_some_iff.1 hoperand
    rw [hwritten, ← baseName_of_ofText? hoperand] at hmem
    obtain ⟨name, bit⟩ := operand
    cases bit with
    | none => simp [Operand.span, Span.written, hfree] at hmem
    | some bit =>
      have hfree' : ':' ∉ bit := hdigits (hbit bit (by simp [Operand.span, Span.numerals]))
      simp [Operand.span, Span.written, hfree, hfree'] at hmem
  · intro hmem
    cases span with
    | single =>
      have hoperand : Operand.ofText? text = some { name := baseName text } :=
        Operand.ofText?_eq_some_iff.2 ⟨hrun, hnumeric, htext⟩
      rw [hoperand]
      rfl
    | width bits =>
      have hoperand : Operand.ofText? text = some { name := baseName text, bit := some bits } :=
        Operand.ofText?_eq_some_iff.2 ⟨hrun, hnumeric, htext⟩
      rw [hoperand]
      rfl
    | range high low =>
      rw [htext] at hmem
      simp [Span.written] at hmem

end Switchyard.Hdl
