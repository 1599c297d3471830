import Mathlib.Algebra.Group.Nat.Defs
import Mathlib.Data.List.Basic
import Switchyard.Proofs.Hdl.Operands

/-!
# Spelling words, numbers and lists

What is joined with a separator is cut into the same pieces again (`Text.split_intercalate`), on
both sides of a separator apart (`Text.split_append_cons`), and what has blanks around it is trimmed
to itself (`Text.trim_margins`). A keyword is recognised in any case (`Text.dropWord?_append`), and
a name in ASCII also where case is disregarded (`Hdl.IsRun.loose`). The decimal digits of a number
denote it (`Text.ofDigits_toDigits`), and there are no more of them than are read if and only if it
is small enough (`Text.length_toDigits_iff`). A gate ends with a parenthesis and a declaration does
not, so no line is both (`Hdl.wireDecl?_of_gateInst?`).
-/

namespace Switchyard

namespace Text

/-! ## Cutting and trimming -/

/-- Cutting a text at a separator is what the library calls splitting on it. -/
theorem split_eq_splitOn (sep : Char) (cs : List Char) : split sep cs = cs.splitOn sep := by
  induction cs with
  | nil => rfl
  | cons c cs ih =>
    rw [split, List.splitOn_cons_eq_if_modifyHead, ih]
    by_cases hc : c = sep
    · simp [hc]
    · obtain ⟨piece, pieces, hpieces⟩ := List.exists_cons_of_ne_nil (List.splitOn_ne_nil sep cs)
      simp [hc, hpieces]

/-- Pieces joined with a separator that none of them has are cut out again. -/
theorem split_intercalate {sep : Char} {pieces : List (List Char)}
    (h : ∀ piece ∈ pieces, sep ∉ piece) (hne : pieces ≠ []) :
    split sep ([sep].intercalate pieces) = pieces := by
  rw [split_eq_splitOn, List.splitOn_intercalate sep h hne]

/-- A text without the separator is one piece. -/
theorem split_eq_singleton {sep : Char} {cs : List Char} (h : sep ∉ cs) : split sep cs = [cs] := by
  rw [split_eq_splitOn, List.splitOn_eq_singleton h]

/-- A separator cuts the text in two, and both are cut on their own. -/
theorem split_append_cons (sep : Char) (cs cs' : List Char) :
    split sep (cs ++ sep :: cs') = split sep cs ++ split sep cs' := by
  simp only [split_eq_splitOn]
  exact List.splitOn_append_cons_self cs cs'

/-- There is one piece more than there are separators. -/
theorem length_split (sep : Char) (cs : List Char) :
    (split sep cs).length = cs.count sep + 1 := by
  induction cs with
  | nil => rfl
  | cons c cs ih =>
    obtain ⟨piece, pieces, hpieces⟩ := List.exists_cons_of_ne_nil (split_ne_nil sep cs)
    rw [split]
    by_cases hc : c = sep
    · rw [if_pos hc, List.length_cons, ih, hc, List.count_cons_self]
    · rw [if_neg hc, List.count_cons_of_ne hc, ← ih, hpieces]
      rfl

/-- No piece has the separator. -/
theorem not_mem_of_mem_split {sep : Char} {cs piece : List Char} (h : piece ∈ split sep cs) :
    sep ∉ piece := by
  induction cs generalizing piece with
  | nil => simp [List.mem_singleton.1 h]
  | cons c cs ih =>
    obtain ⟨first, others, hpieces⟩ := List.exists_cons_of_ne_nil (split_ne_nil sep cs)
    rw [split] at h
    by_cases hc : c = sep
    · rw [if_pos hc] at h
      rcases List.mem_cons.1 h with rfl | h
      · exact List.not_mem_nil
      · exact ih h
    · rw [if_neg hc, hpieces] at h
      rw [hpieces] at ih
      rcases List.mem_cons.1 h with rfl | h
      · exact List.not_mem_cons_of_ne_of_not_mem (Ne.symm hc) (ih List.mem_cons_self)
      · exact ih (List.mem_cons_of_mem _ h)

/-- Blanks in front go, up to the first character that is none. -/
theorem trimLeft_append {before cs : List Char} (hbefore : ∀ c ∈ before, isBlank c = true)
    (hfirst : ∀ c ∈ cs.head?, isBlank c = false) : trimLeft (before ++ cs) = cs :=
  (Hdl.cut_iff.2 ⟨rfl, hbefore, hfirst⟩).2

/-- Blanks at the end go, down to the last character that is none. -/
theorem trimRight_append {cs after : List Char} (hafter : ∀ c ∈ after, isBlank c = true)
    (hlast : ∀ c ∈ cs.getLast?, isBlank c = false) : trimRight (cs ++ after) = cs := by
  have hcut : trimLeft (after.reverse ++ cs.reverse) = cs.reverse := by
    refine trimLeft_append (fun c hc => hafter c (List.mem_reverse.1 hc)) ?_
    rwa [List.head?_reverse]
  rw [trimRight, List.reverse_append]
  exact (congrArg List.reverse hcut).trans cs.reverse_reverse

/-- A text that neither begins nor ends with a blank is what trimming leaves of it. -/
theorem trim_margins {before core after : List Char} (hbefore : ∀ c ∈ before, isBlank c = true)
    (hafter : ∀ c ∈ after, isBlank c = true) (hne : core ≠ [])
    (hfirst : ∀ c ∈ core.head?, isBlank c = false)
    (hlast : ∀ c ∈ core.getLast?, isBlank c = false) :
    trim (before ++ (core ++ after)) = core := by
  have hfirst' : ∀ c ∈ (core ++ after).head?, isBlank c = false := by
    rwa [List.head?_append_of_ne_nil core hne]
  rw [trim, trimLeft_append hbefore hfirst', trimRight_append hafter hlast]

/-- A text that neither begins nor ends with a blank is trimmed already. -/
theorem trim_eq_self {cs : List Char} (hfirst : ∀ c ∈ cs.head?, isBlank c = false)
    (hlast : ∀ c ∈ cs.getLast?, isBlank c = false) : trim cs = cs := by
  by_cases hnil : cs = []
  · rw [hnil]
    rfl
  · have hmargins := @trim_margins [] cs [] nofun nofun hnil hfirst hlast
    rwa [List.nil_append, List.append_nil] at hmargins

/-- Of blanks alone nothing is left. -/
theorem trim_of_blank {cs : List Char} (h : ∀ c ∈ cs, isBlank c = true) : trim cs = [] := by
  have hleft : trimLeft (cs ++ []) = [] := trimLeft_append h nofun
  rw [List.append_nil] at hleft
  rw [trim, hleft]
  rfl

/-- Trimming takes away blanks only, and what it leaves neither begins nor ends with one. -/
theorem trim_spec (cs : List Char) : ∃ before after, cs = before ++ (trim cs ++ after) ∧
    (∀ c ∈ (trim cs).head?, isBlank c = false) ∧
    ∀ c ∈ (trim cs).getLast?, isBlank c = false := by
  obtain ⟨hleft, -, hfirst⟩ := Hdl.cut_iff.1 ⟨rfl, Eq.refl (trimLeft cs)⟩
  obtain ⟨hright, -, hlast⟩ := Hdl.cut_iff.1 ⟨rfl, Eq.refl ((trimLeft cs).reverse.dropWhile isBlank)⟩
  have htrim : trimLeft cs =
      trim cs ++ ((trimLeft cs).reverse.takeWhile isBlank).reverse := by
    rw [trim, trimRight, ← List.reverse_append, ← hright, List.reverse_reverse]
  refine ⟨_, _, htrim ▸ hleft, ?_, ?_⟩
  · intro c hc
    refine hfirst c ?_
    rw [htrim, List.head?_append, hc]
    rfl
  · rw [trim, trimRight, List.getLast?_reverse]
    exact hlast

/-- Trimming twice is trimming once. -/
theorem trim_trim (cs : List Char) : trim (trim cs) = trim cs := by
  obtain ⟨-, -, -, hfirst, hlast⟩ := trim_spec cs
  exact trim_eq_self hfirst hlast

/-- Trimming brings in no character. -/
theorem not_mem_trim {c : Char} {cs : List Char} (h : c ∉ cs) : c ∉ trim cs := by
  obtain ⟨before, after, hcs, -, -⟩ := trim_spec cs
  intro hmem
  rw [hcs] at h
  exact h (List.mem_append_right _ (List.mem_append_left _ hmem))

/-- Trimming keeps the first character of a text that is no blank. -/
theorem head?_trim {before cs : List Char} {c : Char} (hbefore : ∀ c ∈ before, isBlank c = true)
    (hc : isBlank c = false) : (trim (before ++ c :: cs)).head? = some c := by
  rw [trim, trimLeft_append hbefore (by simpa using hc), trimRight, List.head?_reverse,
    List.reverse_cons, List.dropWhile_append]
  split <;> simp [hc]

/-! ## Letters -/

/-- In ASCII folding is lowering the case. -/
theorem fold_of_ascii {c : Char} (hc : c.toNat < 128) : fold c = c.toLower :=
  Hdl.forall_ascii (P := fun c => fold c = c.toLower) (by decide +kernel) hc

/-- In ASCII a character is lowered to one character. -/
theorem lowerChar_of_ascii {c : Char} (hc : c.toNat < 128) : lowerChar c = [c.toLower] :=
  Hdl.forall_ascii (P := fun c => lowerChar c = [c.toLower]) (by decide +kernel) hc

/-- Outside of ASCII the plain lowering changes nothing. -/
theorem toLower_of_not_ascii {c : Char} (h : 128 ≤ c.toNat) : c.toLower = c := by
  unfold Char.toLower
  refine dif_neg (fun hupper => ?_)
  have hle : c.toNat ≤ 90 := UInt32.le_iff_toNat_le.1 hupper.2
  omega

/-- A lowered character is lowered already, those that become several characters too. -/
theorem flatMap_lowerChar (c : Char) : (lowerChar c).flatMap lowerChar = lowerChar c := by
  by_cases hascii : c.toNat < 128
  · exact Hdl.forall_ascii (P := fun c => (lowerChar c).flatMap lowerChar = lowerChar c)
      (by decide +kernel) hascii
  · have hc : c.toLower = c := toLower_of_not_ascii (Nat.le_of_not_lt hascii)
    unfold lowerChar
    split
    · decide
    · next hdotted =>
      split
      · decide
      · next hkelvin => simp [hc, hdotted, hkelvin]

/-- Lower case has no lower case of its own. -/
theorem lower_lower (s : String) : lower (lower s) = lower s := by
  rw [lower, lower, String.toList_ofList, List.flatMap_assoc]
  exact congrArg String.ofList (List.flatMap_congr (fun c _ => flatMap_lowerChar c))

/-- What an ASCII letter is the lower case of folds to it. -/
theorem fold_of_toLower {c w : Char} (h : c.toLower = w) (hw : w.toNat < 128) : fold c = w := by
  by_cases hascii : c.toNat < 128
  · exact (fold_of_ascii hascii).trans h
  · rw [toLower_of_not_ascii (Nat.le_of_not_lt hascii)] at h
    rw [h] at hascii
    exact absurd hw hascii

/-- A keyword is dropped in whatever case it is spelled. -/
theorem dropWord?_append {word spelled : List Char} (h : spelled.map Char.toLower = word)
    (hword : Hdl.InAscii word) (rest : List Char) :
    dropWord? word (spelled ++ rest) = some rest := by
  induction spelled generalizing word with
  | nil =>
    subst h
    rw [List.map_nil, dropWord?, List.nil_append]
  | cons c spelled ih =>
    subst h
    obtain ⟨hc, hspelled⟩ := List.forall_mem_cons.1 hword
    rw [List.map_cons, List.cons_append, dropWord?, if_pos (fold_of_toLower rfl hc)]
    exact ih rfl hspelled

/-- A keyword has no characters but the letters of its word in some case. -/
theorem not_mem_of_spelled {word spelled : List Char} (h : spelled.map Char.toLower = word)
    {c : Char} (hc : c.toLower = c) (hword : c ∉ word) : c ∉ spelled := by
  intro hmem
  have hlower : c.toLower ∈ spelled.map Char.toLower := List.mem_map_of_mem hmem
  rw [h, hc] at hlower
  exact hword hlower

/-- A character may begin a name in either case. -/
theorem isNameStart_toLower (c : Char) : isNameStart c.toLower = isNameStart c := by
  by_cases hascii : c.toNat < 128
  · exact Hdl.forall_ascii (P := fun c => isNameStart c.toLower = isNameStart c)
      (by decide +kernel) hascii
  · rw [toLower_of_not_ascii (Nat.le_of_not_lt hascii)]

/-- However a keyword is spelled, it begins with a character that may begin a name. -/
theorem exists_cons_of_spelled {word spelled : List Char} {w : Char}
    (h : spelled.map Char.toLower = w :: word) (hw : isNameStart w = true) :
    ∃ c rest, spelled = c :: rest ∧ isNameStart c = true := by
  obtain ⟨c, rest, rfl, hc, -⟩ := List.map_eq_cons_iff.1 h
  refine ⟨c, rest, rfl, ?_⟩
  rwa [← isNameStart_toLower, hc]

/-- The strict names are within ASCII. -/
theorem toNat_lt_of_isNameChar {c : Char} (h : isNameChar c = true) : c.toNat < 128 := by
  unfold isNameChar Char.isAlphanum Char.isAlpha Char.isUpper Char.isLower Char.isDigit at h
  simp only [Bool.or_eq_true, Bool.and_eq_true, decide_eq_true_eq, beq_iff_eq, ge_iff_le,
    UInt32.le_iff_toNat_le] at h
  rcases h with ((⟨-, h⟩ | ⟨-, h⟩) | ⟨-, h⟩) | rfl
  · exact Nat.lt_of_le_of_lt h (by decide)
  · exact Nat.lt_of_le_of_lt h (by decide)
  · exact Nat.lt_of_le_of_lt h (by decide)
  · decide

/-- No character of a name is a blank. -/
theorem isBlank_of_isNameChar {c : Char} (h : isNameChar c = true) : isBlank c = false :=
  Hdl.forall_ascii (P := fun c => isNameChar c = true → isBlank c = false) (by decide +kernel)
    (toNat_lt_of_isNameChar h) h

/-- Before a name there is nothing to trim. -/
theorem trimLeft_of_isNameStart {c : Char} (h : isNameStart c = true) (rest : List Char) :
    trimLeft (c :: rest) = c :: rest := by
  have hblank := isBlank_of_isNameChar (Hdl.isNameChar_of_start h)
  rw [trimLeft, List.dropWhile_cons_of_neg (by rw [hblank]; exact Bool.false_ne_true)]

/-! ## Numbers -/

/-- The digits of a number are read back as the number. -/
theorem ofDigits_toDigits (n : Nat) : ofDigits (Nat.toDigits 10 n) = n :=
  Nat.ofDigitChars_ten_toDigits

/-- A number has no more digits than are read if and only if it is small enough. -/
theorem length_toDigits_iff {n : Nat} :
    (Nat.toDigits 10 n).length ≤ maxDigits ↔ n < 10 ^ maxDigits :=
  Nat.length_toDigits_le_iff (by decide) (by decide)

end Text

namespace Hdl

open Text

/-- The digits of a number are a numeral. -/
theorem isNumeral_toDigits (n : Nat) : IsNumeral (Nat.toDigits 10 n) :=
  ⟨Nat.toDigits_ne_nil, fun _ => Nat.isDigit_of_mem_toDigits (by decide) (by decide)⟩

namespace IsRun

variable {name : List Char} (h : IsRun isNameStart isNameChar name)
include h

/-- Every character of a name may stand in one. -/
theorem nameChars : ∀ c ∈ name, isNameChar c = true :=
  h.forall_mem (fun _ => isNameChar_of_start)

/-- A name is within ASCII. -/
theorem inAscii : InAscii name :=
  fun c hc => toNat_lt_of_isNameChar (h.nameChars c hc)

/-- A name is one where case is disregarded, too. -/
theorem loose : IsRun isLooseNameStart isLooseNameChar name := by
  have hascii := h.inAscii
  obtain ⟨c, rest, rfl, hfirst, hrest⟩ := h
  obtain ⟨hc, hascii⟩ := List.forall_mem_cons.1 hascii
  exact ⟨c, rest, rfl, (loose_of_ascii hc).1.trans hfirst,
    fun d hd => (loose_of_ascii (hascii d hd)).2.trans (hrest d hd)⟩

/-- A name in small letters is the name with each of its characters lowered. -/
theorem lower_eq : lower (String.ofList name) = String.ofList (name.map Char.toLower) := by
  rw [lower, String.toList_ofList, List.map_eq_flatMap,
    List.flatMap_congr (fun c hc => lowerChar_of_ascii (h.inAscii c hc))]

end IsRun

/-! ## Declarations and gates -/

/-- What is dropped is dropped from the front. -/
theorem dropWord?_suffix : ∀ {word cs rest : List Char}, dropWord? word cs = some rest → rest <:+ cs
  | [], cs, _, h => by
    cases h
    exact List.suffix_refl cs
  | _ :: _, [], _, h => by cases h
  | w :: word, c :: cs, rest, h => by
    rw [dropWord?] at h
    split at h
    · exact (dropWord?_suffix h).trans (List.suffix_cons c cs)
    · cases h

/-- What is left after blanks is the end of the text. -/
theorem dropBlanks?_suffix {cs rest : List Char} (h : dropBlanks? cs = some rest) :
    rest <:+ cs := by
  cases cs with
  | nil => cases h
  | cons c cs =>
    rw [dropBlanks?] at h
    split at h
    · cases h
      exact (List.dropWhile_suffix isBlank).trans (List.suffix_cons c cs)
    · cases h

/-- A declaration ends with its name and its span. -/
theorem wireDecl?_suffix {line : List Char} {decl : WireDecl} (h : wireDecl? line = some decl) :
    IsRun isLooseNameStart isLooseNameChar decl.name ∧
      decl.name ++ decl.span.written <:+ line := by
  obtain ⟨rest₁, hword, h⟩ := Option.bind_eq_some_iff.1 h
  obtain ⟨rest₂, hblanks, h⟩ := Option.bind_eq_some_iff.1 h
  obtain ⟨⟨name, rest₃⟩, hname, h⟩ := Option.bind_eq_some_iff.1 h
  obtain ⟨span, hspan, h⟩ := Option.bind_eq_some_iff.1 h
  cases h
  obtain ⟨rfl, hrun, -⟩ := takeRun?_eq_some_iff.1 hname
  obtain ⟨-, rfl⟩ := span?_eq_some_iff.1 hspan
  exact ⟨hrun, (dropBlanks?_suffix hblanks).trans (dropWord?_suffix hword)⟩

/-- No declaration ends as a gate does. -/
theorem wireDecl?_of_parenthesis (line : List Char) : wireDecl? (line ++ [')']) = none := by
  cases hdecl : wireDecl? (line ++ [')']) with
  | none => rfl
  | some decl =>
    obtain ⟨hrun, front, hline⟩ := wireDecl?_suffix hdecl
    obtain ⟨c, rest, hname, hstart, hlater⟩ := hrun
    have hlast : ')' ∈ (decl.name ++ decl.span.written).getLast? := by
      have hne : decl.name ++ decl.span.written ≠ [] := by simp [hname]
      rw [← List.getLast?_append_of_ne_nil front hne, hline, List.getLast?_concat]
      rfl
    rcases Span.getLast?_append_written hlast with hmem | hmem
    · rw [hname] at hmem
      rcases List.mem_cons.1 hmem with rfl | hmem
      · cases hstart
      · cases hlater _ hmem
    · cases hmem

/-- What is left after a part is the end of the text, the stop included. -/
theorem takeUntil?_suffix {stop : Char} {cs before rest : List Char}
    (h : takeUntil? stop cs = some (before, rest)) : stop :: rest <:+ cs := by
  unfold takeUntil? at h
  dsimp only at h
  split at h
  · cases h
  · obtain ⟨rest', hstop, hpair⟩ := Option.map_eq_some_iff.1 h
    cases hpair
    rw [← dropChar?_eq_some_iff.1 hstop]
    exact List.dropWhile_suffix _

/-- What is left after a name is the end of the text. -/
theorem takeName?_suffix {cs name rest : List Char} (h : takeName? cs = some (name, rest)) :
    rest <:+ cs := by
  obtain ⟨rfl, -, -⟩ := takeRun?_eq_some_iff.1 h
  exact List.suffix_append name rest

/-- A gate ends with a parenthesis. -/
theorem gateInst?_suffix {line : List Char} {inst : GateInst} (h : gateInst? line = some inst) :
    [')'] <:+ line := by
  obtain ⟨⟨kind, rest₁⟩, hkind, h⟩ := Option.bind_eq_some_iff.1 h
  obtain ⟨rest₂, hblanks, h⟩ := Option.bind_eq_some_iff.1 h
  obtain ⟨⟨name, rest₃⟩, hname, h⟩ := Option.bind_eq_some_iff.1 h
  obtain ⟨rest₄, hopen, h⟩ := Option.bind_eq_some_iff.1 h
  obtain ⟨rest₅, hinput, h⟩ := Option.bind_eq_some_iff.1 h
  obtain ⟨⟨inputs, rest₆⟩, hinputs, h⟩ := Option.bind_eq_some_iff.1 h
  obtain ⟨rest₇, houtput, h⟩ := Option.bind_eq_some_iff.1 h
  obtain ⟨⟨outputs, rest₈⟩, houtputs, h⟩ := Option.bind_eq_some_iff.1 h
  dsimp only at h
  split at h
  · next hend =>
    obtain rfl := List.isEmpty_iff.1 hend
    have htrim : ∀ cs : List Char, trimLeft cs <:+ cs := fun _ => List.dropWhile_suffix isBlank
    have hopened : '(' :: rest₄ <:+ rest₃ := dropChar?_eq_some_iff.1 hopen ▸ htrim rest₃
    have hclosed : [')'] <:+ rest₆ :=
      (takeUntil?_suffix houtputs).trans ((dropWord?_suffix houtput).trans (htrim rest₆))
    have hlisted : rest₆ <:+ rest₄ :=
      (List.suffix_cons _ _).trans
        ((takeUntil?_suffix hinputs).trans ((dropWord?_suffix hinput).trans (htrim rest₄)))
    have hnamed : rest₃ <:+ line :=
      (takeName?_suffix hname).trans ((dropBlanks?_suffix hblanks).trans (takeName?_suffix hkind))
    exact hclosed.trans (hlisted.trans ((List.suffix_cons _ _).trans (hopened.trans hnamed)))
  · cases h

/-- No line is both a declaration and a gate. -/
theorem wireDecl?_of_gateInst? {line : List Char} {inst : GateInst}
    (h : gateInst? line = some inst) : wireDecl? line = none := by
  obtain ⟨front, rfl⟩ := gateInst?_suffix h
  exact wireDecl?_of_parenthesis front

end Hdl

end Switchyard
