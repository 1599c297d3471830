import Mathlib.Data.List.Find
import Switchyard.Proofs.Hdl.Grammar
import Switchyard.Report.Diagnosis

/-!
# Phrases in messages

A message is classified by the phrases that occur in it, wherever they stand (`Text.mentions_iff`),
so also by those in the texts that it quotes. All phrases are words with blanks between them: none
reaches across a quotation mark, a digit or any other character that is neither a letter nor a blank
(`Category.recognizes_append`), and none lies in a text without blanks
(`Category.recognizes_of_not_mem`). A message that quotes a text is thus recognized by its own words
or by those that it quotes. If its own words have it classified right, the quotation misleads if and
only if it has a phrase of a category that is tried before (`classify_eq`,
`Category.quoting_eq_iff`).
-/

namespace Switchyard

namespace Text

/-- A word is at the beginning of a text if and only if it can be dropped from there. -/
theorem isSome_dropWord?_iff {word cs : List Char} :
    (dropWord? word cs).isSome = true ↔ word <+: cs.map fold := by
  rw [Option.isSome_iff_exists]
  constructor
  · rintro ⟨rest, hrest⟩
    obtain ⟨spelled, hspelled, rfl⟩ := Hdl.dropWord?_eq_some_iff.1 hrest
    exact ⟨rest.map fold, by rw [List.map_append, hspelled]⟩
  · rintro ⟨rest, hrest⟩
    obtain ⟨spelled, behind, rfl, hspelled, -⟩ := List.map_eq_append_iff.1 hrest.symm
    exact ⟨behind, Hdl.dropWord?_eq_some_iff.2 ⟨spelled, hspelled, rfl⟩⟩

/-- A word is mentioned if and only if it occurs in the text, case disregarded. -/
theorem mentions_iff {word cs : List Char} : mentions word cs = true ↔ word <:+: cs.map fold := by
  induction cs with
  | nil => rw [mentions, List.isEmpty_iff, List.map_nil, List.infix_nil]
  | cons c cs ih =>
    rw [mentions, Bool.or_eq_true, isSome_dropWord?_iff, ih, List.map_cons, List.infix_cons_iff]

end Text

namespace Report

open Text

/-! ## What phrases are made of -/

/-- A character that may stand in a phrase: a lower-case letter or a blank. -/
def isPhraseChar (c : Char) : Bool :=
  c.isLower || c == ' '

/-- A character at which phrases end, in whatever case they are written. -/
def divides (c : Char) : Bool :=
  !isPhraseChar (fold c)

/-- A text begins with a character at which phrases end. -/
def Opens (text : String) : Prop :=
  ∃ c ∈ text.toList.head?, divides c = true

/-- A text ends with a character at which phrases end. -/
def Closes (text : String) : Prop :=
  ∃ c ∈ text.toList.getLast?, divides c = true

instance (text : String) : Decidable (Opens text) :=
  decidable_of_iff (text.toList.head?.any divides = true) (by simp [Opens, Option.any_eq_true])

instance (text : String) : Decidable (Closes text) :=
  decidable_of_iff (text.toList.getLast?.any divides = true)
    (by simp [Closes, Option.any_eq_true])

/-- Folding makes no space of another character. -/
theorem fold_eq_blank_iff {c : Char} : fold c = ' ' ↔ c = ' ' := by
  refine ⟨fun h => ?_, by rintro rfl; rfl⟩
  by_cases hascii : c.toNat < 128
  · exact Hdl.forall_ascii (P := fun c => fold c = ' ' → c = ' ') (by decide +kernel) hascii h
  · unfold fold at h
    rw [toLower_of_not_ascii (Nat.le_of_not_lt hascii)] at h
    split at h
    · cases h
    · split at h
      · cases h
      · split at h
        · cases h
        · exact h

/-- A text closes however it begins. -/
theorem closes_append (s : String) {t : String} (h : Closes t) : Closes (s ++ t) := by
  obtain ⟨c, hc, hdivides⟩ := h
  refine ⟨c, ?_, hdivides⟩
  rw [Option.mem_def] at hc ⊢
  rw [String.toList_append, List.getLast?_append, hc, Option.some_or]

/-- A text of characters at which phrases end, as a number is. -/
def IsApart (text : String) : Prop :=
  text.toList ≠ [] ∧ ∀ c ∈ text.toList, divides c = true

/-- A number stands apart from the words around it. -/
theorem isApart_repr (n : Nat) : IsApart n.repr := by
  refine ⟨by simp, fun c hc => ?_⟩
  have hdigit : isDigit c = true := (Hdl.isNumeral_toDigits n).2 c (by rwa [← Nat.toList_repr])
  have hname : isNameChar c = true := by
    rw [isNameChar, Char.isAlphanum, show c.isDigit = true from hdigit, Bool.or_true, Bool.true_or]
  exact Hdl.forall_ascii (P := fun c => isDigit c = true → divides c = true) (by decide +kernel)
    (toNat_lt_of_isNameChar hname) hdigit

/-- An integer stands apart from the words around it, with its sign. -/
theorem isApart_toString (n : Int) : IsApart (toString n) := by
  cases n with
  | ofNat n => exact isApart_repr n
  | negSucc n =>
    obtain ⟨-, hdigits⟩ := isApart_repr (n + 1)
    change IsApart ("-" ++ (n + 1).repr)
    refine ⟨by simp, ?_⟩
    rw [String.toList_append, show "-".toList = ['-'] from rfl]
    exact List.forall_mem_append.2 ⟨List.forall_mem_singleton.2 (by decide), hdigits⟩

/-- A text that stands apart opens. -/
theorem IsApart.opens {text : String} (h : IsApart text) : Opens text := by
  obtain ⟨c, rest, hcons⟩ := List.exists_cons_of_ne_nil h.1
  exact ⟨c, by rw [hcons]; rfl, h.2 c (by rw [hcons]; exact List.mem_cons_self)⟩

/-- A text that stands apart closes. -/
theorem IsApart.closes {text : String} (h : IsApart text) : Closes text :=
  ⟨text.toList.getLast h.1, List.getLast?_eq_some_getLast h.1, h.2 _ (List.getLast_mem h.1)⟩

/-- A phrase is of letters and blanks, does not begin with a blank, and has one. -/
theorem phrase_chars {category : Category} {phrase : String} (h : phrase ∈ category.phrases) :
    (∀ c ∈ phrase.toList, isPhraseChar c = true) ∧ ' ' ∈ phrase.toList ∧
      phrase.toList.head? ≠ some ' ' := by
  have hall : (Category.all.flatMap Category.phrases).all (fun phrase =>
      phrase.toList.all isPhraseChar && phrase.toList.contains ' ' &&
        phrase.toList.head? != some ' ') = true := by
    decide +kernel
  have hphrase := List.all_eq_true.1 hall phrase
    (List.mem_flatMap.2 ⟨category, by cases category <;> decide, h⟩)
  rw [Bool.and_eq_true, Bool.and_eq_true, List.all_eq_true, List.contains_iff_mem, bne_iff_ne,
    and_assoc] at hphrase
  exact hphrase

namespace Category

variable {category : Category} {s t : String}

/-- A category recognizes a text exactly if one of its phrases occurs in the folded text. -/
theorem recognizes_iff : category.recognizes s = true ↔
    ∃ phrase ∈ category.phrases, phrase.toList <:+: s.toList.map fold := by
  rw [recognizes, List.any_eq_true]
  simp only [mentions_iff]

/-- Where a text ends at which phrases end, or where one begins, every phrase is on one side. -/
theorem recognizes_append (h : Closes s ∨ Opens t) :
    category.recognizes (s ++ t) = (category.recognizes s || category.recognizes t) := by
  rw [Bool.eq_iff_iff, Bool.or_eq_true, recognizes_iff, recognizes_iff, recognizes_iff,
    String.toList_append, List.map_append]
  constructor
  · rintro ⟨phrase, hphrase, hin⟩
    have hchars := (phrase_chars hphrase).1
    have hnot : ∀ c, divides c = true → fold c ∉ phrase.toList := by
      intro c hc hmem
      rw [divides, hchars _ hmem] at hc
      cases hc
    rcases List.infix_append_iff_ne_nil.1 hin with hin | hin | ⟨xs, ys, hxs, hys, hsplit, hs, ht⟩
    · exact .inl ⟨phrase, hphrase, hin⟩
    · exact .inr ⟨phrase, hphrase, hin⟩
    · exfalso
      -- a phrase that lies across the border has the character at which phrases end
      rcases h with ⟨c, hc, hdivides⟩ | ⟨c, hc, hdivides⟩
      · refine hnot c hdivides ?_
        rw [hsplit]
        refine List.mem_append_left _ (List.mem_of_getLast? (l := xs) ?_)
        have hlast : (s.toList.map fold).getLast? = some (fold c) := by
          rw [List.getLast?_map, Option.mem_def.1 hc, Option.map_some]
        obtain ⟨before, hbefore⟩ := hs
        rwa [← hbefore, List.getLast?_append_of_ne_nil _ hxs] at hlast
      · refine hnot c hdivides ?_
        rw [hsplit]
        refine List.mem_append_right _ (List.mem_of_head? ?_)
        have hfirst : (t.toList.map fold).head? = some (fold c) := by
          rw [List.head?_map, Option.mem_def.1 hc, Option.map_some]
        obtain ⟨behind, hbehind⟩ := ht
        rwa [← hbehind, List.head?_append_of_ne_nil _ hys] at hfirst
  · rintro (⟨phrase, hphrase, hin⟩ | ⟨phrase, hphrase, hin⟩)
    · exact ⟨phrase, hphrase, List.infix_append_of_infix_left hin⟩
    · exact ⟨phrase, hphrase, List.infix_append_of_infix_right hin⟩

/-- A text without a blank has no phrase. -/
theorem recognizes_of_not_mem (h : ' ' ∉ s.toList) : category.recognizes s = false := by
  rw [← Bool.not_eq_true, recognizes_iff]
  rintro ⟨phrase, hphrase, hin⟩
  obtain ⟨c, hc, hfold⟩ := List.mem_map.1 (hin.subset (phrase_chars hphrase).2.1)
  rw [fold_eq_blank_iff.1 hfold] at hc
  exact h hc

/-- What stands before a message, ended by a colon and a blank, is not part of a phrase in it. -/
theorem recognizes_colon : category.recognizes (": " ++ t) = category.recognizes t := by
  rw [Bool.eq_iff_iff, recognizes_iff, recognizes_iff]
  refine exists_congr (fun phrase => and_congr_right (fun hphrase => ?_))
  obtain ⟨hchars, hblank, hhead⟩ := phrase_chars hphrase
  obtain ⟨c, rest, hcons⟩ := List.exists_cons_of_ne_nil (List.ne_nil_of_mem hblank)
  rw [hcons] at hchars hhead ⊢
  have hskip : ∀ d ds, fold d ≠ c → (c :: rest <:+: fold d :: ds ↔ c :: rest <:+: ds) := by
    intro d ds hd
    rw [List.infix_cons_iff, List.cons_prefix_cons]
    exact or_iff_right (fun h => hd h.1.symm)
  rw [String.toList_append, List.map_append]
  refine (hskip ':' _ ?_).trans (hskip ' ' _ ?_)
  · rintro rfl
    cases hchars _ List.mem_cons_self
  · rintro rfl
    exact hhead rfl

/-- A text between others has the phrases that it has alone. -/
theorem recognizes_quoting (hs : Closes s) (ht : Opens t) (quoted : String) :
    category.recognizes (s ++ quoted ++ t) =
      (category.recognizes s || category.recognizes quoted || category.recognizes t) := by
  rw [recognizes_append (.inr ht), recognizes_append (.inl hs)]

/-- A number has no phrase. -/
theorem recognizes_apart (ht : IsApart t) :
    category.recognizes (s ++ t) = category.recognizes s := by
  have hblank : ' ' ∉ t.toList := fun hmem => Bool.false_ne_true (ht.2 ' ' hmem)
  rw [recognizes_append (.inr ht.opens), recognizes_of_not_mem hblank, Bool.or_false]

/-- No phrase reaches across a number. -/
theorem recognizes_apart_append (ht : IsApart t) (u : String) :
    category.recognizes (s ++ t ++ u) = (category.recognizes s || category.recognizes u) := by
  rw [recognizes_append (.inl (closes_append s ht.closes)), recognizes_apart ht]

/-! ## Messages that quote -/

/-- The categories that are tried before one. -/
def earlier (category : Category) : List Category :=
  tried.takeWhile (· ≠ category)

/-- What a message of a category is taken for when it quotes a text: the first category tried before
its own that has a phrase in the quotation, and its own if there is none. -/
def quoting (category : Category) (quoted : String) : Category :=
  (category.earlier.find? (·.recognizes quoted)).getD category

/-- A quotation does no harm if and only if it has no phrase of a category that is tried before. -/
theorem quoting_eq_iff {quoted : String} : category.quoting quoted = category ↔
    ∀ other ∈ category.earlier, other.recognizes quoted = false := by
  rw [quoting]
  cases hfind : category.earlier.find? (·.recognizes quoted) with
  | none =>
    rw [List.find?_eq_none] at hfind
    exact iff_of_true rfl (fun other hother => by simpa using hfind other hother)
  | some other =>
    have hother := List.mem_of_find?_eq_some hfind
    have hrecognizes := List.find?_some hfind
    refine iff_of_false ?_ (fun h => ?_)
    · simpa using List.mem_takeWhile_imp hother
    · rw [h other hother] at hrecognizes
      cases hrecognizes

end Category

/-- The category of a message, if there is one, is the first that recognizes it. -/
theorem find?_of_classify {category : Category} {message : String}
    (h : classify message = category) (hknown : category ≠ .unknown) :
    Category.tried.find? (·.recognizes message) = some category := by
  unfold classify at h
  cases hfound : Category.tried.find? (·.recognizes message) with
  | none =>
    rw [hfound] at h
    exact absurd h.symm hknown
  | some found =>
    rw [hfound] at h
    exact congrArg some h

/-- A message whose own words have it classified right is classified by its quotation only as far as
categories are tried before. -/
theorem classify_eq {category : Category} {message own quoted : String}
    (hown : classify own = category) (hknown : category ≠ .unknown)
    (h : ∀ other : Category,
      other.recognizes message = (other.recognizes own || other.recognizes quoted)) :
    classify message = category.quoting quoted := by
  obtain ⟨hcategory, before, behind, htried, hbefore⟩ :=
    List.find?_eq_some_iff_append.1 (find?_of_classify hown hknown)
  have hfalse : ∀ other ∈ before, other.recognizes own = false :=
    fun other hother => by simpa using hbefore other hother
  have hearlier : category.earlier = before := by
    have hne : ∀ other ∈ before, decide (other ≠ category) = true := by
      rintro other hother
      rw [decide_eq_true_eq]
      rintro rfl
      exact Bool.false_ne_true ((hfalse other hother).symm.trans hcategory)
    rw [Category.earlier, htried, List.takeWhile_append_of_pos hne,
      List.takeWhile_cons_of_neg (by simp), List.append_nil]
  have hbehind : (category :: behind).find? (·.recognizes message) = some category :=
    List.find?_cons_of_pos (by rw [h, hcategory, Bool.true_or])
  have hsame : before.find? (·.recognizes message) = before.find? (·.recognizes quoted) :=
    List.find?_congr (fun other hother => by rw [h, hfalse other hother, Bool.false_or])
  rw [classify, htried, List.find?_append, hbehind, hsame, Category.quoting, hearlier]
  cases before.find? (·.recognizes quoted) <;> rfl

end Report

end Switchyard
