import Mathlib.Data.List.Basic
import Switchyard.Hdl.GateKind
import Switchyard.Proofs.Hdl.Operands

/-!
# The upper case of kinds

A built circuit names the kinds of its gates in upper case, and a simulator takes the upper case of
such a name again to find the kind. Of the flip-flop this finds nothing new: a text in upper case
that counts as its name is its name (`GateKind.ofLabel?_upper_iff`). The letters of this name are
the upper case of themselves, of two small letters and of one ligature
(`Text.fixed_or_of_upperChar`), and no upper case holds any of the latter
(`Text.upperChar_fixed_or`).
-/

namespace Switchyard

namespace Text

/-- A character has its upper case from one of the tables, or is left as it is. -/
theorem upperChar_cases (c : Char) :
    (c.toNat < 0x80 ∧ upperChar c = [c.toUpper]) ∨
    (∃ entry ∈ upperSpecial, entry.1 = c.toNat ∧ upperChar c = entry.2.map Char.ofNat) ∨
    (∃ run ∈ upperRuns, run.1 ≤ c.toNat ∧ c.toNat ≤ run.2.1 ∧
      upperChar c = [Char.ofNat ((c.toNat : Int) + run.2.2.2).toNat]) ∨
    upperChar c = [c] := by
  unfold upperChar
  dsimp only
  split
  · next hascii => exact .inl ⟨hascii, rfl⟩
  · split
    · next number mapped hfind =>
      have hentry := List.find?_some hfind
      exact .inr (.inl ⟨_, List.mem_of_find?_eq_some hfind, by simpa using hentry, rfl⟩)
    · split
      · next first last step distance hfind =>
        have hrun := List.find?_some hfind
        simp only [Bool.and_eq_true, decide_eq_true_eq] at hrun
        exact .inr (.inr (.inl ⟨_, List.mem_of_find?_eq_some hfind, hrun.1.1, hrun.1.2, rfl⟩))
      · exact .inr (.inr (.inr rfl))

/-- A number that is no code point gives the character zero, and every other is that of its
character. -/
theorem toNat_ofNat (n : Nat) : (Char.ofNat n).toNat = n ∨ (Char.ofNat n).toNat = 0 := by
  unfold Char.ofNat
  by_cases hvalid : n.isValidChar
  · rw [dif_pos hvalid]
    exact .inl rfl
  · rw [dif_neg hvalid]
    exact .inr rfl

/-- The upper case of a character that changes holds no small letter and not the one ligature whose
upper case is made of the letters of a flip-flop. -/
theorem upperChar_fixed_or (c : Char) : upperChar c = [c] ∨
    ∀ d ∈ upperChar c, (d.toNat < 0x61 ∨ 0x7A < d.toNat) ∧ d.toNat ≠ 0xFB00 := by
  obtain ⟨hascii, hupper⟩ | ⟨entry, hentry, -, hupper⟩ | ⟨run, hrun, hfirst, hlast, hupper⟩ |
      hupper := upperChar_cases c
  · right
    rw [hupper, List.forall_mem_singleton]
    exact Hdl.forall_ascii (P := fun c => (c.toUpper.toNat < 0x61 ∨ 0x7A < c.toUpper.toNat) ∧
      c.toUpper.toNat ≠ 0xFB00) (by decide +kernel) hascii
  · have hspecial : ∀ entry ∈ upperSpecial, ∀ n ∈ entry.2,
        (n < 0x61 ∨ 0x7A < n) ∧ n ≠ 0xFB00 := by
      decide +kernel
    right
    rw [hupper, List.forall_mem_map]
    intro n hn
    have := hspecial entry hentry n hn
    rcases toNat_ofNat n with hsame | hzero <;> omega
  · have hruns : ∀ run ∈ upperRuns,
        (run.2.1 + run.2.2.2 < 0x61 ∨ 0x7A < run.1 + run.2.2.2) ∧
        (run.2.1 + run.2.2.2 < 0xFB00 ∨ 0xFB00 < run.1 + run.2.2.2) := by
      decide +kernel
    right
    rw [hupper, List.forall_mem_singleton]
    have := hruns run hrun
    rcases toNat_ofNat ((c.toNat : Int) + run.2.2.2).toNat with hsame | hzero <;> omega
  · exact .inl hupper

/-- A character whose upper case is made of the letters of a flip-flop is left as it is, or is a
small letter or that ligature. -/
theorem fixed_or_of_upperChar {d : Char} (h : ∀ e ∈ upperChar d, e = 'D' ∨ e = 'F') :
    upperChar d = [d] ∨ (0x61 ≤ d.toNat ∧ d.toNat ≤ 0x7A) ∨ d.toNat = 0xFB00 := by
  obtain ⟨hascii, hupper⟩ | ⟨entry, hentry, hnumber, hupper⟩ | ⟨run, hrun, hfirst, hlast, hupper⟩ |
    hupper := upperChar_cases d
  · have hletter : d.toUpper = d ∨ (0x61 ≤ d.toNat ∧ d.toNat ≤ 0x7A) :=
      Hdl.forall_ascii (P := fun c => c.toUpper = c ∨ (0x61 ≤ c.toNat ∧ c.toNat ≤ 0x7A))
        (by decide +kernel) hascii
    exact hletter.imp (fun hsame => by rw [hupper, hsame]) .inl
  · have hspecial : ∀ entry ∈ upperSpecial,
        (∀ n ∈ entry.2, Char.ofNat n = 'D' ∨ Char.ofNat n = 'F') → entry.1 = 0xFB00 := by
      decide +kernel
    rw [hupper, List.forall_mem_map] at h
    exact .inr (.inr (hnumber ▸ hspecial entry hentry h))
  · have hruns : ∀ run ∈ upperRuns,
        run.2.1 + run.2.2.2 < 0x44 ∨ 0x46 < run.1 + run.2.2.2 := by
      decide +kernel
    have hrange := hruns run hrun
    rw [hupper, List.forall_mem_singleton] at h
    have hcode : (Char.ofNat ((d.toNat : Int) + run.2.2.2).toNat).toNat = 0x44 ∨
        (Char.ofNat ((d.toNat : Int) + run.2.2.2).toNat).toNat = 0x46 :=
      h.imp (fun heq => by rw [heq]; rfl) (fun heq => by rw [heq]; rfl)
    rcases toNat_ofNat ((d.toNat : Int) + run.2.2.2).toNat with hsame | hzero <;> omega
  · exact .inl hupper

/-- A text in upper case whose upper case is the name of the flip-flop is that name. -/
theorem upper_eq_of_upper_upper {s : String} (h : upper (upper s) = "DFF") : upper s = "DFF" := by
  have hlist : (upper s).toList = s.toList.flatMap upperChar := String.toList_ofList
  have htwice : (upper s).toList.flatMap upperChar = "DFF".toList := by
    rw [← h]
    exact String.toList_ofList.symm
  have hfixed : ∀ d ∈ (upper s).toList, upperChar d = [d] := by
    intro d hd
    have hletters : ∀ e ∈ upperChar d, e = 'D' ∨ e = 'F' := by
      intro e he
      have hmem : e ∈ "DFF".toList := htwice ▸ List.mem_flatMap.2 ⟨d, hd, he⟩
      simpa [or_assoc] using hmem
    rw [hlist] at hd
    obtain ⟨c, -, hc⟩ := List.mem_flatMap.1 hd
    rcases upperChar_fixed_or c with hsame | hout
    · rw [hsame, List.mem_singleton] at hc
      rw [hc, hsame]
    · have := hout d hc
      rcases fixed_or_of_upperChar hletters with hsame | hsmall
      · exact hsame
      · omega
  have hsame : (upper s).toList.flatMap upperChar = (upper s).toList := by
    rw [List.flatMap_congr hfixed]
    exact List.flatMap_singleton' _
  rw [← String.ofList_toList (s := upper s), ← hsame, htwice]
  rfl

end Text

/-- A kind in upper case is that of a flip-flop if and only if it is so spelled. -/
theorem GateKind.ofLabel?_upper_iff (s : String) :
    ofLabel? (Text.upper s) = some .dff ↔ Text.upper s = "DFF" := by
  constructor
  · intro h
    have hlabel := List.find?_some h
    exact Text.upper_eq_of_upper_upper (eq_of_beq hlabel).symm
  · intro h
    rw [h]
    decide +kernel

end Switchyard
