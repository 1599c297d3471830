/-!
# Halves of surrogate pairs

A text is a list of code points. One of them may be no character: an escape can denote half of a
UTF-16 surrogate pair. A text holds a code point as `hold` says: a half as a mark and a private-use
character behind it, the mark itself, which no script has as a letter, as two of it, and every other
character as itself. So each list of code points has a text of its own, from which `codePoints`
gives it back (`codePoints_ofCodePoints`). The texts of the surroundings are made of characters
alone; they come in by `ofCharacters` and go out by `toCharacters` or `bytes`.
-/

namespace Switchyard.Text

/-- Whether a code point is half of a surrogate pair. -/
def isHalf (n : Nat) : Bool :=
  0xD800 ≤ n && n ≤ 0xDFFF

/-- The character before a half, and before itself. -/
def mark : Char := Char.ofNat 0x10FFFF

/-- How far above its own code point a half is held. -/
def halfOffset : Nat := 0x100000

/-- The characters by which a text holds a code point. -/
def hold (n : Nat) : List Char :=
  if isHalf n then [mark, Char.ofNat (halfOffset + n)]
  else if n = mark.toNat then [mark, mark]
  else [Char.ofNat n]

/-- The code point that a character behind a mark stands for. -/
def behindMark (c : Char) : Nat :=
  if isHalf (c.toNat - halfOffset) then c.toNat - halfOffset else c.toNat

/-- The code points that characters hold. -/
def codePointsOf : List Char → List Nat
  | [] => []
  | [c] => [c.toNat]
  | c :: d :: cs =>
    if c = mark then behindMark d :: codePointsOf cs else c.toNat :: codePointsOf (d :: cs)

/-- The code points of a text. -/
def codePoints (s : String) : List Nat :=
  codePointsOf s.toList

/-- The text of a list of code points. -/
def ofCodePoints (ns : List Nat) : String :=
  String.ofList (ns.flatMap hold)

/-- A valid code point is that of its character. -/
theorem toNat_ofNat_of_valid {n : Nat} (h : n.isValidChar) : (Char.ofNat n).toNat = n := by
  unfold Char.ofNat
  rw [dif_pos h]
  rfl

/-- A code point that is no half of a pair is valid. -/
theorem isValidChar_of_not_isHalf {n : Nat} (h : n < 0x110000) (hn : isHalf n = false) :
    n.isValidChar := by
  simp only [isHalf, Nat.isValidChar] at *
  grind

/-- The character behind the mark stands for the half it was made from. -/
theorem behindMark_half {n : Nat} (hn : isHalf n = true) :
    behindMark (Char.ofNat (halfOffset + n)) = n := by
  have hv : (halfOffset + n).isValidChar := by
    simp only [isHalf, halfOffset, Nat.isValidChar] at *
    grind
  simp [behindMark, toNat_ofNat_of_valid hv, hn]

/-- A held code point is read back, whatever stands behind it. -/
theorem codePointsOf_hold_append {n : Nat} (h : n < 0x110000) (cs : List Char) :
    codePointsOf (hold n ++ cs) = n :: codePointsOf cs := by
  unfold hold
  split
  · next hn => simp [codePointsOf, behindMark_half hn]
  · next hn =>
    have hv := toNat_ofNat_of_valid (isValidChar_of_not_isHalf h (by simpa using hn))
    split
    · next hm =>
      subst hm
      have hb : behindMark mark = mark.toNat := by decide
      simp [codePointsOf, hb]
    · next hm =>
      have hc : Char.ofNat n ≠ mark := fun hc => hm (by rw [← hc, hv])
      cases cs <;> simp [codePointsOf, hc, hv]

/-- Reading the code points of a text gives back those that it was made of. -/
theorem codePoints_ofCodePoints {ns : List Nat} (h : ∀ n ∈ ns, n < 0x110000) :
    codePoints (ofCodePoints ns) = ns := by
  unfold codePoints ofCodePoints
  rw [String.toList_ofList]
  induction ns with
  | nil => rfl
  | cons n ns ih =>
    rw [List.flatMap_cons, codePointsOf_hold_append (h n List.mem_cons_self),
      ih (fun m hm => h m (List.mem_cons_of_mem n hm))]

/-- The code points of a text, each as a text of its own. -/
def points (s : String) : List String :=
  (codePoints s).map (fun n => ofCodePoints [n])

/-- The text of characters. -/
def ofCharacters (s : String) : String :=
  ofCodePoints (s.toList.map Char.toNat)

/-- The characters of a text; a half, which is none, becomes the character zero. -/
def toCharacters (s : String) : String :=
  String.ofList ((codePoints s).map Char.ofNat)

/-- The bytes by which a text without halves is written to a file. -/
def bytes (s : String) : List UInt8 :=
  (toCharacters s).toUTF8.toList

/-- Whether a text holds a half, so that it cannot be written to a file. -/
def hasHalf (s : String) : Bool :=
  (codePoints s).any isHalf

/-- Whether a text holds a half that has no bytes in the name of a file. The halves from U+DC80 to
U+DCFF stand for single bytes. -/
def hasByteless (s : String) : Bool :=
  (codePoints s).any (fun n => isHalf n && !(0xDC80 ≤ n && n ≤ 0xDCFF))

/-- How many bytes a text takes in the name of a file. A half that stands for a byte takes one, as
the character zero in its place does. -/
def nameBytes (s : String) : Nat :=
  (toCharacters s).utf8ByteSize

end Switchyard.Text
