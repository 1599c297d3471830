/-!
# Letters of names and keywords

Names are made of ASCII letters, digits and underscores. Keywords and declared names are matched
without regard to case, and under Unicode case folding four more characters then count as letters:
the dotted capital I and the dotless small i (as `i`), the long s (as `s`) and the Kelvin sign
(as `k`).
-/

namespace Switchyard.Text

/-- The first character of a name: an ASCII letter or an underscore. -/
def isNameStart (c : Char) : Bool :=
  c.isAlpha || c == '_'

/-- A later character of a name: an ASCII letter, an ASCII digit or an underscore. -/
def isNameChar (c : Char) : Bool :=
  c.isAlphanum || c == '_'

/-- An ASCII decimal digit. -/
def isDigit (c : Char) : Bool :=
  c.isDigit

/-- The character that stands for all those that equal `c` when case is disregarded, among the
characters that fold to ASCII. -/
def fold (c : Char) : Char :=
  if c = '\u0130' ∨ c = '\u0131' then 'i'
  else if c = '\u017f' then 's'
  else if c = '\u212a' then 'k'
  else c.toLower

/-- The first character of a name when case is disregarded. -/
def isLooseNameStart (c : Char) : Bool :=
  isNameStart (fold c)

/-- A later character of a name when case is disregarded. -/
def isLooseNameChar (c : Char) : Bool :=
  isNameChar (fold c)

/-- The lower-case form of a name's character. The dotted capital I becomes an `i` with a
combining dot above; every character outside the names' alphabet is left as it is. -/
def lowerChar (c : Char) : List Char :=
  if c = '\u0130' then ['i', '\u0307']
  else if c = '\u212a' then ['k']
  else [c.toLower]

/-- The lower-case form of a name. -/
def lower (s : String) : String :=
  String.ofList (s.toList.flatMap lowerChar)

/-- What follows `word` in a text that begins with it, case disregarded. The word is given in
lower case. -/
def dropWord? : List Char → List Char → Option (List Char)
  | [], cs => some cs
  | _ :: _, [] => none
  | w :: word, c :: cs => if fold c = w then dropWord? word cs else none

/-- Whether `word`, given in lower case, occurs somewhere in a text, case disregarded. -/
def mentions (word : List Char) : List Char → Bool
  | [] => word.isEmpty
  | c :: cs => (dropWord? word (c :: cs)).isSome || mentions word cs

end Switchyard.Text
