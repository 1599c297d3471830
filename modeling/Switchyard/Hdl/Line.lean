import Switchyard.Text.Blank
import Switchyard.Text.Letter
import Switchyard.Text.Numeral

/-!
# Lines and their statements

A gate program has one statement a line. A line is significant if something is left of it after
trimming and that does not begin with a number sign. There are two statements:

* `wire name`, `wire name[width]` or `wire name[high:low]` declares a wire (`wireDecl?`);
* `type name (input: operands; output: operands)` places a gate (`gateInst?`).

Keywords and declared names disregard case. The operands are kept as text here; they are cut at the
commas by `operands`.
-/

namespace Switchyard.Hdl

open Text

/-- A significant line, trimmed, with its number counted from one. -/
structure Line where
  number : Nat
  chars : List Char
deriving DecidableEq, Repr

/-- The text of a line. -/
def Line.text (line : Line) : String :=
  String.ofList line.chars

/-- Whether a trimmed line holds a statement: it is neither empty nor a comment. -/
def isSignificant : List Char → Bool
  | [] => false
  | c :: _ => c != '#'

/-- The significant ones of some lines, the first of which has the given number. -/
def significantFrom : (number : Nat) → List (List Char) → List Line
  | _, [] => []
  | number, raw :: rest =>
    if isSignificant (trim raw) then ⟨number, trim raw⟩ :: significantFrom (number + 1) rest
    else significantFrom (number + 1) rest

/-- The significant lines of a program text. -/
def significantLines (text : List Char) : List Line :=
  significantFrom 1 (split '\n' text)

/-- The operands of a list: the pieces between commas, trimmed, without the empty ones. -/
def operands (cs : List Char) : List (List Char) :=
  ((split ',' cs).map trim).filter (!·.isEmpty)

/-- How wide a wire is declared to be. The numbers are kept as the digits they are written with. -/
inductive Span where
  /-- One bit. -/
  | single
  /-- The given number of bits. -/
  | width (bits : List Char)
  /-- The bits from the high one down to the low one. -/
  | range (high low : List Char)
deriving DecidableEq, Repr

/-- The width that a span denotes. A range whose high bit is below its low bit is not rejected, so
its width may be zero or negative. -/
def Span.bits : Span → Int
  | .single => 1
  | .width n => ofDigits n
  | .range high low => ofDigits high - ofDigits low + 1

/-- The numbers that a span is written with, in the order in which they are read. -/
def Span.numerals : Span → List (List Char)
  | .single => []
  | .width n => [n]
  | .range high low => [high, low]

/-- A wire declaration as it stands on a line. -/
structure WireDecl where
  name : List Char
  span : Span
deriving DecidableEq, Repr

/-- A gate as it stands on a line, the operand lists still uncut. -/
structure GateInst where
  kind : List Char
  name : List Char
  inputs : List Char
  outputs : List Char
deriving DecidableEq, Repr

/-- What follows a given character. -/
def dropChar? (c : Char) : List Char → Option (List Char)
  | [] => none
  | c' :: rest => if c' = c then some rest else none

/-- What follows one or more blanks. -/
def dropBlanks? : List Char → Option (List Char)
  | [] => none
  | c :: rest => if isBlank c then some (trimLeft rest) else none

/-- The longest run at the beginning of a text that starts with a `first` character and goes on with
`later` ones, with what follows it. -/
def takeRun? (first later : Char → Bool) : List Char → Option (List Char × List Char)
  | [] => none
  | c :: rest =>
    if first c then some (c :: rest.takeWhile later, rest.dropWhile later) else none

/-- The declared name at the beginning of a text, with what follows it; case is disregarded. -/
def takeName? (cs : List Char) : Option (List Char × List Char) :=
  takeRun? isLooseNameStart isLooseNameChar cs

/-- The number at the beginning of a text, with what follows it. -/
def takeNumber? (cs : List Char) : Option (List Char × List Char) :=
  let ds := cs.takeWhile isDigit
  if ds.isEmpty then none else some (ds, cs.dropWhile isDigit)

/-- The nonempty text before the first occurrence of a character, with what follows that
occurrence. -/
def takeUntil? (stop : Char) (cs : List Char) : Option (List Char × List Char) :=
  let before := cs.takeWhile (· != stop)
  if before.isEmpty then none
  else (dropChar? stop (cs.dropWhile (· != stop))).map (before, ·)

/-- The span at the end of a declaration. -/
def span? : List Char → Option Span
  | [] => some .single
  | '[' :: rest => do
    let (high, rest) ← takeNumber? rest
    match rest with
    | [']'] => return .width high
    | ':' :: rest =>
      let (low, rest) ← takeNumber? rest
      match rest with
      | [']'] => return .range high low
      | _ => none
    | _ => none
  | _ => none

/-- The wire declaration that a trimmed line holds. -/
def wireDecl? (line : List Char) : Option WireDecl := do
  let rest ← dropWord? "wire".toList line
  let rest ← dropBlanks? rest
  let (name, rest) ← takeName? rest
  let span ← span? rest
  return ⟨name, span⟩

/-- The gate that a trimmed line holds. The operand texts reach up to the first semicolon and the
first closing parenthesis, and the latter ends the line. -/
def gateInst? (line : List Char) : Option GateInst := do
  let (kind, rest) ← takeName? line
  let rest ← dropBlanks? rest
  let (name, rest) ← takeName? rest
  let rest ← dropChar? '(' (trimLeft rest)
  let rest ← dropWord? "input:".toList (trimLeft rest)
  let (inputs, rest) ← takeUntil? ';' rest
  let rest ← dropWord? "output:".toList (trimLeft rest)
  let (outputs, rest) ← takeUntil? ')' rest
  if rest.isEmpty then return ⟨kind, name, inputs, outputs⟩ else none

/-- Whether a text begins with two names with blanks between them, as a gate does. -/
def looksLikeGate (line : List Char) : Bool :=
  match line with
  | c :: rest =>
    isNameStart c &&
      match rest.dropWhile isNameChar with
      | b :: rest =>
        isBlank b &&
          match trimLeft rest with
          | n :: _ => isNameStart n
          | [] => false
      | [] => false
  | [] => false

/-- Whether a text begins with the word `wire` in any case and a space. -/
def looksLikeWire (line : List Char) : Bool :=
  match line with
  | w :: i :: r :: e :: ' ' :: _ =>
    [w, i, r, e].map Char.toLower == "wire".toList
  | _ => false

/-- What a bit suffix leaves of a text: `[3]` or `[7:0]` is dropped from its end. -/
def dropBitSuffix? (reversed : List Char) : Option (List Char) := do
  let rest ← dropChar? ']' reversed
  let (_, rest) ← takeNumber? rest
  match rest with
  | '[' :: rest => return rest
  | ':' :: rest =>
    let (_, rest) ← takeNumber? rest
    dropChar? '[' rest
  | _ => none

/-- The wire that an operand names: the operand without a bit suffix at its end, or right before a
line feed at its end. -/
def baseName (operand : List Char) : List Char :=
  match operand.reverse with
  | '\n' :: reversed =>
    match dropBitSuffix? reversed with
    | some rest => (('\n' :: rest).reverse)
    | none => operand
  | reversed =>
    match dropBitSuffix? reversed with
    | some rest => rest.reverse
    | none => operand

end Switchyard.Hdl
