import Switchyard.Text.Letter

/-!
# Numerals

A run of ASCII digits denotes a natural number. An integer given by a user may also carry blanks
around it, a sign, single underscores between digits, and the decimal digits of any script.
-/

namespace Switchyard.Text

/-- The number that a run of ASCII digits denotes. -/
def ofDigits (ds : List Char) : Nat :=
  ds.foldl (fun n d => 10 * n + (d.toNat - 48)) 0

/-- The code points of the digits zero of the Unicode decimal digits; each is followed by the
digits one to nine. -/
def decimalZeros : List Nat := [
  0x30, 0x660, 0x6F0, 0x7C0, 0x966, 0x9E6, 0xA66, 0xAE6, 0xB66, 0xBE6, 0xC66, 0xCE6, 0xD66, 0xDE6,
  0xE50, 0xED0, 0xF20, 0x1040, 0x1090, 0x17E0, 0x1810, 0x1946, 0x19D0, 0x1A80, 0x1A90, 0x1B50,
  0x1BB0, 0x1C40, 0x1C50, 0xA620, 0xA8D0, 0xA900, 0xA9D0, 0xA9F0, 0xAA50, 0xABF0, 0xFF10, 0x104A0,
  0x10D30, 0x11066, 0x110F0, 0x11136, 0x111D0, 0x112F0, 0x11450, 0x114D0, 0x11650, 0x116C0,
  0x11730, 0x118E0, 0x11950, 0x11C50, 0x11D50, 0x11DA0, 0x16A60, 0x16AC0, 0x16B50, 0x1D7CE,
  0x1D7D8, 0x1D7E2, 0x1D7EC, 0x1D7F6, 0x1E140, 0x1E2F0, 0x1E950, 0x1FBF0]

/-- The value of a decimal digit of any script. -/
def digitValue? (c : Char) : Option Nat :=
  (decimalZeros.find? (fun first => first ≤ c.toNat && c.toNat < first + 10)).map (c.toNat - ·)

/-- The blanks allowed around a number: the ASCII ones that a keyboard gives, and those outside
ASCII. The information separators are not among them. -/
def isNumberBlank (c : Char) : Bool :=
  let n := c.toNat
  (0x09 ≤ n && n ≤ 0x0D) || n == 0x20 || n == 0x85 || n == 0xA0 || n == 0x1680 ||
  (0x2000 ≤ n && n ≤ 0x200A) || n == 0x2028 || n == 0x2029 || n == 0x202F || n == 0x205F ||
  n == 0x3000

/-- A number's text without the blanks around it, with every decimal digit in ASCII. -/
def plainNumber (s : String) : List Char :=
  let core := ((s.toList.dropWhile isNumberBlank).reverse.dropWhile isNumberBlank).reverse
  core.map (fun c => ((digitValue? c).map (fun d => Char.ofNat (48 + d))).getD c)

/-- The ASCII digits of a run in which single underscores may stand between two digits. -/
def groupedDigits? : List Char → Option (List Char)
  | [] => none
  | [d] => if isDigit d then some [d] else none
  | d :: '_' :: rest => if isDigit d then (groupedDigits? rest).map (d :: ·) else none
  | d :: rest => if isDigit d then (groupedDigits? rest).map (d :: ·) else none

/-- The most digits that a numeral may have. -/
def maxDigits : Nat := 4300

/-- The wording of a numeral that has too many digits to be read. -/
def tooLongMessage (digits : Nat) : String :=
  s!"Exceeds the limit ({maxDigits} digits) for integer string conversion: value has {digits} digits; use sys.set_int_max_str_digits() to increase the limit"

/-- The wording of a number that has too many digits to be written. -/
def unwritableMessage : String :=
  s!"Exceeds the limit ({maxDigits} digits) for integer string conversion; use sys.set_int_max_str_digits() to increase the limit"

/-- Why a text is not an integer. -/
inductive NumeralFault where
  /-- It does not have the form of an integer. -/
  | malformed
  /-- It has more digits than are read. -/
  | tooLong (digits : Nat)
deriving DecidableEq, Repr

/-- The integer that a text denotes. -/
def readInteger (s : String) : Except NumeralFault Int :=
  let (negative, digits) :=
    match plainNumber s with
    | '-' :: rest => (true, rest)
    | '+' :: rest => (false, rest)
    | rest => (false, rest)
  match groupedDigits? digits with
  | none => .error .malformed
  | some ds =>
    if maxDigits < ds.length then .error (.tooLong ds.length)
    else .ok (if negative then -(ofDigits ds : Int) else ofDigits ds)

end Switchyard.Text
