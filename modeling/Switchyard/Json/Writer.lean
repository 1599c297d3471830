import Switchyard.Json.Value

/-!
# Writing JSON

Documents are written with one member or item a line, indented by two spaces for each level, and
with every character outside printable ASCII escaped; empty lists and objects stay on one line. The
compact form has no blanks at all.
-/

namespace Switchyard.Json

/-- The escape of one UTF-16 unit. -/
def unitEscape (n : Nat) : List Char :=
  [Text.backslash, 'u'] ++ Text.hex 4 n

/-- How a code point stands in a string. -/
def writePoint (n : Nat) : List Char :=
  let c := Char.ofNat n
  if c = Text.doubleQuote ∨ c = Text.backslash then [Text.backslash, c]
  else if 0x20 ≤ n ∧ n ≤ 0x7E then [c]
  else if n = 0x0A then [Text.backslash, 'n']
  else if n = 0x0D then [Text.backslash, 'r']
  else if n = 0x09 then [Text.backslash, 't']
  else if n = 0x0C then [Text.backslash, 'f']
  else if n = 0x08 then [Text.backslash, 'b']
  else if n < 0x10000 then unitEscape n
  else unitEscape (0xD800 + (n - 0x10000) / 0x400) ++ unitEscape (0xDC00 + (n - 0x10000) % 0x400)

/-- A string between quotes. -/
def writeString (s : String) : String :=
  String.ofList (Text.doubleQuote :: (Text.codePoints s).flatMap writePoint ++ [Text.doubleQuote])

/-- A number that is not whole, or one of the three that are no decimal. -/
def writeReal (x : Binary64) : String :=
  if x.isNaN then "NaN"
  else if x.isInfinite then if x.isNegative then "-Infinity" else "Infinity"
  else x.text

/-- The line break before an entry at the given depth. -/
def breakLine (depth : Nat) : String :=
  String.ofList ('\n' :: List.replicate (2 * depth) ' ')

/-- Entries at the given depth, each on a line of its own. -/
def entriesAt (depth : Nat) (entries : List String) : String :=
  breakLine depth ++ ("," ++ breakLine depth).intercalate entries

mutual

/-- A value at the given depth of a document. -/
def writeAt (depth : Nat) : Json → String
  | .null => "null"
  | .bool true => "true"
  | .bool false => "false"
  | .int n => toString n
  | .real x => writeReal x
  | .str s => writeString s
  | .arr [] => "[]"
  | .arr (item :: items) =>
    "[" ++ entriesAt (depth + 1) (writeItems (depth + 1) (item :: items)) ++ breakLine depth ++ "]"
  | .obj [] => "\x7b\x7d"
  | .obj (member :: members) =>
    "\x7b" ++ entriesAt (depth + 1) (writeMembers (depth + 1) (member :: members)) ++
      breakLine depth ++ "\x7d"

/-- The items of a list at the given depth. -/
def writeItems (depth : Nat) : List Json → List String
  | [] => []
  | item :: items => writeAt depth item :: writeItems depth items

/-- The members of an object at the given depth. -/
def writeMembers (depth : Nat) : List (String × Json) → List String
  | [] => []
  | (name, value) :: members =>
    (writeString name ++ ": " ++ writeAt depth value) :: writeMembers depth members

end

/-- A document: one entry a line, two spaces a level. -/
def pretty (value : Json) : String :=
  writeAt 0 value

mutual

/-- A value without blanks. -/
def compact : Json → String
  | .null => "null"
  | .bool true => "true"
  | .bool false => "false"
  | .int n => toString n
  | .real x => writeReal x
  | .str s => writeString s
  | .arr items => "[" ++ ",".intercalate (compactItems items) ++ "]"
  | .obj members => "\x7b" ++ ",".intercalate (compactMembers members) ++ "\x7d"

/-- The items of a list without blanks. -/
def compactItems : List Json → List String
  | [] => []
  | item :: items => item.compact :: compactItems items

/-- The members of an object without blanks. -/
def compactMembers : List (String × Json) → List String
  | [] => []
  | (name, value) :: members => (writeString name ++ ":" ++ value.compact) :: compactMembers members

end

/-- Whether a number has no more digits than are written. -/
def isWritableInt (n : Int) : Bool :=
  n.natAbs < Nat.pow 10 Text.maxDigits

mutual

/-- Whether every whole number in a value has no more digits than are written. -/
def isWritable : Json → Bool
  | .int n => isWritableInt n
  | .arr items => areWritable items
  | .obj members => membersAreWritable members
  | _ => true

/-- Whether all items of a list are writable. -/
def areWritable : List Json → Bool
  | [] => true
  | item :: items => item.isWritable && areWritable items

/-- Whether all members of an object are writable. -/
def membersAreWritable : List (String × Json) → Bool
  | [] => true
  | (_, value) :: members => value.isWritable && membersAreWritable members

end

end Switchyard.Json
