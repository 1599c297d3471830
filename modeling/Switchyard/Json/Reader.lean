import Switchyard.Json.Value

/-!
# Reading JSON

A reader for whole documents that says where a text stops being JSON and what was expected there.
Beside the standard's values it reads the names `NaN`, `Infinity` and `-Infinity`. Strings may hold
every character but the control characters below U+0020, and the escapes of a surrogate pair denote
one character; half a pair is held as `Text.hold` says. The text that is read is made of characters.
-/

namespace Switchyard.Json

/-- What is wrong with a text at the place where reading stopped. -/
inductive Cause where
  /-- No value begins here. -/
  | value
  /-- A member's name was to begin here. -/
  | memberName
  /-- A colon was to stand between a name and its value. -/
  | colon
  /-- A comma was to stand between two entries. -/
  | comma
  /-- The document has ended and the text has not. -/
  | extraData
  /-- A string begins here and does not end. -/
  | unterminated
  /-- A control character within a string. -/
  | controlCharacter
  /-- A backslash with a character that makes no escape. -/
  | badEscape
  /-- A numbered escape without four hexadecimal digits. -/
  | badUnitEscape
  /-- A byte order mark before the document. -/
  | byteOrderMark
deriving DecidableEq, Repr

/-- Why a text was not read. -/
inductive Fault where
  /-- The text is not JSON; the place counts the characters before it. -/
  | malformed (cause : Cause) (place : Nat)
  /-- A whole number has more digits than are read. -/
  | numeralTooLong (digits : Nat)
  /-- Lists and objects are nested too deeply. -/
  | tooDeep
deriving DecidableEq, Repr

/-- The wording of a cause. -/
def Cause.message : Cause → String
  | .value => "Expecting value"
  | .memberName => "Expecting property name enclosed in double quotes"
  | .colon => "Expecting ':' delimiter"
  | .comma => "Expecting ',' delimiter"
  | .extraData => "Extra data"
  | .unterminated => "Unterminated string starting at"
  | .controlCharacter => "Invalid control character at"
  | .badEscape => "Invalid \\escape"
  | .badUnitEscape => "Invalid \\uXXXX escape"
  | .byteOrderMark => "Unexpected UTF-8 BOM (decode using utf-8-sig)"

/-- The wording of a cause at a place of a text: lines and columns count from one. -/
def Cause.located (cause : Cause) (text : String) (place : Nat) : String :=
  let before := text.toList.take place
  let line := before.count '\n' + 1
  let column := (before.reverse.takeWhile (· != '\n')).length + 1
  s!"{cause.message}: line {line} column {column} (char {place})"

/-- The deepest nesting that is read. -/
def maxDepth : Nat := 986

/-- A place in a text and what follows it. -/
structure Cursor where
  place : Nat
  rest : List Char

/-- The cursor behind the first `n` characters. -/
def Cursor.skip (c : Cursor) (n : Nat) : Cursor :=
  ⟨c.place + n, c.rest.drop n⟩

/-- The blanks between the parts of a document. -/
def isSpace (c : Char) : Bool :=
  c == ' ' || c == '\t' || c == '\n' || c == '\r'

/-- The cursor behind the blanks that follow it. -/
def Cursor.skipSpaces (c : Cursor) : Cursor :=
  c.skip (c.rest.takeWhile isSpace).length

/-- The value of a hexadecimal digit. -/
def hexValue? (c : Char) : Option Nat :=
  if '0' ≤ c ∧ c ≤ '9' then some (c.toNat - 48)
  else if 'a' ≤ c ∧ c ≤ 'f' then some (c.toNat - 87)
  else if 'A' ≤ c ∧ c ≤ 'F' then some (c.toNat - 55)
  else none

/-- The UTF-16 unit that four hexadecimal digits denote. -/
def unit? : List Char → Option Nat
  | [a, b, c, d] => do
    let a ← hexValue? a
    let b ← hexValue? b
    let c ← hexValue? c
    let d ← hexValue? d
    return ((a * 16 + b) * 16 + c) * 16 + d
  | _ => none

/-- The character of an escape by letter. -/
def letterEscape? (c : Char) : Option Char :=
  if c = Text.doubleQuote then some Text.doubleQuote
  else if c = Text.backslash then some Text.backslash
  else if c = '/' then some '/'
  else if c = 'b' then some '\x08'
  else if c = 'f' then some '\x0c'
  else if c = 'n' then some '\n'
  else if c = 'r' then some '\r'
  else if c = 't' then some '\t'
  else none

/-- The escape by number at a cursor that stands before the letter `u`: its code point, and the
cursor behind it. A text that ends right after the digits ends too early. -/
def unitEscape? (c : Cursor) : Except Fault (Nat × Cursor) :=
  let after := c.skip 5
  match unit? ((c.rest.drop 1).take 4), after.rest with
  | none, _ | _, [] => .error (.malformed .badUnitEscape c.place)
  | some high, b :: u :: rest =>
    if 0xD800 ≤ high ∧ high ≤ 0xDBFF ∧ b = Text.backslash ∧ u = 'u' ∧ 4 < rest.length then
      match unit? (rest.take 4) with
      | none => .error (.malformed .badUnitEscape (after.place + 1))
      | some low =>
        if 0xDC00 ≤ low ∧ low ≤ 0xDFFF then
          .ok (0x10000 + (high - 0xD800) * 0x400 + (low - 0xDC00), after.skip 6)
        else .ok (high, after)
    else .ok (high, after)
  | some unit, [_] => .ok (unit, after)

/-- The code points of the string that began at `start`, and the cursor behind its closing quote.
The fuel bounds the characters read. -/
def readString (start : Nat) : (fuel : Nat) → Cursor → Except Fault (List Nat × Cursor)
  | 0, _ => .error (.malformed .unterminated start)
  | fuel + 1, cursor =>
    match cursor.rest with
    | [] => .error (.malformed .unterminated start)
    | c :: rest =>
      if c = Text.doubleQuote then .ok ([], cursor.skip 1)
      else if c = Text.backslash then
        match rest with
        | [] => .error (.malformed .unterminated start)
        | e :: _ =>
          if e = 'u' then do
            let (n, next) ← unitEscape? (cursor.skip 1)
            let (ns, next) ← readString start fuel next
            return (n :: ns, next)
          else
            match letterEscape? e with
            | none => .error (.malformed .badEscape cursor.place)
            | some ch => do
              let (ns, next) ← readString start fuel (cursor.skip 2)
              return (ch.toNat :: ns, next)
      else if c.toNat < 0x20 then .error (.malformed .controlCharacter cursor.place)
      else do
        let (ns, next) ← readString start fuel (cursor.skip 1)
        return (c.toNat :: ns, next)

/-- The fraction after a whole part: the digits behind a point, at least one. -/
def fractionDigits (cs : List Char) : List Char :=
  match cs with
  | '.' :: rest => rest.takeWhile Text.isDigit
  | _ => []

/-- The exponent after a numeral, with the number of characters it takes. -/
def exponentPart (cs : List Char) : Option (Int × Nat) :=
  match cs with
  | [] => none
  | e :: rest =>
    if e = 'e' ∨ e = 'E' then
      let (negative, signs, rest) :=
        match rest with
        | '-' :: rest => (true, 1, rest)
        | '+' :: rest => (false, 1, rest)
        | rest => (false, 0, rest)
      let ds := rest.takeWhile Text.isDigit
      if ds.isEmpty then none
      else
        let n : Int := Text.ofDigits ds
        some (if negative then -n else n, 1 + signs + ds.length)
    else none

/-- The number at a cursor. -/
def readNumber (cursor : Cursor) : Except Fault (Json × Cursor) :=
  let (negative, signs, unsigned) :=
    match cursor.rest with
    | '-' :: rest => (true, 1, rest)
    | rest => (false, 0, rest)
  let whole :=
    match unsigned with
    | '0' :: _ => ['0']
    | cs => cs.takeWhile Text.isDigit
  if whole.isEmpty then .error (.malformed .value cursor.place)
  else
    let afterWhole := cursor.skip (signs + whole.length)
    let fraction := fractionDigits afterWhole.rest
    let afterFraction :=
      if fraction.isEmpty then afterWhole else afterWhole.skip (1 + fraction.length)
    match exponentPart afterFraction.rest with
    | none =>
      if fraction.isEmpty then
        if Text.maxDigits < whole.length then .error (.numeralTooLong whole.length)
        else
          let n : Int := Text.ofDigits whole
          .ok (.int (if negative then -n else n), afterWhole)
      else
        .ok (.real (Binary64.ofDecimal negative (Text.ofDigits (whole ++ fraction))
          (-fraction.length)), afterFraction)
    | some (e, width) =>
      .ok (.real (Binary64.ofDecimal negative (Text.ofDigits (whole ++ fraction))
        (e - fraction.length)), afterFraction.skip width)

/-- The constants of the notation. -/
def constants : List (List Char × Json) := [
  ("null".toList, .null), ("true".toList, .bool true), ("false".toList, .bool false),
  ("NaN".toList, .real .nan), ("Infinity".toList, .real (.infinity false)),
  ("-Infinity".toList, .real (.infinity true))]

mutual

/-- The value at a cursor, `depth` levels down. -/
def readValue : (fuel : Nat) → (depth : Nat) → Cursor → Except Fault (Json × Cursor)
  | 0, _, cursor => .error (.malformed .value cursor.place)
  | fuel + 1, depth, cursor =>
    match cursor.rest with
    | [] => .error (.malformed .value cursor.place)
    | c :: rest =>
      if c = Text.doubleQuote then do
        let (ns, next) ← readString cursor.place (rest.length + 1) (cursor.skip 1)
        return (.str (Text.ofCodePoints ns), next)
      else if c = '[' then
        if maxDepth ≤ depth then .error .tooDeep
        else
          let inner := (cursor.skip 1).skipSpaces
          match inner.rest with
          | ']' :: _ => .ok (.arr [], inner.skip 1)
          | _ => do
            let (items, next) ← readItems fuel (depth + 1) inner
            return (.arr items, next)
      else if c = '\x7b' then
        if maxDepth ≤ depth then .error .tooDeep
        else
          let inner := (cursor.skip 1).skipSpaces
          match inner.rest with
          | '\x7d' :: _ => .ok (.obj [], inner.skip 1)
          | _ => do
            let (members, next) ← readMembers fuel (depth + 1) [] inner
            return (.obj members, next)
      else
        match constants.find? (fun entry => entry.1.isPrefixOf cursor.rest) with
        | some (name, value) => .ok (value, cursor.skip name.length)
        | none => readNumber cursor

/-- The items of a list, the first of them at the cursor. -/
def readItems : (fuel : Nat) → (depth : Nat) → Cursor → Except Fault (List Json × Cursor)
  | 0, _, cursor => .error (.malformed .value cursor.place)
  | fuel + 1, depth, cursor => do
    let (item, next) ← readValue fuel depth cursor
    let next := next.skipSpaces
    match next.rest with
    | ']' :: _ => return ([item], next.skip 1)
    | ',' :: _ => do
      let (items, next) ← readItems fuel depth (next.skip 1).skipSpaces
      return (item :: items, next)
    | _ => .error (.malformed .comma next.place)

/-- The members of an object after those already read, the next of them at the cursor. -/
def readMembers : (fuel : Nat) → (depth : Nat) → List (String × Json) → Cursor →
    Except Fault (List (String × Json) × Cursor)
  | 0, _, _, cursor => .error (.malformed .value cursor.place)
  | fuel + 1, depth, members, cursor =>
    match cursor.rest with
    | [] => .error (.malformed .memberName cursor.place)
    | c :: rest =>
      if c ≠ Text.doubleQuote then .error (.malformed .memberName cursor.place)
      else do
        let (name, next) ← readString cursor.place (rest.length + 1) (cursor.skip 1)
        let next := next.skipSpaces
        match next.rest with
        | ':' :: _ => do
          let (value, next) ← readValue fuel depth (next.skip 1).skipSpaces
          let members := Assoc.put (Text.ofCodePoints name) value members
          let next := next.skipSpaces
          match next.rest with
          | '\x7d' :: _ => return (members, next.skip 1)
          | ',' :: _ => readMembers fuel depth members (next.skip 1).skipSpaces
          | _ => .error (.malformed .comma next.place)
        | _ => .error (.malformed .colon next.place)

end

/-- The value that a whole text denotes. -/
def parse (text : String) : Except Fault Json :=
  let cs := text.toList
  if cs.head? = some '\ufeff' then .error (.malformed .byteOrderMark 0)
  else do
    let (value, next) ← readValue (2 * cs.length + 2) 0 (Cursor.mk 0 cs).skipSpaces
    let next := next.skipSpaces
    if next.rest.isEmpty then return value else .error (.malformed .extraData next.place)

end Switchyard.Json
