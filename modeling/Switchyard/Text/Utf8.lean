import Switchyard.Text.Quoted

/-!
# Bytes and text

Files are read as UTF-8. The decoder goes through the bytes one at a time; where it meets a byte
that no text can have there, it says which bytes belong to the broken character and why. After
decoding, the three line endings are made one.
-/

namespace Switchyard.Text

/-- Why bytes are not UTF-8. -/
inductive Utf8Reason where
  /-- A byte that begins no character. -/
  | invalidStart
  /-- A byte that cannot continue the character begun before it. -/
  | invalidContinuation
  /-- The bytes end within a character. -/
  | unexpectedEnd
deriving DecidableEq, Repr

/-- The place where decoding stopped: the bytes from `start` up to `stop` are those of the broken
character, and `first` is the first of them. -/
structure Utf8Fault where
  start : Nat
  stop : Nat
  first : Nat
  reason : Utf8Reason
deriving DecidableEq, Repr

/-- The wording of a reason. -/
def Utf8Reason.message : Utf8Reason → String
  | .invalidStart => "invalid start byte"
  | .invalidContinuation => "invalid continuation byte"
  | .unexpectedEnd => "unexpected end of data"

/-- The wording of a fault: one byte is shown with its value, more only by their places. -/
def Utf8Fault.message (fault : Utf8Fault) : String :=
  let reason := fault.reason.message
  if fault.stop = fault.start + 1 then
    "'utf-8' codec can't decode byte 0x" ++ String.ofList (hex 2 fault.first) ++
      s!" in position {fault.start}: {reason}"
  else
    s!"'utf-8' codec can't decode bytes in position {fault.start}-{fault.stop - 1}: {reason}"

/-- What a byte begins: how many bytes follow it, the range of the next one, and the bits it
contributes. A character of several bytes has its value in the low bits of each. -/
def leadByte? (b : Nat) : Option (Nat × Nat × Nat × Nat) :=
  if b < 0x80 then some (0, 0x80, 0xBF, b)
  else if 0xC2 ≤ b ∧ b ≤ 0xDF then some (1, 0x80, 0xBF, b - 0xC0)
  else if b = 0xE0 then some (2, 0xA0, 0xBF, 0)
  else if b = 0xED then some (2, 0x80, 0x9F, 0xD)
  else if 0xE1 ≤ b ∧ b ≤ 0xEF then some (2, 0x80, 0xBF, b - 0xE0)
  else if b = 0xF0 then some (3, 0x90, 0xBF, 0)
  else if 0xF1 ≤ b ∧ b ≤ 0xF3 then some (3, 0x80, 0xBF, b - 0xF0)
  else if b = 0xF4 then some (3, 0x80, 0x8F, 4)
  else none

/-- A character that has begun: where and with which byte, how many bytes it still needs, the range
of the next one, and its value so far. -/
structure Utf8Partial where
  start : Nat
  first : Nat
  owed : Nat
  low : Nat
  high : Nat
  value : Nat

/-- Decode the bytes from position `at` on, with a character possibly begun. -/
def decodeFrom : (place : Nat) → Option Utf8Partial → List UInt8 → Except Utf8Fault (List Char)
  | _, none, [] => .ok []
  | place, some p, [] => .error ⟨p.start, place, p.first, .unexpectedEnd⟩
  | place, none, byte :: bytes =>
    let b := byte.toNat
    match leadByte? b with
    | none => .error ⟨place, place + 1, b, .invalidStart⟩
    | some (0, _, _, value) => (decodeFrom (place + 1) none bytes).map (Char.ofNat value :: ·)
    | some (owed, low, high, value) =>
      decodeFrom (place + 1) (some ⟨place, b, owed, low, high, value⟩) bytes
  | place, some p, byte :: bytes =>
    let b := byte.toNat
    if p.low ≤ b ∧ b ≤ p.high then
      let value := p.value * 0x40 + (b - 0x80)
      if p.owed ≤ 1 then (decodeFrom (place + 1) none bytes).map (Char.ofNat value :: ·)
      else decodeFrom (place + 1) (some ⟨p.start, p.first, p.owed - 1, 0x80, 0xBF, value⟩) bytes
    else .error ⟨p.start, place, p.first, .invalidContinuation⟩

/-- The characters that bytes encode. -/
def decodeUtf8 (bytes : List UInt8) : Except Utf8Fault String :=
  (decodeFrom 0 none bytes).map String.ofList

/-- A text with every line ending, be it a line feed, a carriage return or both, made a line
feed. -/
def unifyLineEnds : List Char → List Char
  | [] => []
  | '\r' :: '\n' :: cs => '\n' :: unifyLineEnds cs
  | '\r' :: cs => '\n' :: unifyLineEnds cs
  | c :: cs => c :: unifyLineEnds cs

end Switchyard.Text
