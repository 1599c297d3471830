import Switchyard.Text.Numeral

/-!
# Binary floating-point numbers of 64 bits

Positions are binary64 numbers, held as their bits. A number is read by rounding an exact fraction
to the nearest representable one, a tie going to the even significand (`ofFraction`); it is
written with the fewest significant digits that read back as the same number (`shortest?`), in
positional form for exponents from -4 to 15 and in scientific form beyond.
-/

namespace Switchyard

/-- A binary64 number, given by its bits. -/
structure Binary64 where
  bits : UInt64
deriving DecidableEq, Repr

namespace Binary64

/-- The value of the sign bit, which is above all others. -/
def signBit : Nat := 0x8000000000000000

/-- One more than the largest fraction field: the value of the leading bit of a significand, which
is not written. -/
def hiddenBit : Nat := 0x10000000000000

/-- The fraction field of the quiet not-a-number. -/
def quietBit : Nat := 0x8000000000000

/-- The number with the given sign, biased exponent and fraction field. -/
def ofFields (negative : Bool) (exponent fraction : Nat) : Binary64 :=
  ⟨UInt64.ofNat ((if negative then signBit else 0) + exponent * hiddenBit + fraction)⟩

/-- Positive or negative zero. -/
def zero (negative : Bool) : Binary64 := ofFields negative 0 0

/-- Positive or negative infinity. -/
def infinity (negative : Bool) : Binary64 := ofFields negative 2047 0

/-- The quiet not-a-number. -/
def nan : Binary64 := ofFields false 2047 quietBit

/-- The sign bit. -/
def isNegative (x : Binary64) : Bool := x.bits.toNat / signBit == 1

/-- The biased exponent. -/
def exponentField (x : Binary64) : Nat := x.bits.toNat / hiddenBit % 2048

/-- The fraction field. -/
def fractionField (x : Binary64) : Nat := x.bits.toNat % hiddenBit

/-- Whether the number is not a number. -/
def isNaN (x : Binary64) : Bool := x.exponentField == 2047 && x.fractionField != 0

/-- Whether the number is infinite. -/
def isInfinite (x : Binary64) : Bool := x.exponentField == 2047 && x.fractionField == 0

/-- The magnitude of a finite number as `m * 2 ^ q`. -/
def magnitude (x : Binary64) : Nat × Int :=
  if x.exponentField = 0 then (x.fractionField, -1074)
  else (hiddenBit + x.fractionField, (x.exponentField : Int) - 1075)

/-- The magnitude of a finite number as a fraction. -/
def magnitudeFraction (x : Binary64) : Nat × Nat :=
  let (m, q) := x.magnitude
  if 0 ≤ q then (m * Nat.pow 2 q.toNat, 1) else (m, Nat.pow 2 (-q).toNat)

/-- The number nearest to `num / den`, a tie going to the even significand; infinite when it is too
large. -/
def ofFraction (negative : Bool) (num den : Nat) : Binary64 :=
  if num = 0 then zero negative
  else
    -- `2 ^ (e - 1) < num / den < 2 ^ (e + 1)`
    let e : Int := (num.log2 : Int) - den.log2
    let scaled (q : Int) : Nat × Nat :=
      if 0 ≤ q then (num, den * Nat.pow 2 q.toNat) else (num * Nat.pow 2 (-q).toNat, den)
    let low : Int := max (e - 53) (-1074)
    let q : Int := if 2 * hiddenBit * (scaled low).2 ≤ (scaled low).1 then low + 1 else low
    let (n, d) := scaled q
    let floor := n / d
    let twice := 2 * (n % d)
    let m := if d < twice ∨ (d = twice ∧ floor % 2 = 1) then floor + 1 else floor
    let (m, q) := if m = 2 * hiddenBit then (hiddenBit, q + 1) else (m, q)
    if m < hiddenBit then ofFields negative 0 m
    else if 971 < q then infinity negative
    else ofFields negative (q + 1075).toNat (m - hiddenBit)

/-- The number nearest to `m * 10 ^ e`. Exponents so far out that the number is infinite or zero
are settled before any power is formed. -/
def ofDecimal (negative : Bool) (m : Nat) (e : Int) : Binary64 :=
  if m = 0 then zero negative
  else
    let digits : Int := (Nat.toDigits 10 m).length
    if 310 < digits + e then infinity negative
    else if digits + e < -330 then zero negative
    else if 0 ≤ e then ofFraction negative (m * Nat.pow 10 e.toNat) 1
    else ofFraction negative m (Nat.pow 10 (-e).toNat)

/-- The number nearest to an integer; `none` when it is too large. -/
def ofInt? (n : Int) : Option Binary64 :=
  let x := ofFraction (n < 0) n.natAbs 1
  if x.isInfinite then none else some x

/-- The integer part of a finite number, toward zero. -/
def truncate (x : Binary64) : Int :=
  let (n, d) := x.magnitudeFraction
  if x.isNegative then -((n / d : Nat) : Int) else (n / d : Nat)

/-- Whether a finite number is an integer. -/
def isWhole (x : Binary64) : Bool :=
  let (n, d) := x.magnitudeFraction
  n % d == 0

/-- The two decimals with `count` significant digits around a positive finite number, as digits
and exponent of the last digit, the nearer one first; a tie puts the even one first. -/
def neighbours (x : Binary64) (decimalExponent : Int) (count : Nat) : List (Nat × Int) :=
  let (n, d) := x.magnitudeFraction
  let e : Int := decimalExponent - count + 1
  let (n, d) := if 0 ≤ e then (n, d * Nat.pow 10 e.toNat) else (n * Nat.pow 10 (-e).toNat, d)
  let floor := n / d
  let twice := 2 * (n % d)
  if d < twice ∨ (d = twice ∧ floor % 2 = 1) then [(floor + 1, e), (floor, e)]
  else [(floor, e), (floor + 1, e)]

/-- The exponent of the leading decimal digit of a positive finite number. -/
def decimalExponent (x : Binary64) : Int :=
  let (n, d) := x.magnitudeFraction
  if d ≤ n then ((Nat.toDigits 10 (n / d)).length : Int) - 1
  else
    -- the least `k` with `d ≤ n * 10 ^ k`
    let k := (List.range 330).find? (fun k => d ≤ n * Nat.pow 10 k)
    Int.negOfNat (k.getD 330)

/-- The fewest significant digits that read back as the given positive finite number, nearest
first, with the exponent of the last digit. -/
def shortest? (x : Binary64) : Option (Nat × Int) :=
  (List.range 17).findSome? (fun k =>
    (x.neighbours x.decimalExponent (k + 1)).find? (fun (m, e) => ofDecimal false m e == ⟨x.bits⟩))

/-- Digits without the zeros they end with, and how many were dropped. -/
def dropZeros (ds : List Char) : List Char × Nat :=
  let kept := (ds.reverse.dropWhile (· == '0')).reverse
  (kept, ds.length - kept.length)

/-- A number written out: the fewest digits that read back; positional with at least one place for
exponents from -4 to 15, else scientific with at least two exponent digits. -/
def text (x : Binary64) : String :=
  let sign := if x.isNegative then "-" else ""
  if x.isNaN then "nan"
  else if x.isInfinite then sign ++ "inf"
  else
    let plain : Binary64 := ⟨UInt64.ofNat (x.bits.toNat % signBit)⟩
    match plain.shortest? with
    | none => sign ++ "0.0"
    | some (0, _) => sign ++ "0.0"
    | some (m, e) =>
      let (ds, dropped) := dropZeros (Nat.toDigits 10 m)
      let e := e + dropped
      let point : Int := ds.length + e
      let body :=
        if -4 < point ∧ point ≤ 16 then
          if point ≤ 0 then "0." ++ String.ofList (List.replicate (-point).toNat '0' ++ ds)
          else if 0 ≤ e then String.ofList (ds ++ List.replicate e.toNat '0') ++ ".0"
          else String.ofList (ds.take point.toNat) ++ "." ++ String.ofList (ds.drop point.toNat)
        else
          let exponent := point - 1
          let digits := Nat.toDigits 10 exponent.natAbs
          let padded := if digits.length < 2 then '0' :: digits else digits
          let fraction := if 1 < ds.length then "." ++ String.ofList (ds.drop 1) else ""
          String.ofList (ds.take 1) ++ fraction ++ (if exponent < 0 then "e-" else "e+") ++
            String.ofList padded
      sign ++ body

/-- The sixteen hexadecimal digits of the bits. -/
def hexBits (x : Binary64) : List Char :=
  (List.range 16).map (fun i =>
    let d := x.bits.toNat / Nat.pow 16 (15 - i) % 16
    Char.ofNat (if d < 10 then 48 + d else 87 + d))

/-- The digits before and after the point and the exponent of an unsigned decimal numeral in ASCII,
in which single underscores may stand between digits; at least one digit is on one side of the
point. -/
def decimal? (cs : List Char) : Option (List Char × List Char × Int) :=
  let run (c : Char) : Bool := Text.isDigit c || c == '_'
  let digits? (ds : List Char) : Option (List Char) :=
    if ds.isEmpty then some [] else Text.groupedDigits? ds
  let (whole, rest) := cs.span run
  let (fraction, rest) :=
    match rest with
    | '.' :: rest => rest.span run
    | rest => ([], rest)
  let exponent? : Option Int :=
    match rest with
    | [] => some 0
    | c :: rest =>
      if c = 'e' ∨ c = 'E' then
        match rest with
        | '-' :: ds => (Text.groupedDigits? ds).map (fun ds => -(Text.ofDigits ds : Int))
        | '+' :: ds => (Text.groupedDigits? ds).map (fun ds => (Text.ofDigits ds : Int))
        | ds => (Text.groupedDigits? ds).map (fun ds => (Text.ofDigits ds : Int))
      else none
  match digits? whole, digits? fraction, exponent? with
  | some w, some f, some e => if w.isEmpty && f.isEmpty then none else some (w, f, e)
  | _, _, _ => none

/-- The number that a text denotes: a decimal numeral, an infinity or a not-a-number, with blanks
around it and a sign. -/
def ofText? (s : String) : Option Binary64 :=
  let (negative, body) :=
    match Text.plainNumber s with
    | '-' :: rest => (true, rest)
    | '+' :: rest => (false, rest)
    | rest => (false, rest)
  let word := String.ofList (body.map Char.toLower)
  if word = "inf" ∨ word = "infinity" then some (infinity negative)
  else if word = "nan" then some (ofFields negative 2047 quietBit)
  else
    (decimal? body).map (fun (w, f, e) => ofDecimal negative (Text.ofDigits (w ++ f)) (e - f.length))

end Binary64

end Switchyard
