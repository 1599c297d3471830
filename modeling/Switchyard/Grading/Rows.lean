import Switchyard.Json.Integer

/-!
# The rows of a table

The rows that a circuit is graded by form a rectangle of signed 64-bit numbers whose width is that
of the table. A library of arrays reads them. What is relied on of it is collected in `Arrays`: how
it reads lists of lists of numbers, and how it puts the bits of a row together. Rows that it refuses
and a wrong width are faults, in this order. A rectangle without any number in it has no rows.
-/

namespace Switchyard.Grading

/-- Why rows are refused. -/
inductive RowsFault where
  | notRectangular
  /-- A value is no number. -/
  | notNumber
  /-- A number does not fit into 64 bits. -/
  | tooLarge
  /-- The rectangle has another shape than asked for. -/
  | wrongShape (width : Nat) (shape : List Nat)
deriving DecidableEq, Repr

/-- A shape in parentheses; one length alone is followed by a comma. -/
def shapeText : List Nat → String
  | [n] => s!"({n},)"
  | shape => "(" ++ ", ".intercalate (shape.map toString) ++ ")"

/-- The wording of a fault, for those that have one. -/
def RowsFault.message? : RowsFault → Option String
  | .notRectangular => some "Truth table rows are not rectangular"
  | .wrongShape width shape =>
    some s!"Truth table rows must have {width} values (inputs then outputs), got shape {shapeText shape}"
  | .notNumber | .tooLarge => none

/-- Whether a number fits into a signed word of 64 bits. -/
def fitsWord (n : Int) : Bool :=
  -0x8000000000000000 ≤ n && n < 0x8000000000000000

/-- Whether all rows have one length. -/
def isRectangular : List (List Int) → Bool
  | [] => true
  | row :: rows => rows.all (·.length = row.length)

/-- Rows of numbers as a list of lists. -/
def rowsJson (rows : List (List Int)) : Json :=
  .arr (rows.map (fun row => .arr (row.map .int)))

/-- A grid of numbers: its length along each axis, and the numbers in it in order, the place on the
last axis changing first. -/
structure Grid where
  shape : List Nat
  numbers : List Int
deriving DecidableEq, Repr

/-- What grading relies on of a library of arrays. -/
structure Arrays where
  /-- The grid of 64-bit words that a value is read as. -/
  read : Json → Except RowsFault Grid
  /-- The bits of a row put together by a connective, which starts from a given bit. -/
  reduce : (Bool → Bool → Bool) → Bool → List Bool → Bool
  /-- A list without rows is a grid of one axis. -/
  read_nil : read (rowsJson []) = .ok ⟨[0], []⟩
  /-- Rows of words of one length are a grid of two axes. -/
  read_rows : ∀ {row : List Int} {rows : List (List Int)}, isRectangular (row :: rows) = true →
    (row :: rows).all (·.all fitsWord) = true →
    read (rowsJson (row :: rows)) = .ok ⟨[rows.length + 1, row.length], (row :: rows).flatten⟩
  /-- Rows of different lengths are refused, whatever is in them. -/
  read_ragged : ∀ {rows : List (List Int)}, isRectangular rows = false →
    read (rowsJson rows) = .error .notRectangular
  /-- So are numbers that are no words. -/
  read_tooLarge : ∀ {rows : List (List Int)}, isRectangular rows = true →
    rows.all (·.all fitsWord) = false → read (rowsJson rows) = .error .tooLarge
  /-- The bits are taken from the first to the last. -/
  reduce_eq : ∀ (op : Bool → Bool → Bool) (start : Bool) (bits : List Bool),
    reduce op start bits = bits.foldl op start

/-- Numbers cut into rows of one length. -/
def cutRows (width : Nat) : (count : Nat) → List Int → List (List Int)
  | 0, _ => []
  | count + 1, ns => ns.take width :: cutRows width count (ns.drop width)

/-- The rows that a value holds, if it is read as a grid of the given width. -/
def rowsOf (arrays : Arrays) (width : Nat) (value : Json) :
    Except RowsFault (List (List Int)) := do
  let grid ← arrays.read value
  if grid.shape.contains 0 then return []
  match grid.shape with
  | [count, length] =>
    if length = width then return cutRows width count grid.numbers
    else throw (.wrongShape width grid.shape)
  | _ => throw (.wrongShape width grid.shape)

/-- The rows of a table, if they are read as a grid of the given width. -/
def checkRows (arrays : Arrays) (width : Nat) (rows : List (List Int)) :
    Except RowsFault (List (List Int)) :=
  rowsOf arrays width (rowsJson rows)

end Switchyard.Grading
