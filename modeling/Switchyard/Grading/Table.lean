import Switchyard.Grading.Rows
import Switchyard.Json.Key

/-!
# Truth tables

A truth table names inputs and outputs and lists rows of numbers, each row the values of the inputs
and then those expected of the outputs. The table of a gate (`Table.ofGate`) has one row for every
assignment of bits to its inputs, in counting order with the first input as the highest bit.

The outputs in the table of a gate come from a library of arrays (`Gate.value`). What a gate is
meant to compute is said without it (`Gate.Holds`), and the two agree (`Gate.value_iff`).
-/

namespace Switchyard.Grading

/-! ## Gates -/

/-- A gate that a relay circuit can be graded against. -/
inductive Gate where
  | not
  | and
  | or
  | nand
  | nor
  | xor
deriving DecidableEq, Repr

namespace Gate

/-- Every gate, in the order of the lessons. -/
def all : List Gate := [not, and, or, nand, nor, xor]

/-- The name of a gate. -/
def name : Gate → String
  | not => "not"
  | and => "and"
  | or => "or"
  | nand => "nand"
  | nor => "nor"
  | xor => "xor"

/-- The gate of a name. -/
def ofName? (s : String) : Option Gate :=
  all.find? (·.name = s)

/-- The gate that a value names. -/
def ofJson? : Json → Option Gate
  | .str s => ofName? s
  | _ => none

/-- The output of a gate in its table. It is put together from the bits of the row; an inverter
turns the first of them round. -/
def value (arrays : Arrays) : Gate → List Bool → Bool
  | not, bits => !bits.headD false
  | and, bits => arrays.reduce Bool.and true bits
  | or, bits => arrays.reduce Bool.or false bits
  | nand, bits => !arrays.reduce Bool.and true bits
  | nor, bits => !arrays.reduce Bool.or false bits
  | xor, bits => arrays.reduce Bool.xor false bits

/-- What a gate is meant to compute: when it is high for the bits at its inputs. An inverter has one
input and is high if that is low; the others are high if all bits are high, some bit is, not all
are, none is, or an odd number of them is. -/
def Holds : Gate → List Bool → Prop
  | not, bits => bits = [false]
  | and, bits => ∀ bit ∈ bits, bit = true
  | or, bits => ∃ bit ∈ bits, bit = true
  | nand, bits => ¬ ∀ bit ∈ bits, bit = true
  | nor, bits => ¬ ∃ bit ∈ bits, bit = true
  | xor, bits => bits.count true % 2 = 1

instance decidableHolds : (gate : Gate) → (bits : List Bool) → Decidable (gate.Holds bits)
  | not, bits => inferInstanceAs (Decidable (bits = [false]))
  | and, bits => List.decidableBAll (· = true) bits
  | or, bits => List.decidableBEx (· = true) bits
  | nand, bits => @instDecidableNot _ (List.decidableBAll (· = true) bits)
  | nor, bits => @instDecidableNot _ (List.decidableBEx (· = true) bits)
  | xor, bits => inferInstanceAs (Decidable (bits.count true % 2 = 1))

/-! ### The table computes what is meant -/

/-- Bits put together by conjunction are high if all of them are, and so was the start. -/
theorem foldl_and_eq_true {start : Bool} {bits : List Bool} :
    bits.foldl Bool.and start = true ↔ start = true ∧ ∀ bit ∈ bits, bit = true := by
  induction bits generalizing start with
  | nil => simp
  | cons bit bits ih => simp [ih, and_assoc]

/-- Bits put together by disjunction are high if one of them is, or the start was. -/
theorem foldl_or_eq_true {start : Bool} {bits : List Bool} :
    bits.foldl Bool.or start = true ↔ start = true ∨ ∃ bit ∈ bits, bit = true := by
  induction bits generalizing start with
  | nil => simp
  | cons bit bits ih => simp [ih, or_assoc]

/-- Bits put together by exclusive disjunction turn the start round for every high bit. -/
theorem foldl_xor_eq_true {start : Bool} {bits : List Bool} :
    bits.foldl Bool.xor start = true ↔ (start.toNat + bits.count true) % 2 = 1 := by
  induction bits generalizing start with
  | nil => cases start <;> simp
  | cons bit bits ih =>
    rw [List.foldl_cons, ih]
    cases start <;> cases bit <;> simp <;> omega

variable {arrays : Arrays} {gate : Gate} {bits : List Bool}

/-- The output of a gate in its table is high exactly where the gate is meant to be. -/
theorem value_iff (hbits : gate = .not → bits.length = 1) :
    gate.value arrays bits = true ↔ gate.Holds bits := by
  cases gate with
  | not =>
    obtain ⟨bit, rfl⟩ := List.length_eq_one_iff.1 (hbits rfl)
    cases bit <;> simp [value, Holds]
  | and =>
    rw [value, arrays.reduce_eq, foldl_and_eq_true]
    exact and_iff_right rfl
  | or =>
    rw [value, arrays.reduce_eq, foldl_or_eq_true]
    exact or_iff_right Bool.false_ne_true
  | nand =>
    rw [value, arrays.reduce_eq, Bool.not_eq_true', ← Bool.not_eq_true, foldl_and_eq_true]
    exact not_congr (and_iff_right rfl)
  | nor =>
    rw [value, arrays.reduce_eq, Bool.not_eq_true', ← Bool.not_eq_true, foldl_or_eq_true]
    exact not_congr (or_iff_right Bool.false_ne_true)
  | xor =>
    rw [value, arrays.reduce_eq, foldl_xor_eq_true, Bool.toNat_false, Nat.zero_add]
    rfl

/-- So the table has the bit of what the gate is meant to be. -/
theorem value_eq (hbits : gate = .not → bits.length = 1) :
    gate.value arrays bits = decide (gate.Holds bits) :=
  Bool.eq_iff_iff.2 ((value_iff hbits).trans decide_eq_true_iff.symm)

end Gate

/-- A truth table. The names of its inputs and outputs are kept as they were read. -/
structure Table where
  inputs : List Json
  outputs : List Json
  rows : List (List Int)
deriving DecidableEq

/-- Why there is no table for a gate. -/
inductive TableFault where
  | unknownGate (name : Json)
  /-- An inverter with another number of inputs than one. -/
  | notUnary
  | inputCount (gate : Gate) (count : Json)
  /-- A name that cannot be looked up, or a number of inputs that is no whole number. -/
  | wrongType
deriving DecidableEq

/-- The names of the inputs of a gate with several. -/
def inputNames : List String := ["a", "b", "c", "d", "e", "f", "g", "h"]

/-- The wording of a table fault, for those that have one. -/
def TableFault.message? : TableFault → Option String
  | .unknownGate name => some s!"Unknown gate: {name.display}"
  | .notUnary => some "NOT takes exactly one input"
  | .inputCount gate count =>
    some s!"{gate.name} needs between 2 and {inputNames.length} inputs, got {count.display}"
  | .wrongType => none

/-- All assignments of a number of bits, in counting order, the first bit being the highest. -/
def assignments : (count : Nat) → List (List Bool)
  | 0 => [[]]
  | count + 1 => (assignments count).map (false :: ·) ++ (assignments count).map (true :: ·)

/-- The number of a bit. -/
def bitValue (b : Bool) : Int :=
  if b then 1 else 0

namespace Table

/-- The number of values in a row. -/
def width (table : Table) : Nat :=
  table.inputs.length + table.outputs.length

/-- The values of the inputs in a row, which is counted from either end. -/
def inputValues? (table : Table) (row : Int) : Option (List Int) :=
  (pick? table.rows row).map (·.take table.inputs.length)

/-- The values expected of the outputs in a row, which is counted from either end. -/
def expectedOutputs? (table : Table) (row : Int) : Option (List Int) :=
  (pick? table.rows row).map (·.drop table.inputs.length)

section
variable (arrays : Arrays)

/-- The row of a gate's table for an assignment. -/
def rowOf (gate : Gate) (bits : List Bool) : List Int :=
  bits.map bitValue ++ [bitValue (gate.value arrays bits)]

/-- The table of a gate whose inputs have the given names. -/
def ofInputs (gate : Gate) (inputs : List String) : Table where
  inputs := inputs.map .str
  outputs := [.str "out"]
  rows := (assignments inputs.length).map (rowOf arrays gate)

/-- The table against which circuits are graded for a gate. -/
def standard (gate : Gate) : Table :=
  if gate = .not then ofInputs arrays gate ["in"] else ofInputs arrays gate (inputNames.take 2)

/-- The table of a gate other than an inverter with the number of inputs that a value gives. -/
def ofCount (gate : Gate) (count : Json) : Except TableFault Table :=
  if !count.isNumber then .error .wrongType
  else if !(Json.int 2).numberAtMost count || !count.numberAtMost (.int inputNames.length) then
    .error (.inputCount gate count)
  else
    match count with
    | .int n => .ok (ofInputs arrays gate (inputNames.take n.toNat))
    | _ => .error .wrongType

/-- The table of a gate with a number of inputs; without a number it is the one for grading. -/
def ofGate (gate : Gate) (count : Json) : Except TableFault Table :=
  if count = .null then .ok (standard arrays gate)
  else if gate = .not then
    if count.key = .int 1 then .ok (standard arrays gate) else .error .notUnary
  else ofCount arrays gate count

/-- The table that a request for a gate by name asks for. -/
def build (name count : Json) : Except TableFault Table :=
  match Gate.ofJson? name with
  | some gate => ofGate arrays gate count
  | none => .error (if name.isScalar then .unknownGate name else .wrongType)

end

/-- A table as a JSON object. -/
def toJson (table : Table) : Json :=
  .obj [("inputs", .arr table.inputs), ("outputs", .arr table.outputs),
    ("rows", .arr (table.rows.map (fun row => .arr (row.map .int))))]

end Table

/-- What a learner is asked for to unlock a gate. -/
structure Requirement where
  gate : Gate
  title : String
  description : String
  hint : String
deriving DecidableEq, Repr

/-- What is asked for each gate. -/
def Requirement.ofGate : Gate → Requirement
  | .not => {
    gate := .not
    title := "NOT Gate"
    description := "Build an inverter using a Normally Closed (NC) relay"
    hint := "When the coil is energized, an NC relay opens its switch..." }
  | .and => {
    gate := .and
    title := "AND Gate"
    description := "Build an AND gate using two Normally Open (NO) relays in series"
    hint := "When two switches are in series, both must be closed for current to flow." }
  | .or => {
    gate := .or
    title := "OR Gate"
    description := "Build an OR gate using two Normally Open (NO) relays in parallel"
    hint := "When two switches are in parallel, either one being closed allows current." }
  | .nand => {
    gate := .nand
    title := "NAND Gate"
    description := "Build a NAND gate (NOT of AND) from relays"
    hint := "NAND = NOT(AND): the output stays HIGH unless both coils are energized. Wire two NC relays in parallel between power and the output, one coil per input." }
  | .nor => {
    gate := .nor
    title := "NOR Gate"
    description := "Build a NOR gate (NOT of OR) from relays"
    hint := "NOR = NOT(OR): the output is HIGH only while neither coil is energized. Wire two NC relays in series between power and the output, one coil per input." }
  | .xor => {
    gate := .xor
    title := "XOR Gate"
    description := "Build an XOR gate from NO and NC relays"
    hint := "A XOR B = (A AND NOT B) OR (NOT A AND B). Build each term as an NO and an NC relay in series, put the two paths in parallel and drive every coil straight from an input." }

/-- The requirements in the order of the lessons. -/
def requirements : List Requirement :=
  Gate.all.map Requirement.ofGate

end Switchyard.Grading
