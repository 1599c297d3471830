import Switchyard.Hdl.Line
import Switchyard.Json.Value

/-!
# Gate programs

A program lists its wires and gates in the order of their lines, and the lines that are neither.
Each significant line is exactly one statement (`Statement.ofLine`), so reading a program is local
to its lines. An operand that is not a name with an optional bit is left out of its gate.
-/

namespace Switchyard.Hdl

open Text

/-- A reference to one bit of a named wire. -/
structure Ref where
  wire : String
  bit : Int := 0
deriving DecidableEq, Repr

/-- A declared wire. Its width is taken from the source unchecked. -/
structure Wire where
  name : String
  width : Int := 1
  isInput : Bool := false
  isOutput : Bool := false
deriving DecidableEq, Repr

/-- A gate with its operands in order. -/
structure Gate where
  kind : String
  name : String
  inputs : List Ref := []
  outputs : List Ref := []
deriving DecidableEq, Repr

/-- A program: its wires, its gates and the lines that could not be read. -/
structure Program where
  wires : List Wire := []
  gates : List Gate := []
  unread : List Line := []
deriving DecidableEq, Repr

/-- What a significant line says. -/
inductive Statement where
  | wire (wire : Wire)
  | gate (gate : Gate)
  | unread (line : Line)
deriving DecidableEq, Repr

/-- An operand as it is written: a name, or a name and the digits of a bit in brackets. -/
structure Operand where
  name : List Char
  bit : Option (List Char) := none
deriving DecidableEq, Repr

/-- The operand that a text is. Unlike a declared name, a referring one is spelled in ASCII. -/
def Operand.ofText? (text : List Char) : Option Operand := do
  let (name, rest) ← takeRun? isNameStart isNameChar text
  match rest with
  | [] => return { name }
  | '[' :: rest =>
    let (bit, rest) ← takeNumber? rest
    match rest with
    | [']'] => return { name, bit := some bit }
    | _ => none
  | _ => none

/-- The reference that an operand is; without a bit it is to bit zero. -/
def Operand.toRef (operand : Operand) : Ref where
  wire := String.ofList operand.name
  bit := (operand.bit.map ofDigits).getD 0

/-- The reference that an operand text denotes. -/
def Ref.ofOperand? (text : List Char) : Option Ref :=
  (Operand.ofText? text).map Operand.toRef

/-- The references of an operand list; operands that denote none are left out. -/
def Ref.ofOperands (cs : List Char) : List Ref :=
  (operands cs).filterMap Ref.ofOperand?

/-- The wire that a declaration declares. -/
def Wire.ofDecl (decl : WireDecl) : Wire :=
  { name := String.ofList decl.name, width := decl.span.bits }

/-- The gate that a line places, its type in lower case. -/
def Gate.ofInst (inst : GateInst) : Gate where
  kind := lower (String.ofList inst.kind)
  name := String.ofList inst.name
  inputs := Ref.ofOperands inst.inputs
  outputs := Ref.ofOperands inst.outputs

/-- What a significant line says. -/
def Statement.ofLine (line : Line) : Statement :=
  match wireDecl? line.chars with
  | some decl => .wire (Wire.ofDecl decl)
  | none =>
    match gateInst? line.chars with
    | some inst => .gate (Gate.ofInst inst)
    | none => .unread line

/-- The wire that a statement declares. -/
def Statement.wire? : Statement → Option Wire
  | .wire w => some w
  | _ => none

/-- The gate that a statement places. -/
def Statement.gate? : Statement → Option Gate
  | .gate g => some g
  | _ => none

/-- The line of a statement that could not be read. -/
def Statement.unread? : Statement → Option Line
  | .unread l => some l
  | _ => none

namespace Program

/-- The program of a list of statements. -/
def ofStatements (statements : List Statement) : Program where
  wires := statements.filterMap Statement.wire?
  gates := statements.filterMap Statement.gate?
  unread := statements.filterMap Statement.unread?

/-- The program that a text denotes. -/
def ofText (text : String) : Program :=
  ofStatements ((significantLines text.toList).map Statement.ofLine)

/-- Whether every line could be read. -/
def isRead (program : Program) : Bool :=
  program.unread.isEmpty

end Program

/-- The complaint about a line that could not be read. -/
def Line.unreadMessage (line : Line) : String :=
  s!"Unrecognized statement: '{line.text}'"

/-! ### What reading comes to -/

/-- The operand texts of a gate line in order; no other line has any. -/
def Line.operands (line : Line) : List (List Char) :=
  match wireDecl? line.chars, gateInst? line.chars with
  | none, some inst => Hdl.operands inst.inputs ++ Hdl.operands inst.outputs
  | _, _ => []

/-- The number in an operand text, if it is an operand with one. -/
def operandNumerals (text : List Char) : List (List Char) :=
  ((Operand.ofText? text).bind (·.bit)).toList

/-- The numbers on a line in the order in which they are read. -/
def Line.numerals (line : Line) : List (List Char) :=
  match wireDecl? line.chars with
  | some decl => decl.span.numerals
  | none => line.operands.flatMap operandNumerals

/-- The number of digits of the first number that has too many to be read. -/
def overlong? (numerals : List (List Char)) : Option Nat :=
  (numerals.find? (fun numeral => maxDigits < numeral.length)).map (·.length)

/-- The program that a text denotes, unless a number in it has too many digits to be read. -/
def Program.read (text : String) : Except NumeralFault Program :=
  match overlong? ((significantLines text.toList).flatMap Line.numerals) with
  | some digits => .error (.tooLong digits)
  | none => .ok (Program.ofText text)

/-- The operand texts that reading comes to, by line: those before the first number that has too
many digits. -/
def reachedOperands : List Line → List (Line × List (List Char))
  | [] => []
  | line :: rest =>
    if (overlong? line.numerals).isNone then (line, line.operands) :: reachedOperands rest
    else [(line, line.operands.takeWhile (fun text => (overlong? (operandNumerals text)).isNone))]

/-- The operand texts of a program text that are left out of their gates, with their lines. -/
def skippedOperands (text : String) : List (Line × String) :=
  (reachedOperands (significantLines text.toList)).flatMap (fun (line, texts) =>
    (texts.filter (fun text => (Operand.ofText? text).isNone)).map
      (fun text => (line, String.ofList text)))

/-- A reference as a JSON object. -/
def Ref.toJson (ref : Ref) : Json :=
  .obj [("wire", .str ref.wire), ("bit", .int ref.bit)]

/-- A wire as a JSON object. -/
def Wire.toJson (wire : Wire) : Json :=
  .obj [("name", .str wire.name), ("width", .int wire.width), ("is_input", .bool wire.isInput),
    ("is_output", .bool wire.isOutput)]

/-- A gate as a JSON object. -/
def Gate.toJson (gate : Gate) : Json :=
  .obj [("type", .str gate.kind), ("name", .str gate.name),
    ("inputs", .arr (gate.inputs.map Ref.toJson)), ("outputs", .arr (gate.outputs.map Ref.toJson))]

/-- A complaint about a line as a JSON object. The column is not tracked and always the first. -/
def Line.complaintJson (line : Line) : Json :=
  .obj [("line", .int line.number), ("column", .int 1), ("message", .str line.unreadMessage)]

/-- A program as a JSON object. -/
def Program.toJson (program : Program) : Json :=
  .obj [("wires", .arr (program.wires.map Wire.toJson)),
    ("gates", .arr (program.gates.map Gate.toJson)),
    ("errors", .arr (program.unread.map Line.complaintJson))]

end Switchyard.Hdl
