import Switchyard.Hdl.GateKind
import Switchyard.Hdl.Program

/-!
# The survey of a program text

A survey goes through the significant lines from top to bottom and notes what makes the program
unusable: brackets that do not match, names declared twice, unknown gates, wrong numbers of
operands, wires used before they are declared, and lines that are no statement. A program without
such findings is valid. Wires that no gate mentions are noted too, but do no harm.
-/

namespace Switchyard.Hdl

open Text

/-- On which side of a gate a wire is used. -/
inductive Role where
  | input
  | output
deriving DecidableEq, Repr

/-- What a survey can find wrong with a line. -/
inductive Fault where
  | unmatchedBracket (opened closed : Nat)
  | unmatchedParenthesis (opened closed : Nat)
  | duplicateWire (name : List Char) (line : Nat)
  | unknownGate (kind : String)
  | duplicateGate (name : List Char) (line : Nat)
  | tooFewInputs (name : List Char) (kind : String) (least got : Nat)
  | tooManyInputs (name : List Char) (kind : String) (most got : Nat)
  | undefinedWire (operand : List Char) (role : Role) (gate : List Char)
  | badWire (line : List Char)
  | badGate (line : List Char)
  | unrecognized (line : List Char)
deriving DecidableEq, Repr

/-- A fault with the number of its line. -/
structure Finding where
  line : Nat
  fault : Fault
deriving DecidableEq, Repr

/-- What has been seen of a program: the wires and gates declared so far with their lines, the wires
mentioned so far, and the findings in order. -/
structure Survey where
  wires : List (List Char × Nat) := []
  gates : List (List Char × Nat) := []
  used : List (List Char) := []
  findings : List Finding := []
deriving DecidableEq, Repr

/-- The wording of a side. -/
def Role.text : Role → String
  | .input => "input to"
  | .output => "output of"

/-- The wording of a fault. -/
def Fault.message : Fault → String
  | .unmatchedBracket opened closed =>
    s!"Unmatched bracket in line: expected {opened} closing brackets, found {closed}"
  | .unmatchedParenthesis opened closed =>
    s!"Unmatched parenthesis in line: expected {opened} closing parentheses, found {closed}"
  | .duplicateWire name line =>
    s!"Duplicate wire declaration: '{String.ofList name}' was already declared on line {line}"
  | .unknownGate kind => s!"Unknown gate type: '{kind}'"
  | .duplicateGate name line =>
    s!"Duplicate gate name: '{String.ofList name}' was already declared on line {line}"
  | .tooFewInputs name kind least got =>
    s!"Gate '{String.ofList name}' ({kind}) requires at least {least} inputs, but got {got}"
  | .tooManyInputs name kind most got =>
    s!"Gate '{String.ofList name}' ({kind}) accepts at most {most} inputs, but got {got}"
  | .undefinedWire operand role gate =>
    s!"Undefined wire '{String.ofList operand}' used as {role.text} gate '{String.ofList gate}'"
  | .badWire line => s!"Invalid wire declaration syntax: '{String.ofList line}'"
  | .badGate line => s!"Invalid gate instantiation syntax: '{String.ofList line}'"
  | .unrecognized line => s!"Unrecognized statement: '{String.ofList line}'"

namespace Survey

/-- A survey with more findings on one line. -/
def find (survey : Survey) (line : Nat) (faults : List Fault) : Survey :=
  { survey with findings := survey.findings ++ faults.map (⟨line, ·⟩) }

/-- The survey after a wire declaration. -/
def addWire (survey : Survey) (line : Nat) (decl : WireDecl) : Survey :=
  match Assoc.get? decl.name survey.wires with
  | some earlier => survey.find line [.duplicateWire decl.name earlier]
  | none => { survey with wires := survey.wires ++ [(decl.name, line)] }

/-- The faults in the number of a gate's inputs. -/
def countFaults (name : List Char) (kind : String) (arity : GateArity) (got : Nat) : List Fault :=
  (if got < arity.least then [.tooFewInputs name kind arity.least got] else []) ++
    match arity.most with
    | some most => if most < got then [.tooManyInputs name kind most got] else []
    | none => []

/-- The faults in the wires that a gate mentions on one side: those not declared before. -/
def wireFaults (survey : Survey) (gate : List Char) (role : Role) (names : List (List Char)) :
    List Fault :=
  (names.filter (fun operand => !Assoc.has (baseName operand) survey.wires)).map
    (.undefinedWire · role gate)

/-- The declared wires among those that operands name. -/
def declaredNames (survey : Survey) (names : List (List Char)) : List (List Char) :=
  (names.map baseName).filter (Assoc.has · survey.wires)

/-- The survey after a gate of a known kind. -/
def addKnownGate (survey : Survey) (line : Nat) (inst : GateInst) (kind : String)
    (arity : GateArity) : Survey :=
  let ins := operands inst.inputs
  let outs := operands inst.outputs
  let nameFaults :=
    match Assoc.get? inst.name survey.gates with
    | some earlier => [.duplicateGate inst.name earlier]
    | none => []
  let declared :=
    if Assoc.has inst.name survey.gates then survey.gates else survey.gates ++ [(inst.name, line)]
  { survey with
    gates := declared
    used := survey.used ++ survey.declaredNames (ins ++ outs) }.find line
      (nameFaults ++ countFaults inst.name kind arity ins.length ++
        survey.wireFaults inst.name .input ins ++ survey.wireFaults inst.name .output outs)

/-- The survey after a gate. -/
def addGate (survey : Survey) (line : Nat) (inst : GateInst) : Survey :=
  let kind := lower (String.ofList inst.kind)
  match GateKind.ofName? kind with
  | some known => survey.addKnownGate line inst kind known.arity
  | none => survey.find line [.unknownGate kind]

/-- What is wrong with a line that holds no statement. -/
def statementFault (line : List Char) : Fault :=
  if looksLikeWire line then .badWire line
  else if looksLikeGate line then .badGate line
  else .unrecognized line

/-- The survey after one more significant line. -/
def add (survey : Survey) (line : Line) : Survey :=
  let cs := line.chars
  if cs.count '[' ≠ cs.count ']' then
    survey.find line.number [.unmatchedBracket (cs.count '[') (cs.count ']')]
  else if cs.count '(' ≠ cs.count ')' then
    survey.find line.number [.unmatchedParenthesis (cs.count '(') (cs.count ')')]
  else
    match wireDecl? cs with
    | some decl => survey.addWire line.number decl
    | none =>
      match gateInst? cs with
      | some inst => survey.addGate line.number inst
      | none => survey.find line.number [statementFault cs]

/-- The survey of a program text. -/
def ofText (text : String) : Survey :=
  (significantLines text.toList).foldl add {}

/-- Whether nothing makes the program unusable. -/
def isValid (survey : Survey) : Bool :=
  survey.findings.isEmpty

/-- The declared wires that no gate mentions, with their lines. -/
def unused (survey : Survey) : List (List Char × Nat) :=
  survey.wires.filter (fun wire => !survey.used.contains wire.1)

end Survey

/-- The wording for a wire that no gate mentions. -/
def unusedMessage (name : List Char) : String :=
  s!"Wire '{String.ofList name}' is declared but never used"

/-- A message about a line as a JSON object. -/
def noteJson (line : Nat) (message severity : String) : Json :=
  .obj [("line", .int line), ("column", .int 1), ("message", .str message),
    ("severity", .str severity)]

/-- A survey as a JSON object. -/
def Survey.toJson (survey : Survey) : Json :=
  .obj [("valid", .bool survey.isValid),
    ("errors", .arr (survey.findings.map
      (fun finding => noteJson finding.line finding.fault.message "error"))),
    ("warnings", .arr (survey.unused.map
      (fun wire => noteJson wire.2 (unusedMessage wire.1) "warning")))]

end Switchyard.Hdl
