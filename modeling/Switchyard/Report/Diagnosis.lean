import Switchyard.Json.Value
import Switchyard.Text.Letter

/-!
# Diagnoses

A failure is classified by the wording of its message (`classify`), and each category has an
explanation for learners: what is wrong, what commonly causes it and what to try. The classes are
tried in a fixed order and the first one with a phrase that occurs in the message wins; case is
disregarded.
-/

namespace Switchyard.Report

/-- A category of failures. -/
inductive Category where
  | parse
  | validation
  | generation
  | nonConvergence
  | noCircuit
  | unknown
deriving DecidableEq, Repr

/-- An explanation of a failure. -/
structure Diagnosis where
  category : Category
  message : String
  causes : List String
  suggestions : List String
deriving DecidableEq, Repr

namespace Category

/-- Every category. -/
def all : List Category :=
  [parse, validation, generation, nonConvergence, noCircuit, unknown]

/-- The name of a category. -/
def name : Category → String
  | parse => "parse"
  | validation => "validation"
  | generation => "generation"
  | nonConvergence => "non_convergence"
  | noCircuit => "no_circuit"
  | unknown => "unknown"

/-- The category of a name. -/
def ofName? (s : String) : Option Category :=
  all.find? (·.name = s)

/-- The phrases by which messages of a category are known. -/
def phrases : Category → List String
  | parse => ["unrecognized statement"]
  | validation => [
    "unmatched bracket", "unmatched parenthesis", "duplicate wire", "duplicate gate",
    "unknown gate type", "undefined wire", "requires at least", "accepts at most", "invalid wire",
    "invalid gate"]
  | generation => ["undefined wire reference", "invalid width"]
  | nonConvergence => ["did not converge", "did not stabilize"]
  | noCircuit => ["no circuit loaded"]
  | unknown => []

/-- The categories in the order in which they are tried. -/
def tried : List Category :=
  [noCircuit, nonConvergence, generation, parse, validation]

/-- Whether a message has one of the phrases of a category. -/
def recognizes (category : Category) (message : String) : Bool :=
  category.phrases.any (fun phrase => Text.mentions phrase.toList message.toList)

end Category

/-- The category of a message. -/
def classify (message : String) : Category :=
  (Category.tried.find? (·.recognizes message)).getD .unknown

/-- The explanation of a category. -/
def Diagnosis.ofCategory : Category → Diagnosis
  | .parse => {
    category := .parse
    message := "Some lines of the HDL program could not be understood."
    causes := [
      "A statement is neither a wire declaration nor a gate instantiation",
      "A gate is missing its 'input:' or 'output:' section"]
    suggestions := [
      "Declare wires as 'wire name' or 'wire name[8]'",
      "Write gates as 'and g1 (input: a, b; output: y)'",
      "Start comment lines with '#'"] }
  | .validation => {
    category := .validation
    message := "The HDL program has errors that must be fixed before it can be built."
    causes := [
      "A wire is used before it is declared",
      "A gate has the wrong number of inputs for its type",
      "A wire or gate name is declared twice"]
    suggestions := [
      "Declare every wire at the top of the program",
      "Check the input count allowed for each gate type",
      "Give each wire and gate a unique name"] }
  | .generation => {
    category := .generation
    message := "The circuit could not be built from the HDL program."
    causes := [
      "A gate refers to a wire that does not exist",
      "A wire range such as [0:7] produced a width below one bit"]
    suggestions := [
      "Run validation first and fix every reported error",
      "Write bit ranges high-to-low, e.g. [7:0]"] }
  | .nonConvergence => {
    category := .nonConvergence
    message := "The circuit never settled into a stable state."
    causes := [
      "An output feeds back into its own input through an inverter (an oscillator)",
      "Two sources drive the same net with different values"]
    suggestions := [
      "Look for feedback loops and break them with a flip-flop",
      "Make sure each net is driven by a single source"] }
  | .noCircuit => {
    category := .noCircuit
    message := "There is no circuit to simulate."
    causes := ["The simulator was stepped before a circuit was loaded"]
    suggestions := ["Load or build a circuit before running the simulation"] }
  | .unknown => {
    category := .unknown
    message := "The operation failed for an unexpected reason."
    causes := []
    suggestions := [
      "Check the circuit file for structural mistakes",
      "Try a simpler circuit to isolate the problem"] }

/-- The explanation of a message. -/
def diagnose (message : String) : Diagnosis :=
  .ofCategory (classify message)

/-- A headed list of a user message; nothing if the list is empty. -/
def headedList (heading : String) (entries : List String) : List String :=
  if entries.isEmpty then [] else ("\n" ++ heading) :: entries.map ("  - " ++ ·)

/-- A diagnosis with the raw messages that it explains, as one text for the user. -/
def Diagnosis.userMessage (diagnosis : Diagnosis) (details : List String) : String :=
  "\n".intercalate ([diagnosis.message] ++ headedList "Details:" details ++
    headedList "Common causes:" diagnosis.causes ++ headedList "Suggestions:" diagnosis.suggestions)

/-- A diagnosis as a JSON object. -/
def Diagnosis.toJson (diagnosis : Diagnosis) : Json :=
  .obj [("category", .str diagnosis.category.name), ("message", .str diagnosis.message),
    ("causes", .arr (diagnosis.causes.map .str)),
    ("suggestions", .arr (diagnosis.suggestions.map .str))]

end Switchyard.Report
