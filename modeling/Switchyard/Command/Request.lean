import Switchyard.Command.Argument
import Switchyard.Grading.Table

/-!
# Requests

A command line is the program's name, its own options, a verb and the verb's options and operand.
`Request.ofArguments` reads one; a `Refusal` says why it cannot, and for which verb.
-/

namespace Switchyard.Command

open Text

/-- The verbs. -/
inductive Verb where
  | parse
  | validate
  | generate
  | run
  | simulate
  | verify
  | unlocks
deriving DecidableEq, Repr

namespace Verb

/-- All verbs. -/
def all : List Verb := [parse, validate, generate, run, simulate, verify, unlocks]

/-- The name of a verb. -/
def name : Verb → String
  | parse => "parse"
  | validate => "validate"
  | generate => "generate"
  | run => "run"
  | simulate => "simulate"
  | verify => "verify"
  | unlocks => "unlocks"

/-- The verb of a name. -/
def ofName? (s : String) : Option Verb :=
  all.find? (·.name = s)

/-- What the operand of a verb is called: the source of a program, or a circuit. -/
def operandLabel : Verb → String
  | parse | validate | generate | run => "source"
  | simulate | verify | unlocks => "circuit"

end Verb

/-- The options. -/
inductive Key where
  | help
  | verbose
  | maxIterations
  | set
  | cycles
  | format
  | output
  | gate
deriving DecidableEq, Repr

/-- The names of an option, and whether it takes a value. -/
def Key.spec (key : Key) : OptionSpec Key :=
  match key with
  | .help => ⟨key, ["-h", "--help"], false⟩
  | .verbose => ⟨key, ["-v", "--verbose"], false⟩
  | .maxIterations => ⟨key, ["--max-iterations"], true⟩
  | .set => ⟨key, ["--set"], true⟩
  | .cycles => ⟨key, ["--cycles"], true⟩
  | .format => ⟨key, ["--format"], true⟩
  | .output => ⟨key, ["--output", "-o"], true⟩
  | .gate => ⟨key, ["--gate"], true⟩

/-- The program's own options. -/
def commonKeys : List Key := [.help, .verbose, .maxIterations]

/-- The options of a verb. -/
def Verb.keys : Verb → List Key
  | .parse | .validate | .unlocks => [.help]
  | .generate => [.help, .output]
  | .run => [.help, .set, .cycles, .format, .output]
  | .simulate => [.help, .set, .format, .output]
  | .verify => [.help, .gate, .format, .output]

/-- The form of a result. -/
inductive Format where
  | json
  | csv
deriving DecidableEq, Repr

/-- The name of a form. -/
def Format.name : Format → String
  | .json => "json"
  | .csv => "csv"

/-- The forms. -/
def Format.all : List Format := [.json, .csv]

/-- What an option with a value sets. An option can be given with a void value, which nobody misses
until the value is used. -/
inductive Setting (α : Type) where
  | unset
  | void
  | value (a : α)
deriving DecidableEq, Repr

namespace Setting

variable {α : Type}

/-- The setting of an option that was given with a value or a void one. -/
def ofValue? : Option α → Setting α
  | some a => .value a
  | none => .void

/-- The value set, or another one if the option was not given; a void value is none. -/
def getD? (default : α) : Setting α → Option α
  | unset => some default
  | void => none
  | value a => some a

end Setting

/-- What options set. -/
structure Settings where
  verbosity : Nat := 0
  cap : Setting Int := .unset
  /-- The levels set, in the order of the arguments; none for a void value. -/
  inputs : List (Option (String × Int)) := []
  cycles : Setting Int := .unset
  format : Format := .json
  output : Option String := none
  gate : Setting Grading.Gate := .unset
deriving DecidableEq, Repr

/-- The assignment `name=0` or `name=1` that a text denotes. The name ends at the first equals
sign. -/
def assignment (text : String) : Except Cause (String × Int) :=
  match cutAtEquals text.toList with
  | ([], _) | (_, none) => .error (.notAssignment text)
  | (name, some value) =>
    if value = ['0'] then .ok (String.ofList name, 0)
    else if value = ['1'] then .ok (String.ofList name, 1)
    else .error (.notBit (String.ofList name) (String.ofList value))

/-- The number of at least one that a text denotes. -/
def positiveInteger (text : String) : Except Cause Int :=
  match readInteger text with
  | .error _ => .error (.notInteger text)
  | .ok n => if n < 1 then .error (.tooSmall n) else .ok n

/-- The number that a text denotes. -/
def integer (text : String) : Except Cause Int :=
  (readInteger text).mapError (fun _ => .badInteger text)

/-- The one of several things that has a given name. -/
def choose {α : Type} (all : List α) (name : α → String) (text : String) : Except Cause α :=
  match all.find? (fun a => name a = text) with
  | some a => .ok a
  | none => .error (.notAmong text (all.map name))

/-- The gates that can be asked for, by name. -/
def namedGates : List Grading.Gate :=
  Grading.Gate.all.mergeSort (fun a b => a.name ≤ b.name)

/-- What an option with a value is given: the value read, or a void one. -/
def readValue {α : Type} (key : Key) (read : String → Except Cause α) :
    Option String → Except Stop (Option α)
  | none => .ok none
  | some text => ((read text).mapError (Stop.bad key.spec.label)).map some

/-- The settings after an option. A void form is that of JSON, and a void file is none. -/
def Settings.set (settings : Settings) (key : Key) (value : Option String) :
    Except Stop Settings := do
  match key with
  | .help => throw .help
  | .verbose => return { settings with verbosity := settings.verbosity + 1 }
  | .maxIterations =>
    return { settings with cap := .ofValue? (← readValue key positiveInteger value) }
  | .set =>
    return { settings with inputs := settings.inputs ++ [← readValue key assignment value] }
  | .cycles => return { settings with cycles := .ofValue? (← readValue key integer value) }
  | .format =>
    let format ← readValue key (choose Format.all Format.name) value
    return { settings with format := format.getD .json }
  | .output => return { settings with output := value }
  | .gate =>
    let gate ← readValue key (choose namedGates Grading.Gate.name) value
    return { settings with gate := .ofValue? gate }

/-- The grammar of the program's own options, up to the verb. -/
def commonGrammar : Grammar Key Settings where
  table := commonKeys.map Key.spec
  set := Settings.set
  isCommand := true

/-- The grammar of what follows a verb. -/
def Verb.grammar (verb : Verb) : Grammar Key Settings where
  table := verb.keys.map Key.spec
  set := Settings.set
  isCommand := false

/-- What is to be done. -/
inductive Job where
  | parse (source : String)
  | validate (source : String)
  | generate (source : String)
  | run (source : String)
  | simulate (circuit : String)
  /-- The gate may be void. -/
  | verify (circuit : String) (gate : Option Grading.Gate)
  | unlocks (circuit : String)
deriving DecidableEq, Repr

/-- The verb of a job. -/
def Job.verb : Job → Verb
  | .parse _ => .parse
  | .validate _ => .validate
  | .generate _ => .generate
  | .run _ => .run
  | .simulate _ => .simulate
  | .verify _ _ => .verify
  | .unlocks _ => .unlocks

/-- A job with the settings for it. -/
structure Request where
  job : Job
  settings : Settings
deriving DecidableEq, Repr

/-- Why a command line is refused, and at which verb it had come to. -/
structure Refusal where
  verb : Option Verb
  stop : Stop
deriving DecidableEq, Repr

/-- The name of the program. -/
def programName : String := "relaylab"

/-- The line that reports a refusal. -/
def Refusal.message (refusal : Refusal) : String :=
  let who := " ".intercalate (programName :: (refusal.verb.map Verb.name).toList)
  s!"{who}: error: {refusal.stop.message}"

/-- The job of a verb, or the labels of what it still requires. -/
def Job.ofSettings (verb : Verb) (operand : Option String) (gate : Setting Grading.Gate) :
    Except (List String) Job :=
  match verb, operand, gate with
  | .parse, some path, _ => .ok (.parse path)
  | .validate, some path, _ => .ok (.validate path)
  | .generate, some path, _ => .ok (.generate path)
  | .run, some path, _ => .ok (.run path)
  | .simulate, some path, _ => .ok (.simulate path)
  | .unlocks, some path, _ => .ok (.unlocks path)
  | .verify, some path, .value gate => .ok (.verify path (some gate))
  | .verify, some path, .void => .ok (.verify path none)
  | .verify, some _, .unset => .error [Key.gate.spec.label]
  | .verify, none, .unset => .error [verb.operandLabel, Key.gate.spec.label]
  | _, none, _ => .error [verb.operandLabel]

/-- Read what follows a verb: the request, and the arguments that nothing takes. -/
def Verb.read (verb : Verb) (texts : List String) (settings : Settings) :
    Except Stop (Request × List String) := do
  let progress ← verb.grammar.read texts settings
  match Job.ofSettings verb progress.operand progress.settings.gate with
  | .ok job => return (⟨job, progress.settings⟩, progress.unclaimed)
  | .error labels => throw (.missing labels)

/-- How a verb is called in complaints. -/
def verbLabel : String := "command"

/-- The request that a command line makes. Arguments that nothing takes are reported last, those
before the verb first. -/
def Request.ofArguments (texts : List String) : Except Refusal Request := do
  let progress ← (commonGrammar.read texts {}).mapError (Refusal.mk none)
  match progress.operand with
  | none => throw ⟨none, .missing [verbLabel]⟩
  | some name =>
    let verb ← (choose Verb.all Verb.name name).mapError
      (fun cause => Refusal.mk none (.bad verbLabel cause))
    let (request, more) ←
      (verb.read progress.trailing progress.settings).mapError (Refusal.mk (some verb))
    let unclaimed := progress.unclaimed ++ more
    if unclaimed.isEmpty then return request else throw ⟨none, .unrecognized unclaimed⟩

end Switchyard.Command
