import Switchyard.Text.Blank
import Switchyard.Text.Numeral
import Switchyard.Text.Quoted

/-!
# Arguments and options

The arguments of a command line are texts of four kinds (`Argument`): plain ones, options that a
table knows, things that look like options but are not in the table, and the separator `--`, after
which everything is plain. An option may be named by any beginning of one of its long names that
fits no other one. Its value stands behind an equals sign, right behind a short name, or in the next
argument; short options without a value can be bundled behind one hyphen (`unbundle`). The separator
in the place of a value makes the value void.

`Grammar.read` goes through the arguments once. What it meets first wrong stops it, and the reason
is a `Stop`.
-/

namespace Switchyard.Command

open Text

/-- An option: its names, the short ones a hyphen and one character, the long ones with two hyphens
before them, and whether it takes a value. -/
structure OptionSpec (κ : Type) where
  key : κ
  names : List String
  takesValue : Bool

/-- What is wrong with an option or operand. -/
inductive Cause where
  /-- A value is missing. -/
  | noValue
  /-- A value is given to an option that takes none. -/
  | unusedValue (value : List Char)
  /-- A text is no assignment of a level to a name. -/
  | notAssignment (text : String)
  /-- The level assigned to a name is neither zero nor one. -/
  | notBit (name value : String)
  /-- A text that should be a positive number is no number. -/
  | notInteger (text : String)
  /-- A number that should be positive is not. -/
  | tooSmall (number : Int)
  /-- A text that should be a number is none. -/
  | badInteger (text : String)
  /-- A text is none of those allowed. -/
  | notAmong (text : String) (choices : List String)
deriving DecidableEq, Repr

/-- Why the arguments are not read to their end. -/
inductive Stop where
  /-- Help is asked for. -/
  | help
  /-- An option or operand of the given label is wrong. -/
  | bad (label : String) (cause : Cause)
  /-- An argument fits several options. -/
  | ambiguous (text : String) (names : List String)
  /-- Required options or operands are missing. -/
  | missing (labels : List String)
  /-- Arguments are left that nothing takes. -/
  | unrecognized (texts : List String)
deriving DecidableEq, Repr

/-- The wording of a cause. -/
def Cause.message : Cause → String
  | .noValue => "expected one argument"
  | .unusedValue value => s!"ignored explicit argument {quoted (String.ofList value)}"
  | .notAssignment text => s!"expected name=value, got '{text}'"
  | .notBit name value => s!"value for '{name}' must be 0 or 1, got '{value}'"
  | .notInteger text => s!"expected an integer, got '{text}'"
  | .tooSmall number => s!"must be at least 1, got {number}"
  | .badInteger text => s!"invalid int value: {quoted text}"
  | .notAmong text choices =>
    let list := ", ".intercalate (choices.map quoted)
    s!"invalid choice: {quoted text} (choose from {list})"

/-- The wording of a stop. -/
def Stop.message : Stop → String
  | .help => ""
  | .bad label cause => s!"argument {label}: {cause.message}"
  | .ambiguous text names => s!"ambiguous option: {text} could match " ++ ", ".intercalate names
  | .missing labels => "the following arguments are required: " ++ ", ".intercalate labels
  | .unrecognized texts => "unrecognized arguments: " ++ " ".intercalate texts

/-- An option as it is called in complaints: by all its names. -/
def OptionSpec.label {κ : Type} (spec : OptionSpec κ) : String :=
  "/".intercalate spec.names

/-- An argument of a command line. -/
inductive Argument (κ : Type) where
  | plain (text : String)
  /-- The argument `--`. -/
  | separator
  /-- An option, with the value in the same argument if there is one. -/
  | option (text : String) (spec : OptionSpec κ) (isLong : Bool) (value : Option (List Char))
  /-- Something that looks like an option. -/
  | unknown (text : String)

/-- An argument as it was given. -/
def Argument.text {κ : Type} : Argument κ → String
  | .plain text => text
  | .separator => "--"
  | .option text _ _ _ => text
  | .unknown text => text

section Table

variable {κ : Type} (table : List (OptionSpec κ))

/-- The option with a name. -/
def named? (name : List Char) : Option (OptionSpec κ) :=
  table.find? (fun spec => spec.names.any (fun n => n.toList = name))

/-- A text up to its first equals sign, and what is behind that. -/
def cutAtEquals (cs : List Char) : List Char × Option (List Char) :=
  match cs.dropWhile (· != '=') with
  | [] => (cs, none)
  | _ :: value => (cs.takeWhile (· != '='), some value)

/-- Whether a name or argument has two hyphens before it. -/
def isLongName (cs : List Char) : Bool :=
  startsWith ['-', '-'] cs

/-- The ways to take an argument that is no name of an option as one: a beginning of a long name, or
a short name with more behind it. -/
def candidates (cs : List Char) : List (String × OptionSpec κ × Option (List Char)) :=
  let names := table.flatMap (fun spec => spec.names.map (fun name => (name, spec)))
  if isLongName cs then
    let (stem, value) := cutAtEquals cs
    (names.filter (fun (name, _) => startsWith stem name.toList)).map
      (fun (name, spec) => (name, spec, value))
  else
    (names.filter (fun (name, _) => name.toList = cs.take 2)).map
      (fun (name, spec) => (name, spec, some (cs.drop 2)))

/-- Whether a character is a decimal digit of any script. -/
def isDecimal (c : Char) : Bool :=
  (digitValue? c).isSome

/-- Whether a text is a negative decimal number, with a line feed behind it at most. Such a text is
never taken for an option that is not in the table. -/
def isNegativeNumber (cs : List Char) : Bool :=
  let core := if cs.getLast? = some '\n' then cs.dropLast else cs
  match core with
  | '-' :: digits =>
    match digits.dropWhile isDecimal with
    | [] => !digits.isEmpty
    | '.' :: fraction => !fraction.isEmpty && fraction.all isDecimal
    | _ => false
  | _ => false

/-- The kind of an argument that begins with a hyphen and is in no form the name of an option. -/
def classifyOther (text : String) : Argument κ :=
  let cs := text.toList
  if isNegativeNumber cs || cs.contains ' ' then .plain text else .unknown text

/-- The kind of an argument. -/
def classify (text : String) : Except Stop (Argument κ) :=
  let cs := text.toList
  let (stem, value) := cutAtEquals cs
  if !startsWith ['-'] cs || cs.length = 1 then .ok (.plain text)
  else
    match named? table cs, named? table stem with
    | some spec, _ => .ok (.option text spec (isLongName cs) none)
    | none, some spec => .ok (.option text spec (isLongName stem) value)
    | none, none =>
      match candidates table cs with
      | [] => .ok (classifyOther text)
      | [(_, spec, value)] => .ok (.option text spec (isLongName cs) value)
      | several => .error (.ambiguous text (several.map (·.1)))

/-- The kinds of arguments, in order. -/
def classifyAll : List String → Except Stop (List (Argument κ))
  | [] => .ok []
  | text :: rest =>
    if text = "--" then .ok (.separator :: rest.map .plain)
    else do
      let argument ← classify table text
      let arguments ← classifyAll rest
      return argument :: arguments

/-- What one argument gives: options with their values, and an option at the end whose value must be
the next argument. An option that takes no value has none, and so has one whose value is void. -/
structure Bundle (κ : Type) where
  given : List (OptionSpec κ × Option String) := []
  open? : Option (OptionSpec κ) := none

/-- The bundle of an option with nothing behind its name. -/
def Bundle.bare (spec : OptionSpec κ) : Bundle κ :=
  if spec.takesValue then { open? := some spec } else { given := [(spec, none)] }

/-- The value that stands in the same argument as an option; the separator is void. -/
def valueOf (cs : List Char) : Option String :=
  if cs = ['-', '-'] then none else some (String.ofList cs)

/-- The bundle of a short option with characters behind its name. They are the value of an option
that takes one; else each is the name of a further option. -/
def unbundle : OptionSpec κ → List Char → Except Stop (Bundle κ)
  | spec, [] =>
    if spec.takesValue then .ok { given := [(spec, valueOf [])] }
    else .error (.bad spec.label (.unusedValue []))
  | spec, c :: rest =>
    if spec.takesValue then .ok { given := [(spec, valueOf (c :: rest))] }
    else
      match named? table ['-', c] with
      | none => .error (.bad spec.label (.unusedValue (c :: rest)))
      | some next => do
        let further ← if rest.isEmpty then .ok (.bare next) else unbundle next rest
        return { further with given := (spec, none) :: further.given }

/-- The bundle of an option. -/
def bundleOf (spec : OptionSpec κ) (isLong : Bool) : Option (List Char) → Except Stop (Bundle κ)
  | none => .ok (.bare spec)
  | some value =>
    if !isLong then unbundle table spec value
    else if spec.takesValue then .ok { given := [(spec, valueOf value)] }
    else .error (.bad spec.label (.unusedValue value))

end Table

/-- Where reading has come: what the options have set, the operand if it has been met, the arguments
behind it that belong to it, and those that nothing takes. -/
structure Progress (σ : Type) where
  settings : σ
  operand : Option String := none
  trailing : List String := []
  unclaimed : List String := []

/-- How arguments are read: the options there are, what each sets with its value, and whether the
operand is a command that takes all arguments behind it. -/
structure Grammar (κ σ : Type) where
  table : List (OptionSpec κ)
  set : σ → κ → Option String → Except Stop σ
  isCommand : Bool

namespace Grammar

variable {κ σ : Type} (grammar : Grammar κ σ)

/-- The settings after several options. -/
def setAll : List (OptionSpec κ × Option String) → σ → Except Stop σ
  | [], settings => .ok settings
  | (spec, value) :: rest, settings => do
    let settings ← grammar.set settings spec.key value
    setAll rest settings

/-- The progress after a bundle, given the value behind it, if there is one. -/
def take (bundle : Bundle κ) (next : Option String) (progress : Progress σ) :
    Except Stop (Progress σ) := do
  let given ←
    match bundle.open?, next with
    | none, _ => .ok bundle.given
    | some spec, some value => .ok (bundle.given ++ [(spec, some value)])
    | some spec, none => .error (.bad spec.label .noValue)
  let settings ← grammar.setAll given progress.settings
  return { progress with settings }

/-- The progress after the operand has been met, with what stands behind it and belongs to it. -/
def meet (operand : String) (trailing : List String) (progress : Progress σ) : Progress σ :=
  { progress with operand := some operand, trailing }

/-- The progress after an argument that nothing takes. -/
def leave (text : String) (progress : Progress σ) : Progress σ :=
  { progress with unclaimed := progress.unclaimed ++ [text] }

/-- Read arguments. The separator belongs to the operand before or behind it. -/
def readArguments : List (Argument κ) → Progress σ → Except Stop (Progress σ)
  | [], progress => .ok progress
  | .unknown text :: rest, progress => readArguments rest (leave text progress)
  | .separator :: rest, progress =>
    if progress.operand.isSome || rest.isEmpty then readArguments rest (leave "--" progress)
    else if grammar.isCommand then .ok (meet "--" (rest.map (·.text)) progress)
    else readArguments rest progress
  | .plain text :: rest, progress =>
    if progress.operand.isSome then readArguments rest (leave text progress)
    else if grammar.isCommand then .ok (meet text (rest.map (·.text)) progress)
    else
      match rest with
      | .separator :: behind => readArguments behind (meet text [] progress)
      | rest => readArguments rest (meet text [] progress)
  | .option _ spec isLong value :: rest, progress => do
    let bundle ← bundleOf grammar.table spec isLong value
    match bundle.open?, rest with
    | some _, .plain value :: behind =>
      let progress ← grammar.take bundle (some value) progress
      readArguments behind progress
    | _, rest =>
      let progress ← grammar.take bundle none progress
      readArguments rest progress

/-- Read the arguments of a command line. -/
def read (texts : List String) (settings : σ) : Except Stop (Progress σ) := do
  let arguments ← classifyAll grammar.table texts
  grammar.readArguments arguments { settings }

end Grammar

end Switchyard.Command
