import Switchyard.Command.Workspace
import Switchyard.Json.Reader
import Switchyard.Pipeline
import Switchyard.Relay.Document
import Switchyard.Relay.Structure

/-!
# Loading what commands work on

The bytes of a file become the source of a program or, by way of a JSON document and the check of
its structure, a relay circuit. What goes wrong on the way is a `Halt`. A command that does not come
to its end either fails and tells the user why, or it breaks off without words of its own, which is
a `Crash`.
-/

namespace Switchyard.Command

open Text

/-- Why a command breaks off without words of its own. -/
inductive Crash where
  /-- The structure of a circuit file cannot be checked for the type of a value in it. -/
  | unchecked
  /-- A circuit file passes the check and still is no circuit. -/
  | unloadable (fault : Relay.LoadFault)
  /-- A program or a wire of it is beyond the limits. -/
  | limit (limit : Limit)
  /-- A relay circuit cannot be graded, or cannot be inspected or stepped. -/
  | circuit (fault : Grading.Fault)
  /-- A whole number has too many digits to be written. -/
  | unwritable
  /-- A circuit file is nested too deeply. -/
  | tooDeep
  /-- A file cannot be reached or written. -/
  | file (fault : FileFault)
  /-- Names of different kinds cannot be listed in order. -/
  | unordered
  /-- A void value is used. -/
  | voidValue
  /-- A void assignment, the one with the given number, is used. -/
  | voidAssignment (index : Nat)
deriving DecidableEq

/-- Why a command does not come to its end. -/
inductive Halt where
  /-- It fails, and the user is told why. -/
  | failed (complaint : String)
  | crashed (crash : Crash)
deriving DecidableEq

/-- The characters of a file, its line endings unified. -/
def textOf (bytes : List UInt8) : Except Utf8Fault String := do
  let text ← decodeUtf8 bytes
  return String.ofList (unifyLineEnds text.toList)

/-- The program source at a path, given the bytes there. -/
def sourceAt (path : String) (found : Except FileFault (List UInt8)) : Except Halt String :=
  let complain (reason : String) : Halt := .failed s!"Error reading {path}: {reason}"
  match found with
  | .error .zeroCharacter => .error (.crashed (.file .zeroCharacter))
  | .error .unencodable => .error (.crashed (.file .unencodable))
  | .error fault => .error (complain (fault.message (Path.ofText path)))
  | .ok bytes => ((textOf bytes).mapError (fun fault => complain fault.message)).map ofCharacters

/-- The document that the characters of a file make up. -/
def documentOf (path text : String) : Except Halt Json :=
  match Json.parse text with
  | .ok value => .ok value
  | .error (.malformed cause place) =>
    .error (.failed s!"Error: invalid JSON in {path}: {cause.located text place}")
  | .error (.numeralTooLong digits) => .error (.crashed (.limit (.numeral (.tooLong digits))))
  | .error .tooDeep => .error (.crashed .tooDeep)

/-- The circuit that a document describes. -/
def circuitOf (value : Json) : Except Halt Relay.Circuit :=
  match Relay.checkStructure value with
  | .ok _ => (Relay.Circuit.ofJson value).mapError (fun fault => .crashed (.unloadable fault))
  | .error fault =>
    match fault.message? with
    | some text => .error (.failed s!"Error: invalid circuit file: {text}")
    | none => .error (.crashed .unchecked)

/-- The relay circuit at a path, given the bytes there. -/
def circuitAt (path : String) (found : Except FileFault (List UInt8)) :
    Except Halt Relay.Circuit := do
  let unreadable (reason : String) : Halt := .failed s!"Error: cannot read {path}: {reason}"
  match found with
  | .error .nameTooLong => throw (.crashed (.file .nameTooLong))
  | .error .isDirectory => throw (unreadable (FileFault.isDirectory.message (Path.ofText path)))
  | .error _ => throw (.failed s!"Error: file not found: {path}")
  | .ok bytes =>
    let text ← (textOf bytes).mapError (fun fault => unreadable fault.message)
    circuitOf (← documentOf path text)

end Switchyard.Command
