import Switchyard.Assoc
import Switchyard.Command.Path
import Switchyard.Text.Surrogate
import Switchyard.Text.Utf8

/-!
# Workspaces

Commands read and write files by their paths. `Files` is what they need of their surroundings; a
`Workspace` is a directory with its files as a value, so that a command can be run without a disk.
-/

namespace Switchyard.Command

open Text

/-- Why a file cannot be read or written. -/
inductive FileFault where
  | missing
  /-- A part of the path before its last is a file. -/
  | notDirectory
  /-- The path is that of a directory. -/
  | isDirectory
  /-- A part of the path, or all of it, is too long. -/
  | nameTooLong
  /-- The path holds the character zero. -/
  | zeroCharacter
  /-- The path, or the text to be written, holds half a surrogate pair, which has no bytes. -/
  | unencodable
deriving DecidableEq, Repr

/-- The wording of a fault with a path; there is none for a text without bytes. -/
def FileFault.message (fault : FileFault) (path : Path) : String :=
  let name := quoted path.text
  match fault with
  | .missing => s!"[Errno 2] No such file or directory: {name}"
  | .notDirectory => s!"[Errno 20] Not a directory: {name}"
  | .isDirectory => s!"[Errno 21] Is a directory: {name}"
  | .nameTooLong => s!"[Errno 36] File name too long: {name}"
  | .zeroCharacter => "embedded null byte"
  | .unencodable => ""

/-- Surroundings in which files can be read and written. -/
class Files (m : Type → Type) where
  /-- The bytes of a file. -/
  readFile : Path → m (Except FileFault (List UInt8))
  /-- Make a file hold a text. -/
  writeFile : Path → String → m (Except FileFault Unit)

/-- What can be at a path. -/
inductive Entry where
  | directory
  | file (bytes : List UInt8)
deriving DecidableEq, Repr

/-- The files and directories in a directory, by the parts of their paths. -/
structure Workspace where
  entries : List (List (List Char) × Entry) := []
deriving DecidableEq, Repr

/-- The longest name of a file in bytes. -/
def maxNameBytes : Nat := 255

/-- One more than the most bytes that a path has. -/
def maxPathBytes : Nat := 4096

namespace Workspace

/-- What is at a place. The workspace itself is a directory, and so is what leads to an entry. -/
def entry? (ws : Workspace) (place : List (List Char)) : Option Entry :=
  match Assoc.get? place ws.entries with
  | some entry => some entry
  | none =>
    if place.isEmpty || ws.entries.any (fun e => place.isPrefixOf e.1) then some .directory
    else none

/-- The place that a part leads to from another place; two dots lead back. -/
def follow (here : List (List Char)) (part : List Char) : List (List Char) :=
  if part = ['.', '.'] then here.dropLast else here ++ [part]

/-- The place that parts lead to from outside the workspace, where nothing is known but that two
dots lead to a directory. -/
def outside (parts : List (List Char)) : Except FileFault (List (List Char)) :=
  if parts.all (· = ['.', '.']) then .ok [] else .error .missing

/-- The place that parts lead to. Each but the last must lead to a directory. -/
def locate (ws : Workspace) : List (List Char) → List (List Char) → Except FileFault
    (List (List Char))
  | here, [] => .ok here
  | here, part :: rest =>
    match ws.entry? here with
    | none => .error .missing
    | some (.file _) => .error .notDirectory
    | some .directory =>
      if maxNameBytes < nameBytes (String.ofList part) then .error .nameTooLong
      else if here.isEmpty && part = ['.', '.'] then outside rest
      else locate ws (follow here part) rest

/-- The place of a path in the workspace. -/
def place (ws : Workspace) (path : Path) : Except FileFault (List (List Char)) :=
  if path.text.toList.contains (Char.ofNat 0) then .error .zeroCharacter
  else if hasByteless path.text then .error .unencodable
  else if maxPathBytes ≤ nameBytes path.text then .error .nameTooLong
  else if path.root.isEmpty then ws.locate [] path.parts
  else outside path.parts

/-- Whether a path is that of the device that holds nothing and takes everything. -/
def isNullDevice (path : Path) : Bool :=
  !path.root.isEmpty && path.parts = ["dev".toList, "null".toList]

/-- The bytes of the file at a path. -/
def read (ws : Workspace) (path : Path) : Except FileFault (List UInt8) := do
  if isNullDevice path then return []
  let place ← ws.place path
  match ws.entry? place with
  | some (.file bytes) => return bytes
  | some .directory => throw .isDirectory
  | none => throw .missing

/-- The workspace with the file at a path made to hold bytes. -/
def put (ws : Workspace) (path : Path) (bytes : List UInt8) : Except FileFault Workspace := do
  if isNullDevice path then return ws
  let place ← ws.place path
  match ws.entry? place with
  | some .directory => throw .isDirectory
  | _ => return { entries := Assoc.put place (.file bytes) ws.entries }

/-- Make the file at a path hold a text. A text without bytes leaves it empty. -/
def write (ws : Workspace) (path : Path) (text : String) : Workspace × Except FileFault Unit :=
  match ws.put path (if hasHalf text then [] else bytes text) with
  | .ok next => (next, if hasHalf text then .error .unencodable else .ok ())
  | .error fault => (ws, .error fault)

/-- The workspace with one more entry. -/
def add (ws : Workspace) (name : String) (entry : Entry) : Workspace :=
  { entries := Assoc.put (Path.ofText name).parts entry ws.entries }

/-- The files of a workspace that another one does not have in the same way, by name. -/
def changesFrom (after before : Workspace) : List (String × List UInt8) :=
  after.entries.filterMap (fun (place, entry) =>
    match entry with
    | .directory => none
    | .file bytes =>
      if before.entry? place = some entry then none
      else some ("/".intercalate (place.map String.ofList), bytes))

end Workspace

instance : Files (StateM Workspace) where
  readFile path := do return (← get).read path
  writeFile path text := do
    let (ws, outcome) := (← get).write path text
    set ws
    return outcome

end Switchyard.Command
