import Switchyard.Relay.Circuit

/-!
# Circuits as documents

A circuit is written as a JSON object and read back from one. Reading takes components, wires and
ports as they stand, without the checks that editing makes, so that a faulty circuit can be loaded
and inspected. A component whose name occurs twice keeps its first place with its last data.
-/

namespace Switchyard.Relay

/-- Why a document is no circuit. -/
inductive LoadFault where
  /-- A required member is absent. -/
  | missing (member : String)
  /-- A value is of the wrong type. -/
  | wrongType
  /-- A value that must be an object is not. -/
  | notObject
  /-- A text is no number. -/
  | notNumber (text : String)
  /-- A whole number is too large to be a position. -/
  | tooLarge
deriving DecidableEq

/-- The wording of a load fault, for those that have one. -/
def LoadFault.message? : LoadFault → Option String
  | .notNumber text => some s!"could not convert string to float: {Text.quoted text}"
  | _ => none

/-- A required member of a value that should be an object. -/
def required (value : Json) (member : String) : Except LoadFault Json :=
  match value with
  | .obj members =>
    match Assoc.get? member members with
    | some v => .ok v
    | none => .error (.missing member)
  | _ => .error .wrongType

/-- An optional member of a value that must be an object. -/
def optional (value : Json) (member : String) (default : Json) : Except LoadFault Json :=
  match value with
  | .obj members => .ok ((Assoc.get? member members).getD default)
  | _ => .error .notObject

/-- The entries of a value that is gone through one by one: the items of a list, the member names of
an object, the code points of a text. -/
def entriesOf : Json → Except LoadFault (List Json)
  | .arr items => .ok items
  | .obj members => .ok (members.map (fun entry => .str entry.1))
  | .str s => .ok ((Text.points s).map .str)
  | _ => .error .wrongType

/-- The number that a coordinate is: a number, a truth value, or a text that denotes a number. -/
def coordinateOf : Json → Except LoadFault Binary64
  | .real x => .ok x
  | .int n =>
    match Binary64.ofInt? n with
    | some x => .ok x
    | none => .error .tooLarge
  | .bool b => .ok (Binary64.ofFraction false (if b then 1 else 0) 1)
  | .str s =>
    match Binary64.ofText? s with
    | some x => .ok x
    | none => .error (.notNumber s)
  | _ => .error .wrongType

/-- The position of a component that states none. -/
def origin : Json :=
  .obj [("x", .int 0), ("y", .int 0)]

/-- The component that a value describes. -/
def Component.ofJson (value : Json) : Except LoadFault Component := do
  let pos ← optional value "pos" origin
  let id ← required value "id"
  let kind ← required value "type"
  let x ← coordinateOf (← required pos "x")
  let y ← coordinateOf (← required pos "y")
  let rotation ← optional value "rotation" (.int 0)
  let label ← optional value "label" .null
  return { id := ⟨id⟩, kind := Kind.ofJson kind, x, y, rotation, label }

/-- The wire that a value describes. -/
def Wire.ofJson (value : Json) : Except LoadFault Wire := do
  let id ← required value "id"
  let sourceComponent ← required value "source_comp"
  let sourcePort ← required value "source_port"
  let targetComponent ← required value "target_comp"
  let targetPort ← required value "target_port"
  return {
    id := ⟨id⟩
    source := ⟨⟨sourceComponent⟩, ⟨sourcePort⟩⟩
    target := ⟨⟨targetComponent⟩, ⟨targetPort⟩⟩ }

/-- The external port that a value describes. Its name is its identifier unless it states one. -/
def Port.ofJson (direction : String) (value : Json) : Except LoadFault Port := do
  let id ← required value "id"
  let name ← optional value "name" id
  let direction ← optional value "direction" (.str direction)
  let component ← required value "component_id"
  return { id := ⟨id⟩, name := ⟨name⟩, direction, component := ⟨component⟩ }

/-- An external port as a JSON object. -/
def Port.toJson (port : Port) : Json :=
  .obj [("id", port.id.toJson), ("name", port.name.toJson), ("direction", port.direction),
    ("component_id", port.component.toJson)]

/-- The components that values describe, placed under their names among those before them. A name
must be one that can be looked up. -/
def readComponents : (placed : Placement) → List Json → Except LoadFault Placement
  | placed, [] => .ok placed
  | placed, value :: rest => do
    let component ← Component.ofJson value
    if component.id.isScalar then readComponents (placed.put component) rest
    else throw .wrongType

namespace Circuit

/-- The circuit that a value describes. -/
def ofJson (value : Json) : Except LoadFault Circuit := do
  let placed ← readComponents {} (← entriesOf (← optional value "components" (.arr [])))
  let id ← optional value "id" (.str "untitled")
  let name ← optional value "name" (.str "Untitled")
  let era ← optional value "era" (.str "relay")
  let wires ← (← entriesOf (← optional value "wires" (.arr []))).mapM Wire.ofJson
  let inputs ← (← entriesOf (← optional value "inputs" (.arr []))).mapM (Port.ofJson "input")
  let outputs ← (← entriesOf (← optional value "outputs" (.arr []))).mapM (Port.ofJson "output")
  let description ← optional value "description" (.str "")
  return { id, name, era, placed, wires, inputs, outputs, description }

/-- A circuit as a JSON object, with its description if there is one. -/
def toJson (circuit : Circuit) : Json :=
  .obj ([("id", circuit.id), ("name", circuit.name), ("era", circuit.era),
      ("components", .arr (circuit.components.map Component.toJson)),
      ("wires", .arr (circuit.wires.map Wire.toJson)),
      ("inputs", .arr (circuit.inputs.map Port.toJson)),
      ("outputs", .arr (circuit.outputs.map Port.toJson))] ++
    (if circuit.description.isVoid then [] else [("description", circuit.description)]))

end Circuit

end Switchyard.Relay
