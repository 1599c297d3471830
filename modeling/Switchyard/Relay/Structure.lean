import Switchyard.Relay.Ident

/-!
# The structure of a circuit file

Before a JSON value is loaded as a circuit, `checkStructure` goes through it: the lists must be
there, components and wires must have their members, names must be distinct, positions must be
numeric, and every reference must name a component of the file. Entries are taken as they come, so
an entry that is no object may stop the check with a type fault instead of a complaint.
-/

namespace Switchyard.Relay

/-- What a check can find wrong with a value. -/
inductive StructureFault where
  | notAnObject
  /-- A list is absent or no list. -/
  | noList (name : String)
  | componentMissing (number : Nat) (member : String)
  | duplicateComponent (id : Json)
  | badPosition (id : Json)
  | positionNotNumeric (id : Json)
  | wireMissing (number : Nat) (member : String)
  | duplicateWire (id : Json)
  | wireUnknownComponent (number : Nat) (component : Json)
  /-- A list of ports is no list. -/
  | badPortList (name : String)
  | portMissing (number : Nat) (list : String)
  | portUnknownComponent (number : Nat) (list : String) (component : Json)
  /-- A value is of a type on which the check itself cannot be made. -/
  | wrongType
deriving DecidableEq

/-- The wording of a fault; a type fault has none. -/
def StructureFault.message? : StructureFault → Option String
  | .notAnObject => some "File does not contain a valid circuit object."
  | .noList name => some s!"Missing or invalid '{name}' list."
  | .componentMissing number member =>
    some s!"Component #{number} is missing required field '{member}'."
  | .duplicateComponent id => some s!"Duplicate component id '{id.display}'."
  | .badPosition id => some s!"Component '{id.display}' has invalid position data."
  | .positionNotNumeric id => some s!"Component '{id.display}' position values must be numeric."
  | .wireMissing number member => some s!"Wire #{number} is missing required field '{member}'."
  | .duplicateWire id => some s!"Duplicate wire id '{id.display}'."
  | .wireUnknownComponent number component =>
    some s!"Wire #{number} references unknown component '{component.display}'."
  | .badPortList name => some s!"Invalid '{name}' list."
  | .portMissing number list => some s!"Entry #{number} in '{list}' needs 'id' and 'component_id'."
  | .portUnknownComponent number list component =>
    some s!"Entry #{number} in '{list}' references unknown component '{component.display}'."
  | .wrongType => none

/-- Whether a text occurs within another. -/
def occursIn (part : List Char) : List Char → Bool
  | [] => part.isEmpty
  | c :: cs => part.isPrefixOf (c :: cs) || occursIn part cs

/-- Whether an entry mentions a member: an object has it, a list holds its name, a text contains
it. -/
def mentions (entry : Json) (member : String) : Except StructureFault Bool :=
  match entry with
  | .obj members => .ok (Assoc.has member members)
  | .arr items => .ok (items.any (fun item => item = .str member))
  | .str s => .ok (occursIn member.toList s.toList)
  | _ => .error .wrongType

/-- The member of an entry, which must be an object that has it. -/
def memberOf (entry : Json) (member : String) : Except StructureFault Json :=
  match entry.get? member with
  | some v => .ok v
  | none => .error .wrongType

/-- The identifier of a value, which must be a scalar. -/
def scalarOf (value : Json) : Except StructureFault Ident :=
  if value.isScalar then .ok ⟨value⟩ else .error .wrongType

/-- Refuse an entry that lacks one of the given members. -/
def requireAll (entry : Json) (fault : String → StructureFault) :
    List String → Except StructureFault Unit
  | [] => .ok ()
  | member :: rest => do
    if ← mentions entry member then requireAll entry fault rest else throw (fault member)

/-- Whether a value is a number or a truth value. -/
def isNumeric : Json → Bool
  | .int _ | .real _ | .bool _ => true
  | _ => false

/-- Check the position of a component, if it states one. -/
def checkPosition (component id : Json) : Except StructureFault Unit :=
  match component.get? "pos" with
  | none => .ok ()
  | some pos =>
    match pos.get? "x", pos.get? "y" with
    | some x, some y =>
      if isNumeric x && isNumeric y then .ok () else .error (.positionNotNumeric id)
    | _, _ => .error (.badPosition id)

/-- Check the components from a given number on, and give the names of all of them. -/
def checkComponents : (number : Nat) → List Ident → List Json →
    Except StructureFault (List Ident)
  | _, ids, [] => .ok ids
  | number, ids, component :: rest => do
    requireAll component (.componentMissing number) ["id", "type"]
    let idValue ← memberOf component "id"
    let id ← scalarOf idValue
    if ids.contains id then throw (.duplicateComponent idValue)
    checkPosition component idValue
    checkComponents (number + 1) (ids ++ [id]) rest

/-- Check the end of a wire: it must name a component. -/
def checkEnd (ids : List Ident) (number : Nat) (wire : Json) (member : String) :
    Except StructureFault Unit := do
  let value ← memberOf wire member
  let component ← scalarOf value
  if ids.contains component then return () else throw (.wireUnknownComponent number value)

/-- Check the wires from a given number on, `seen` being the names of those before. -/
def checkWires (ids : List Ident) : (number : Nat) → (seen : List Ident) → List Json →
    Except StructureFault Unit
  | _, _, [] => .ok ()
  | number, seen, wire :: rest => do
    requireAll wire (.wireMissing number)
      ["id", "source_comp", "source_port", "target_comp", "target_port"]
    let idValue ← memberOf wire "id"
    let id ← scalarOf idValue
    if seen.contains id then throw (.duplicateWire idValue)
    checkEnd ids number wire "source_comp"
    checkEnd ids number wire "target_comp"
    checkWires ids (number + 1) (seen ++ [id]) rest

/-- Check the ports of a list from a given number on. -/
def checkPorts (ids : List Ident) (list : String) : (number : Nat) → List Json →
    Except StructureFault Unit
  | _, [] => .ok ()
  | number, port :: rest => do
    requireAll port (fun _ => .portMissing number list) ["id", "component_id"]
    let value ← memberOf port "component_id"
    let component ← scalarOf value
    if ids.contains component then checkPorts ids list (number + 1) rest
    else throw (.portUnknownComponent number list value)

/-- Check a list of ports, if the value has one. -/
def checkPortList (value : Json) (ids : List Ident) (list : String) : Except StructureFault Unit :=
  match value.get? list with
  | none => .ok ()
  | some (.arr ports) => checkPorts ids list 1 ports
  | some _ => .error (.badPortList list)

/-- The items of a list that an object must have. -/
def requiredList (value : Json) (list : String) : Except StructureFault (List Json) :=
  match value.get? list with
  | some (.arr items) => .ok items
  | _ => .error (.noList list)

/-- Check that a value has the structure of a circuit file. -/
def checkStructure (value : Json) : Except StructureFault Unit :=
  match value with
  | .obj _ => do
    let components ← requiredList value "components"
    let wires ← requiredList value "wires"
    let ids ← checkComponents 1 [] components
    checkWires ids 1 [] wires
    checkPortList value ids "inputs"
    checkPortList value ids "outputs"
  | _ => .error .notAnObject

end Switchyard.Relay
