import Switchyard.Relay.Component

/-!
# Wires

A wire joins two terminals, a terminal being a port of a component. Which end is the source and
which the target makes no electrical difference.
-/

namespace Switchyard.Relay

/-- A port of a component. -/
structure Terminal where
  component : Ident
  port : Ident
deriving DecidableEq

/-- Terminals are the same if they are the port of one name of the component of one name. -/
instance : BEq Terminal := ⟨fun a b => a.component == b.component && a.port == b.port⟩

/-- Terminals are equal exactly if their components and their ports are. -/
theorem Terminal.beq_iff {a b : Terminal} :
    a == b ↔ a.component == b.component ∧ a.port == b.port := by
  change (a.component == b.component && a.port == b.port) = true ↔ _
  simp

instance : EquivBEq Terminal where
  rfl := Terminal.beq_iff.2 ⟨BEq.rfl, BEq.rfl⟩
  symm h := by
    have ⟨hc, hp⟩ := Terminal.beq_iff.1 h
    exact Terminal.beq_iff.2 ⟨BEq.symm hc, BEq.symm hp⟩
  trans h h' := by
    have ⟨hc, hp⟩ := Terminal.beq_iff.1 h
    have ⟨hc', hp'⟩ := Terminal.beq_iff.1 h'
    exact Terminal.beq_iff.2 ⟨BEq.trans hc hc', BEq.trans hp hp'⟩

/-- Whether two terminals are equal. -/
def Terminal.equals (a b : Terminal) : Bool :=
  a.component.equals b.component && a.port.equals b.port

/-- Whether a terminal can be looked up. -/
def Terminal.isScalar (terminal : Terminal) : Bool :=
  terminal.component.isScalar && terminal.port.isScalar

/-- A wire between two terminals. -/
structure Wire where
  id : Ident
  source : Terminal
  target : Terminal
deriving DecidableEq

namespace Wire

/-- The two ends of a wire. -/
def terminals (wire : Wire) : List Terminal :=
  [wire.source, wire.target]

/-- Whether a wire and its ends can be looked up. -/
def isScalar (wire : Wire) : Bool :=
  wire.id.isScalar && wire.source.isScalar && wire.target.isScalar

/-- Whether a wire has an end on a component. -/
def touches (wire : Wire) (component : Ident) : Bool :=
  wire.source.component.equals component || wire.target.component.equals component

/-- Whether a wire has an end on a terminal. -/
def meets (wire : Wire) (terminal : Terminal) : Bool :=
  wire.source.equals terminal || wire.target.equals terminal

/-- Whether a wire joins two given terminals, in either direction. -/
def joins (wire : Wire) (a b : Terminal) : Bool :=
  (wire.source == a && wire.target == b) || (wire.source == b && wire.target == a)

/-- A wire shown with its name and ends. -/
def summary (wire : Wire) : String :=
  "WireData(" ++ wire.id.display ++ ": " ++ wire.source.component.display ++ "." ++
    wire.source.port.display ++ " -> " ++ wire.target.component.display ++ "." ++
    wire.target.port.display ++ ")"

/-- A wire as a JSON object. -/
def toJson (wire : Wire) : Json :=
  .obj [("id", wire.id.toJson), ("source_comp", wire.source.component.toJson),
    ("source_port", wire.source.port.toJson), ("target_comp", wire.target.component.toJson),
    ("target_port", wire.target.port.toJson)]

end Wire

end Switchyard.Relay
