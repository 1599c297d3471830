import Switchyard.Relay.Wire
import Switchyard.Signal

/-!
# Nets

A net is a set of terminals that are electrically the same point, with the wires that join them and
the level it carries. A net that nothing drives carries no known level.
-/

namespace Switchyard.Relay

/-- A set of joined terminals and its level. -/
structure Net where
  number : Nat
  terminals : List Terminal := []
  wires : List Ident := []
  signal : Signal := .unknown
  /-- Whether something asserts the level. -/
  driven : Bool := false
deriving DecidableEq

/-- A list with an element added at the end unless the same one is there. -/
def insertNew {α : Type} [BEq α] (xs : List α) (x : α) : List α :=
  if xs.contains x then xs else xs ++ [x]

/-- A new item is contained besides the old ones. -/
theorem contains_insertNew {α : Type} [BEq α] [EquivBEq α] (xs : List α) (x y : α) :
    (insertNew xs x).contains y = (xs.contains y || x == y) := by
  unfold insertNew
  split
  · next h =>
    obtain ⟨z, hz, hxz⟩ := List.contains_iff_exists_mem_beq.1 h
    by_cases hxy : x == y
    · have hy : xs.contains y = true :=
        List.contains_iff_exists_mem_beq.2 ⟨z, hz, BEq.trans (BEq.symm hxy) hxz⟩
      rw [hy, Bool.true_or]
    · simp [hxy]
  · simp [BEq.comm]

/-- New items, one after the other, are contained besides the old ones. -/
theorem contains_foldl_insertNew {α : Type} [BEq α] [EquivBEq α] (ys xs : List α) (y : α) :
    (ys.foldl insertNew xs).contains y = (xs.contains y || ys.contains y) := by
  induction ys generalizing xs with
  | nil => simp
  | cons z ys ih =>
    rw [List.foldl_cons, ih, contains_insertNew, List.contains_cons, Bool.or_assoc,
      BEq.comm (a := y)]

/-- With a new item no list is empty. -/
theorem insertNew_ne_nil {α : Type} [BEq α] (xs : List α) (x : α) : insertNew xs x ≠ [] := by
  unfold insertNew
  split
  · next h =>
    rintro rfl
    simp at h
  · simp

namespace Net

/-- The name of the net with a number. -/
def nameOf (number : Nat) : String :=
  s!"net_{number}"

/-- The name of a net. -/
def name (net : Net) : String :=
  nameOf net.number

/-- The net with a terminal added. -/
def addTerminal (net : Net) (terminal : Terminal) : Net :=
  { net with terminals := insertNew net.terminals terminal }

/-- The net with a wire added. -/
def addWire (net : Net) (wire : Ident) : Net :=
  { net with wires := insertNew net.wires wire }

/-- Whether a terminal belongs to the net. -/
def contains (net : Net) (terminal : Terminal) : Bool :=
  net.terminals.contains terminal

/-- The net with the terminals and wires of another one. -/
def merge (net other : Net) : Net :=
  { net with
    terminals := other.terminals.foldl insertNew net.terminals
    wires := other.wires.foldl insertNew net.wires }

/-- The net with nothing driving it. -/
def reset (net : Net) : Net :=
  { net with signal := .unknown, driven := false }

/-- Whether asserting a level changes the net: its level, or that it is driven. -/
def changes (net : Net) (level : Signal) : Bool :=
  net.signal ≠ level || !net.driven

/-- The net with a level asserted. -/
def drive (net : Net) (level : Signal) : Net :=
  { net with signal := level, driven := true }

/-- The net pulled low unless something drives it. -/
def ground (net : Net) : Net :=
  if net.driven then net else { net with signal := .low }

/-- Whether the net has no terminal. -/
def isEmpty (net : Net) : Bool :=
  net.terminals.isEmpty

/-- A terminal that is added keeps the number of a net. -/
@[simp] theorem number_addTerminal (net : Net) (terminal : Terminal) :
    (net.addTerminal terminal).number = net.number := rfl
@[simp] theorem number_addWire (net : Net) (wire : Ident) :
    (net.addWire wire).number = net.number := rfl
@[simp] theorem number_merge (net other : Net) : (net.merge other).number = net.number := rfl
@[simp] theorem number_reset (net : Net) : net.reset.number = net.number := rfl
@[simp] theorem number_drive (net : Net) (level : Signal) :
    (net.drive level).number = net.number := rfl
@[simp] theorem number_ground (net : Net) : net.ground.number = net.number := by
  unfold ground
  split <;> rfl

/-- A net contains the terminal that was added besides its own. -/
@[simp] theorem contains_addTerminal (net : Net) (terminal t : Terminal) :
    (net.addTerminal terminal).contains t = (net.contains t || terminal == t) :=
  contains_insertNew _ _ _
@[simp] theorem contains_addWire (net : Net) (wire : Ident) (t : Terminal) :
    (net.addWire wire).contains t = net.contains t := rfl
/-- A merged net contains the terminals of both. -/
@[simp] theorem contains_merge (net other : Net) (t : Terminal) :
    (net.merge other).contains t = (net.contains t || other.contains t) :=
  contains_foldl_insertNew _ _ _

@[simp] theorem wires_addTerminal (net : Net) (terminal : Terminal) :
    (net.addTerminal terminal).wires = net.wires := rfl
/-- A net has the wire that was added besides its own. -/
@[simp] theorem contains_wires_addWire (net : Net) (wire w : Ident) :
    (net.addWire wire).wires.contains w = (net.wires.contains w || wire == w) :=
  contains_insertNew _ _ _
/-- A merged net has the wires of both. -/
@[simp] theorem contains_wires_merge (net other : Net) (w : Ident) :
    (net.merge other).wires.contains w = (net.wires.contains w || other.wires.contains w) :=
  contains_foldl_insertNew _ _ _

/-- A net shown with the numbers of its terminals and wires. -/
def summary (net : Net) : String :=
  s!"NetData({net.name}, terminals={net.terminals.length}, wires={net.wires.length})"

end Net

end Switchyard.Relay
