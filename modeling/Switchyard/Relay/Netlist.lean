import Switchyard.Relay.Net

/-!
# Netlists

The netlist of a list of wires groups the ends of the wires into nets. Wires are taken in order: one
that touches no earlier net opens a new one, one that touches a single net extends it, and one that
bridges two nets merges the younger into the older. Nets are numbered as they are opened and listed
by number. Terminals and wires find their net through its number: the terminals while the nets grow
(`addWire`), the wires once all of them are there (`indexWires`).
-/

namespace Switchyard.Relay

/-- The nets of a circuit, with the number of nets opened so far. -/
structure Netlist where
  nets : List Net := []
  /-- The number of the net that a terminal belongs to. -/
  terminalNets : List (Terminal × Nat) := []
  /-- The number of the net that a wire belongs to. -/
  wireNets : List (Ident × Nat) := []
  opened : Nat := 0
deriving DecidableEq

namespace Netlist

/-- The net of a number. -/
def net? (netlist : Netlist) (number : Nat) : Option Net :=
  netlist.nets.find? (·.number = number)

/-- The number of the net that a terminal belongs to. -/
def numberAt? (netlist : Netlist) (terminal : Terminal) : Option Nat :=
  Assoc.get? terminal netlist.terminalNets

/-- The net that a terminal belongs to. -/
def netAt? (netlist : Netlist) (terminal : Terminal) : Option Net :=
  (netlist.numberAt? terminal).bind netlist.net?

/-- The net that a wire belongs to; of several wires with one name the net listed last counts. -/
def netOfWire? (netlist : Netlist) (wire : Ident) : Option Net :=
  (Assoc.get? wire netlist.wireNets).bind netlist.net?

/-- The names of the wires in the nets. -/
def wireIds (netlist : Netlist) : List Ident :=
  netlist.wireNets.map (·.1)

/-- The netlist with the net of a number changed. -/
def update (netlist : Netlist) (number : Nat) (change : Net → Net) : Netlist :=
  { netlist with
    nets := netlist.nets.map (fun net => if net.number = number then change net else net) }

/-- The netlist with a terminal referred to the net of a number. -/
def refer (netlist : Netlist) (number : Nat) (terminal : Terminal) : Netlist :=
  { netlist with terminalNets := Assoc.put terminal number netlist.terminalNets }

/-- The netlist with one more net, which holds the two ends of a wire. -/
def openNet (netlist : Netlist) (wire : Wire) : Netlist :=
  let net := (((Net.mk netlist.opened [] [] .unknown false).addTerminal wire.source).addTerminal
    wire.target).addWire wire.id
  let opened := { netlist with nets := netlist.nets ++ [net], opened := netlist.opened + 1 }
  (opened.refer net.number wire.source).refer net.number wire.target

/-- The netlist with one of its nets extended by the other end of a wire. -/
def extendNet (netlist : Netlist) (number : Nat) (terminal : Terminal) (wire : Ident) : Netlist :=
  (netlist.update number (fun net => (net.addTerminal terminal).addWire wire)).refer number terminal

/-- The netlist with one net merged into another, to which the terminals of the former are then
referred. -/
def mergeNets (netlist : Netlist) (keep drop : Net) : Netlist :=
  let merged := netlist.update keep.number (·.merge drop)
  let referred := drop.terminals.foldl (fun netlist => netlist.refer keep.number) merged
  { referred with nets := referred.nets.filter (·.number ≠ drop.number) }

/-- The netlist after one more wire. -/
def addWire (netlist : Netlist) (wire : Wire) : Netlist :=
  match netlist.netAt? wire.source, netlist.netAt? wire.target with
  | none, none => netlist.openNet wire
  | none, some net => netlist.extendNet net.number wire.source wire.id
  | some net, none => netlist.extendNet net.number wire.target wire.id
  | some a, some b =>
    let wired := netlist.update a.number (·.addWire wire.id)
    if a.number = b.number then wired
    else if a.number < b.number then wired.mergeNets a b
    else wired.mergeNets b (a.addWire wire.id)

/-- The wires of a net referred to it. -/
def indexNet (index : List (Ident × Nat)) (net : Net) : List (Ident × Nat) :=
  net.wires.foldl (fun index wire => Assoc.put wire net.number index) index

/-- The netlist with every wire referred to the net that holds it. -/
def indexWires (netlist : Netlist) : Netlist :=
  { netlist with wireNets := netlist.nets.foldl indexNet [] }

/-- The netlist of a list of wires. -/
def ofWires (wires : List Wire) : Netlist :=
  (wires.foldl addWire {}).indexWires

/-- The level at a terminal; unknown for a terminal that no wire touches. -/
def signalAt (netlist : Netlist) (terminal : Terminal) : Signal :=
  ((netlist.netAt? terminal).map (·.signal)).getD .unknown

/-- The netlist with a level asserted at a terminal, and whether that changes anything. A terminal
that no wire touches takes no level. -/
def drive (netlist : Netlist) (terminal : Terminal) (level : Signal) : Netlist × Bool :=
  match netlist.netAt? terminal with
  | none => (netlist, false)
  | some net => (netlist.update net.number (·.drive level), net.changes level)

/-- The netlist with nothing driving any net. -/
def reset (netlist : Netlist) : Netlist :=
  { netlist with nets := netlist.nets.map Net.reset }

/-- The netlist with every net that nothing drives pulled low. -/
def ground (netlist : Netlist) : Netlist :=
  { netlist with nets := netlist.nets.map Net.ground }

end Netlist

end Switchyard.Relay
