import Switchyard.Logic.Circuit

/-!
# Capacity

A built wire keeps a level for each of its bits, so a program can declare wires that a machine does
not hold. Which wires it holds is a matter of the machine. It is only relied on that it holds fewer
and narrower wires too, and no wire whose bits cannot be counted (`Machine`). Building a program
comes to a wire that does not fit besides those before it, or to one without a bit, in the order of
the declarations (`Circuit.buildWithin`).
-/

namespace Switchyard.Logic

/-- In what way a wire has too many bits. -/
inductive Excess where
  /-- Their number does not fit into a signed word of 64 bits. -/
  | uncountable
  /-- They do not fit into the memory. -/
  | outOfMemory
deriving DecidableEq, Repr

/-- The least number of bits that cannot be counted. -/
def uncountableBits : Int := 0x8000000000000000

/-- A machine, as far as it holds wires. -/
structure Machine where
  /-- Whether wires of these widths, built one after the other, are held together. -/
  holds : List Int → Bool
  holds_nil : holds [] = true
  /-- Fewer wires are held too. -/
  holds_of_sublist : ∀ {few widths : List Int}, few.Sublist widths → holds widths = true →
    holds few = true
  /-- Narrower wires are held too. -/
  holds_of_le : ∀ {before after : List Int} {narrow width : Int}, narrow ≤ width →
    holds (before ++ width :: after) = true → holds (before ++ narrow :: after) = true
  /-- Wires whose bits cannot be counted are not held. -/
  countable : ∀ {widths : List Int}, holds widths = true → ∀ width ∈ widths,
    width < uncountableBits

namespace Machine

/-- The bits of wires altogether. -/
def bits : List Int → Nat
  | [] => 0
  | width :: widths => width.toNat + bits widths

/-- The bits of wires one after the other are the bits of both parts. -/
theorem bits_append (before after : List Int) :
    bits (before ++ after) = bits before + bits after := by
  induction before with
  | nil => exact (Nat.zero_add _).symm
  | cons width before ih =>
    rw [List.cons_append, bits, bits, ih, Nat.add_assoc]

/-- Fewer wires have no more bits. -/
theorem bits_le_of_sublist {few widths : List Int} (h : few.Sublist widths) :
    bits few ≤ bits widths := by
  induction h with
  | slnil => exact Nat.le_refl _
  | cons width _ ih => exact Nat.le_trans ih (Nat.le_add_left _ _)
  | cons_cons width _ ih => exact Nat.add_le_add_left ih _

/-- A machine with room for so many bits, if they can be counted. -/
def ofRoom (room : Nat) : Machine where
  holds widths := widths.all (· < uncountableBits) && bits widths ≤ room
  holds_nil := by
    simp [bits]
  holds_of_sublist := by
    intro few widths hfew hholds
    simp only [Bool.and_eq_true, List.all_eq_true, decide_eq_true_eq] at hholds ⊢
    exact ⟨fun width hwidth => hholds.1 width (hfew.subset hwidth),
      Nat.le_trans (bits_le_of_sublist hfew) hholds.2⟩
  holds_of_le := by
    intro before after narrow width hle hholds
    simp only [Bool.and_eq_true, List.all_eq_true, decide_eq_true_eq, List.forall_mem_append,
      List.forall_mem_cons] at hholds ⊢
    have hbits : bits (before ++ narrow :: after) ≤ bits (before ++ width :: after) := by
      rw [bits_append, bits_append, bits, bits]
      omega
    exact ⟨⟨hholds.1.1, Int.lt_of_le_of_lt hle hholds.1.2.1, hholds.1.2.2⟩,
      Nat.le_trans hbits hholds.2⟩
  countable := by
    intro widths hholds
    simp only [Bool.and_eq_true, List.all_eq_true, decide_eq_true_eq] at hholds
    exact hholds.1

/-- In what way a wire is too wide for a machine that holds others, if it is. -/
def excess? (machine : Machine) (held : List Int) (width : Int) : Option Excess :=
  if uncountableBits ≤ width then some .uncountable
  else if machine.holds (held ++ [width]) then none
  else some .outOfMemory

end Machine

/-- Why a program is not built on a machine. -/
inductive BuildFailure where
  /-- The program cannot be built. -/
  | fault (fault : BuildFault)
  /-- A wire has too many bits. -/
  | excess (excess : Excess)
deriving DecidableEq, Repr

/-- Why a declared wire is not built on a machine that holds others: it has no bit or too many. -/
def Machine.refusal? (machine : Machine) (held : List Int) (wire : Hdl.Wire) :
    Option BuildFailure :=
  if wire.width < 1 then some (.fault (.noBits wire.width wire.name))
  else (machine.excess? held wire.width).map .excess

/-- Why the first of the declared wires that is not built on a machine is not. -/
def Machine.refusalOf? (machine : Machine) (held : List Int) : List Hdl.Wire → Option BuildFailure
  | [] => none
  | wire :: wires =>
    (machine.refusal? held wire).or (machine.refusalOf? (held ++ [wire.width]) wires)

/-- The circuit of a program, unless a machine does not hold its wires. -/
def Circuit.buildWithin (machine : Machine) (program : Hdl.Program) :
    Except BuildFailure Circuit :=
  match machine.refusalOf? [] program.wires with
  | some failure => .error failure
  | none => (Circuit.ofProgram program).mapError .fault

end Switchyard.Logic
