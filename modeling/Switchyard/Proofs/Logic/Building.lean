import Switchyard.Logic.Capacity
import Switchyard.Proofs.Outcomes

/-!
# Building a program

A program is built unless a wire cannot be held or a reference is to no declared wire, and the first
of these is reported, the wires before the references (`Circuit.failure?_ofProgram`, on a machine
`Circuit.buildWithin_eq_error_iff`). A built circuit says what the program said. Its ports are
numbers in place of names, and each number is that of a wire with the name, of several the last
(`exists_last_of_wireNumber?`); so reading the names back gives the operands again
(`Circuit.buildWithin_preserves`).
-/

namespace Switchyard

namespace Hdl

/-- The references of a program in the order in which they are looked up. -/
def Program.refs (program : Program) : List Ref :=
  program.gates.flatMap (fun gate => gate.inputs ++ gate.outputs)

/-- The reference is to no declared wire. -/
def Ref.isUndeclared (declared : List Wire) (ref : Ref) : Bool :=
  decide (ref.wire ∉ declared.map (·.name))

/-- The wire has no bit. -/
def Wire.isBitless (wire : Wire) : Bool :=
  decide (wire.width < 1)

/-- The references of a program are the operands of its gates. -/
theorem Program.mem_refs {program : Program} {ref : Ref} :
    ref ∈ program.refs ↔ ∃ gate ∈ program.gates, ref ∈ gate.inputs ++ gate.outputs :=
  List.mem_flatMap

end Hdl

namespace Logic

/-! ## Names -/

/-- A name has a number exactly if a wire has that name. -/
theorem exists_wireNumber?_iff {name : String} {wires : List Hdl.Wire} :
    (∃ n, wireNumber? name wires = some n) ↔ name ∈ wires.map (·.name) := by
  induction wires with
  | nil => exact ⟨nofun, nofun⟩
  | cons wire wires ih =>
    rw [List.map_cons, List.mem_cons, ← ih, wireNumber?]
    cases wireNumber? name wires with
    | some n => simp
    | none => simp [eq_comm]

/-- A name denotes the last wire that has it. -/
theorem exists_last_of_wireNumber? {name : String} {n : Nat} {wires : List Hdl.Wire}
    (h : wireNumber? name wires = some n) : ∃ before after,
      wires.map (·.name) = before ++ name :: after ∧ before.length = n ∧ name ∉ after := by
  induction wires generalizing n with
  | nil => cases h
  | cons wire wires ih =>
    rw [wireNumber?] at h
    cases hrest : wireNumber? name wires with
    | some m =>
      rw [hrest] at h
      cases h
      obtain ⟨before, after, hnames, rfl, hafter⟩ := ih hrest
      exact ⟨wire.name :: before, after, by rw [List.map_cons, hnames, List.cons_append], rfl,
        hafter⟩
    | none =>
      have hafter : name ∉ wires.map (·.name) := by
        rw [← exists_wireNumber?_iff, hrest]
        exact nofun
      rw [hrest] at h
      dsimp only at h
      split at h
      · next hname =>
        cases h
        exact ⟨[], wires.map (·.name), by rw [List.map_cons, hname, List.nil_append], rfl, hafter⟩
      · cases h

/-! ## Why a program is not built -/

section
variable (declared : List Hdl.Wire)

/-- A reference is not built exactly if its wire is undeclared, and that is reported. -/
theorem Port.failure?_ofRef (ref : Hdl.Ref) : failure? (Port.ofRef declared ref) =
    (Option.guard (Hdl.Ref.isUndeclared declared) ref).map
      (fun ref => BuildFault.undefinedWire ref.wire) := by
  unfold Port.ofRef
  cases hnumber : wireNumber? ref.wire declared with
  | some n =>
    have hdeclared : ref.wire ∈ declared.map (·.name) := exists_wireNumber?_iff.1 ⟨n, hnumber⟩
    have hguard : Hdl.Ref.isUndeclared declared ref = false :=
      decide_eq_false (not_not_intro hdeclared)
    rw [Option.guard, hguard]
    rfl
  | none =>
    have hundeclared : ref.wire ∉ declared.map (·.name) := by
      rw [← exists_wireNumber?_iff, hnumber]
      exact nofun
    have hguard : Hdl.Ref.isUndeclared declared ref = true := decide_eq_true hundeclared
    rw [Option.guard, hguard]
    rfl

/-- Operands are not built exactly if a wire is undeclared, and the first such is reported. -/
theorem Port.failure?_mapM_ofRef (refs : List Hdl.Ref) :
    failure? (refs.mapM (Port.ofRef declared)) =
      (refs.find? (Hdl.Ref.isUndeclared declared)).map
        (fun ref => BuildFault.undefinedWire ref.wire) := by
  rw [failure?_mapM, ← findSome?_guard_map]
  exact congrArg (fun f => refs.findSome? f) (funext (Port.failure?_ofRef declared))

/-- A gate is built unless a reference is to no declared wire, its inputs before its outputs. -/
theorem Gate.failure?_ofDeclared (gate : Hdl.Gate) (number : Nat) :
    failure? (Gate.ofDeclared declared gate number) =
      ((gate.inputs ++ gate.outputs).find? (Hdl.Ref.isUndeclared declared)).map
        (fun ref => BuildFault.undefinedWire ref.wire) := by
  unfold Gate.ofDeclared
  rw [List.find?_append, Option.map_or, ← Port.failure?_mapM_ofRef, ← Port.failure?_mapM_ofRef]
  exact failure?_bind (fun inputs => failure?_bind_of_ok (fun outputs => rfl))

end

/-- A declared wire is not built exactly if it has no bit, and that is reported. -/
theorem Wire.failure?_ofDeclared (wire : Hdl.Wire) (number : Nat) :
    failure? (Wire.ofDeclared wire number) =
      (Option.guard Hdl.Wire.isBitless wire).map
        (fun wire => BuildFault.noBits wire.width wire.name) := by
  unfold Wire.ofDeclared Option.guard Hdl.Wire.isBitless
  by_cases hwidth : wire.width < 1
  · rw [if_pos hwidth, decide_eq_true hwidth]
    rfl
  · rw [if_neg hwidth, decide_eq_false hwidth]
    rfl

namespace Circuit

/-- A program is built unless a wire has no bit or a reference is to no declared wire; the first of
these is reported, the wires before the references. -/
theorem failure?_ofProgram (program : Hdl.Program) : failure? (Circuit.ofProgram program) =
    ((program.wires.find? Hdl.Wire.isBitless).map
      (fun wire => BuildFault.noBits wire.width wire.name)).or
    ((program.refs.find? (Hdl.Ref.isUndeclared program.wires)).map
      (fun ref => BuildFault.undefinedWire ref.wire)) := by
  have hwires := failure?_mapM_zipIdx Wire.failure?_ofDeclared program.wires
  have hgates := failure?_mapM_zipIdx (Gate.failure?_ofDeclared program.wires) program.gates
  rw [findSome?_guard_map] at hwires
  rw [Hdl.Program.refs, List.find?_flatMap, List.map_findSome?]
  unfold Circuit.ofProgram
  refine (failure?_bind (fun wires => ?_)).trans (congrArg (fun r => Option.or r _) hwires)
  exact (failure?_bind_of_ok (fun gates => rfl)).trans hgates

section
variable {program : Hdl.Program}
  (h : ∀ gate ∈ program.gates, ∀ ref ∈ gate.inputs ++ gate.outputs,
    ref.wire ∈ program.wires.map (·.name))
include h

/-- If all references are to declared wires, none is found that is not. -/
theorem find?_isUndeclared_eq_none :
    program.refs.find? (Hdl.Ref.isUndeclared program.wires) = none := by
  rw [List.find?_eq_none]
  intro ref href
  obtain ⟨gate, hgate, href⟩ := Hdl.Program.mem_refs.1 href
  rw [Hdl.Ref.isUndeclared, decide_eq_true_eq, not_not]
  exact h gate hgate ref href

/-- A program with references to its own wires only is built unless a wire has no bit; the first of
these is reported. -/
theorem ofProgram_cases :
    match program.wires.find? (fun wire => decide (wire.width < 1)) with
    | some wire => Circuit.ofProgram program = .error (.noBits wire.width wire.name)
    | none => ∃ circuit, Circuit.ofProgram program = .ok circuit := by
  have hfailure := failure?_ofProgram program
  rw [find?_isUndeclared_eq_none h, Option.map_none, Option.or_none] at hfailure
  split
  · next wire hfind =>
    have hbitless : program.wires.find? Hdl.Wire.isBitless = some wire := hfind
    rw [hbitless] at hfailure
    exact failure?_eq_some_iff.1 hfailure
  · next hfind =>
    have hbits : program.wires.find? Hdl.Wire.isBitless = none := hfind
    rw [hbits] at hfailure
    exact failure?_eq_none_iff.1 hfailure

/-- A program whose operands are all declared is built exactly if every wire has a bit. -/
theorem exists_ofProgram_iff :
    (∃ circuit, Circuit.ofProgram program = .ok circuit) ↔
      ∀ wire ∈ program.wires, 1 ≤ wire.width := by
  have hcases := ofProgram_cases h
  split at hcases
  · next wire hfind =>
    have hwidth : wire.width < 1 := by simpa using List.find?_some hfind
    rw [hcases]
    refine ⟨nofun, fun hwidths => ?_⟩
    exact absurd hwidth (Int.not_lt.2 (hwidths wire (List.mem_of_find?_eq_some hfind)))
  · next hfind =>
    refine ⟨fun _ wire hwire => ?_, fun _ => hcases⟩
    simpa using List.find?_eq_none.1 hfind wire hwire

end

end Circuit

/-! ## Building on a machine -/

namespace Machine

/-- The machine builds the wires: each of them has a bit, and they are held together. -/
def Builds (machine : Machine) (wires : List Hdl.Wire) : Prop :=
  (∀ wire ∈ wires, 1 ≤ wire.width) ∧ machine.holds (wires.map (·.width)) = true

/-- Why the machine does not build a wire besides those that it holds. -/
inductive Refuses (machine : Machine) (held : List Int) (wire : Hdl.Wire) : BuildFailure → Prop
  | noBits : wire.width < 1 →
      Refuses machine held wire (.fault (.noBits wire.width wire.name))
  | uncountable : uncountableBits ≤ wire.width → Refuses machine held wire (.excess .uncountable)
  | outOfMemory : 1 ≤ wire.width → wire.width < uncountableBits →
      machine.holds (held ++ [wire.width]) = false →
      Refuses machine held wire (.excess .outOfMemory)

variable {machine : Machine} {held : List Int}

/-- A refusal is one that the machine has a reason for. -/
theorem refuses_of_refusal? {wire : Hdl.Wire} {failure : BuildFailure}
    (h : machine.refusal? held wire = some failure) : machine.Refuses held wire failure := by
  unfold refusal? excess? at h
  split at h
  · next hbits =>
    cases h
    exact .noBits hbits
  · next hbits =>
    split at h
    · next hwide =>
      cases h
      exact .uncountable hwide
    · next hwide =>
      split at h
      · cases h
      · next hfull =>
        cases h
        exact .outOfMemory (Int.not_lt.1 hbits) (Int.not_le.1 hwide) (Bool.not_eq_true _ ▸ hfull)

/-- Whatever the machine has a reason to refuse it refuses, for that reason. -/
theorem Refuses.refusal?_eq {wire : Hdl.Wire} {failure : BuildFailure}
    (h : machine.Refuses held wire failure) : machine.refusal? held wire = some failure := by
  cases h with
  | noBits hbits => rw [refusal?, if_pos hbits]
  | uncountable hwide =>
    have hbits : ¬ wire.width < 1 := Int.not_lt.2 (Int.le_trans (by decide) hwide)
    rw [refusal?, if_neg hbits, excess?, if_pos hwide, Option.map_some]
  | outOfMemory hbit hnarrow hfull =>
    rw [refusal?, if_neg (Int.not_lt.2 hbit), excess?, if_neg (Int.not_le.2 hnarrow), hfull,
      if_neg Bool.false_ne_true, Option.map_some]

/-- A wire is refused exactly for one of the three reasons. -/
theorem refusal?_eq_some_iff {wire : Hdl.Wire} {failure : BuildFailure} :
    machine.refusal? held wire = some failure ↔ machine.Refuses held wire failure :=
  ⟨refuses_of_refusal?, Refuses.refusal?_eq⟩

/-- A wire is built if and only if it has a bit and is held besides the others. -/
theorem refusal?_eq_none_iff {wire : Hdl.Wire} :
    machine.refusal? held wire = none ↔
      1 ≤ wire.width ∧ machine.holds (held ++ [wire.width]) = true := by
  rw [Option.eq_none_iff_forall_ne_some]
  constructor
  · intro hnone
    have hbit : 1 ≤ wire.width := by
      rw [← Int.not_lt]
      exact fun hbits => hnone _ (refusal?_eq_some_iff.2 (.noBits hbits))
    have hnarrow : wire.width < uncountableBits := by
      rw [← Int.not_le]
      exact fun hwide => hnone _ (refusal?_eq_some_iff.2 (.uncountable hwide))
    refine ⟨hbit, ?_⟩
    rw [← Bool.not_eq_false]
    exact fun hfull => hnone _ (refusal?_eq_some_iff.2 (.outOfMemory hbit hnarrow hfull))
  · rintro ⟨hbit, hholds⟩ failure hfailure
    cases refusal?_eq_some_iff.1 hfailure with
    | noBits hbits => exact absurd hbit (Int.not_le.2 hbits)
    | uncountable hwide =>
      have hmem : wire.width ∈ held ++ [wire.width] :=
        List.mem_append_right _ List.mem_cons_self
      exact absurd (machine.countable hholds _ hmem) (Int.not_lt.2 hwide)
    | outOfMemory _ _ hfull => cases hholds.symm.trans hfull

/-- What is held with more wires behind it is held without them. -/
theorem holds_of_append {widths more : List Int} (h : machine.holds (widths ++ more) = true) :
    machine.holds widths = true :=
  machine.holds_of_sublist (List.sublist_append_left widths more) h

/-- Wires are built one after the other if and only if each has a bit and all are held together. -/
theorem refusalOf?_eq_none_iff {wires : List Hdl.Wire} (hheld : machine.holds held = true) :
    machine.refusalOf? held wires = none ↔ (∀ wire ∈ wires, 1 ≤ wire.width) ∧
      machine.holds (held ++ wires.map (·.width)) = true := by
  induction wires generalizing held with
  | nil =>
    rw [List.map_nil, List.append_nil]
    exact ⟨fun _ => ⟨List.forall_mem_nil _, hheld⟩, fun _ => rfl⟩
  | cons wire wires ih =>
    have happend : held ++ (wire :: wires).map (·.width) =
        held ++ [wire.width] ++ wires.map (·.width) := List.append_cons ..
    rw [refusalOf?, Option.or_eq_none_iff, refusal?_eq_none_iff, List.forall_mem_cons, happend,
      and_assoc, and_assoc]
    refine and_congr_right (fun _ => ⟨?_, ?_⟩)
    · rintro ⟨hwire, hrest⟩
      exact (ih hwire).1 hrest
    · rintro ⟨hbits, hall⟩
      have hwire := holds_of_append hall
      exact ⟨hwire, (ih hwire).2 ⟨hbits, hall⟩⟩

/-- The first wire that is refused is one behind wires that are built. -/
theorem refusalOf?_eq_some_iff {wires : List Hdl.Wire} {failure : BuildFailure}
    (hheld : machine.holds held = true) :
    machine.refusalOf? held wires = some failure ↔ ∃ before wire after,
      wires = before ++ wire :: after ∧ (∀ earlier ∈ before, 1 ≤ earlier.width) ∧
      machine.holds (held ++ before.map (·.width)) = true ∧
      machine.Refuses (held ++ before.map (·.width)) wire failure := by
  induction wires generalizing held with
  | nil =>
    refine ⟨nofun, ?_⟩
    rintro ⟨before, wire, after, hsplit, -⟩
    exact absurd hsplit.symm (List.append_ne_nil_of_right_ne_nil _ (List.cons_ne_nil _ _))
  | cons first wires ih =>
    rw [refusalOf?]
    constructor
    · intro h
      cases hfirst : machine.refusal? held first with
      | some reason =>
        rw [hfirst, Option.some_or] at h
        cases h
        refine ⟨[], first, wires, rfl, List.forall_mem_nil _, ?_, ?_⟩
        · rwa [List.map_nil, List.append_nil]
        · rw [List.map_nil, List.append_nil]
          exact refusal?_eq_some_iff.1 hfirst
      | none =>
        rw [hfirst, Option.none_or] at h
        obtain ⟨hbit, hholds⟩ := refusal?_eq_none_iff.1 hfirst
        obtain ⟨before, wire, after, rfl, hbits, hbuilt, hrefuses⟩ := (ih hholds).1 h
        rw [← List.append_cons] at hbuilt hrefuses
        exact ⟨first :: before, wire, after, rfl, List.forall_mem_cons.2 ⟨hbit, hbits⟩, hbuilt,
          hrefuses⟩
    · rintro ⟨before, wire, after, hsplit, hbits, hbuilt, hrefuses⟩
      cases before with
      | nil =>
        cases hsplit
        rw [List.map_nil, List.append_nil] at hrefuses
        rw [refusal?_eq_some_iff.2 hrefuses, Option.some_or]
      | cons earlier before =>
        cases hsplit
        obtain ⟨hbit, hbits⟩ := List.forall_mem_cons.1 hbits
        rw [List.map_cons, List.append_cons] at hbuilt hrefuses
        have hholds := holds_of_append hbuilt
        rw [refusal?_eq_none_iff.2 ⟨hbit, hholds⟩, Option.none_or, ih hholds]
        exact ⟨before, wire, after, rfl, hbits, hbuilt, hrefuses⟩

end Machine

namespace Circuit

variable {machine : Machine} {program : Hdl.Program}

/-- On a machine too the first wire or reference that cannot be built is reported. -/
theorem failure?_buildWithin (machine : Machine) (program : Hdl.Program) :
    failure? (buildWithin machine program) = (machine.refusalOf? [] program.wires).or
      ((program.refs.find? (Hdl.Ref.isUndeclared program.wires)).map
        (fun ref => .fault (.undefinedWire ref.wire))) := by
  unfold buildWithin
  cases hrefusal : machine.refusalOf? [] program.wires with
  | some failure => rfl
  | none =>
    obtain ⟨hbits, -⟩ := (Machine.refusalOf?_eq_none_iff machine.holds_nil).1 hrefusal
    have hnone : program.wires.find? Hdl.Wire.isBitless = none := by
      rw [List.find?_eq_none]
      intro wire hwire
      rw [Hdl.Wire.isBitless, decide_eq_true_eq]
      exact Int.not_lt.2 (hbits wire hwire)
    dsimp only
    rw [failure?_mapError, failure?_ofProgram, hnone, Option.map_none, Option.none_or,
      Option.map_map]
    rfl

/-- A machine builds a program if and only if it builds its wires and all references are to these.
-/
theorem exists_buildWithin_iff : (∃ circuit, buildWithin machine program = .ok circuit) ↔
    machine.Builds program.wires ∧
      ∀ ref ∈ program.refs, ref.wire ∈ program.wires.map (·.name) := by
  rw [← failure?_eq_none_iff, failure?_buildWithin, Option.or_eq_none_iff,
    Machine.refusalOf?_eq_none_iff machine.holds_nil, Option.map_eq_none_iff, List.find?_eq_none]
  simp only [Hdl.Ref.isUndeclared, decide_eq_true_eq, not_not]
  rfl

/-- A machine stops at the first wire that it refuses, or, if it builds them all, at the first
reference that is to none of them. -/
theorem buildWithin_eq_error_iff {failure : BuildFailure} :
    buildWithin machine program = .error failure ↔
      (∃ before wire after, program.wires = before ++ wire :: after ∧ machine.Builds before ∧
        machine.Refuses (before.map (·.width)) wire failure) ∨
      machine.Builds program.wires ∧
        (program.refs.find? (Hdl.Ref.isUndeclared program.wires)).map
          (fun ref => BuildFailure.fault (.undefinedWire ref.wire)) = some failure := by
  have hsome := @Machine.refusalOf?_eq_some_iff machine [] program.wires failure machine.holds_nil
  have hnone := @Machine.refusalOf?_eq_none_iff machine [] program.wires machine.holds_nil
  rw [← failure?_eq_some_iff, failure?_buildWithin, Option.or_eq_some_iff, hsome, hnone]
  simp only [Machine.Builds, and_assoc, List.nil_append]

/-- A machine that does not hold wires with bits refuses one of them for its width. -/
theorem exists_excess_iff (hbits : ∀ wire ∈ program.wires, 1 ≤ wire.width) :
    (∃ excess, buildWithin machine program = .error (.excess excess)) ↔
      machine.holds (program.wires.map (·.width)) = false := by
  have hbuilds : machine.Builds program.wires ↔
      machine.holds (program.wires.map (·.width)) = true := and_iff_right hbits
  rw [← Bool.not_eq_true, ← hbuilds]
  constructor
  · rintro ⟨excess, hexcess⟩ hall
    unfold buildWithin at hexcess
    rw [(Machine.refusalOf?_eq_none_iff machine.holds_nil).2 hall] at hexcess
    cases hbuilt : Circuit.ofProgram program <;> rw [hbuilt] at hexcess <;> cases hexcess
  · intro hfull
    have hrefused : machine.refusalOf? [] program.wires ≠ none :=
      fun hnone => hfull ((Machine.refusalOf?_eq_none_iff machine.holds_nil).1 hnone)
    obtain ⟨failure, hfailure⟩ := Option.ne_none_iff_exists'.1 hrefused
    have herror : buildWithin machine program = .error failure := by
      unfold buildWithin
      rw [hfailure]
    obtain ⟨before, wire, after, hsplit, -, -, hrefuses⟩ :=
      (Machine.refusalOf?_eq_some_iff machine.holds_nil).1 hfailure
    have hwire : wire ∈ program.wires := by
      rw [hsplit]
      exact List.mem_append_right _ List.mem_cons_self
    cases hrefuses with
    | noBits hnone => exact absurd (hbits wire hwire) (Int.not_le.2 hnone)
    | uncountable => exact ⟨.uncountable, herror⟩
    | outOfMemory => exact ⟨.outOfMemory, herror⟩

end Circuit

/-- What a machine builds is the circuit of the program. -/
theorem Circuit.ofProgram_of_buildWithin {machine : Machine} {program : Hdl.Program}
    {circuit : Circuit} (h : Circuit.buildWithin machine program = .ok circuit) :
    Circuit.ofProgram program = .ok circuit := by
  unfold Circuit.buildWithin at h
  split at h
  · cases h
  · cases hbuilt : Circuit.ofProgram program with
    | error fault =>
      rw [hbuilt] at h
      cases h
    | ok built =>
      rw [hbuilt] at h
      cases h
      rfl

/-! ## What a built circuit says -/

/-- The reference that a port stands for: to its bit of the wire that it points to. -/
def Port.toRef? (wires : List Wire) (port : Port) : Option Hdl.Ref :=
  if 0 ≤ port.wire then
    wires[port.wire.toNat]?.map (fun wire => { wire := wire.name, bit := port.bit })
  else none

/-- The port points to a wire behind which no other has its name. -/
def Port.PointsToLast (wires : List Wire) (port : Port) : Prop :=
  ∃ before name after,
    wires.map (·.name) = before ++ name :: after ∧ port.wire = before.length ∧ name ∉ after

/-- A declared wire under a number, with all bits low. -/
def Wire.lowered (declared : Hdl.Wire) (number : Nat) : Wire where
  id := number
  name := declared.name
  width := declared.width
  isInput := declared.isInput
  isOutput := declared.isOutput
  state := List.replicate declared.width.toNat 0

/-- The gate is that of a program under a number: its ports are the operands in order, and it stores
a low level if and only if it is a flip-flop. -/
structure Gate.BuiltFrom (wires : List Wire) (declared : Hdl.Gate) (number : Nat) (gate : Gate) :
    Prop where
  id_eq : gate.id = number
  name_eq : gate.name = declared.name
  kind_eq : gate.kind = Text.upper declared.kind
  stored_eq : gate.stored = if gate.kind = "DFF" then some 0 else none
  inputs_eq : gate.inputs.map (Port.toRef? wires) = declared.inputs.map some
  outputs_eq : gate.outputs.map (Port.toRef? wires) = declared.outputs.map some
  pointsToLast : ∀ port ∈ gate.inputs ++ gate.outputs, port.PointsToLast wires

/-- The circuit is that of a program, with wires and gates numbered in order. -/
structure Circuit.BuiltFrom (program : Hdl.Program) (circuit : Circuit) : Prop where
  cycle_eq : circuit.cycle = 0
  stable_eq : circuit.stable = true
  wires_eq : circuit.wires =
    program.wires.zipIdx.map (fun (declared, number) => Wire.lowered declared number)
  gates : List.Forall₂
    (fun (declared, number) gate => Gate.BuiltFrom circuit.wires declared number gate)
    program.gates.zipIdx circuit.gates

/-- A built wire is the declared one with all its bits low. -/
theorem Wire.eq_lowered {declared : Hdl.Wire} {number : Nat} {wire : Wire}
    (h : Wire.ofDeclared declared number = .ok wire) : wire = Wire.lowered declared number := by
  unfold Wire.ofDeclared at h
  split at h
  · cases h
  · exact (Except.ok.inj h).symm

section
variable {declared : List Hdl.Wire} {wires : List Wire}
  (hnames : wires.map (·.name) = declared.map (·.name))
include hnames

/-- A port that was built shows the reference it was built from, and points to the last wire of that
name. -/
theorem Port.of_ofRef {ref : Hdl.Ref} {port : Port} (h : Port.ofRef declared ref = .ok port) :
    port.toRef? wires = some ref ∧ port.PointsToLast wires := by
  unfold Port.ofRef at h
  split at h
  · next n hnumber =>
    cases h
    obtain ⟨before, after, hsplit, hlength, hafter⟩ := exists_last_of_wireNumber? hnumber
    rw [← hnames] at hsplit
    have hat : (wires.map (·.name))[n]? = some ref.wire := by
      rw [hsplit, ← hlength, List.getElem?_append_right (Nat.le_refl _), Nat.sub_self]
      rfl
    rw [List.getElem?_map] at hat
    obtain ⟨wire, hwire, hname⟩ := Option.map_eq_some_iff.1 hat
    refine ⟨?_, before, ref.wire, after, hsplit, by rw [hlength], hafter⟩
    rw [Port.toRef?, if_pos (Int.natCast_nonneg n), Int.toNat_natCast, hwire, Option.map_some,
      hname]
  · cases h

/-- Ports that were built show their references in order, each pointing to the last wire of its
name. -/
theorem Port.of_mapM_ofRef {refs : List Hdl.Ref} {ports : List Port}
    (h : refs.mapM (Port.ofRef declared) = .ok ports) :
    ports.map (Port.toRef? wires) = refs.map some ∧ ∀ port ∈ ports, port.PointsToLast wires := by
  have hpairs := mapM_eq_ok_iff.1 h
  constructor
  · rw [← List.forall₂_eq_eq_eq, List.forall₂_map_left_iff, List.forall₂_map_right_iff]
    exact (hpairs.imp (fun ref port hport => (Port.of_ofRef hnames hport).1)).flip
  · exact forall_mem_of_forall₂ hpairs.flip (fun port ref hport => (Port.of_ofRef hnames hport).2)

/-- A built gate has the name and the kind it was declared with, and the ports of its operands. -/
theorem Gate.builtFrom_of_ofDeclared {gate : Hdl.Gate} {number : Nat} {built : Gate}
    (h : Gate.ofDeclared declared gate number = .ok built) :
    Gate.BuiltFrom wires gate number built := by
  obtain ⟨inputs, hinputs, h⟩ := bind_eq_ok_iff.1 h
  obtain ⟨outputs, houtputs, h⟩ := bind_eq_ok_iff.1 h
  cases h
  obtain ⟨hins, hinsLast⟩ := Port.of_mapM_ofRef hnames hinputs
  obtain ⟨houts, houtsLast⟩ := Port.of_mapM_ofRef hnames houtputs
  exact {
    id_eq := rfl
    name_eq := rfl
    kind_eq := rfl
    stored_eq := rfl
    inputs_eq := hins
    outputs_eq := houts
    pointsToLast := List.forall_mem_append.2 ⟨hinsLast, houtsLast⟩ }

end

/-- The circuit of a program says what the program says. -/
theorem Circuit.builtFrom_ofProgram {program : Hdl.Program} {circuit : Circuit}
    (h : Circuit.ofProgram program = .ok circuit) : circuit.BuiltFrom program := by
  obtain ⟨wires, hwires, h⟩ := bind_eq_ok_iff.1 h
  obtain ⟨gates, hgates, h⟩ := bind_eq_ok_iff.1 h
  cases h
  have hlowered : wires =
      program.wires.zipIdx.map (fun (declared, number) => Wire.lowered declared number) := by
    rw [← List.forall₂_eq_eq_eq, List.forall₂_map_right_iff]
    exact ((mapM_eq_ok_iff.1 hwires).imp (fun entry wire hwire => Wire.eq_lowered hwire)).flip
  have hnames : wires.map (·.name) = program.wires.map (·.name) := by
    rw [hlowered, List.map_map, ← List.zipIdx_map_fst 0 program.wires, List.map_map]
    rw [List.zipIdx_map_fst]
    rfl
  exact {
    cycle_eq := rfl
    stable_eq := rfl
    wires_eq := hlowered
    gates := (mapM_eq_ok_iff.1 hgates).imp
      (fun entry gate hgate => Gate.builtFrom_of_ofDeclared hnames hgate) }

/-- A machine builds a program if and only if all its wires have bits and are held together, and all
names that its gates refer to are declared. The circuit says what the program says: reading the
names of the wires back from the ports gives the operands of the gates in order. If there is none,
the first wire without bits, or that is not held besides those before it, is reported, or else the
first reference to no declared wire. -/
theorem Circuit.buildWithin_preserves (machine : Machine) (program : Hdl.Program) :
    ((∃ circuit, Circuit.buildWithin machine program = .ok circuit) ↔
      machine.Builds program.wires ∧
        ∀ ref ∈ program.refs, ref.wire ∈ program.wires.map (·.name)) ∧
    (∀ circuit, Circuit.buildWithin machine program = .ok circuit → circuit.BuiltFrom program) ∧
    ∀ failure, Circuit.buildWithin machine program = .error failure ↔
      (∃ before wire after, program.wires = before ++ wire :: after ∧ machine.Builds before ∧
        machine.Refuses (before.map (·.width)) wire failure) ∨
      machine.Builds program.wires ∧
        (program.refs.find? (Hdl.Ref.isUndeclared program.wires)).map
          (fun ref => BuildFailure.fault (.undefinedWire ref.wire)) = some failure := by
  refine ⟨Circuit.exists_buildWithin_iff, fun circuit h => ?_,
    fun failure => Circuit.buildWithin_eq_error_iff⟩
  exact Circuit.builtFrom_ofProgram (Circuit.ofProgram_of_buildWithin h)

/-- No machine gets to a wire without a bit behind one whose bits cannot be counted. -/
theorem Circuit.buildWithin_uncountable :
    let program : Hdl.Program :=
      { wires := [{ name := "a", width := uncountableBits }, { name := "b", width := 0 }] }
    program.wires.find? Hdl.Wire.isBitless = some { name := "b", width := 0 } ∧
      ¬ ∃ machine, Circuit.buildWithin machine program ≠ .error (.excess .uncountable) := by
  refine ⟨by decide, ?_⟩
  rintro ⟨machine, hother⟩
  exact hother rfl

/-- A gate on a name that is declared twice is on the last wire of that name. -/
example :
    (Circuit.buildWithin (.ofRoom 4) {
      wires := [{ name := "x" }, { name := "y" }, { name := "x", width := 2 }]
      gates := [{ kind := "buf", name := "g", inputs := [⟨"x", 1⟩], outputs := [⟨"y", 0⟩] }] }
    ).toOption.map (fun circuit => circuit.gates.map (fun gate => (gate.inputs, gate.outputs))) =
      some [([⟨2, 1⟩], [⟨1, 0⟩])] := by
  decide +kernel

end Logic

end Switchyard
