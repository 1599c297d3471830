import Switchyard.Proofs.Outcomes
import Switchyard.Relay.Document
import Switchyard.Relay.Structure

/-!
# What the check of a circuit file guarantees

The check accepts a value exactly if it describes a circuit (`checkStructure_eq_ok_iff`): its
entries are objects with the members that a loading asks for, no two of one name, and every
reference names a component of the file. Such a value is loaded (`Circuit.ofJson_cases`) but for one
thing that the check does not look at, whether a whole number fits into a coordinate. On other
values the check says what is wrong as long as it can be made on their entries
(`Legible.worded_checkStructure`); an entry that is a number, or whose name is a list, stops it
without a word.
-/

namespace Switchyard.Relay

/-! ## Entries -/

/-- No two of the identifiers name the same thing, and none names what an earlier one does. -/
def Fresh (earlier ids : List Ident) : Prop :=
  ids.Pairwise (fun a b => (a == b) = false) ∧ ∀ a ∈ earlier, ∀ b ∈ ids, (a == b) = false

/-- No identifiers are fresh. -/
theorem fresh_nil (earlier : List Ident) : Fresh earlier [] :=
  ⟨.nil, nofun⟩

/-- Identifiers are fresh one after the other. -/
theorem fresh_cons {earlier ids : List Ident} {id : Ident} :
    Fresh earlier (id :: ids) ↔ earlier.contains id = false ∧ Fresh (earlier ++ [id]) ids := by
  have hcontains : earlier.contains id = false ↔ ∀ a ∈ earlier, (a == id) = false := by
    rw [← Bool.not_eq_true, List.contains_iff_exists_mem_beq]
    simp [BEq.comm]
  unfold Fresh
  rw [hcontains, List.pairwise_cons]
  constructor
  · rintro ⟨⟨hid, hids⟩, hearlier⟩
    refine ⟨fun a ha => hearlier a ha id List.mem_cons_self, hids, ?_⟩
    exact List.forall_mem_append.2
      ⟨fun a ha b hb => hearlier a ha b (List.mem_cons_of_mem _ hb),
        List.forall_mem_singleton.2 hid⟩
  · rintro ⟨hid, hids, hearlier⟩
    obtain ⟨hearlier, hnew⟩ := List.forall_mem_append.1 hearlier
    exact ⟨⟨List.forall_mem_singleton.1 hnew, hids⟩,
      fun a ha => List.forall_mem_cons.2 ⟨hid a ha, hearlier a ha⟩⟩

/-- The position of a component is absent, or has two numeric coordinates. -/
def Positioned (entry : Json) : Prop :=
  ∀ pos, entry.get? "pos" = some pos → ∃ x y, pos.get? "x" = some x ∧ pos.get? "y" = some y ∧
    isNumeric x = true ∧ isNumeric y = true

/-- The entry describes a component of a name that can be looked up. -/
structure DescribesComponent (entry : Json) (id : Ident) : Prop where
  named : entry.get? "id" = some id.value
  scalar : id.isScalar = true
  kind : (entry.get? "type").isSome = true
  position : Positioned entry

/-- A member of the entry names one of some components. -/
def Refers (ids : List Ident) (entry : Json) (member : String) : Prop :=
  ∃ id : Ident, entry.get? member = some id.value ∧ id.isScalar = true ∧ ids.contains id = true

/-- A reference is stated by its entry. -/
theorem Refers.isSome {ids : List Ident} {entry : Json} {member : String}
    (h : Refers ids entry member) : (entry.get? member).isSome = true := by
  obtain ⟨id, hid, -⟩ := h
  rw [hid]
  rfl

/-- The entry describes a wire of a name that can be looked up, between two of some components. -/
structure DescribesWire (ids : List Ident) (entry : Json) (id : Ident) : Prop where
  named : entry.get? "id" = some id.value
  scalar : id.isScalar = true
  source : Refers ids entry "source_comp"
  sourcePort : (entry.get? "source_port").isSome = true
  target : Refers ids entry "target_comp"
  targetPort : (entry.get? "target_port").isSome = true

/-- The entry describes an external port that stands for one of some components. -/
structure DescribesPort (ids : List Ident) (entry : Json) : Prop where
  named : (entry.get? "id").isSome = true
  component : Refers ids entry "component_id"

/-- A list of external ports is absent, or describes them. -/
def DescribesPorts (ids : List Ident) (value : Json) (list : String) : Prop :=
  ∀ ports, value.get? list = some ports →
    ∃ entries, ports = .arr entries ∧ ∀ entry ∈ entries, DescribesPort ids entry

/-- The value describes components and wires of distinct names, and external ports. -/
structure DescribesCircuit (value : Json) (placed drawn : List Json)
    (ids wireIds : List Ident) : Prop where
  components : value.get? "components" = some (.arr placed)
  wires : value.get? "wires" = some (.arr drawn)
  described : List.Forall₂ DescribesComponent placed ids
  distinct : Fresh [] ids
  wired : List.Forall₂ (DescribesWire ids) drawn wireIds
  wiresDistinct : Fresh [] wireIds
  inputs : DescribesPorts ids value "inputs"
  outputs : DescribesPorts ids value "outputs"

/-! ## What is asked of an entry -/

/-- An entry with a member is an object. -/
theorem exists_obj_of_get? {entry v : Json} {member : String} (h : entry.get? member = some v) :
    ∃ members, entry = .obj members := by
  cases entry with
  | obj members => exact ⟨members, rfl⟩
  | _ => cases h

/-- A member is given exactly if the entry has it. -/
theorem memberOf_eq_ok_iff {entry v : Json} {member : String} :
    memberOf entry member = .ok v ↔ entry.get? member = some v := by
  unfold memberOf
  cases entry.get? member with
  | none => exact ⟨nofun, nofun⟩
  | some w => simp

/-- A value is taken as an identifier exactly if it is a scalar. -/
theorem scalarOf_eq_ok_iff {value : Json} {id : Ident} :
    scalarOf value = .ok id ↔ value = id.value ∧ id.isScalar = true := by
  unfold scalarOf
  split
  · next hscalar =>
    constructor
    · rintro ⟨⟩
      exact ⟨rfl, hscalar⟩
    · rintro ⟨rfl, -⟩
      rfl
  · next hscalar =>
    refine ⟨nofun, ?_⟩
    rintro ⟨rfl, hid⟩
    exact absurd hid hscalar

/-- Required names are all there exactly if each is mentioned. -/
theorem requireAll_eq_ok_iff {entry : Json} {fault : String → StructureFault} :
    ∀ {names : List String}, requireAll entry fault names = .ok () ↔
      ∀ name ∈ names, mentions entry name = .ok true
  | [] => ⟨nofun, fun _ => rfl⟩
  | name :: rest => by
    rw [List.forall_mem_cons, ← @requireAll_eq_ok_iff entry fault rest, requireAll]
    dsimp only [bind, Except.bind]
    cases mentions entry name with
    | error fault => exact ⟨nofun, nofun⟩
    | ok b => cases b <;> simp [throw, throwThe, MonadExceptOf.throw]

/-- An object mentions the members that it has. -/
theorem requireAll_obj_eq_ok_iff {members : List (String × Json)} {fault : String → StructureFault}
    {names : List String} : requireAll (.obj members) fault names = .ok () ↔
      ∀ name ∈ names, ((Json.obj members).get? name).isSome = true := by
  rw [requireAll_eq_ok_iff]
  exact forall₂_congr (fun _ _ => ⟨Except.ok.inj, congrArg Except.ok⟩)

/-- A position is accepted exactly if it is one. -/
theorem checkPosition_eq_ok_iff {entry id : Json} :
    checkPosition entry id = .ok () ↔ Positioned entry := by
  unfold checkPosition Positioned
  cases entry.get? "pos" with
  | none => exact ⟨nofun, fun _ => rfl⟩
  | some pos =>
    simp only [Option.some.injEq, forall_eq']
    cases hx : pos.get? "x" with
    | none => exact ⟨nofun, nofun⟩
    | some x =>
      cases hy : pos.get? "y" with
      | none => exact ⟨nofun, nofun⟩
      | some y =>
        simp only [Option.some.injEq, exists_and_left, exists_eq_left', ← Bool.and_eq_true]
        split
        · next h => exact iff_of_true rfl h
        · next h => exact iff_of_false nofun h

/-! ## What is accepted -/

/-- Components are accepted exactly if each describes one and their ids are fresh, and the ids are
collected. -/
theorem checkComponents_eq_ok_iff : ∀ {entries : List Json} {number : Nat} {ids all : List Ident},
    checkComponents number ids entries = .ok all ↔
      ∃ new, all = ids ++ new ∧ List.Forall₂ DescribesComponent entries new ∧ Fresh ids new
  | [], number, ids, all => by
    rw [checkComponents]
    constructor
    · rintro ⟨⟩
      exact ⟨[], (List.append_nil _).symm, .nil, fresh_nil _⟩
    · rintro ⟨_, rfl, ⟨⟩, -⟩
      rw [List.append_nil]
  | entry :: rest, number, ids, all => by
    rw [checkComponents]
    simp only [bind_eq_ok_iff, unless_eq_ok_iff, memberOf_eq_ok_iff, scalarOf_eq_ok_iff,
      checkComponents_eq_ok_iff]
    constructor
    · rintro ⟨_, hmembers, _, hnamed, id, ⟨rfl, hscalar⟩, hnew, _, hposition, new, rfl, hrest,
        hfresh⟩
      obtain ⟨members, rfl⟩ := exists_obj_of_get? hnamed
      rw [requireAll_obj_eq_ok_iff, List.forall_mem_cons, List.forall_mem_singleton] at hmembers
      rw [checkPosition_eq_ok_iff] at hposition
      rw [Bool.not_eq_true] at hnew
      refine ⟨id :: new, List.append_assoc _ _ _, ?_, fresh_cons.2 ⟨hnew, hfresh⟩⟩
      exact .cons ⟨hnamed, hscalar, hmembers.2, hposition⟩ hrest
    · rintro ⟨_, rfl, hentries, hfresh⟩
      obtain ⟨id, new, hentry, hrest, rfl⟩ := List.forall₂_cons_left_iff.1 hentries
      obtain ⟨hnew, hfresh⟩ := fresh_cons.1 hfresh
      obtain ⟨members, rfl⟩ := exists_obj_of_get? hentry.named
      refine ⟨(), requireAll_obj_eq_ok_iff.2 ?_, _, hentry.named, id, ⟨rfl, hentry.scalar⟩, ?_, (),
        checkPosition_eq_ok_iff.2 hentry.position, new, List.append_cons _ _ _, hrest,
        hfresh⟩
      · rw [List.forall_mem_cons, List.forall_mem_singleton, hentry.named]
        exact ⟨rfl, hentry.kind⟩
      · rw [hnew]
        exact Bool.false_ne_true

/-- An end of a wire is accepted exactly if it refers to a component. -/
theorem checkEnd_eq_ok_iff {ids : List Ident} {number : Nat} {entry : Json} {member : String} :
    checkEnd ids number entry member = .ok () ↔ Refers ids entry member := by
  unfold checkEnd Refers
  simp only [bind_eq_ok_iff, memberOf_eq_ok_iff, scalarOf_eq_ok_iff]
  constructor
  · rintro ⟨_, hnamed, id, ⟨rfl, hscalar⟩, hchecked⟩
    split at hchecked
    · next hknown => exact ⟨id, hnamed, hscalar, hknown⟩
    · cases hchecked
  · rintro ⟨id, hnamed, hscalar, hknown⟩
    exact ⟨_, hnamed, id, ⟨rfl, hscalar⟩, if_pos hknown⟩

/-- Wires are accepted exactly if each describes one and their ids are fresh. -/
theorem checkWires_eq_ok_iff {ids : List Ident} : ∀ {entries : List Json} {number : Nat}
    {seen : List Ident}, checkWires ids number seen entries = .ok () ↔
      ∃ new, List.Forall₂ (DescribesWire ids) entries new ∧ Fresh seen new
  | [], number, seen => ⟨fun _ => ⟨[], .nil, fresh_nil _⟩, fun _ => rfl⟩
  | entry :: rest, number, seen => by
    rw [checkWires]
    simp only [bind_eq_ok_iff, unless_eq_ok_iff, memberOf_eq_ok_iff, scalarOf_eq_ok_iff,
      checkWires_eq_ok_iff]
    constructor
    · rintro ⟨_, hmembers, _, hnamed, id, ⟨rfl, hscalar⟩, hnew, _, hsource, _, htarget, new, hrest,
        hfresh⟩
      obtain ⟨members, rfl⟩ := exists_obj_of_get? hnamed
      rw [requireAll_obj_eq_ok_iff] at hmembers
      rw [Bool.not_eq_true] at hnew
      refine ⟨id :: new, .cons ⟨hnamed, hscalar, checkEnd_eq_ok_iff.1 hsource, ?_,
        checkEnd_eq_ok_iff.1 htarget, ?_⟩ hrest, fresh_cons.2 ⟨hnew, hfresh⟩⟩
      · exact hmembers _ (by decide)
      · exact hmembers _ (by decide)
    · rintro ⟨_, hentries, hfresh⟩
      obtain ⟨id, new, hentry, hrest, rfl⟩ := List.forall₂_cons_left_iff.1 hentries
      obtain ⟨hnew, hfresh⟩ := fresh_cons.1 hfresh
      obtain ⟨members, rfl⟩ := exists_obj_of_get? hentry.named
      refine ⟨(), requireAll_obj_eq_ok_iff.2 ?_, _, hentry.named, id, ⟨rfl, hentry.scalar⟩, ?_, (),
        checkEnd_eq_ok_iff.2 hentry.source, (), checkEnd_eq_ok_iff.2 hentry.target, new, hrest,
        hfresh⟩
      · simp only [List.forall_mem_cons, hentry.named, hentry.source.isSome, hentry.sourcePort,
          hentry.target.isSome, hentry.targetPort]
        exact ⟨rfl, trivial, trivial, trivial, trivial, nofun⟩
      · rw [hnew]
        exact Bool.false_ne_true

/-- Ports are accepted exactly if each of them describes one. -/
theorem checkPorts_eq_ok_iff {ids : List Ident} {list : String} : ∀ {entries : List Json}
    {number : Nat}, checkPorts ids list number entries = .ok () ↔
      ∀ entry ∈ entries, DescribesPort ids entry
  | [], number => ⟨nofun, fun _ => rfl⟩
  | entry :: rest, number => by
    rw [List.forall_mem_cons, ← @checkPorts_eq_ok_iff _ _ rest (number + 1), checkPorts]
    simp only [bind_eq_ok_iff, memberOf_eq_ok_iff, scalarOf_eq_ok_iff]
    constructor
    · rintro ⟨_, hmembers, _, hnamed, component, ⟨rfl, hscalar⟩, hchecked⟩
      obtain ⟨members, rfl⟩ := exists_obj_of_get? hnamed
      rw [requireAll_obj_eq_ok_iff, List.forall_mem_cons] at hmembers
      split at hchecked
      · next hknown => exact ⟨⟨hmembers.1, component, hnamed, hscalar, hknown⟩, hchecked⟩
      · cases hchecked
    · rintro ⟨⟨hid, component, hnamed, hscalar, hknown⟩, hrest⟩
      obtain ⟨members, rfl⟩ := exists_obj_of_get? hnamed
      refine ⟨(), requireAll_obj_eq_ok_iff.2 ?_, _, hnamed, component, ⟨rfl, hscalar⟩, ?_⟩
      · rw [List.forall_mem_cons, List.forall_mem_singleton, hnamed]
        exact ⟨hid, rfl⟩
      · rw [if_pos hknown]
        exact hrest

/-- A list of ports is accepted exactly if it describes ports, or is left out. -/
theorem checkPortList_eq_ok_iff {value : Json} {ids : List Ident} {list : String} :
    checkPortList value ids list = .ok () ↔ DescribesPorts ids value list := by
  unfold checkPortList DescribesPorts
  split
  · next h => simp [h]
  · next entries h => simp [h, checkPorts_eq_ok_iff]
  · next ports hno h =>
    refine ⟨nofun, fun hall => ?_⟩
    obtain ⟨entries, rfl, -⟩ := hall ports h
    exact (hno entries rfl).elim

/-- A required list is given exactly if the member is a list. -/
theorem requiredList_eq_ok_iff {value : Json} {list : String} {entries : List Json} :
    requiredList value list = .ok entries ↔ value.get? list = some (.arr entries) := by
  unfold requiredList
  split
  · next h => simp [h]
  · next h => exact ⟨nofun, fun hentries => (h entries hentries).elim⟩

/-- The check accepts a value if and only if it describes a circuit. -/
theorem checkStructure_eq_ok_iff {value : Json} :
    checkStructure value = .ok () ↔
      ∃ placed drawn ids wireIds, DescribesCircuit value placed drawn ids wireIds := by
  unfold checkStructure
  split
  · next members =>
    simp only [bind_eq_ok_iff, requiredList_eq_ok_iff, checkComponents_eq_ok_iff]
    constructor
    · rintro ⟨placed, hplaced, drawn, hdrawn, ids, ⟨_, rfl, hdescribed, hdistinct⟩, _, hwires, _,
        hinputs, houtputs⟩
      obtain ⟨wireIds, hwired, hwiresDistinct⟩ := checkWires_eq_ok_iff.1 hwires
      exact ⟨placed, drawn, ids, wireIds, hplaced, hdrawn, hdescribed, hdistinct, hwired,
        hwiresDistinct, checkPortList_eq_ok_iff.1 hinputs, checkPortList_eq_ok_iff.1 houtputs⟩
    · rintro ⟨placed, drawn, ids, wireIds, h⟩
      exact ⟨placed, h.components, drawn, h.wires, _, ⟨ids, rfl, h.described, h.distinct⟩, (),
        checkWires_eq_ok_iff.2 ⟨wireIds, h.wired, h.wiresDistinct⟩, (),
        checkPortList_eq_ok_iff.2 h.inputs, checkPortList_eq_ok_iff.2 h.outputs⟩
  · next hno =>
    refine ⟨nofun, fun ⟨_, _, _, _, h⟩ => ?_⟩
    obtain ⟨members, hmembers⟩ := exists_obj_of_get? h.components
    exact (hno members hmembers).elim

/-! ## What the check can be made on -/

/-- The check can be made on an entry: it lacks a member that it must have, or it is an object in
which the members that are looked up are scalars. -/
def Checkable (required looked : List String) (entry : Json) : Prop :=
  (∃ member ∈ required, mentions entry member = .ok false) ∨
    ∃ members, entry = .obj members ∧
      ∀ member ∈ looked, ∀ v ∈ entry.get? member, v.isScalar = true

/-- The check can be made on all entries of the lists of a value. -/
structure Legible (value : Json) : Prop where
  components : ∀ entries, value.get? "components" = some (.arr entries) →
    ∀ entry ∈ entries, Checkable ["id", "type"] ["id"] entry
  wires : ∀ entries, value.get? "wires" = some (.arr entries) → ∀ entry ∈ entries,
    Checkable ["id", "source_comp", "source_port", "target_comp", "target_port"]
      ["id", "source_comp", "target_comp"] entry
  ports : ∀ list ∈ ["inputs", "outputs"], ∀ entries, value.get? list = some (.arr entries) →
    ∀ entry ∈ entries, Checkable ["id", "component_id"] ["component_id"] entry

/-- If the outcome is a fault, there are words for it. -/
def Worded {α : Type} (outcome : Except StructureFault α) : Prop :=
  ∀ fault, outcome = .error fault → fault.message?.isSome = true

namespace Worded

variable {α β : Type}

/-- A result needs no words. -/
theorem ok (a : α) : Worded (.ok a) :=
  nofun

/-- A fault with a message has words. -/
theorem error {fault : StructureFault} (h : fault.message?.isSome = true) :
    Worded (.error fault : Except StructureFault α) := by
  rintro _ ⟨⟩
  exact h

/-- Two steps have words for their faults if each has. -/
theorem bind {x : Except StructureFault α} {f : α → Except StructureFault β} (hx : Worded x)
    (hf : ∀ a, x = .ok a → Worded (f a)) : Worded (x >>= f) := by
  cases x with
  | error fault =>
    rintro _ ⟨⟩
    exact hx fault rfl
  | ok a => exact hf a rfl

/-- A choice has words for its faults if both sides have. -/
theorem ite {c : Prop} [Decidable c] {x y : Except StructureFault α} (hx : Worded x)
    (hy : Worded y) : Worded (if c then x else y) := by
  split
  · exact hx
  · exact hy

/-- A member that is there and can be looked up is looked up. -/
theorem look {entry : Json} {member : String} {f : Json → Ident → Except StructureFault β}
    (h : ∃ id : Ident, memberOf entry member = .ok id.value ∧ scalarOf id.value = .ok id)
    (hf : ∀ id : Ident, Worded (f id.value id)) :
    Worded (memberOf entry member >>= fun v => scalarOf v >>= f v) := by
  obtain ⟨id, hmember, hscalar⟩ := h
  rw [hmember]
  dsimp only [Bind.bind, Except.bind]
  rw [hscalar]
  exact hf id

end Worded

namespace Checkable

variable {required looked : List String} {entry : Json}

/-- Whether a checkable entry has its members is found, or said in words. -/
theorem worded_requireAll (h : Checkable required looked entry) {fault : String → StructureFault}
    (hfault : ∀ member, (fault member).message?.isSome = true) :
    Worded (requireAll entry fault required) := by
  have hmentions : ∀ name, ∃ b, mentions entry name = .ok b := by
    intro name
    rcases h with ⟨member, -, hlacks⟩ | ⟨members, rfl, -⟩
    · cases entry with
      | null | bool | int | real => cases hlacks
      | str | arr | obj => exact ⟨_, rfl⟩
    · exact ⟨_, rfl⟩
  clear h
  induction required with
  | nil => exact .ok ()
  | cons name rest ih =>
    obtain ⟨b, hb⟩ := hmentions name
    rw [requireAll, hb]
    exact .ite ih (.error (hfault name))

/-- A checkable entry that has its members is an object, and what is looked up in it is a scalar. -/
theorem exists_looked (h : Checkable required looked entry) {fault : String → StructureFault}
    (hrequired : requireAll entry fault required = .ok ()) (member : String)
    (hlooked : member ∈ looked) (hmember : member ∈ required) :
    ∃ id : Ident, memberOf entry member = .ok id.value ∧ scalarOf id.value = .ok id := by
  rcases h with ⟨absent, habsent, hlacks⟩ | ⟨members, rfl, hscalars⟩
  · rw [requireAll_eq_ok_iff.1 hrequired absent habsent] at hlacks
    cases hlacks
  · obtain ⟨v, hv⟩ := Option.isSome_iff_exists.1
      (requireAll_obj_eq_ok_iff.1 hrequired member hmember)
    exact ⟨⟨v⟩, memberOf_eq_ok_iff.2 hv,
      scalarOf_eq_ok_iff.2 ⟨rfl, hscalars member hlooked v hv⟩⟩

end Checkable

/-- There are words for every fault of a position. -/
theorem worded_checkPosition (entry id : Json) : Worded (checkPosition entry id) := by
  unfold checkPosition
  split
  · exact .ok ()
  · split
    · exact .ite (.ok ()) (.error rfl)
    · exact .error rfl

/-- There are words for every fault of checkable components. -/
theorem worded_checkComponents : ∀ {entries : List Json} (number : Nat) (ids : List Ident),
    (∀ entry ∈ entries, Checkable ["id", "type"] ["id"] entry) →
    Worded (checkComponents number ids entries)
  | [], _, ids, _ => .ok ids
  | entry :: rest, number, ids, h => by
    obtain ⟨hentry, hrest⟩ := List.forall_mem_cons.1 h
    rw [checkComponents]
    refine .bind (hentry.worded_requireAll (fun _ => rfl)) (fun _ hrequired => ?_)
    refine .look (hentry.exists_looked hrequired "id" (by decide) (by decide)) (fun id => ?_)
    refine .ite (.error rfl) ?_
    exact .bind (worded_checkPosition _ _) (fun _ _ => worded_checkComponents _ _ hrest)

/-- There are words for an end that can be looked up but refers to nothing. -/
theorem worded_checkEnd {ids : List Ident} {number : Nat} {entry : Json} {member : String}
    (h : ∃ id : Ident, memberOf entry member = .ok id.value ∧ scalarOf id.value = .ok id) :
    Worded (checkEnd ids number entry member) :=
  .look h (fun _ => .ite (.ok ()) (.error rfl))

/-- There are words for every fault of checkable wires. -/
theorem worded_checkWires {ids : List Ident} : ∀ {entries : List Json} (number : Nat)
    (seen : List Ident),
    (∀ entry ∈ entries,
      Checkable ["id", "source_comp", "source_port", "target_comp", "target_port"]
        ["id", "source_comp", "target_comp"] entry) →
    Worded (checkWires ids number seen entries)
  | [], _, _, _ => .ok ()
  | entry :: rest, number, seen, h => by
    obtain ⟨hentry, hrest⟩ := List.forall_mem_cons.1 h
    rw [checkWires]
    refine .bind (hentry.worded_requireAll (fun _ => rfl)) (fun _ hrequired => ?_)
    have hlooked := hentry.exists_looked hrequired
    refine .look (hlooked "id" (by decide) (by decide)) (fun id => ?_)
    refine .ite (.error rfl) ?_
    refine .bind (worded_checkEnd (hlooked _ (by decide) (by decide))) (fun _ _ => ?_)
    exact .bind (worded_checkEnd (hlooked _ (by decide) (by decide)))
      (fun _ _ => worded_checkWires _ _ hrest)

/-- There are words for every fault of checkable ports. -/
theorem worded_checkPorts {ids : List Ident} {list : String} : ∀ {entries : List Json}
    (number : Nat),
    (∀ entry ∈ entries, Checkable ["id", "component_id"] ["component_id"] entry) →
    Worded (checkPorts ids list number entries)
  | [], _, _ => .ok ()
  | entry :: rest, number, h => by
    obtain ⟨hentry, hrest⟩ := List.forall_mem_cons.1 h
    rw [checkPorts]
    refine .bind (hentry.worded_requireAll (fun _ => rfl)) (fun _ hrequired => ?_)
    refine .look (hentry.exists_looked hrequired "component_id" (by decide) (by decide))
      (fun id => ?_)
    exact .ite (worded_checkPorts _ hrest) (.error rfl)

/-- There are words for every fault of a legible list of ports. -/
theorem Legible.worded_checkPortList {value : Json} (h : Legible value) (ids : List Ident)
    {list : String} (hlist : list ∈ ["inputs", "outputs"]) :
    Worded (checkPortList value ids list) := by
  unfold checkPortList
  split
  · exact .ok ()
  · next entries hentries => exact worded_checkPorts 1 (h.ports list hlist entries hentries)
  · exact .error rfl

/-- There are words for a list that is missing or none. -/
theorem worded_requiredList (value : Json) (list : String) : Worded (requiredList value list) := by
  unfold requiredList
  split
  · exact .ok _
  · exact .error rfl

/-- A value on whose entries the check can be made is accepted, or refused in words. -/
theorem Legible.worded_checkStructure {value : Json} (h : Legible value) :
    Worded (checkStructure value) := by
  unfold checkStructure
  split
  · refine .bind (worded_requiredList _ _) (fun components hcomponents => ?_)
    refine .bind (worded_requiredList _ _) (fun wires hwires => ?_)
    rw [requiredList_eq_ok_iff] at hcomponents hwires
    refine .bind (worded_checkComponents 1 [] (h.components _ hcomponents)) (fun ids _ => ?_)
    refine .bind (worded_checkWires 1 [] (h.wires _ hwires)) (fun _ _ => ?_)
    refine .bind (h.worded_checkPortList ids (by decide)) (fun _ _ => ?_)
    exact h.worded_checkPortList ids (by decide)
  · exact .error rfl

/-! ## Loading what was accepted -/

/-- Whether a value is no whole number that is too large for a coordinate. -/
def isSized : Json → Bool
  | .int n => (Binary64.ofInt? n).isSome
  | _ => true

/-- The coordinates that a component states are not too large. -/
def Fitting (entry : Json) : Prop :=
  ∀ pos ∈ entry.get? "pos", ∀ axis ∈ ["x", "y"], ∀ v ∈ pos.get? axis, isSized v = true

/-- A member that is there is given where it is required. -/
theorem required_eq_ok {value v : Json} {member : String} (h : value.get? member = some v) :
    required value member = .ok v := by
  obtain ⟨members, rfl⟩ := exists_obj_of_get? h
  have hmember : Assoc.get? member members = some v := h
  rw [required, hmember]

/-- A numeric coordinate is read, or is too large. -/
theorem coordinateOf_cases {v : Json} (h : isNumeric v = true) :
    (isSized v = true ∧ ∃ x, coordinateOf v = .ok x) ∨
      (isSized v = false ∧ coordinateOf v = .error .tooLarge) := by
  cases v with
  | int n =>
    rw [coordinateOf, isSized]
    cases Binary64.ofInt? n with
    | none => exact .inr ⟨rfl, rfl⟩
    | some x => exact .inl ⟨rfl, x, rfl⟩
  | real x => exact .inl ⟨rfl, x, rfl⟩
  | bool b => exact .inl ⟨rfl, _, rfl⟩
  | null | str | arr | obj => cases h

/-- The position of an entry that describes a component, with the origin for one that states none.
-/
theorem Positioned.exists_coordinates {entry : Json} (h : Positioned entry) :
    ∃ x y, required ((entry.get? "pos").getD origin) "x" = .ok x ∧
      required ((entry.get? "pos").getD origin) "y" = .ok y ∧
      isNumeric x = true ∧ isNumeric y = true ∧
      (Fitting entry ↔ isSized x = true ∧ isSized y = true) := by
  unfold Fitting
  cases hpos : entry.get? "pos" with
  | none =>
    have hzero : isSized (.int 0) = true := by decide +kernel
    exact ⟨.int 0, .int 0, rfl, rfl, rfl, rfl, fun _ => ⟨hzero, hzero⟩, fun _ => nofun⟩
  | some pos =>
    obtain ⟨x, y, hx, hy, hnumericX, hnumericY⟩ := h pos hpos
    refine ⟨x, y, required_eq_ok hx, required_eq_ok hy, hnumericX, hnumericY, ?_⟩
    simp [hx, hy]

/-- An entry that describes a component is read, or a coordinate of it is too large. -/
theorem Component.ofJson_cases {entry : Json} {id : Ident} (h : DescribesComponent entry id) :
    (Fitting entry ∧ ∃ component, Component.ofJson entry = .ok component ∧ component.id = id) ∨
      (¬ Fitting entry ∧ Component.ofJson entry = .error .tooLarge) := by
  obtain ⟨members, rfl⟩ := exists_obj_of_get? h.named
  obtain ⟨kind, hkind⟩ := Option.isSome_iff_exists.1 h.kind
  obtain ⟨x, y, hx, hy, hnumericX, hnumericY, hfits⟩ := h.position.exists_coordinates
  have hpos : optional (.obj members) "pos" origin =
      .ok (((Json.obj members).get? "pos").getD origin) := rfl
  rw [hfits, Component.ofJson, hpos]
  dsimp only [bind, Except.bind]
  rw [required_eq_ok h.named]
  dsimp only
  rw [required_eq_ok hkind]
  dsimp only
  rw [hx]
  dsimp only
  rcases coordinateOf_cases hnumericX with ⟨hsizedX, cx, hcx⟩ | ⟨hlarge, hcx⟩
  · rw [hcx]
    dsimp only
    rw [hy]
    dsimp only
    rcases coordinateOf_cases hnumericY with ⟨hsizedY, cy, hcy⟩ | ⟨hlarge, hcy⟩
    · rw [hcy]
      exact .inl ⟨⟨hsizedX, hsizedY⟩, _, rfl, rfl⟩
    · rw [hcy]
      exact .inr ⟨fun hsized => Bool.noConfusion (hlarge.symm.trans hsized.2), rfl⟩
  · rw [hcx]
    exact .inr ⟨fun hsized => Bool.noConfusion (hlarge.symm.trans hsized.1), rfl⟩

/-- Entries that describe components are read, or a coordinate of one is too large. -/
theorem readComponents_cases : ∀ {entries : List Json} {ids : List Ident} (placed : Placement),
    List.Forall₂ DescribesComponent entries ids →
    ((∀ entry ∈ entries, Fitting entry) ∧ ∃ next, readComponents placed entries = .ok next) ∨
      ((¬ ∀ entry ∈ entries, Fitting entry) ∧ readComponents placed entries = .error .tooLarge)
  | _, _, placed, .nil => .inl ⟨nofun, placed, rfl⟩
  | entry :: rest, id :: ids, placed, .cons hentry hrest => by
    rw [readComponents]
    rcases Component.ofJson_cases hentry with ⟨hfits, component, hread, rfl⟩ | ⟨hlarge, hread⟩
    · rw [hread]
      dsimp only [bind, Except.bind]
      rw [if_pos hentry.scalar, List.forall_mem_cons, and_iff_right hfits]
      exact readComponents_cases _ hrest
    · rw [hread]
      exact .inr ⟨fun hall => hlarge (hall entry List.mem_cons_self), rfl⟩

/-- An entry that describes a wire is loaded as one. -/
theorem Wire.exists_ofJson {ids : List Ident} {entry : Json} {id : Ident}
    (h : DescribesWire ids entry id) : ∃ wire, Wire.ofJson entry = .ok wire := by
  obtain ⟨source, hsource, -⟩ := h.source
  obtain ⟨target, htarget, -⟩ := h.target
  obtain ⟨sourcePort, hsourcePort⟩ := Option.isSome_iff_exists.1 h.sourcePort
  obtain ⟨targetPort, htargetPort⟩ := Option.isSome_iff_exists.1 h.targetPort
  unfold Wire.ofJson
  rw [required_eq_ok h.named, required_eq_ok hsource, required_eq_ok hsourcePort,
    required_eq_ok htarget, required_eq_ok htargetPort]
  exact ⟨_, rfl⟩

/-- An entry that describes a port is loaded as one. -/
theorem Port.exists_ofJson {ids : List Ident} {entry : Json} (h : DescribesPort ids entry)
    (direction : String) : ∃ port, Port.ofJson direction entry = .ok port := by
  obtain ⟨component, hcomponent, -⟩ := h.component
  obtain ⟨id, hid⟩ := Option.isSome_iff_exists.1 h.named
  obtain ⟨members, rfl⟩ := exists_obj_of_get? hid
  unfold Port.ofJson
  rw [required_eq_ok hid, required_eq_ok hcomponent]
  exact ⟨_, rfl⟩

/-- The external ports that a value describes are read. -/
theorem DescribesPorts.exists_ports {ids : List Ident} {value : Json} {list : String}
    (h : DescribesPorts ids value list) (direction : String) :
    ∃ entries ports, entriesOf ((value.get? list).getD (.arr [])) = .ok entries ∧
      entries.mapM (Port.ofJson direction) = .ok ports := by
  cases hlist : value.get? list with
  | none => exact ⟨[], [], rfl, rfl⟩
  | some listed =>
    obtain ⟨entries, rfl, hentries⟩ := h listed hlist
    obtain ⟨ports, hports⟩ :=
      exists_mapM_eq_ok (fun entry hentry => Port.exists_ofJson (hentries entry hentry) direction)
    exact ⟨entries, ports, rfl, hports⟩

/-- A value that describes a circuit is loaded, or a coordinate in it is too large. -/
theorem Circuit.ofJson_cases {value : Json} {placed drawn : List Json} {ids wireIds : List Ident}
    (h : DescribesCircuit value placed drawn ids wireIds) :
    ((∀ entry ∈ placed, Fitting entry) ∧ ∃ circuit, Circuit.ofJson value = .ok circuit) ∨
      ((¬ ∀ entry ∈ placed, Fitting entry) ∧ Circuit.ofJson value = .error .tooLarge) := by
  obtain ⟨members, rfl⟩ := exists_obj_of_get? h.components
  have hoptional : ∀ member default, optional (.obj members) member default =
      .ok (((Json.obj members).get? member).getD default) := fun _ _ => rfl
  obtain ⟨wires, hwires⟩ : ∃ wires, drawn.mapM Wire.ofJson = .ok wires := by
    have hread : List.Forall₂ (fun entry _ => (∃ wire, Wire.ofJson entry = .ok wire) ∧ True)
        drawn wireIds := h.wired.imp (fun _ _ hwire => ⟨Wire.exists_ofJson hwire, trivial⟩)
    exact exists_mapM_eq_ok ((List.forall₂_and_left _ _).1 hread).1
  obtain ⟨inputEntries, inputs, hinputEntries, hinputs⟩ := h.inputs.exists_ports "input"
  obtain ⟨outputEntries, outputs, houtputEntries, houtputs⟩ := h.outputs.exists_ports "output"
  have hlist : ∀ entries, entriesOf (.arr entries) = .ok entries := fun _ => rfl
  simp only [Circuit.ofJson, hoptional, h.components, h.wires, Option.getD_some, hlist, bind,
    Except.bind]
  rcases readComponents_cases {} h.described with ⟨hfits, next, hread⟩ | ⟨hlarge, hread⟩
  · simp only [hread, hwires, hinputEntries, hinputs, houtputEntries, houtputs]
    exact .inl ⟨hfits, _, rfl⟩
  · rw [hread]
    exact .inr ⟨hlarge, rfl⟩

/-- The check of a value on whose entries it can be made accepts it or says in words what is wrong.
It accepts the values that describe circuits. A value that was accepted is loaded unless a
coordinate in it is too large, which is the only way in which its loading can fail. -/
theorem load_of_checked (value : Json) :
    (Legible value → Worded (checkStructure value)) ∧
    (checkStructure value = .ok () ↔
      ∃ placed drawn ids wireIds, DescribesCircuit value placed drawn ids wireIds) ∧
    (checkStructure value = .ok () →
      ((∃ circuit, Circuit.ofJson value = .ok circuit) ↔
        ∀ entries, value.get? "components" = some (.arr entries) →
          ∀ entry ∈ entries, Fitting entry) ∧
      ∀ fault, Circuit.ofJson value = .error fault → fault = .tooLarge) := by
  refine ⟨Legible.worded_checkStructure, checkStructure_eq_ok_iff, fun hchecked => ?_⟩
  obtain ⟨placed, drawn, ids, wireIds, h⟩ := checkStructure_eq_ok_iff.1 hchecked
  simp only [h.components, Option.some.injEq, Json.arr.injEq, forall_eq']
  rcases Circuit.ofJson_cases h with ⟨hfits, hread⟩ | ⟨hlarge, hread⟩
  · refine ⟨iff_of_true hread hfits, fun fault hfault => ?_⟩
    obtain ⟨circuit, hcircuit⟩ := hread
    rw [hcircuit] at hfault
    cases hfault
  · rw [hread]
    refine ⟨iff_of_false nofun hlarge, ?_⟩
    rintro _ ⟨⟩
    rfl

/-- A lamp on a power, which states its position with a truth value for one coordinate. -/
def lampFile : Json := .obj
  [("components", .arr
    [.obj [("id", .str "vcc"), ("type", .str "power"),
        ("pos", .obj [("x", .int 7), ("y", .bool true)])],
      .obj [("id", .int 1), ("type", .arr [])]]),
    ("wires", .arr [.obj [("id", .null), ("source_comp", .str "vcc"), ("source_port", .obj []),
      ("target_comp", .bool true), ("target_port", .str "in")]]),
    ("outputs", .arr [.obj [("id", .arr []), ("component_id", .int 1)]])]

/-- A power at a coordinate that no number of 64 bits comes near. -/
def remoteFile : Json := .obj
  [("components", .arr [.obj [("id", .str "vcc"), ("type", .str "power"),
      ("pos", .obj [("x", .int (Int.pow 2 1024)), ("y", .int 0)])]]),
    ("wires", .arr [])]

/-- The lamp is checked and loaded. The remote power is checked, but not loaded; and a number in the
place of a component stops the check without words. -/
theorem load_of_checked_lamp :
    Legible lampFile ∧ Worded (checkStructure lampFile) ∧ checkStructure lampFile = .ok () ∧
      (∃ circuit, Circuit.ofJson lampFile = .ok circuit) ∧
      checkStructure remoteFile = .ok () ∧ Circuit.ofJson remoteFile = .error .tooLarge ∧
      checkStructure (.obj [("components", .arr [.int 5]), ("wires", .arr [])]) =
        .error .wrongType := by
  have hlegible : Legible lampFile := by
    refine ⟨?_, ?_, ?_⟩
    · rintro _ ⟨⟩
      exact List.forall_mem_cons.2 ⟨.inr ⟨_, rfl, by decide⟩,
        List.forall_mem_singleton.2 (.inr ⟨_, rfl, by decide⟩)⟩
    · rintro _ ⟨⟩
      exact List.forall_mem_singleton.2 (.inr ⟨_, rfl, by decide⟩)
    · refine List.forall_mem_cons.2 ⟨nofun, List.forall_mem_singleton.2 ?_⟩
      rintro _ ⟨⟩
      exact List.forall_mem_singleton.2 (.inr ⟨_, rfl, by decide⟩)
  have hlamp : checkStructure lampFile = .ok () := by decide +kernel
  have hremote : checkStructure remoteFile = .ok () := by decide +kernel
  have hload := (load_of_checked lampFile).2.2 hlamp
  have hremoteLoad := (load_of_checked remoteFile).2.2 hremote
  refine ⟨hlegible, (load_of_checked lampFile).1 hlegible, hlamp, hload.1.2 ?_, hremote, ?_,
    by decide +kernel⟩
  · rintro _ ⟨⟩
    unfold Fitting
    decide +kernel
  · cases hread : Circuit.ofJson remoteFile with
    | error fault => rw [hremoteLoad.2 fault hread]
    | ok circuit =>
      have hfits := hremoteLoad.1.1 ⟨circuit, hread⟩ _ rfl
      unfold Fitting at hfits
      exact absurd hfits (by decide +kernel)

end Switchyard.Relay
