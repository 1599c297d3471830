import Switchyard.Proofs.Relay.Inputs
import Switchyard.Proofs.Relay.LiveEdits

/-!
# Setting and reading inputs

An input is set under the name of the component that a name denotes, and read under it unless that
name counts as absent, as the empty text does; then it is read under the name that was asked for
(`Simulator.getInput_cases`). So the two go to one place if a name denotes such a component only by
being its name (`Circuit.Direct`). In a loaded circuit where this is so, whatever its identifiers
and names are, a value that is set is read under every name of the component, other names read what
they did, and turning an input over twice restores its level (`Bench.input_laws`). A name for which
it is not so is set without being read.
-/

namespace Switchyard

/-- Only the missing identifier equals the missing one. -/
theorem Ident.eq_null_of_beq {id : Ident} (h : id == Ident.null) : id = .null := by
  have hkey : id.value.key = .null := Ident.beq_iff.1 h
  obtain ⟨value⟩ := id
  cases value with
  | null => rfl
  | real x =>
    rw [Json.key, Json.realKey] at hkey
    split at hkey <;> cases hkey
  | bool | int | str | arr | obj => cases hkey

namespace Relay

/-! ## What a name denotes -/

namespace Circuit

/-- A name denotes an input component. -/
def Denotes (circuit : Circuit) (id component : Ident) : Prop :=
  Simulator.resolve circuit id = .ok (some component) ∧ component ≠ .null

/-- A component whose name counts as absent is found by that name alone. -/
def Direct (circuit : Circuit) : Prop :=
  ∀ id component, Simulator.resolve circuit id = .ok (some component) →
    component.isVoid = true → (id == component) = true

/-- It is enough that no external input lends another name to such a component. -/
theorem direct_of_ports {circuit : Circuit}
    (h : ∀ port ∈ circuit.inputs, port.component.isVoid = true →
      (port.id == port.component) = true ∧ (port.name == port.component) = true) :
    circuit.Direct := by
  intro id component hresolve hvoid
  obtain ⟨port, hport, rfl, hanswers⟩ | ⟨rfl, -⟩ := Simulator.resolve_eq_some hresolve
  · obtain ⟨hid, hname⟩ := h port hport hvoid
    rw [Bool.or_eq_true, Bool.or_eq_true] at hanswers
    rcases hanswers with (hsame | hsame) | hsame
    · exact BEq.trans hsame hid
    · exact BEq.trans hsame hname
    · exact hsame
  · exact BEq.rfl

end Circuit

namespace Simulator

variable {circuit : Circuit}

/-- The external inputs of a circuit that can be loaded can be looked up. -/
theorem inputs_of_reload_ok {sim : Simulator} (h : (sim.reload circuit).2 = .ok ()) :
    ∀ port ∈ circuit.inputs, port.component.isScalar = true := by
  unfold reload at h
  dsimp only at h
  split at h
  · cases h
  · split at h
    · cases h
    · next hinputs =>
      rw [Bool.not_eq_true', Bool.not_eq_false] at hinputs
      exact List.all_eq_true.1 hinputs

/-- What a name denotes denotes something itself, in whatever form it is written. -/
theorem exists_resolve_of_beq {id component same : Ident}
    (h : resolve circuit id = .ok (some component)) (hsame : (component == same) = true) :
    ∃ found, resolve circuit same = .ok (some found) := by
  unfold resolve
  cases hfind : circuit.inputs.find?
      (fun port => same == port.id || same == port.name || same == port.component) with
  | some port => exact ⟨port.component, rfl⟩
  | none =>
    obtain ⟨port, hport, rfl, -⟩ | ⟨rfl, hid, placed, hplaced, hkind⟩ := resolve_eq_some h
    · refine absurd (List.find?_eq_none.1 hfind port hport) (not_not_intro ?_)
      rw [BEq.symm hsame, Bool.or_true]
    · have hscalar : same.isScalar = true := (Ident.isScalar_congr hsame).symm.trans hid
      have hfound : circuit.component? same = some placed :=
        (Assoc.get?_congr hsame _).symm.trans hplaced
      refine ⟨same, ?_⟩
      rw [requireScalar_eq_ok hscalar, hfound]
      dsimp only [bind, Except.bind]
      rw [if_pos hkind]
      rfl

/-- A name that was set denotes a component, and the value a level. -/
theorem denotes_of_setInput {sim next : Simulator} {id : Ident} {value : Json}
    (h : sim.setInput circuit id value = .ok next) :
    (∃ component, circuit.Denotes id component) ∧ (Signal.ofJson? value).isSome = true := by
  unfold setInput at h
  obtain ⟨found, hfound, h⟩ := bind_eq_ok_iff.1 h
  split at h
  · cases h
  · cases h
  · next component hnull =>
    split at h
    · cases h
    · next level hlevel =>
      refine ⟨⟨component, hfound, ?_⟩, by rw [hlevel]; rfl⟩
      rintro rfl
      exact hnull rfl

/-! ## Where an input is read -/

/-- Reading an input fails whatever the inputs are, or reads what is under the name of the
component, or under the name asked for where this counts as absent. -/
theorem getInput_cases (circuit : Circuit) (id : Ident) :
    (∃ fault, ∀ sim : Simulator, sim.getInput circuit id = .error fault) ∨
    ∃ found, resolve circuit id = .ok found ∧ ∀ sim : Simulator, sim.getInput circuit id =
      .ok ((Assoc.get? ((found.getD .null).orElse id) sim.inputs).getD .low) := by
  unfold getInput inputLevel
  cases resolve circuit id with
  | error fault => exact .inl ⟨fault, fun _ => rfl⟩
  | ok found =>
    dsimp only [bind, Except.bind]
    cases requireScalar ((found.getD .null).orElse id) with
    | error fault => exact .inl ⟨fault, fun _ => rfl⟩
    | ok _ => exact .inr ⟨found, rfl, fun _ => rfl⟩

/-- Where names are direct, the key under which an id is stored and read is the component it
resolves to. -/
theorem key_of_direct (hdirect : circuit.Direct) {id component : Ident}
    (h : resolve circuit id = .ok (some component)) :
    (component.orElse id == component) = true := by
  unfold Ident.orElse
  split
  · next hvoid => exact hdirect id component h hvoid
  · exact BEq.rfl

/-- What a name denotes is read. -/
theorem getInput_of_direct (hdirect : circuit.Direct)
    (hinputs : ∀ port ∈ circuit.inputs, port.component.isScalar = true) (sim : Simulator)
    {id component : Ident} (h : resolve circuit id = .ok (some component)) :
    sim.getInput circuit id = .ok ((Assoc.get? component sim.inputs).getD .low) := by
  have hkey := key_of_direct hdirect h
  have hscalar : (component.orElse id).isScalar = true :=
    (Ident.isScalar_congr hkey).trans (isScalar_of_resolve hinputs h)
  unfold getInput inputLevel
  rw [h]
  dsimp only [bind, Except.bind, Option.getD_some]
  rw [requireScalar_eq_ok hscalar, Assoc.get?_congr hkey]
  rfl

/-- Setting an input leaves alone what is read under the names that do not denote it. -/
theorem getInput_put_of_ne (hdirect : circuit.Direct) (sim : Simulator)
    {id component : Ident} (h : circuit.Denotes id component) {other : Ident}
    (hother : ∀ c, circuit.Denotes other c → (c == component) = false) (level : Signal) :
    getInput circuit { sim with inputs := Assoc.put component level sim.inputs } other =
      sim.getInput circuit other := by
  obtain ⟨fault, hfault⟩ | ⟨found, hfound, hread⟩ := getInput_cases circuit other
  · rw [hfault, hfault]
  · have hapart : (component == (found.getD .null).orElse other) = false := by
      cases found with
      | none =>
        -- the name is read as it is, and denotes something if it is the component
        change (component == other) = false
        rw [Bool.eq_false_iff]
        intro hsame
        obtain ⟨c, hc⟩ := exists_resolve_of_beq h.1 hsame
        rw [hfound] at hc
        cases hc
      | some c =>
        change (component == c.orElse other) = false
        rw [BEq.congr_right (key_of_direct hdirect hfound), BEq.comm]
        by_cases hnull : c = .null
        · rw [hnull, Bool.eq_false_iff, BEq.comm]
          exact fun hsame => h.2 (Ident.eq_null_of_beq hsame)
        · exact hother c ⟨hfound, hnull⟩
    rw [hread, hread, Assoc.get?_put, hapart]
    rfl

/-- A name that denotes a component whose name counts as absent, and is not that name, reads past
it. -/
theorem getInput_put_of_void (sim : Simulator) {id component : Ident}
    (h : resolve circuit id = .ok (some component)) (hvoid : component.isVoid = true)
    (hother : (id == component) = false) (level : Signal) :
    getInput circuit { sim with inputs := Assoc.put component level sim.inputs } id =
      sim.getInput circuit id := by
  obtain ⟨fault, hfault⟩ | ⟨found, hfound, hread⟩ := getInput_cases circuit id
  · rw [hfault, hfault]
  · obtain rfl : some component = found := Except.ok.inj (h.symm.trans hfound)
    have hkey : ((some component).getD .null).orElse id = id := if_pos hvoid
    rw [hread, hread, Assoc.get?_put, hkey, BEq.comm, hother]
    rfl

end Simulator

/-! ## On a loaded bench -/

namespace Bench

namespace Holds

variable {circuit : Circuit} {cap : Int} {bench : Bench} (h : bench.Holds circuit cap)
include h

/-- The components of the input ports of a loadable circuit can be looked up. -/
theorem isScalar_inputs : ∀ port ∈ circuit.inputs, port.component.isScalar = true := by
  obtain ⟨sim, hsim⟩ := h.loadable
  exact Simulator.inputs_of_reload_ok hsim

/-- A bench reads an input as its simulator does. -/
theorem getInput_eq (id : Ident) : bench.getInput id = bench.sim.getInput circuit id := by
  rw [Bench.getInput, h.loaded?_eq]

/-- What a name denotes is set to any level. -/
theorem perform_setInput {id component : Ident} (hid : circuit.Denotes id component) {value : Json}
    {level : Signal} (hlevel : Signal.ofJson? value = some level) :
    bench.perform (.setInput id value) = ⟨{ bench with sim := { bench.sim with
      inputs := Assoc.put component level bench.sim.inputs } }, .ok .done, []⟩ := by
  have hscalar := Simulator.isScalar_of_resolve h.isScalar_inputs hid.1
  rw [Bench.perform, h.setInput_eq,
    bench.sim.setInput_of_resolve hscalar hid.2 hid.1 hlevel]
  rfl

/-- Setting an input fails if and only if the name denotes nothing or the value is no level, and
then changes nothing. -/
theorem setInput_fails (id : Ident) (value : Json) :
    ((∃ fault, (bench.perform (.setInput id value)).answer = .error fault) ↔
      ¬ ((∃ component, circuit.Denotes id component) ∧ (Signal.ofJson? value).isSome = true)) ∧
    ((∃ fault, (bench.perform (.setInput id value)).answer = .error fault) →
      (bench.perform (.setInput id value)).bench = bench) := by
  rw [Bench.perform, h.setInput_eq]
  cases hset : bench.sim.setInput circuit id value with
  | error fault =>
    refine ⟨iff_of_true ⟨fault, rfl⟩ ?_, fun _ => rfl⟩
    rintro ⟨⟨component, hid⟩, hvalue⟩
    obtain ⟨level, hlevel⟩ := Option.isSome_iff_exists.1 hvalue
    have hscalar := Simulator.isScalar_of_resolve h.isScalar_inputs hid.1
    rw [bench.sim.setInput_of_resolve hscalar hid.2 hid.1 hlevel] at hset
    cases hset
  | ok next =>
    have hanswer : ¬ ∃ fault, (bench.settled
        ((Except.ok next).map ({ bench with sim := · }))).answer = .error fault := by
      rintro ⟨fault, ⟨⟩⟩
    exact ⟨iff_of_false hanswer (not_not_intro (Simulator.denotes_of_setInput hset)),
      fun hfault => absurd hfault hanswer⟩

/-- Turning an input over sets it to the other level, and to the high one if it is unknown. -/
theorem perform_toggle {id : Ident} {level : Signal} (hread : bench.getInput id = .ok level) :
    bench.perform (.toggle id) =
      bench.perform (.setInput id (.int (if level = .high then Signal.low else .high).code)) := by
  rw [h.getInput_eq] at hread
  have hturned : bench.sim.toggle circuit id = bench.sim.setInput circuit id
      (.int (if level = .high then Signal.low else .high).code) := by
    rw [Simulator.toggle, hread]
    rfl
  rw [Bench.perform, Bench.perform, h.setInput_eq, Bench.toggle, h.loaded?_eq]
  dsimp only
  rw [hturned]

section
variable (hdirect : circuit.Direct) {id component : Ident} (hid : circuit.Denotes id component)
include hdirect hid

/-- Names of one component read alike. -/
theorem getInput_alike {same c : Ident} (hc : circuit.Denotes same c)
    (hsame : (c == component) = true) :
    bench.getInput same = bench.getInput id := by
  rw [h.getInput_eq, h.getInput_eq,
    Simulator.getInput_of_direct hdirect h.isScalar_inputs bench.sim hc.1,
    Simulator.getInput_of_direct hdirect h.isScalar_inputs bench.sim hid.1, Assoc.get?_congr hsame]

/-- What is set is read under the names of the component, and under no others. -/
theorem getInput_setInput {value : Json} {level : Signal}
    (hlevel : Signal.ofJson? value = some level) (other : Ident) :
    ((∃ c, circuit.Denotes other c ∧ (c == component) = true) →
      (bench.perform (.setInput id value)).bench.getInput other = .ok level) ∧
    ((¬ ∃ c, circuit.Denotes other c ∧ (c == component) = true) →
      (bench.perform (.setInput id value)).bench.getInput other = bench.getInput other) := by
  have hset := h.perform_setInput hid hlevel
  have hnext : (bench.perform (.setInput id value)).bench.Holds circuit cap := h.perform trivial
  rw [hnext.getInput_eq, h.getInput_eq, hset]
  constructor
  · rintro ⟨c, hc, hsame⟩
    rw [Simulator.getInput_of_direct hdirect h.isScalar_inputs _ hc.1, Assoc.get?_put,
      if_pos (BEq.symm hsame)]
    rfl
  · intro hnone
    refine Simulator.getInput_put_of_ne hdirect bench.sim hid (fun c hc => ?_) level
    rw [Bool.eq_false_iff]
    exact fun hsame => hnone ⟨c, hc, hsame⟩

/-- An input that is low or high is so again after it was turned over twice. -/
theorem getInput_toggle_toggle {level : Signal} (hread : bench.getInput id = .ok level)
    (hknown : level ≠ .unknown) :
    let once := bench.perform (.toggle id)
    let twice := once.bench.perform (.toggle id)
    once.answer = .ok .done ∧ once.bench.getInput id = .ok level.not ∧ twice.answer = .ok .done ∧
      ∀ other, twice.bench.getInput other = bench.getInput other := by
  intro once twice
  have hself : ∃ c, circuit.Denotes id c ∧ (c == component) = true := ⟨component, hid, BEq.rfl⟩
  have hover : ∀ {v : Signal}, v ≠ .unknown →
      (if v = .high then Signal.low else .high) = v.not := by
    intro v hv
    cases v with
    | low | high => rfl
    | unknown => exact absurd rfl hv
  have honce : once = bench.perform (.setInput id (.int level.not.code)) := by
    rw [← hover hknown]
    exact h.perform_toggle hread
  have hlevelOnce : Signal.ofJson? (.int level.not.code) = some level.not := Signal.ofCode?_code _
  have hnext : once.bench.Holds circuit cap := h.perform trivial
  have hreadOnce : once.bench.getInput id = .ok level.not := by
    rw [honce]
    exact (h.getInput_setInput hdirect hid hlevelOnce id).1 hself
  have hknownOnce : level.not ≠ .unknown := by
    cases level with
    | low | high => nofun
    | unknown => exact absurd rfl hknown
  have htwice : twice = once.bench.perform (.setInput id (.int level.code)) := by
    have hback : (if level.not = .high then Signal.low else .high) = level := by
      rw [hover hknownOnce]
      cases level <;> rfl
    have hturned := hnext.perform_toggle hreadOnce
    rwa [hback] at hturned
  have hlevel : Signal.ofJson? (.int level.code) = some level := Signal.ofCode?_code _
  refine ⟨?_, hreadOnce, ?_, fun other => ?_⟩
  · rw [honce, h.perform_setInput hid hlevelOnce]
  · rw [htwice, hnext.perform_setInput hid hlevel]
  · obtain ⟨hsame, hother⟩ := hnext.getInput_setInput hdirect hid hlevel other
    rw [htwice]
    by_cases hdenotes : ∃ c, circuit.Denotes other c ∧ (c == component) = true
    · obtain ⟨c, hc, hbeq⟩ := hdenotes
      rw [hsame ⟨c, hc, hbeq⟩, h.getInput_alike hdirect hid hc hbeq, hread]
    · rw [hother hdenotes, honce]
      exact (h.getInput_setInput hdirect hid hlevelOnce other).2 hdenotes

end

end Holds

/-- The inputs of a loaded circuit that is not edited, with whatever identifiers and names, under
operations of any kind. Setting one fails if and only if the name denotes no input or the value is
no level, and then changes nothing at all. Where a component whose name counts as absent is found by
that name alone, what is set is read under every name of the component, every other name reads what
it did, and turning an input over twice restores a level that is low or high. Where such a component
is found by another name, this name reads the same whatever is set under it. -/
theorem input_laws {circuit : Circuit} {cap : Int} {bench : Bench}
    (h : Reached circuit cap bench) :
    (∀ id value,
      ((∃ fault, (bench.perform (.setInput id value)).answer = .error fault) ↔
        ¬ ((∃ c, circuit.Denotes id c) ∧ (Signal.ofJson? value).isSome = true)) ∧
      ((∃ fault, (bench.perform (.setInput id value)).answer = .error fault) →
        (bench.perform (.setInput id value)).bench = bench)) ∧
    (circuit.Direct → ∀ id component, circuit.Denotes id component →
      (∀ value level, Signal.ofJson? value = some level →
        let set := bench.perform (.setInput id value)
        set.answer = .ok .done ∧ ∀ other,
          ((∃ c, circuit.Denotes other c ∧ (c == component) = true) →
            set.bench.getInput other = .ok level) ∧
          ((¬ ∃ c, circuit.Denotes other c ∧ (c == component) = true) →
            set.bench.getInput other = bench.getInput other)) ∧
      ∀ level, bench.getInput id = .ok level → level ≠ .unknown →
        let once := bench.perform (.toggle id)
        let twice := once.bench.perform (.toggle id)
        once.answer = .ok .done ∧ once.bench.getInput id = .ok level.not ∧
          twice.answer = .ok .done ∧ ∀ other, twice.bench.getInput other = bench.getInput other) ∧
    ∀ id component, circuit.Denotes id component → component.isVoid = true →
      (id == component) = false → ∀ value,
        (bench.perform (.setInput id value)).bench.getInput id = bench.getInput id := by
  have hb := holds_of_reached h
  refine ⟨hb.setInput_fails, fun hdirect id component hid => ⟨fun value level hlevel => ?_, ?_⟩,
    fun id component hid hvoid hother value => ?_⟩
  · intro set
    refine ⟨?_, hb.getInput_setInput hdirect hid hlevel⟩
    exact congrArg Performed.answer (hb.perform_setInput hid hlevel)
  · exact fun level hread hknown => hb.getInput_toggle_toggle hdirect hid hread hknown
  · cases hvalue : Signal.ofJson? value with
    | none =>
      obtain ⟨hfails, hsame⟩ := hb.setInput_fails id value
      rw [hsame (hfails.2 (fun hset => by simp [hvalue] at hset))]
    | some level =>
      have hnext : (bench.perform (.setInput id value)).bench.Holds circuit cap :=
        hb.perform trivial
      rw [hnext.getInput_eq, hb.getInput_eq, hb.perform_setInput hid hvalue]
      exact Simulator.getInput_put_of_void bench.sim hid.1 hvoid hother level

/-- A circuit with an external input whose name is the component of another, an input without an
external one, and one whose name is empty throughout. -/
def aliased : Circuit where
  placed := [⟨.text "c", .input, .zero false, .zero false, .int 0, .null⟩].foldl Placement.put {}
  inputs := [⟨.text "p", .text "a", .str "input", .text "b"⟩,
    ⟨.text "q", .text "Q", .str "input", .text "a"⟩, ⟨.text "", .text "", .str "input", .text ""⟩]

/-- The name of the second component sets the first one, and what is not registered is set by its
own name. An empty name that has another one besides is set under that without being read. -/
theorem input_laws_aliased :
    let masked : Circuit := { inputs := [⟨.text "x", .text "x", .str "input", .text ""⟩] }
    let bench := (ofCircuit aliased 10).load.1.performAll [.setInput (.text "Q") (.int 1), .step]
    let set := bench.perform (.setInput (.text "a") (.int 2))
    let twice := ((bench.perform (.toggle (.text "c"))).bench.perform (.toggle (.text "c"))).bench
    let past := (ofCircuit masked 10).load.1
    aliased.Direct ∧ set.answer = .ok .done ∧ set.bench.getInput (.text "p") = .ok .unknown ∧
      bench.getInput (.text "q") = .ok .high ∧
      set.bench.getInput (.text "q") = bench.getInput (.text "q") ∧
      twice ≠ bench ∧ twice.getInput (.text "c") = bench.getInput (.text "c") ∧
      (past.perform (.setInput (.text "x") (.int 1))).bench ≠ past ∧
      (past.perform (.setInput (.text "x") (.int 1))).bench.getInput (.text "x") =
        past.getInput (.text "x") := by
  intro masked bench set twice past
  have hreached : Reached aliased 10 bench :=
    .perform (.perform (.load rfl rfl (by decide +kernel)) trivial) trivial
  have hpast : Reached masked 10 past := .load rfl rfl (by decide +kernel)
  have hdirect : aliased.Direct := Circuit.direct_of_ports (by decide +kernel)
  have ha : aliased.Denotes (.text "a") (.text "b") := ⟨by decide +kernel, by decide⟩
  have hc : aliased.Denotes (.text "c") (.text "c") := ⟨by decide +kernel, by decide⟩
  obtain ⟨-, hlaws, -⟩ := input_laws hreached
  obtain ⟨hanswer, hread⟩ := (hlaws hdirect _ _ ha).1 (.int 2) .unknown rfl
  obtain ⟨-, -, -, htwice⟩ := (hlaws hdirect _ _ hc).2 .low (by decide +kernel) (by decide)
  have hother : ¬ ∃ c, aliased.Denotes (.text "q") c ∧ (c == Ident.text "b") = true := by
    rintro ⟨c, ⟨hresolve, -⟩, hsame⟩
    obtain rfl : Ident.text "a" = c := Option.some.inj (Except.ok.inj hresolve)
    exact absurd hsame (by decide)
  refine ⟨hdirect, hanswer, (hread _).1 ⟨.text "b", ⟨by decide +kernel, by decide⟩, BEq.rfl⟩,
    by decide +kernel, (hread _).2 hother, by decide +kernel, htwice _, by decide +kernel, ?_⟩
  exact (input_laws hpast).2.2 (.text "x") (.text "") ⟨by decide +kernel, by decide⟩ rfl
    (by decide) (.int 1)

end Bench

end Relay

end Switchyard
