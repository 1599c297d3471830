import Switchyard.Proofs.Relay.Labelling

/-!
# What a step asserts

A step changes the nets by assertions only: a level is asserted at a terminal, first by the sources
and then across the closed contacts, round after round. `Simulator.assertions` lists them in order,
and the nets of the rounds are those that the assertions leave (`Simulator.netlist_rounds`). If the
sources assert levels that their nets may carry, and the nets on both sides of every relay may carry
the same known levels (`Carriable`), then all assertions are of such levels
(`Carriable.assertions`), wherever the switches are, and the nets carry no others
(`Simulator.carried`). Should a net be able to carry one level at most, no assertion changes a net
that an earlier one drove (`Netlist.keeps_assertAll`).
-/

namespace Switchyard.Relay

/-- A level asserted at a terminal. -/
structure Assertion where
  terminal : Terminal
  level : Signal
deriving DecidableEq

namespace Netlist

/-- The netlist after assertions, made one after the other. -/
def assertAll (netlist : Netlist) (assertions : List Assertion) : Netlist :=
  assertions.foldl (fun netlist a => (netlist.drive a.terminal a.level).1) netlist

variable {netlist : Netlist} {allowed : Nat → Signal → Prop}

/-- The first of some assertions is made before the rest. -/
theorem assertAll_cons (a : Assertion) (rest : List Assertion) :
    netlist.assertAll (a :: rest) = (netlist.drive a.terminal a.level).1.assertAll rest := rfl

/-- Assertions in two parts are made one part after the other. -/
theorem assertAll_append (first rest : List Assertion) :
    netlist.assertAll (first ++ rest) = (netlist.assertAll first).assertAll rest :=
  List.foldl_append

/-- Assertions change levels only. -/
theorem reset_assertAll (assertions : List Assertion) (netlist : Netlist) :
    (netlist.assertAll assertions).reset = netlist.reset := by
  induction assertions generalizing netlist with
  | nil => rfl
  | cons a rest ih => exact (ih _).trans (reset_drive _ _ _)

/-- Each assertion is of a level that the net of its terminal may carry. -/
def Allows (netlist : Netlist) (allowed : Nat → Signal → Prop) (assertions : List Assertion) :
    Prop :=
  ∀ a ∈ assertions, ∀ n, netlist.numberAt? a.terminal = some n → allowed n a.level

/-- Assertions are allowed in two parts exactly if each part is. -/
theorem allows_append {first rest : List Assertion} :
    netlist.Allows allowed (first ++ rest) ↔
      netlist.Allows allowed first ∧ netlist.Allows allowed rest :=
  List.forall_mem_append

/-- What assertions are allowed does not depend on the levels of the nets. -/
theorem Allows.of_reset {other : Netlist} {assertions : List Assertion}
    (h : netlist.Allows allowed assertions) (hreset : other.reset = netlist.reset) :
    other.Allows allowed assertions := by
  intro a ha n hn
  rw [numberAt?_of_reset hreset] at hn
  exact h a ha n hn

/-- Driving a terminal to a level that its net may carry keeps every net at levels it may carry. -/
theorem Obeys.drive (hcoherent : netlist.Coherent) (h : netlist.Obeys allowed) {t : Terminal}
    {level : Signal} (hlevel : ∀ n, netlist.numberAt? t = some n → allowed n level) :
    (netlist.drive t level).1.Obeys allowed := by
  cases ht : netlist.netAt? t with
  | none => rwa [drive_of_none ht]
  | some net =>
    obtain ⟨hnet, hcon⟩ := hcoherent.netAt?_eq_some.1 ht
    have hallowed := hlevel _ ((hcoherent.contains_iff hnet t).1 hcon)
    rw [drive_of_some ht]
    refine ⟨fun other hother hd => ?_, fun other hother hd => ?_⟩
    · obtain ⟨old, hold, rfl⟩ := mem_update.1 hother
      split at hd
      · next hn =>
        rw [if_pos hn]
        exact hn ▸ hallowed
      · next hn =>
        rw [if_neg hn]
        exact h.driven old hold hd
    · obtain ⟨old, hold, rfl⟩ := mem_update.1 hother
      split at hd
      · cases hd
      · next hn =>
        rw [if_neg hn]
        exact h.idle old hold hd

/-- Assertions of levels that the nets may carry leave the nets with such levels. -/
theorem Obeys.assertAll : ∀ {assertions : List Assertion} {netlist : Netlist}, netlist.Coherent →
    netlist.Obeys allowed → netlist.Allows allowed assertions →
    (netlist.assertAll assertions).Obeys allowed
  | [], _, _, h, _ => h
  | a :: rest, netlist, hcoherent, h, hallows => by
    obtain ⟨hhead, hrest⟩ := List.forall_mem_cons.1 hallows
    have hreset := netlist.reset_drive a.terminal a.level
    rw [assertAll_cons]
    exact Obeys.assertAll (hcoherent.of_reset hreset) (h.drive hcoherent hhead)
      (Allows.of_reset hrest hreset)

/-- If a net can carry one level at most, assertions leave the driven nets as they are. -/
theorem keeps_assertAll (hfun : ∀ n v w, allowed n v → allowed n w → v = w) :
    ∀ {assertions : List Assertion} {netlist : Netlist}, netlist.Coherent → netlist.Obeys allowed →
      netlist.Allows allowed assertions →
      ∀ net ∈ netlist.nets, net.driven = true → net ∈ (netlist.assertAll assertions).nets
  | [], _, _, _, _ => fun _ hnet _ => hnet
  | a :: rest, netlist, hcoherent, h, hallows => by
    intro net hnet hd
    obtain ⟨hhead, hrest⟩ := List.forall_mem_cons.1 hallows
    have hadvance := Advance.drive hcoherent hfun h hhead
    rw [assertAll_cons]
    exact keeps_assertAll hfun (hcoherent.of_reset hadvance.shape) hadvance.obeys
      (Allows.of_reset hrest hadvance.shape) net (hadvance.keeps net hnet hd) hd

/-- A driven net stays as it is from any of the assertions to any later one. -/
theorem keeps_of_prefix (hfun : ∀ n v w, allowed n v → allowed n w → v = w)
    (hcoherent : netlist.Coherent) (h : netlist.Obeys allowed) {earlier later : List Assertion}
    (hle : earlier <+: later) (hallows : netlist.Allows allowed later) :
    ∀ net ∈ (netlist.assertAll earlier).nets, net.driven = true →
      net ∈ (netlist.assertAll later).nets := by
  obtain ⟨more, rfl⟩ := hle
  obtain ⟨hearlier, hmore⟩ := allows_append.1 hallows
  have hreset := reset_assertAll earlier netlist
  rw [assertAll_append]
  exact keeps_assertAll hfun (hcoherent.of_reset hreset) (h.assertAll hcoherent hearlier)
    (hmore.of_reset hreset)

end Netlist

/-! ## The assertions of the phases -/

/-- What the sources assert. -/
def sourceAssertions (inputs : List (Ident × Signal)) (components : List Component) :
    List Assertion :=
  components.filterMap (fun c => (sourceLevel? inputs c).map (⟨⟨c.id, outPort⟩, ·⟩))

/-- What passing a level to a terminal asserts: the level, if it is known. -/
def passed (level : Signal) (target : Terminal) : List Assertion :=
  if level = .unknown then [] else [⟨target, level⟩]

/-- What a relay asserts across its contacts. -/
def contactAssertion (states : States) (netlist : Netlist) (component : Component) :
    List Assertion :=
  if component.kind.isRelay && isClosed states component.id then
    passed (netlist.signalAt ⟨component.id, contactIn⟩) ⟨component.id, contactOut⟩ ++
      passed (netlist.signalAt ⟨component.id, contactOut⟩) ⟨component.id, contactIn⟩
  else []

/-- What the relays assert across their contacts, each on the nets that those before it left. -/
def contactAssertions (states : States) : List Component → Netlist → List Assertion
  | [], _ => []
  | component :: rest, netlist =>
    let first := contactAssertion states netlist component
    first ++ contactAssertions states rest (netlist.assertAll first)

namespace Scene

/-- What a round asserts. -/
def roundAssertions (components : List Component) (inputs : List (Ident × Signal))
    (scene : Scene) : List Assertion :=
  let sources := sourceAssertions inputs components
  let driven := scene.netlist.assertAll sources
  let switches := updateSwitches components (updateCoils driven components scene.states)
  sources ++ contactAssertions switches components driven

/-- What a run of rounds asserts. -/
def assertions (components : List Component) (inputs : List (Ident × Signal)) :
    (fuel : Nat) → Scene → List Assertion
  | 0, _ => []
  | fuel + 1, scene =>
    scene.roundAssertions components inputs ++
      match scene.round components inputs with
      | (next, true) => assertions components inputs fuel next
      | (_, false) => []

end Scene

/-- What a step asserts, on the nets as they are after resetting them. -/
def Simulator.assertions (circuit : Circuit) (sim : Simulator) : List Assertion :=
  Scene.assertions circuit.components sim.inputs sim.cap.toNat ⟨sim.netlist.reset, sim.states⟩

/-- Driving the sources is asserting their levels, one after the other. -/
theorem netlist_driveSources (inputs : List (Ident × Signal)) :
    ∀ (components : List Component) (netlist : Netlist),
      (driveSources inputs components netlist).1 =
        netlist.assertAll (sourceAssertions inputs components)
  | [], _ => rfl
  | c :: rest, netlist => by
    dsimp only [driveSources]
    rw [netlist_driveSources inputs rest, driveSource]
    unfold sourceAssertions
    rw [List.filterMap_cons]
    cases sourceLevel? inputs c <;> rfl

/-- Passing a level on is asserting it at the other side, if it is known. -/
theorem netlist_pass (netlist : Netlist) (level : Signal) (target : Terminal) :
    (pass netlist level target).1 = netlist.assertAll (passed level target) := by
  unfold pass passed
  split <;> rfl

/-- Passing a relay is making the assertion of its contacts, if there is one. -/
theorem netlist_passContact (states : States) (netlist : Netlist) (component : Component) :
    (passContact states netlist component).1 =
      netlist.assertAll (contactAssertion states netlist component) := by
  unfold passContact contactAssertion
  split
  · dsimp only
    rw [netlist_pass, netlist_pass, Netlist.assertAll_append]
  · rfl

/-- Passing the contacts is making their assertions, each for the nets that the ones before it left.
-/
theorem netlist_passContacts (states : States) :
    ∀ (components : List Component) (netlist : Netlist),
      (passContacts states components netlist).1 =
        netlist.assertAll (contactAssertions states components netlist)
  | [], _ => rfl
  | c :: rest, netlist => by
    dsimp only [passContacts, contactAssertions]
    rw [netlist_passContacts states rest, netlist_passContact, Netlist.assertAll_append]

/-- A round makes the assertions of the round. -/
theorem Scene.netlist_round (components : List Component) (inputs : List (Ident × Signal))
    (scene : Scene) :
    (scene.round components inputs).1.netlist =
      scene.netlist.assertAll (scene.roundAssertions components inputs) := by
  dsimp only [Scene.round, Scene.roundAssertions]
  rw [netlist_passContacts, Netlist.assertAll_append, netlist_driveSources]

/-- Settling makes the assertions of all its rounds, by induction on the rounds that are left. -/
theorem Scene.netlist_settle (components : List Component) (inputs : List (Ident × Signal)) :
    ∀ (fuel done : Nat) (scene : Scene),
      (scene.settle components inputs fuel done).1.netlist =
        scene.netlist.assertAll (scene.assertions components inputs fuel)
  | 0, _, _ => rfl
  | fuel + 1, done, scene => by
    have hround := scene.netlist_round components inputs
    rw [settle, assertions, Netlist.assertAll_append, ← hround]
    generalize scene.round components inputs = outcome
    obtain ⟨next, flag⟩ := outcome
    cases flag with
    | true => exact netlist_settle components inputs fuel (done + 1) next
    | false => rfl

/-- The nets after the rounds of a step are those that its assertions leave. -/
theorem Simulator.netlist_rounds (circuit : Circuit) (sim : Simulator) :
    (sim.rounds circuit).1.netlist = sim.netlist.reset.assertAll (sim.assertions circuit) :=
  Scene.netlist_settle _ _ _ _ _

/-! ## Levels that can be asserted -/

/-- Levels that nets may carry wherever the switches are: those of the sources on them, and the same
known ones on both sides of the contacts of a relay. -/
structure Carriable (components : List Component) (inputs : List (Ident × Signal))
    (nets : Netlist) (allowed : Nat → Signal → Prop) : Prop where
  sources : ∀ c ∈ components, ∀ level, sourceLevel? inputs c = some level →
    ∀ n, nets.numberAt? ⟨c.id, outPort⟩ = some n → allowed n level
  contacts : ∀ c ∈ components, c.kind.isRelay = true → ∀ v, v ≠ .unknown → ∀ m n,
    nets.numberAt? ⟨c.id, contactIn⟩ = some m → nets.numberAt? ⟨c.id, contactOut⟩ = some n →
    (allowed m v ↔ allowed n v)

namespace Carriable

variable {components : List Component} {inputs : List (Ident × Signal)} {nets netlist : Netlist}
  {allowed : Nat → Signal → Prop} (hC : Carriable components inputs nets allowed)
include hC

/-- Every source asserts a level that its net may carry. -/
theorem sourceAssertions : nets.Allows allowed (sourceAssertions inputs components) := by
  intro a ha n hn
  obtain ⟨c, hc, ha⟩ := List.mem_filterMap.1 ha
  obtain ⟨level, hlevel, rfl⟩ := Option.map_eq_some_iff.1 ha
  exact hC.sources c hc level hlevel n hn

variable (hnets : nets.Coherent)
include hnets

/-- A relay hands on what the net on its other side may carry. -/
theorem contactAssertion (hreset : netlist.reset = nets) (hobeys : netlist.Obeys allowed)
    (states : States) {c : Component} (hc : c ∈ components) :
    nets.Allows allowed (contactAssertion states netlist c) := by
  have hcoherent : netlist.Coherent := Netlist.coherent_of_reset (hreset ▸ hnets)
  have hnumber : ∀ t, nets.numberAt? t = netlist.numberAt? t := by
    intro t
    rw [← hreset]
    rfl
  unfold Relay.contactAssertion
  split
  swap
  · exact nofun
  next hactive =>
  rw [Bool.and_eq_true] at hactive
  have hpassed : ∀ {t u : Terminal}, (∀ v, v ≠ .unknown → ∀ m n, nets.numberAt? t = some m →
      nets.numberAt? u = some n → allowed m v → allowed n v) →
      nets.Allows allowed (passed (netlist.signalAt t) u) := by
    intro t u hsame a ha n hn
    unfold passed at ha
    split at ha
    · cases ha
    · next hknown =>
      obtain rfl := List.mem_singleton.1 ha
      obtain ⟨m, hm, hallowed⟩ := hobeys.allowed_signalAt hcoherent hknown
      exact hsame _ hknown m n ((hnumber t).trans hm) hn hallowed
  have hcontacts := hC.contacts c hc hactive.1
  exact Netlist.allows_append.2
    ⟨hpassed (fun v hv m n hm hn => (hcontacts v hv m n hm hn).1),
      hpassed (fun v hv n m hn hm => (hcontacts v hv m n hm hn).2)⟩

/-- Every contact asserts a level that the net on its other side may carry, since the net on this
side may. -/
theorem contactAssertions (states : States) : ∀ {some : List Component} {netlist : Netlist},
    (∀ c ∈ some, c ∈ components) → netlist.reset = nets → netlist.Obeys allowed →
    nets.Allows allowed (contactAssertions states some netlist)
  | [], _, _, _, _ => nofun
  | c :: rest, netlist, hsub, hreset, hobeys => by
    obtain ⟨hc, hrest⟩ := List.forall_mem_cons.1 hsub
    have hfirst := hC.contactAssertion hnets hreset hobeys states hc
    have hreset' := netlist.reset_assertAll (Relay.contactAssertion states netlist c)
    have hobeys' := hobeys.assertAll (Netlist.coherent_of_reset (hreset ▸ hnets))
      (hfirst.of_reset (by rw [← hreset, Netlist.reset_reset]))
    exact Netlist.allows_append.2
      ⟨hfirst, contactAssertions states hrest (hreset'.trans hreset) hobeys'⟩

/-- All assertions of a round are of levels that the nets may carry. -/
theorem roundAssertions {scene : Scene} (hreset : scene.netlist.reset = nets)
    (hobeys : scene.netlist.Obeys allowed) :
    nets.Allows allowed (scene.roundAssertions components inputs) := by
  have hsources := hC.sourceAssertions
  have hreset' := scene.netlist.reset_assertAll (Relay.sourceAssertions inputs components)
  have hobeys' := hobeys.assertAll (Netlist.coherent_of_reset (hreset ▸ hnets))
    (hsources.of_reset (by rw [← hreset, Netlist.reset_reset]))
  exact Netlist.allows_append.2 ⟨hsources,
    hC.contactAssertions hnets _ (fun _ hc => hc) (hreset'.trans hreset) hobeys'⟩

/-- Rounds assert only what the nets may carry. -/
theorem assertions : ∀ (fuel : Nat) (scene : Scene), scene.netlist.reset = nets →
    scene.netlist.Obeys allowed → nets.Allows allowed (scene.assertions components inputs fuel)
  | 0, _, _, _ => nofun
  | fuel + 1, scene, hreset, hobeys => by
    have hround := hC.roundAssertions hnets hreset hobeys
    have hnetlist := scene.netlist_round components inputs
    have hreset' := scene.reset_round components inputs
    have hobeys' := hobeys.assertAll (Netlist.coherent_of_reset (hreset ▸ hnets))
      (hround.of_reset (by rw [← hreset, Netlist.reset_reset]))
    rw [← hnetlist] at hobeys'
    refine Netlist.allows_append.2 ⟨hround, ?_⟩
    split
    · next next hnext =>
      rw [hnext] at hreset' hobeys'
      exact assertions fuel _ (hreset'.trans hreset) hobeys'
    · exact nofun

end Carriable

namespace Simulator

variable {sim : Simulator} {allowed : Nat → Signal → Prop}

/-- A step asserts only what the nets may carry, and leaves them with such levels. The wires that
the nets were built of need not be those of the circuit. -/
theorem carried (circuit : Circuit) {wires : List Wire}
    (hshape : sim.netlist.reset = Netlist.ofWires wires)
    (hC : Carriable circuit.components sim.inputs (Netlist.ofWires wires) allowed) :
    sim.netlist.reset.Allows allowed (sim.assertions circuit) ∧
      (sim.rounds circuit).1.netlist.reset = Netlist.ofWires wires ∧
      (sim.rounds circuit).1.netlist.Obeys allowed := by
  have hblank := Netlist.blank_ofWires wires
  have hcoherent := (Netlist.represents_ofWires wires).coherent
  have hreset : sim.netlist.reset.reset = Netlist.ofWires wires := by
    rw [hshape, hblank.reset_eq]
  have hobeys : sim.netlist.reset.Obeys allowed := by
    rw [hshape]
    exact hblank.obeys
  have hallows := hC.assertions hcoherent sim.cap.toNat ⟨_, sim.states⟩ hreset hobeys
  rw [sim.netlist_rounds, Netlist.reset_assertAll, hshape]
  exact ⟨hallows, hblank.reset_eq, hblank.obeys.assertAll hcoherent hallows⟩

/-- From any fitting state, all assertions of the rounds are of levels that the nets may carry, and
so are the levels at the end. -/
theorem Fits.carried {circuit : Circuit} (h : sim.Fits circuit)
    (hC : Carriable circuit.components sim.inputs (Netlist.ofWires circuit.wires) allowed) :
    sim.netlist.reset.Allows allowed (sim.assertions circuit) ∧
      (sim.rounds circuit).1.netlist.reset = Netlist.ofWires circuit.wires ∧
      (sim.rounds circuit).1.netlist.Obeys allowed :=
  Simulator.carried circuit h.shape hC

end Simulator

end Switchyard.Relay
