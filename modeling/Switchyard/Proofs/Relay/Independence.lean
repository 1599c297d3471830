import Switchyard.Proofs.Outcomes
import Switchyard.Proofs.Relay.Embedding
import Switchyard.Proofs.Relay.History

/-!
# Circuits side by side

Two circuits that share no terminal and no wire name may be put together, their components and wires
listed in any order that keeps each one's own (`Circuit.Beside`). Nets, levels and states of the
whole are then those of the parts (`Netlist.Halves`): every phase of a round does in the whole what
it does in the parts, and it changes something if it does in one of them
(`Scene.round_together`). A part at rest stays as it is while the other goes on, so the whole comes
to rest when the later of the parts does (`Scene.settle_together`), and a step of the whole tells of
each part what a step of that part alone tells (`Bench.step_beside`).
-/

namespace Switchyard.Relay

open Netlist (Agree Joins Embeds ofWires)

/-- A netlist agrees with one on some terminals and with another on others, and none of its nets
holds terminals of both kinds. -/
structure Netlist.Halves (onX onY : Terminal → Prop) (whole X Y : Netlist) : Prop where
  left : Agree onX whole X
  right : Agree onY whole Y
  apart : ∀ t u, onX t → onY u → ¬ whole.Joins t u
  coherent : X.Coherent ∧ Y.Coherent

namespace Netlist.Halves

variable {onX onY : Terminal → Prop} {whole X Y : Netlist}

theorem swap (h : Halves onX onY whole X Y) : Halves onY onX whole Y X where
  left := h.right
  right := h.left
  apart t u ht hu hj := h.apart u t hu ht hj.symm
  coherent := h.coherent.symm

/-- A change of levels in the whole and one part that keeps both agreements. -/
theorem change_left (h : Halves onX onY whole X Y) {whole' X' : Netlist}
    (hleft : Agree onX whole' X') (hright : Agree onY whole' Y) (hreset : whole'.reset = whole.reset)
    (hresetX : X'.reset = X.reset) : Halves onX onY whole' X' Y where
  left := hleft
  right := hright
  apart t u ht hu hj := h.apart t u ht hu ((joins_of_reset hreset t u).1 hj)
  coherent := ⟨h.coherent.1.of_reset hresetX, h.coherent.2⟩

/-- A component of the first part asserts its level in the whole and in that part. -/
theorem driveSource_left (h : Halves onX onY whole X Y) {c : Component}
    (hc : ∀ port ∈ c.ports, onX ⟨c.id, port⟩) (inputs : List (Ident × Signal)) :
    (driveSource inputs whole c).2 = (driveSource inputs X c).2 ∧
      Halves onX onY (driveSource inputs whole c).1 (driveSource inputs X c).1 Y := by
  obtain ⟨hflag, hleft⟩ := h.left.driveSource hc inputs
  have hright := h.right.driveSource_left
    (fun port hport u hu => h.apart _ u (hc port hport) hu) inputs
  exact ⟨hflag, h.change_left hleft hright (reset_driveSource _ _ _) (reset_driveSource _ _ _)⟩

/-- A relay of the left part passes the same there as on the whole, and the right part is left
alone. -/
theorem passContact_left (h : Halves onX onY whole X Y) {c : Component}
    (hc : ∀ port ∈ c.ports, onX ⟨c.id, port⟩) {states states' : States}
    (hclosed : isClosed states c.id = isClosed states' c.id) :
    (passContact states whole c).2 = (passContact states' X c).2 ∧
      Halves onX onY (passContact states whole c).1 (passContact states' X c).1 Y := by
  obtain ⟨hflag, hleft⟩ := h.left.passContact hc hclosed
  have hright := h.right.passContact_left
    (fun port hport u hu => h.apart _ u (hc port hport) hu) states
  exact ⟨hflag, h.change_left hleft hright (reset_passContact _ _ _) (reset_passContact _ _ _)⟩

variable {xs ys zs : List Component}

/-- If each component acts in the whole as in its part, all of them do. -/
theorem sweep (hz : Interleave xs ys zs) {act actX actY : Netlist → Component → Netlist × Bool} :
    ∀ {whole X Y : Netlist}, Halves onX onY whole X Y →
      (∀ c ∈ xs, ∀ {whole X Y : Netlist}, Halves onX onY whole X Y →
        (act whole c).2 = (actX X c).2 ∧ Halves onX onY (act whole c).1 (actX X c).1 Y) →
      (∀ c ∈ ys, ∀ {whole X Y : Netlist}, Halves onX onY whole X Y →
        (act whole c).2 = (actY Y c).2 ∧ Halves onX onY (act whole c).1 X (actY Y c).1) →
      (sweep act zs whole).2 = ((sweep actX xs X).2 || (sweep actY ys Y).2) ∧
        Halves onX onY (sweep act zs whole).1 (sweep actX xs X).1 (sweep actY ys Y).1 := by
  induction hz with
  | nil => exact fun h _ _ => ⟨rfl, h⟩
  | left _ ih =>
    intro whole X Y h hx hy
    obtain ⟨hflag, hnext⟩ := hx _ List.mem_cons_self h
    obtain ⟨hrest, hlast⟩ := ih hnext (fun c hc => hx c (List.mem_cons_of_mem _ hc)) hy
    refine ⟨?_, hlast⟩
    dsimp only [Relay.sweep]
    rw [hflag, hrest, Bool.or_assoc]
  | right _ ih =>
    intro whole X Y h hx hy
    obtain ⟨hflag, hnext⟩ := hy _ List.mem_cons_self h
    obtain ⟨hrest, hlast⟩ := ih hnext hx (fun c hc => hy c (List.mem_cons_of_mem _ hc))
    refine ⟨?_, hlast⟩
    dsimp only [Relay.sweep]
    rw [hflag, hrest, Bool.or_left_comm]

/-- Grounding the whole is grounding both halves. -/
theorem ground (h : Halves onX onY whole X Y) : Halves onX onY whole.ground X.ground Y.ground where
  left := h.left.ground
  right := h.right.ground
  apart t u ht hu hj := h.apart t u ht hu ((joins_of_reset (reset_ground whole) t u).1 hj)
  coherent := ⟨h.coherent.1.of_reset (reset_ground X), h.coherent.2.of_reset (reset_ground Y)⟩

end Netlist.Halves

/-! ## Rounds of the whole -/

/-- The components of a whole are those of two parts, whose ports lie in two sets of terminals. -/
structure Split (onX onY : Terminal → Prop) (xs ys zs : List Component) : Prop where
  interleave : Interleave xs ys zs
  distinct : DistinctIds zs
  left : ∀ c ∈ xs, ∀ port ∈ c.ports, onX ⟨c.id, port⟩
  right : ∀ c ∈ ys, ∀ port ∈ c.ports, onY ⟨c.id, port⟩

namespace Split

variable {onX onY : Terminal → Prop} {xs ys zs : List Component} (h : Split onX onY xs ys zs)
include h

theorem swap : Split onY onX ys xs zs :=
  ⟨h.interleave.swap, h.distinct, h.right, h.left⟩

/-- The ids of a part are distinct, since those of the whole are. -/
theorem distinct_left : DistinctIds xs :=
  h.distinct.sublist h.interleave.sublist_left

/-- The contacts of a component of the left part are closed in the states of the whole as in its
own. -/
theorem isClosed_left {c : Component} (hc : c ∈ xs) (f : Component → ComponentState) :
    isClosed (States.of zs f) c.id = isClosed (States.of xs f) c.id := by
  rw [States.isClosed_of h.distinct (h.interleave.mem_iff.2 (.inl hc)),
    States.isClosed_of h.distinct_left hc]

variable {whole X Y : Netlist} (hn : Netlist.Halves onX onY whole X Y)
include hn

/-- The sources of the whole are those of its parts. -/
theorem driveSources (inputs : List (Ident × Signal)) :
    (driveSources inputs zs whole).2 =
        ((driveSources inputs xs X).2 || (driveSources inputs ys Y).2) ∧
      Netlist.Halves onX onY (driveSources inputs zs whole).1 (driveSources inputs xs X).1
        (driveSources inputs ys Y).1 := by
  simp only [driveSources_eq_sweep]
  refine hn.sweep h.interleave (fun c hc _ _ _ hn => hn.driveSource_left (h.left c hc) inputs)
    (fun c hc _ _ _ hn => ?_)
  obtain ⟨hflag, hnext⟩ := hn.swap.driveSource_left (h.right c hc) inputs
  exact ⟨hflag, hnext.swap⟩

/-- The contacts of the whole are those of its parts. -/
theorem passContacts {f : Component → ComponentState} :
    (passContacts (States.of zs f) zs whole).2 =
        ((passContacts (States.of xs f) xs X).2 || (passContacts (States.of ys f) ys Y).2) ∧
      Netlist.Halves onX onY (passContacts (States.of zs f) zs whole).1
        (passContacts (States.of xs f) xs X).1 (passContacts (States.of ys f) ys Y).1 := by
  simp only [passContacts_eq_sweep]
  refine hn.sweep h.interleave
    (fun c hc _ _ _ hn => hn.passContact_left (h.left c hc) (h.isClosed_left hc f))
    (fun c hc _ _ _ hn => ?_)
  obtain ⟨hflag, hnext⟩ := hn.swap.passContact_left (h.right c hc) (h.swap.isClosed_left hc f)
  exact ⟨hflag, hnext.swap⟩

/-- A relay of a part follows the nets of the whole as it follows those of the part. -/
theorem follow_left {c : Component} (hc : c ∈ xs) (state : ComponentState) :
    state.follow whole c = state.follow X c := by
  unfold ComponentState.follow
  split
  · next hrelay =>
    have hcoil := h.left c hc _ (relay_mem_ports hrelay).1
    rw [energized, energized, hn.left.signalAt_eq hcoil]
  · rfl

/-- A component of a part has the same levels at its ports. -/
theorem readPorts_left {c : Component} (hc : c ∈ xs) (state : ComponentState) :
    state.readPorts whole c = state.readPorts X c := by
  unfold ComponentState.readPorts
  rw [List.foldl_ext _ _ _ (fun ports port hport => ?_)]
  rw [hn.left.signalAt_eq (h.left c hc port hport)]

end Split

namespace Scene

variable {onX onY : Terminal → Prop} {xs ys zs : List Component}

/-- A round of the whole and rounds of its parts give states of one function and nets that the parts
halve, and the whole reports a change if one of the parts does. -/
theorem round_together (h : Split onX onY xs ys zs) {whole X Y : Netlist}
    (hn : Netlist.Halves onX onY whole X Y) (inputs : List (Ident × Signal))
    (f : Component → ComponentState) :
    ∃ whole' X' Y' g, Netlist.Halves onX onY whole' X' Y' ∧
      (round zs inputs ⟨whole, States.of zs f⟩).1 = ⟨whole', States.of zs g⟩ ∧
      (round xs inputs ⟨X, States.of xs f⟩).1 = ⟨X', States.of xs g⟩ ∧
      (round ys inputs ⟨Y, States.of ys f⟩).1 = ⟨Y', States.of ys g⟩ ∧
      (round zs inputs ⟨whole, States.of zs f⟩).2 =
        ((round xs inputs ⟨X, States.of xs f⟩).2 || (round ys inputs ⟨Y, States.of ys f⟩).2) := by
  obtain ⟨hsources, hdriven⟩ := h.driveSources hn inputs
  let g := fun c => (f c).follow (driveSources inputs zs whole).1 c
  have hX : States.of xs (fun c => (f c).follow (driveSources inputs xs X).1 c) = States.of xs g :=
    States.of_eq_of_iff.2 (fun c hc => (h.follow_left hdriven hc _).symm)
  have hY : States.of ys (fun c => (f c).follow (driveSources inputs ys Y).1 c) = States.of ys g :=
    States.of_eq_of_iff.2 (fun c hc => (h.swap.follow_left hdriven.swap hc _).symm)
  obtain ⟨hcontacts, hpassed⟩ := h.passContacts hdriven (f := g)
  have hmoved : decide (States.of zs g ≠ States.of zs f) =
      (decide (States.of xs g ≠ States.of xs f) || decide (States.of ys g ≠ States.of ys f)) := by
    rw [Bool.eq_iff_iff, Bool.or_eq_true, decide_eq_true_iff, decide_eq_true_iff,
      decide_eq_true_iff, ← not_and_or, not_iff_not]
    simp only [States.of_eq_of_iff, h.interleave.mem_iff, or_imp, forall_and]
  rw [round_of h.distinct, round_of h.distinct_left, round_of h.swap.distinct_left]
  dsimp only
  rw [hX, hY]
  refine ⟨_, _, _, g, hpassed, rfl, rfl, rfl, ?_⟩
  rw [hsources, hmoved, hcontacts]
  ac_rfl

section
variable (components : List Component) (inputs : List (Ident × Signal))

/-- A run makes at least one round, if it may make any. -/
theorem le_settle : ∀ (fuel done : Nat) (scene : Scene),
    done + min fuel 1 ≤ (settle components inputs fuel done scene).2.1
  | 0, _, _ => Nat.le_refl _
  | fuel + 1, done, scene => by
    rw [settle_succ]
    split
    · have := le_settle fuel (done + 1) (scene.round components inputs).1
      omega
    · exact Nat.add_le_add_left (Nat.min_le_right _ _) done

/-- A scene that a round leaves alone is still that after a run. -/
theorem settle_still {scene : Scene} (hround : scene.round components inputs = (scene, false))
    (fuel done : Nat) : settle components inputs fuel done scene =
      (scene, done + min fuel 1, decide (0 < fuel)) := by
  cases fuel with
  | zero => rfl
  | succ fuel =>
    rw [settle_succ, hround]
    simp

/-- After a round that reports no change, the next one leaves the scene alone. -/
theorem round_still {f g : Component → ComponentState} (hd : DistinctIds components)
    {netlist next : Netlist} (h : netlist.Coherent)
    (hnext : (round components inputs ⟨netlist, States.of components f⟩).1 =
      ⟨next, States.of components g⟩)
    (hq : (round components inputs ⟨netlist, States.of components f⟩).2 = false) :
    round components inputs ⟨next, States.of components g⟩ =
      (⟨next, States.of components g⟩, false) := by
  have hsame := (round_quiet hd h hq).1
  rw [hsame] at hnext
  rw [← hnext]
  exact Prod.ext hsame hq

end

/-- A run of the whole and runs of its parts: they end with states of one function and nets that the
parts halve, the whole after as many rounds as the longer run, and at rest if both parts are. -/
def Together (onX onY : Terminal → Prop) (xs ys zs : List Component)
    (whole first second : Scene × Nat × Bool) : Prop :=
  (∃ N X Y g, Netlist.Halves onX onY N X Y ∧ whole.1 = ⟨N, States.of zs g⟩ ∧
    first.1 = ⟨X, States.of xs g⟩ ∧ second.1 = ⟨Y, States.of ys g⟩) ∧
  whole.2.1 = max first.2.1 second.2.1 ∧ whole.2.2 = (first.2.2 && second.2.2)

/-- Rounds that go together do so with the sides exchanged. -/
theorem Together.swap {whole first second : Scene × Nat × Bool}
    (h : Together onX onY xs ys zs whole first second) :
    Together onY onX ys xs zs whole second first := by
  obtain ⟨⟨N, X, Y, g, hn, hwhole, hfirst, hsecond⟩, hcount, hflag⟩ := h
  exact ⟨⟨N, Y, X, g, hn.swap, hwhole, hsecond, hfirst⟩, hcount.trans (Nat.max_comm _ _),
    hflag.trans (Bool.and_comm _ _)⟩

/-- A part that came to rest may as well have been run along with the other. -/
theorem Together.of_still {whole : Scene × Nat × Bool} {scene still : Scene}
    {inputs : List (Ident × Signal)} {fuel done : Nat}
    (hround : still.round ys inputs = (still, false))
    (h : Together onX onY xs ys zs whole (settle xs inputs fuel done scene)
      (settle ys inputs fuel done still)) :
    Together onX onY xs ys zs whole (settle xs inputs fuel done scene) (still, done, true) := by
  have hle := le_settle xs inputs fuel done scene
  rw [settle_still ys inputs hround] at h
  obtain ⟨hscenes, hcount, hflag⟩ := h
  refine ⟨hscenes, ?_, ?_⟩
  · dsimp only at hcount ⊢
    omega
  · rw [hflag]
    cases fuel with
    | zero => rfl
    | succ fuel => rfl

/-- The whole comes to rest when the later of its parts does. -/
theorem settle_together (h : Split onX onY xs ys zs) (inputs : List (Ident × Signal)) :
    ∀ (fuel done : Nat) {whole X Y : Netlist} (f : Component → ComponentState),
      Netlist.Halves onX onY whole X Y →
      Together onX onY xs ys zs (settle zs inputs fuel done ⟨whole, States.of zs f⟩)
        (settle xs inputs fuel done ⟨X, States.of xs f⟩)
        (settle ys inputs fuel done ⟨Y, States.of ys f⟩)
  | 0, done, whole, X, Y, f, hn => ⟨⟨whole, X, Y, f, hn, rfl, rfl, rfl⟩, (Nat.max_self _).symm, rfl⟩
  | fuel + 1, done, whole, X, Y, f, hn => by
    obtain ⟨whole', X', Y', g, hn', hwhole, hX, hY, hflag⟩ := round_together h hn inputs f
    have hnext := settle_together h inputs fuel (done + 1) g hn'
    have hstillX := round_still xs inputs h.distinct_left hn.coherent.1 hX
    have hstillY := round_still ys inputs h.swap.distinct_left hn.coherent.2 hY
    rw [settle_succ, settle_succ, settle_succ, hflag, hwhole, hX, hY]
    cases hflagX : (round xs inputs ⟨X, States.of xs f⟩).2 <;>
      cases hflagY : (round ys inputs ⟨Y, States.of ys f⟩).2
    · exact ⟨⟨whole', X', Y', g, hn', rfl, rfl, rfl⟩, (Nat.max_self _).symm, rfl⟩
    · exact (hnext.swap.of_still (hstillX hflagX)).swap
    · exact hnext.of_still (hstillY hflagY)
    · exact hnext

end Scene

/-! ## Circuits side by side -/

/-- A terminal belongs to a circuit if one of its wires ends there, or one of its components has it
for a port. -/
def Circuit.Owns (circuit : Circuit) (t : Terminal) : Prop :=
  IsEnd circuit.wires t ∨
    ∃ c ∈ circuit.components, ∃ port ∈ c.ports, (Terminal.mk c.id port == t) = true

/-- A circuit made of the components and wires of two others, in any order that keeps each one's
own. The two share no name of a wire and no terminal. -/
structure Circuit.Beside (whole a b : Circuit) : Prop where
  components : Interleave a.components b.components whole.components
  wires : Interleave a.wires b.wires whole.wires
  names : ∀ v ∈ a.wires, ∀ w ∈ b.wires, (v.id == w.id) = false
  apart : ∀ t, a.Owns t → ¬ b.Owns t

namespace Circuit

/-- Owning a terminal does not depend on how it is spelled. -/
theorem Owns.congr {circuit : Circuit} {t u : Terminal} (h : (t == u) = true)
    (ht : circuit.Owns t) : circuit.Owns u := by
  rcases ht with hend | ⟨c, hc, port, hport, hsame⟩
  · exact .inl (hend.congr h)
  · exact .inr ⟨c, hc, port, hport, BEq.trans hsame h⟩

/-- A circuit owns the ends of its wires. -/
theorem owns_ends {circuit : Circuit} {wire : Wire} (h : wire ∈ circuit.wires) :
    circuit.Owns wire.source ∧ circuit.Owns wire.target :=
  ⟨.inl ⟨wire, h, .inl BEq.rfl⟩, .inl ⟨wire, h, .inr BEq.rfl⟩⟩

/-- The parts of a circuit share no name of a component. -/
theorem ids_apart {whole a b : Circuit}
    (h : Interleave a.components b.components whole.components) :
    ∀ c ∈ a.components, ∀ d ∈ b.components, (c.id == d.id) = false :=
  h.rel_of_pairwise (fun c d hcd => by rwa [BEq.comm]) whole.distinctIds

namespace Beside

variable {whole a b : Circuit} (h : whole.Beside a b)
include h

theorem swap : whole.Beside b a where
  components := h.components.swap
  wires := h.wires.swap
  names v hv w hw := by
    rw [BEq.comm]
    exact h.names w hw v hv
  apart t hb ha := h.apart t ha hb

/-- The components of a whole are split between the two circuits, by the terminals they own. -/
theorem split : Split a.Owns b.Owns a.components b.components whole.components where
  interleave := h.components
  distinct := whole.distinctIds
  left c hc port hport := .inr ⟨c, hc, port, hport, BEq.rfl⟩
  right c hc port hport := .inr ⟨c, hc, port, hport, BEq.rfl⟩

/-- The nets of a circuit are embedded in those of the whole, by induction along the interleaved
wires. -/
theorem exists_embeds : ∃ number, Embeds a.Owns number (ofWires a.wires) (ofWires whole.wires) :=
  Netlist.exists_embeds_ofWires (fun _ _ => Owns.congr) h.wires (fun _ => owns_ends)
    (fun _ hw => ⟨fun ha => h.apart _ ha (owns_ends hw).1, fun ha => h.apart _ ha (owns_ends hw).2⟩)

/-- The nets of the whole are those of both circuits, side by side. -/
theorem halves : Netlist.Halves a.Owns b.Owns (ofWires whole.wires) (ofWires a.wires)
    (ofWires b.wires) := by
  obtain ⟨number, ha⟩ := h.exists_embeds
  obtain ⟨number', hb⟩ := h.swap.exists_embeds
  exact ⟨Netlist.agree_of_embeds ha, Netlist.agree_of_embeds hb,
    fun t u ht hu => ha.apart t u ht (fun hau => h.apart u hau hu),
    (Netlist.represents_ofWires _).coherent, (Netlist.represents_ofWires _).coherent⟩

/-- The wires of a part are reported alike in the whole and in the part. -/
theorem wireSignals_eq {N X : Netlist} (hN : N.reset = ofWires whole.wires)
    (hX : X.reset = ofWires a.wires) (hagree : Agree a.Owns N X) :
    a.wires.map (fun w => (w.id, Simulator.wireSignal X w.id)) =
      a.wires.map (fun w => (w.id, Simulator.wireSignal N w.id)) := by
  obtain ⟨number, hembeds⟩ := h.exists_embeds
  refine List.map_congr_left (fun w hw => ?_)
  rw [hembeds.wireSignal_eq h.wires (fun _ hw => (owns_ends hw).1) h.names hX hN hagree hw]

/-- A step of the whole, freshly loaded, tells of each part what a step of the part tells. -/
theorem completeStep (cap : Int) (inputs : List (Ident × Signal)) :
    let told := fun circuit : Circuit =>
      (Simulator.completeStep circuit { Simulator.load cap circuit with inputs }).2
    (told whole).converged = ((told a).converged && (told b).converged) ∧
      (told whole).iterations = max (told a).iterations (told b).iterations ∧
      (∃ g, (told whole).states = States.of whole.components g ∧
        (told a).states = States.of a.components g ∧
        (told b).states = States.of b.components g) ∧
      Interleave (told a).wires (told b).wires (told whole).wires := by
  obtain ⟨⟨N, X, Y, g, hn, hwhole, hfirst, hsecond⟩, hcount, hflag⟩ :=
    Scene.settle_together h.split inputs cap.toNat 0 .rest h.halves
  have hstart : ∀ circuit : Circuit, Scene.mk (ofWires circuit.wires).reset
      (Simulator.restStates circuit.components) =
      ⟨ofWires circuit.wires, States.of circuit.components .rest⟩ := by
    intro circuit
    rw [(Netlist.blank_ofWires _).reset_eq, restStates_of circuit.distinctIds]
  have hshape : ∀ {circuit : Circuit} {final : Scene}, (Scene.settle circuit.components inputs
      cap.toNat 0 ⟨ofWires circuit.wires, States.of circuit.components .rest⟩).1 = final →
      final.netlist.ground.reset = ofWires circuit.wires := by
    rintro circuit _ rfl
    rw [Netlist.reset_ground, Scene.reset_settle, (Netlist.blank_ofWires _).reset_eq]
  have hg := hn.ground
  dsimp only [Simulator.completeStep, Simulator.load]
  rw [hstart whole, hstart a, hstart b]
  refine ⟨hflag, hcount, ?_, ?_⟩
  · rw [hwhole, hfirst, hsecond, readPorts_of_all whole.distinctIds,
      readPorts_of_all a.distinctIds, readPorts_of_all b.distinctIds,
      States.of_eq_of_iff.2 (fun c hc => (h.split.readPorts_left hg hc (g c)).symm),
      States.of_eq_of_iff.2 (fun c hc => (h.split.swap.readPorts_left hg.swap hc (g c)).symm)]
    exact ⟨_, rfl, rfl, rfl⟩
  · have hleft := h.wireSignals_eq (hshape hwhole) (hshape hfirst) hg.left
    have hright := h.swap.wireSignals_eq (hshape hwhole) (hshape hsecond) hg.right
    rw [hwhole, hfirst, hsecond, hleft, hright]
    refine (h.wires.map _).ofPairs (fun x hx y hy => ?_)
    obtain ⟨v, hv, rfl⟩ := List.mem_map.1 hx
    obtain ⟨w, hw, rfl⟩ := List.mem_map.1 hy
    exact h.names v hv w hw

end Beside

/-- Whether a component of the circuit has the name. -/
def hasComponent (circuit : Circuit) (id : Ident) : Bool :=
  circuit.components.any (·.id == id)

/-- Whether a wire of the circuit has the name. -/
def hasWire (circuit : Circuit) (id : Ident) : Bool :=
  circuit.wires.any (·.id == id)

/-- The entries of the states of a whole under the names of one part. -/
theorem Beside.filter_states {whole a b : Circuit} (h : whole.Beside a b)
    (g : Component → ComponentState) :
    (States.of whole.components g).filter (a.hasComponent ·.1) = States.of a.components g := by
  refine (h.components.map (fun c => (c.id, g c))).filter_eq (fun entry hentry => ?_)
    (fun entry hentry => ?_)
  · obtain ⟨c, hc, rfl⟩ := List.mem_map.1 hentry
    exact List.any_eq_true.2 ⟨c, hc, BEq.rfl⟩
  · obtain ⟨d, hd, rfl⟩ := List.mem_map.1 hentry
    exact List.any_eq_false.2 (fun c hc => by simp [ids_apart h.components c hc d hd])

/-- The entries of the levels of wires of a whole under the names of one part. -/
theorem Beside.filter_wires {whole a b : Circuit} (h : whole.Beside a b)
    {f g : Wire → Signal} {both : List (Ident × Signal)}
    (hboth : Interleave (Assoc.ofPairs (a.wires.map (fun w => (w.id, f w))))
      (Assoc.ofPairs (b.wires.map (fun w => (w.id, g w)))) both) :
    both.filter (a.hasWire ·.1) = Assoc.ofPairs (a.wires.map (fun w => (w.id, f w))) := by
  refine hboth.filter_eq (fun entry hentry => ?_) (fun entry hentry => ?_)
  · obtain ⟨_, hpair, hsame⟩ := Assoc.exists_key_of_mem_ofPairs hentry
    obtain ⟨w, hw, rfl⟩ := List.mem_map.1 hpair
    exact List.any_eq_true.2 ⟨w, hw, BEq.symm hsame⟩
  · obtain ⟨_, hpair, hsame⟩ := Assoc.exists_key_of_mem_ofPairs hentry
    obtain ⟨w, hw, rfl⟩ := List.mem_map.1 hpair
    refine List.any_eq_false.2 (fun v hv => ?_)
    rw [BEq.congr_right hsame, h.names v hv w hw]
    exact Bool.false_ne_true

/-- Every wire ends on components of the circuit, as where each was added to it by an edit. -/
def WiredWithin (circuit : Circuit) : Prop :=
  ∀ wire ∈ circuit.wires, circuit.hasComponent wire.source.component = true ∧
    circuit.hasComponent wire.target.component = true

/-- In a circuit that is wired within, every terminal it owns is one of its components. -/
theorem Owns.exists_component {circuit : Circuit} (h : circuit.WiredWithin) {t : Terminal}
    (ht : circuit.Owns t) : ∃ c ∈ circuit.components, (c.id == t.component) = true := by
  have hends : ∀ u : Terminal, circuit.hasComponent u.component = true → (u == t) = true →
      ∃ c ∈ circuit.components, (c.id == t.component) = true := by
    intro u hu hut
    obtain ⟨c, hc, hsame⟩ := List.any_eq_true.1 hu
    exact ⟨c, hc, BEq.trans hsame (Terminal.beq_iff.1 hut).1⟩
  rcases ht with ⟨wire, hw, hs | ht⟩ | ⟨c, hc, port, -, hsame⟩
  · exact hends _ (h wire hw).1 hs
  · exact hends _ (h wire hw).2 ht
  · exact ⟨c, hc, (Terminal.beq_iff.1 hsame).1⟩

/-- Circuits that are wired within themselves share no terminal if they share no name. -/
theorem beside_of_wiredWithin {whole a b : Circuit}
    (hcomponents : Interleave a.components b.components whole.components)
    (hwires : Interleave a.wires b.wires whole.wires)
    (hnames : ∀ v ∈ a.wires, ∀ w ∈ b.wires, (v.id == w.id) = false)
    (ha : a.WiredWithin) (hb : b.WiredWithin) : whole.Beside a b where
  components := hcomponents
  wires := hwires
  names := hnames
  apart t hat hbt := by
    obtain ⟨c, hc, hct⟩ := hat.exists_component ha
    obtain ⟨d, hd, hdt⟩ := hbt.exists_component hb
    have hcd := ids_apart hcomponents c hc d hd
    rw [BEq.trans hct (BEq.symm hdt)] at hcd
    cases hcd

end Circuit

namespace Bench

/-- The result of a step is that of the freshly loaded circuit with the same inputs. -/
theorem Holds.result_eq {circuit : Circuit} {cap : Int} {bench : Bench}
    (h : bench.Holds circuit cap) {inputs : List (Ident × Signal)}
    (hin : SameInputs circuit bench.sim.inputs inputs) {result : StepResult}
    (hresult : bench.step.2 = .ok result) :
    result = (Simulator.completeStep circuit { Simulator.load cap circuit with inputs }).2 := by
  have hfresh : Simulator.Loaded circuit { Simulator.load cap circuit with inputs } :=
    Simulator.loaded_load cap circuit
  rw [h.step_eq, h.loaded.step_eq hfresh h.cap_eq hin] at hresult
  exact (Simulator.step_eq_ok_iff.1 hresult).2.2.symm

/-- Circuits side by side do not interact. A step of the whole gives a result if and only if steps
of both parts do, under the same cap and with the same inputs. It comes to rest if both parts do,
after as many rounds as the longer of them, and what it tells of the components and wires of a part
is what a step of that part alone tells. -/
theorem step_beside {whole a b : Circuit} (h : whole.Beside a b) {cap : Int}
    {bench first second : Bench} (hbench : Reached whole cap bench) (hfirst : Reached a cap first)
    (hsecond : Reached b cap second) (hin : SameInputs a bench.sim.inputs first.sim.inputs)
    (hin' : SameInputs b bench.sim.inputs second.sim.inputs) :
    ((∃ result, bench.step.2 = .ok result) ↔
      (∃ result, first.step.2 = .ok result) ∧ ∃ result, second.step.2 = .ok result) ∧
    ∀ result left right, bench.step.2 = .ok result → first.step.2 = .ok left →
      second.step.2 = .ok right →
      result.converged = (left.converged && right.converged) ∧
      result.iterations = max left.iterations right.iterations ∧
      result.states.filter (a.hasComponent ·.1) = left.states ∧
      result.states.filter (b.hasComponent ·.1) = right.states ∧
      result.wires.filter (a.hasWire ·.1) = left.wires ∧
      result.wires.filter (b.hasWire ·.1) = right.wires := by
  have hb := holds_of_reached hbench
  have hf := holds_of_reached hfirst
  have hs := holds_of_reached hsecond
  refine ⟨?_, fun result left right hresult hleft hright => ?_⟩
  · rw [hb.step_ok_iff, hf.step_ok_iff, hs.step_ok_iff]
    simp only [List.all_eq_true, h.components.mem_iff, or_imp, forall_and]
  · obtain rfl := hb.result_eq (fun _ _ _ => rfl) hresult
    obtain rfl := hf.result_eq (fun c hc hkind => (hin c hc hkind).symm) hleft
    obtain rfl := hs.result_eq (fun c hc hkind => (hin' c hc hkind).symm) hright
    obtain ⟨hflag, hcount, ⟨g, hwhole, ha, hb⟩, hwires⟩ := h.completeStep cap bench.sim.inputs
    refine ⟨hflag, hcount, ?_, ?_, h.filter_wires hwires, h.swap.filter_wires hwires.swap⟩
    · rw [hwhole, ha]
      exact h.filter_states g
    · rw [hwhole, hb]
      exact h.swap.filter_states g

/-- A power source wired to an input, which contradicts it in every round while it is low. -/
def short : Circuit where
  placed := [⟨.text "mains", .power, .zero false, .zero false, .int 0, .null⟩,
    ⟨.text "leak", .input, .zero false, .zero false, .int 0, .null⟩].foldl Placement.put {}
  wires := [⟨.text "s1", ⟨.text "mains", outPort⟩, ⟨.text "leak", outPort⟩⟩]

/-- The latch and the short in one circuit, in mixed order. -/
def latchAndShort : Circuit where
  placed := [⟨.text "vcc", .power, .zero false, .zero false, .int 0, .null⟩,
    ⟨.text "mains", .power, .zero false, .zero false, .int 0, .null⟩,
    ⟨.text "set", .input, .zero false, .zero false, .int 0, .null⟩,
    ⟨.text "start", .relayNo, .zero false, .zero false, .int 0, .null⟩,
    ⟨.text "leak", .input, .zero false, .zero false, .int 0, .null⟩,
    ⟨.text "hold", .relayNo, .zero false, .zero false, .int 0, .null⟩].foldl Placement.put {}
  wires := [⟨.text "w1", ⟨.text "vcc", outPort⟩, ⟨.text "start", contactIn⟩⟩,
    ⟨.text "w2", ⟨.text "set", outPort⟩, ⟨.text "start", coilIn⟩⟩,
    ⟨.text "w3", ⟨.text "start", contactOut⟩, ⟨.text "hold", coilIn⟩⟩,
    ⟨.text "s1", ⟨.text "mains", outPort⟩, ⟨.text "leak", outPort⟩⟩,
    ⟨.text "w4", ⟨.text "vcc", outPort⟩, ⟨.text "hold", contactIn⟩⟩,
    ⟨.text "w5", ⟨.text "hold", contactOut⟩, ⟨.text "hold", coilIn⟩⟩]

/-- The latch and the short circuit share neither names nor terminals. -/
theorem latch_beside_short : latchAndShort.Beside latch short :=
  Circuit.beside_of_wiredWithin
    (.left (.right (.left (.left (.right (.left .nil))))))
    (.left (.left (.left (.right (.left (.left .nil))))))
    (by decide +kernel) (by unfold Circuit.WiredWithin; decide +kernel)
    (by unfold Circuit.WiredWithin; decide +kernel)

/-- The short keeps the whole from coming to rest; the latch beside it is the latch alone. -/
theorem step_latch_beside_short :
    let bench := (ofCircuit latchAndShort 10).load.1.performAll
      [.setInput (.text "set") (.int 1)]
    let first := (ofCircuit latch 10).load.1.performAll [.setInput (.text "set") (.int 1)]
    let second := (ofCircuit short 10).load.1
    latchAndShort.Beside latch short ∧ Reached latchAndShort 10 bench ∧
      Reached latch 10 first ∧ Reached short 10 second ∧
      SameInputs latch bench.sim.inputs first.sim.inputs ∧
      SameInputs short bench.sim.inputs second.sim.inputs ∧
      ∃ result left right, bench.step.2 = .ok result ∧ first.step.2 = .ok left ∧
        second.step.2 = .ok right ∧ left.converged = true ∧ right.converged = false ∧
        result.converged = false ∧ result.iterations = right.iterations ∧
        result.states.filter (latch.hasComponent ·.1) = left.states := by
  intro bench first second
  have hbench : Reached latchAndShort 10 bench :=
    .perform (.load rfl rfl (by decide +kernel)) trivial
  have hfirst : Reached latch 10 first := .perform (.load rfl rfl (by decide +kernel)) trivial
  have hsecond : Reached short 10 second := .load rfl rfl (by decide +kernel)
  have hin : SameInputs latch bench.sim.inputs first.sim.inputs := by
    unfold SameInputs
    decide +kernel
  have hin' : SameInputs short bench.sim.inputs second.sim.inputs := by
    unfold SameInputs
    decide +kernel
  obtain ⟨hok, htold⟩ := step_beside latch_beside_short hbench hfirst hsecond hin hin'
  obtain ⟨left, hleft, hconverged⟩ := exists_of_toOption (x := first.step.2)
    (f := fun r => (r.converged, decide (r.iterations ≤ 10))) (b := (true, true)) (by decide +kernel)
  obtain ⟨right, hright, hunsettled⟩ := exists_of_toOption (x := second.step.2)
    (f := fun r => (r.converged, r.iterations)) (b := (false, 10)) (by decide +kernel)
  obtain ⟨result, hresult⟩ := hok.2 ⟨⟨left, hleft⟩, right, hright⟩
  obtain ⟨hflag, hcount, hstates, -⟩ := htold result left right hresult hleft hright
  simp only [Prod.mk.injEq, decide_eq_true_eq] at hconverged hunsettled
  refine ⟨latch_beside_short, hbench, hfirst, hsecond, hin, hin', result, left, right, hresult,
    hleft, hright, hconverged.1, hunsettled.1, ?_, ?_, hstates⟩
  · rw [hflag, hunsettled.1, Bool.and_false]
  · rw [hcount, hunsettled.2]
    exact Nat.max_eq_right hconverged.2

/-- A battery with a wire that ends on a component which is not there. -/
def feed : Circuit where
  placed := [⟨.text "battery", .power, .zero false, .zero false, .int 0, .null⟩].foldl
    Placement.put {}
  wires := [⟨.text "f", ⟨.text "battery", outPort⟩, ⟨.text "joint", .text "p"⟩⟩]

/-- A lamp with a wire that ends on the same component, which is not there either. -/
def lamp : Circuit where
  placed := [⟨.text "lamp", .output, .zero false, .zero false, .int 0, .null⟩].foldl
    Placement.put {}
  wires := [⟨.text "l", ⟨.text "joint", .text "p"⟩, ⟨.text "lamp", inPort⟩⟩]

/-- The two in one circuit. -/
def feedAndLamp : Circuit where
  placed := [⟨.text "battery", .power, .zero false, .zero false, .int 0, .null⟩,
    ⟨.text "lamp", .output, .zero false, .zero false, .int 0, .null⟩].foldl Placement.put {}
  wires := [⟨.text "f", ⟨.text "battery", outPort⟩, ⟨.text "joint", .text "p"⟩⟩,
    ⟨.text "l", ⟨.text "joint", .text "p"⟩, ⟨.text "lamp", inPort⟩⟩]

/-- Distinct names do not keep circuits apart, if their wires end on one terminal: the battery
lights the lamp, which is dark by itself. -/
theorem step_feed_joins_lamp :
    let bench := (ofCircuit feedAndLamp 10).load.1
    let first := (ofCircuit feed 10).load.1
    let second := (ofCircuit lamp 10).load.1
    Interleave feed.components lamp.components feedAndLamp.components ∧
      Interleave feed.wires lamp.wires feedAndLamp.wires ∧
      (∀ c ∈ feed.components, ∀ d ∈ lamp.components, (c.id == d.id) = false) ∧
      (∀ v ∈ feed.wires, ∀ w ∈ lamp.wires, (v.id == w.id) = false) ∧
      Reached feedAndLamp 10 bench ∧ Reached feed 10 first ∧ Reached lamp 10 second ∧
      SameInputs feed bench.sim.inputs first.sim.inputs ∧
      SameInputs lamp bench.sim.inputs second.sim.inputs ∧
      ∃ result right, bench.step.2 = .ok result ∧ second.step.2 = .ok right ∧
        result.states.filter (lamp.hasComponent ·.1) ≠ right.states := by
  intro bench first second
  have hcomponents : Interleave feed.components lamp.components feedAndLamp.components :=
    .left (.right .nil)
  obtain ⟨result, hresult, hlit⟩ := exists_of_toOption (x := bench.step.2)
    (f := fun r => r.states.filter (lamp.hasComponent ·.1))
    (b := [(.text "lamp", { ports := [(inPort, .high)] })]) (by decide +kernel)
  obtain ⟨right, hright, hdark⟩ := exists_of_toOption (x := second.step.2) (f := (·.states))
    (b := [(.text "lamp", { ports := [(inPort, .low)] })]) (by decide +kernel)
  refine ⟨hcomponents, .left (.right .nil), Circuit.ids_apart hcomponents, by decide +kernel,
    .load rfl rfl (by decide +kernel), .load rfl rfl (by decide +kernel),
    .load rfl rfl (by decide +kernel), fun _ _ _ => rfl, fun _ _ _ => rfl, result, right, hresult,
    hright, ?_⟩
  rw [hlit, hdark]
  decide

end Bench

end Switchyard.Relay
