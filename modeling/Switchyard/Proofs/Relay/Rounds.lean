import Switchyard.Proofs.Relay.States

/-!
# Rounds

What holds of every round, and of every number of rounds, of an unedited circuit. No phase disturbs
the netlist but in its levels (`reset_driveSources`, `reset_passContacts`). A phase that reports no
change makes none, and then what it would assert is there already (`driveSources_quiet`,
`passContacts_quiet`); a run of rounds that comes to rest ends in a scene that one more round leaves
alone (`Scene.settle_quiet`), and more fuel does not change it (`Scene.settle_of_le`). What the
states were before a run has little part in it: the levels at the ports have none, nor have the
coils and switches of the relays if the sources change something at once (`Scene.settle_alike`).
-/

namespace Switchyard.Relay

/-! ## Sources -/

section
variable {inputs : List (Ident × Signal)}

/-- Driving a source changes levels only. -/
@[simp] theorem reset_driveSource (inputs : List (Ident × Signal)) (netlist : Netlist)
    (component : Component) : (driveSource inputs netlist component).1.reset = netlist.reset := by
  unfold driveSource
  split
  · exact Netlist.reset_drive _ _ _
  · rfl

/-- Driving the sources changes levels only. -/
@[simp] theorem reset_driveSources (inputs : List (Ident × Signal)) (components : List Component)
    (netlist : Netlist) :
    (driveSources inputs components netlist).1.reset = netlist.reset := by
  induction components generalizing netlist with
  | nil => rfl
  | cons c rest ih => exact (ih _).trans (reset_driveSource _ _ _)

/-- Only the levels of the sources matter. -/
theorem driveSources_congr {inputs' : List (Ident × Signal)} {components : List Component}
    (h : ∀ c ∈ components, sourceLevel? inputs c = sourceLevel? inputs' c) (netlist : Netlist) :
    driveSources inputs components netlist = driveSources inputs' components netlist := by
  induction components generalizing netlist with
  | nil => rfl
  | cons c rest ih =>
    have hhead : driveSource inputs netlist c = driveSource inputs' netlist c := by
      rw [driveSource, driveSource, h c List.mem_cons_self]
    dsimp only [driveSources]
    rw [hhead, ih (fun d hd => h d (List.mem_cons_of_mem _ hd))]

/-- A source that reports no change has left the nets alone, and its net has its level already. -/
theorem driveSource_quiet {netlist : Netlist} (h : netlist.Coherent) {c : Component}
    (hq : (driveSource inputs netlist c).2 = false) :
    (driveSource inputs netlist c).1 = netlist ∧ ∀ level, sourceLevel? inputs c = some level →
      ∀ net, netlist.netAt? ⟨c.id, outPort⟩ = some net → net.signal = level ∧ net.driven = true := by
  unfold driveSource at hq ⊢
  split at hq
  · next level hlevel =>
    rw [hlevel]
    refine ⟨(h.drive_quiet hq).1, ?_⟩
    rintro _ ⟨⟩
    exact (h.drive_quiet hq).2
  · next hlevel =>
    rw [hlevel]
    exact ⟨rfl, nofun⟩

/-- Every wired source finds its level on its net. -/
def Sourced (inputs : List (Ident × Signal)) (components : List Component) (netlist : Netlist) :
    Prop :=
  ∀ c ∈ components, ∀ level, sourceLevel? inputs c = some level →
    ∀ net, netlist.netAt? ⟨c.id, outPort⟩ = some net → net.signal = level ∧ net.driven = true

/-- Sources that change nothing find their levels on their nets. -/
theorem driveSources_quiet {components : List Component} {netlist : Netlist}
    (h : netlist.Coherent) (hq : (driveSources inputs components netlist).2 = false) :
    (driveSources inputs components netlist).1 = netlist ∧ Sourced inputs components netlist := by
  induction components with
  | nil => exact ⟨rfl, nofun⟩
  | cons c rest ih =>
    have hq' : ((driveSource inputs netlist c).2 ||
        (driveSources inputs rest (driveSource inputs netlist c).1).2) = false := hq
    obtain ⟨hhead, htail⟩ := Bool.or_eq_false_iff.1 hq'
    obtain ⟨heq, hlevel⟩ := driveSource_quiet h hhead
    rw [heq] at htail
    obtain ⟨heq', hlevel'⟩ := ih htail
    refine ⟨?_, fun d hd => ?_⟩
    · dsimp only [driveSources]
      rw [heq, heq']
    · rcases List.mem_cons.1 hd with rfl | hd
      · exact hlevel
      · exact hlevel' d hd

end

/-! ## Contacts -/

/-- Passing a level on changes levels only. -/
@[simp] theorem reset_pass (netlist : Netlist) (level : Signal) (target : Terminal) :
    (pass netlist level target).1.reset = netlist.reset := by
  unfold pass
  split
  · rfl
  · exact Netlist.reset_drive _ _ _

/-- Passing a relay changes levels only. -/
@[simp] theorem reset_passContact (states : States) (netlist : Netlist) (component : Component) :
    (passContact states netlist component).1.reset = netlist.reset := by
  unfold passContact
  split
  · exact (reset_pass _ _ _).trans (reset_pass _ _ _)
  · rfl

/-- Passing the contacts changes levels only. -/
@[simp] theorem reset_passContacts (states : States) (components : List Component)
    (netlist : Netlist) : (passContacts states components netlist).1.reset = netlist.reset := by
  induction components generalizing netlist with
  | nil => rfl
  | cons c rest ih => exact (ih _).trans (reset_passContact _ _ _)

/-- Only the switches of the relays matter. -/
theorem passContacts_congr {states states' : States} {components : List Component}
    (h : ∀ c ∈ components, isClosed states c.id = isClosed states' c.id) (netlist : Netlist) :
    passContacts states components netlist = passContacts states' components netlist := by
  induction components generalizing netlist with
  | nil => rfl
  | cons c rest ih =>
    have hhead : passContact states netlist c = passContact states' netlist c := by
      rw [passContact, passContact, h c List.mem_cons_self]
    dsimp only [passContacts]
    rw [hhead, ih (fun d hd => h d (List.mem_cons_of_mem _ hd))]

/-- A level that is passed without a change is there already, if it is known. -/
theorem pass_quiet {netlist : Netlist} (h : netlist.Coherent) {level : Signal} {target : Terminal}
    (hq : (pass netlist level target).2 = false) :
    (pass netlist level target).1 = netlist ∧ (level ≠ .unknown →
      ∀ net, netlist.netAt? target = some net → net.signal = level ∧ net.driven = true) := by
  unfold pass at hq ⊢
  split at hq
  · next hu =>
    rw [if_pos hu]
    exact ⟨rfl, fun hn => absurd hu hn⟩
  · next hu =>
    rw [if_neg hu]
    exact ⟨(h.drive_quiet hq).1, fun _ => (h.drive_quiet hq).2⟩

/-- The nets at the contacts of a relay carry one level, if one of them carries a known one. -/
def Balanced (netlist : Netlist) (relay : Ident) : Prop :=
  (netlist.signalAt ⟨relay, contactIn⟩ ≠ .unknown →
    ∀ net, netlist.netAt? ⟨relay, contactOut⟩ = some net →
      net.signal = netlist.signalAt ⟨relay, contactIn⟩ ∧ net.driven = true) ∧
  (netlist.signalAt ⟨relay, contactOut⟩ ≠ .unknown →
    ∀ net, netlist.netAt? ⟨relay, contactIn⟩ = some net →
      net.signal = netlist.signalAt ⟨relay, contactOut⟩ ∧ net.driven = true)

/-- A relay that reports no change has left the nets alone, and if its contacts are closed both
sides have one level. -/
theorem passContact_quiet {states : States} {netlist : Netlist} (h : netlist.Coherent)
    {c : Component} (hq : (passContact states netlist c).2 = false) :
    (passContact states netlist c).1 = netlist ∧
      (c.kind.isRelay = true → isClosed states c.id = true → Balanced netlist c.id) := by
  by_cases hactive : (c.kind.isRelay && isClosed states c.id) = true
  · rw [passContact, if_pos hactive] at hq ⊢
    obtain ⟨hfirst, hsecond⟩ := Bool.or_eq_false_iff.1 hq
    obtain ⟨heq, hout⟩ := pass_quiet h hfirst
    rw [heq] at hsecond
    obtain ⟨heq', hin⟩ := pass_quiet h hsecond
    refine ⟨?_, fun _ _ => ⟨hout, hin⟩⟩
    dsimp only
    rw [heq, heq']
  · rw [passContact, if_neg hactive]
    refine ⟨rfl, fun hrelay hclosed => ?_⟩
    rw [hrelay, hclosed] at hactive
    exact absurd rfl hactive

/-- Contacts that change nothing are balanced where they are closed. -/
theorem passContacts_quiet {states : States} {components : List Component} {netlist : Netlist}
    (h : netlist.Coherent) (hq : (passContacts states components netlist).2 = false) :
    (passContacts states components netlist).1 = netlist ∧
      ∀ c ∈ components, c.kind.isRelay = true → isClosed states c.id = true →
        Balanced netlist c.id := by
  induction components with
  | nil => exact ⟨rfl, nofun⟩
  | cons c rest ih =>
    have hq' : ((passContact states netlist c).2 ||
        (passContacts states rest (passContact states netlist c).1).2) = false := hq
    obtain ⟨hhead, htail⟩ := Bool.or_eq_false_iff.1 hq'
    obtain ⟨heq, hbal⟩ := passContact_quiet h hhead
    rw [heq] at htail
    obtain ⟨heq', hbal'⟩ := ih htail
    refine ⟨?_, fun d hd => ?_⟩
    · dsimp only [passContacts]
      rw [heq, heq']
    · rcases List.mem_cons.1 hd with rfl | hd
      · exact hbal
      · exact hbal' d hd

/-! ## Relays -/

namespace ComponentState

/-- States with the same coil and switch; the levels at the ports may differ. -/
def Alike (a b : ComponentState) : Prop :=
  a.coil = b.coil ∧ a.closed = b.closed

/-- States that are alike are equal if their ports read the same. -/
theorem Alike.eq {a b : ComponentState} (h : a.Alike b) (hports : a.ports = b.ports) : a = b := by
  obtain ⟨coil, closed, ports⟩ := a
  obtain ⟨rfl, rfl⟩ := h
  obtain rfl : ports = b.ports := hports
  rfl

/-- Following the coil does not touch what the ports read. -/
@[simp] theorem ports_follow (netlist : Netlist) (component : Component) (state : ComponentState) :
    (state.follow netlist component).ports = state.ports := by
  unfold follow
  split <;> rfl

variable {netlist : Netlist} {component : Component} {a b : ComponentState}

/-- A component that is no relay has nothing to follow. -/
theorem follow_of_not_relay (h : component.kind.isRelay = false) :
    a.follow netlist component = a := by
  rw [follow, if_neg (by simp [h])]

/-- The switch of a relay that followed the nets: closed if the coil is energized, or the other way
round for one that is closed at rest. -/
theorem closed_follow_relay (h : component.kind.isRelay = true) :
    (a.follow netlist component).closed =
      (energized netlist component.id != decide (component.kind = .relayNc)) := by
  rw [follow, if_pos h]
  cases hk : component.kind <;> simp_all [Kind.isRelay, switchOf]

/-- A relay that follows the nets forgets where it was. -/
theorem follow_alike (h : component.kind.isRelay = false → a.Alike b) :
    (a.follow netlist component).Alike (b.follow netlist component) := by
  cases hrelay : component.kind.isRelay with
  | false =>
    rw [follow_of_not_relay hrelay, follow_of_not_relay hrelay]
    exact h hrelay
  | true =>
    refine ⟨?_, (closed_follow_relay hrelay).trans (closed_follow_relay hrelay).symm⟩
    rw [follow, follow, if_pos hrelay, if_pos hrelay]

/-- A relay that follows the nets twice is where it was after the first time. -/
theorem follow_follow : (a.follow netlist component).follow netlist component =
    a.follow netlist component := by
  cases hrelay : component.kind.isRelay with
  | false => rw [follow_of_not_relay hrelay, follow_of_not_relay hrelay]
  | true =>
    refine Alike.eq (follow_alike (fun hnot => ?_)) (ports_follow _ _ _)
    rw [hrelay] at hnot
    cases hnot

/-- Whether a state follows its coil already does not depend on what its ports read. -/
theorem follow_eq_iff_of_alike (h : a.Alike b) :
    a.follow netlist component = a ↔ b.follow netlist component = b := by
  have himp : ∀ {a b : ComponentState}, a.Alike b → a.follow netlist component = a →
      b.follow netlist component = b := by
    intro a b hab ha
    have hfollow : (a.follow netlist component).Alike (b.follow netlist component) :=
      follow_alike (fun _ => hab)
    rw [ha] at hfollow
    exact Alike.eq ⟨hfollow.1.symm.trans hab.1, hfollow.2.symm.trans hab.2⟩ (ports_follow _ _ _)
  exact ⟨himp h, himp ⟨h.1.symm, h.2.symm⟩⟩

end ComponentState

/-! ## Runs of rounds -/

namespace Scene

variable {components : List Component} {inputs : List (Ident × Signal)}

/-- Settling goes on after a round that changed something and stops after one that did not. -/
theorem settle_succ (components : List Component) (inputs : List (Ident × Signal))
    (fuel done : Nat) (scene : Scene) :
    scene.settle components inputs (fuel + 1) done =
      if (scene.round components inputs).2 then
        (scene.round components inputs).1.settle components inputs fuel (done + 1)
      else ((scene.round components inputs).1, done + 1, true) := by
  rw [settle]
  split <;> simp_all

/-- Settling for one round is that round. -/
theorem settle_one (scene : Scene) (done : Nat) :
    (scene.settle components inputs 1 done).1 = (scene.round components inputs).1 := by
  rw [settle_succ]
  split <;> rfl

/-- Of the inputs, only the levels of the sources matter. -/
theorem round_congr {inputs' : List (Ident × Signal)}
    (h : ∀ c ∈ components, sourceLevel? inputs c = sourceLevel? inputs' c) (scene : Scene) :
    scene.round components inputs = scene.round components inputs' := by
  dsimp only [round]
  rw [driveSources_congr h]

/-- Settling depends on the levels of the sources only. -/
theorem settle_congr {inputs' : List (Ident × Signal)}
    (h : ∀ c ∈ components, sourceLevel? inputs c = sourceLevel? inputs' c) :
    ∀ (fuel done : Nat) (scene : Scene),
      scene.settle components inputs fuel done = scene.settle components inputs' fuel done
  | 0, _, _ => rfl
  | fuel + 1, done, scene => by
    rw [settle_succ, settle_succ, round_congr h, settle_congr h fuel]

/-- What every round keeps, every run of rounds keeps. -/
theorem settle_induction {P : Scene → Prop}
    (hround : ∀ scene, P scene → P (scene.round components inputs).1) :
    ∀ (fuel done : Nat) (scene : Scene), P scene →
      P (scene.settle components inputs fuel done).1
  | 0, _, _, h => h
  | fuel + 1, done, scene, h => by
    rw [settle_succ]
    split
    · exact settle_induction hround fuel (done + 1) _ (hround scene h)
    · exact hround scene h

/-- A run that comes to rest does so with more fuel too. -/
theorem settle_of_le : ∀ {fuel more done : Nat} {scene : Scene}, fuel ≤ more →
    (scene.settle components inputs fuel done).2.2 = true →
    scene.settle components inputs more done = scene.settle components inputs fuel done
  | fuel + 1, more + 1, done, scene, hle, hq => by
    rw [settle_succ] at hq
    rw [settle_succ, settle_succ]
    split at hq
    · next hchanged =>
      rw [if_pos hchanged, if_pos hchanged]
      exact settle_of_le (Nat.le_of_succ_le_succ hle) hq
    · next hquiet => rw [if_neg hquiet, if_neg hquiet]

variable {f : Component → ComponentState}

/-- A round changes the levels of the nets only. -/
theorem reset_round (components : List Component) (inputs : List (Ident × Signal)) (scene : Scene) :
    (scene.round components inputs).1.netlist.reset = scene.netlist.reset :=
  (reset_passContacts _ _ _).trans (reset_driveSources _ _ _)

/-- Settling changes the levels of the nets only. -/
theorem reset_settle (components : List Component) (inputs : List (Ident × Signal))
    (fuel done : Nat) (scene : Scene) :
    (settle components inputs fuel done scene).1.netlist.reset = scene.netlist.reset :=
  settle_induction (P := fun next => next.netlist.reset = scene.netlist.reset)
    (fun next hnext => (reset_round components inputs next).trans hnext) fuel done scene rfl

/-- A round that reports no change makes none: the sources find their levels on their nets, the
relays are where the nets want them, and the closed contacts are balanced. -/
theorem round_quiet (hd : DistinctIds components) {netlist : Netlist} (h : netlist.Coherent)
    (hq : (round components inputs ⟨netlist, States.of components f⟩).2 = false) :
    (round components inputs ⟨netlist, States.of components f⟩).1 =
        ⟨netlist, States.of components f⟩ ∧
      Sourced inputs components netlist ∧
      (∀ c ∈ components, (f c).follow netlist c = f c) ∧
      ∀ c ∈ components, c.kind.isRelay = true → (f c).closed = true → Balanced netlist c.id := by
  rw [round_of hd] at hq ⊢
  dsimp only at hq ⊢
  obtain ⟨hq', hcontacts⟩ := Bool.or_eq_false_iff.1 hq
  obtain ⟨hsources, hstates⟩ := Bool.or_eq_false_iff.1 hq'
  obtain ⟨hdriven, hlevels⟩ := driveSources_quiet h hsources
  rw [hdriven] at hstates hcontacts ⊢
  have hsame : States.of components (fun c => (f c).follow netlist c) = States.of components f := by
    simpa using hstates
  rw [hsame] at hcontacts ⊢
  obtain ⟨hpassed, hbalanced⟩ := passContacts_quiet h hcontacts
  refine ⟨by rw [hpassed], hlevels, States.of_eq_of_iff.1 hsame, fun c hc hrelay hclosed => ?_⟩
  exact hbalanced c hc hrelay ((States.isClosed_of hd hc).trans hclosed)

/-- A run that comes to rest ends in a scene that one more round leaves as it is. -/
theorem settle_quiet (hd : DistinctIds components) :
    ∀ {fuel done : Nat} {netlist : Netlist} {f : Component → ComponentState}, netlist.Coherent →
      (settle components inputs fuel done ⟨netlist, States.of components f⟩).2.2 = true →
      ∃ (final : Netlist) (g : Component → ComponentState),
        (settle components inputs fuel done ⟨netlist, States.of components f⟩).1 =
          ⟨final, States.of components g⟩ ∧ final.reset = netlist.reset ∧
        (round components inputs ⟨final, States.of components g⟩).2 = false
  | fuel + 1, done, netlist, f, h, hq => by
    rw [settle_succ] at hq ⊢
    split at hq
    · next hchanged =>
      rw [if_pos hchanged]
      have hreset := reset_round components inputs ⟨netlist, States.of components f⟩
      rw [round_of hd] at hq hreset ⊢
      obtain ⟨final, g, hfinal, hreset', hquiet⟩ := settle_quiet hd (h.of_reset hreset) hq
      exact ⟨final, g, hfinal, hreset'.trans hreset, hquiet⟩
    · next hquiet =>
      rw [Bool.not_eq_true] at hquiet
      rw [if_neg (by simp [hquiet]), (round_quiet hd h hquiet).1]
      exact ⟨netlist, f, rfl, rfl, hquiet⟩

/-- If the sources change something, a round does not see where the relays were; else it looks at
the coils and switches of the states only. -/
theorem round_alike (hd : DistinctIds components) {netlist : Netlist}
    {f g : Component → ComponentState}
    (hfg : ∀ c ∈ components, (f c).Alike (g c) ∨
      c.kind.isRelay = true ∧ (driveSources inputs components netlist).2 = true) :
    (∀ c ∈ components, ((f c).follow (driveSources inputs components netlist).1 c).Alike
        ((g c).follow (driveSources inputs components netlist).1 c)) ∧
      round components inputs ⟨netlist, States.of components g⟩ =
        (⟨(round components inputs ⟨netlist, States.of components f⟩).1.netlist,
          States.of components
            (fun c => (g c).follow (driveSources inputs components netlist).1 c)⟩,
          (round components inputs ⟨netlist, States.of components f⟩).2) := by
  generalize hdriven : driveSources inputs components netlist = driven at hfg
  have hfollow : ∀ c ∈ components, ((f c).follow driven.1 c).Alike ((g c).follow driven.1 c) := by
    intro c hc
    refine ComponentState.follow_alike (fun hrelay => ?_)
    rcases hfg c hc with halike | ⟨hrelay', -⟩
    · exact halike
    · rw [hrelay] at hrelay'
      cases hrelay'
  have hpassed : passContacts (States.of components (fun c => (g c).follow driven.1 c))
      components driven.1 =
      passContacts (States.of components (fun c => (f c).follow driven.1 c))
        components driven.1 := by
    refine passContacts_congr (fun c hc => ?_) _
    rw [States.isClosed_of hd hc, States.isClosed_of hd hc]
    exact (hfollow c hc).2.symm
  have hmoved : (driven.2 || decide (States.of components (fun c => (g c).follow driven.1 c) ≠
      States.of components g)) =
      (driven.2 || decide (States.of components (fun c => (f c).follow driven.1 c) ≠
        States.of components f)) := by
    cases hsourced : driven.2 with
    | true => rfl
    | false =>
      have halike : ∀ c ∈ components, (f c).Alike (g c) := by
        intro c hc
        rcases hfg c hc with halike | ⟨-, htrue⟩
        · exact halike
        · rw [hsourced] at htrue
          cases htrue
      rw [Bool.false_or, Bool.false_or, decide_eq_decide, not_iff_not, States.of_eq_of_iff,
        States.of_eq_of_iff]
      exact forall₂_congr (fun c hc => (ComponentState.follow_eq_iff_of_alike (halike c hc)).symm)
  refine ⟨hfollow, ?_⟩
  rw [round_of hd, round_of hd, hdriven]
  dsimp only
  rw [hpassed, hmoved]

/-- A run looks at the coils and switches of the states only, and not at those of the relays if the
sources change something at once; the levels at the ports are handed through. -/
theorem settle_alike (hd : DistinctIds components) (inputs : List (Ident × Signal)) :
    ∀ (fuel done : Nat) (netlist : Netlist) (f : Component → ComponentState),
      ∃ (final : Netlist) (count : Nat) (flag : Bool) (h : Component → ComponentState),
        ∀ g : Component → ComponentState,
          (∀ c ∈ components, (f c).Alike (g c) ∨ 0 < fuel ∧
            c.kind.isRelay = true ∧ (driveSources inputs components netlist).2 = true) →
          settle components inputs fuel done ⟨netlist, States.of components g⟩ =
            (⟨final, States.of components (fun c => { h c with ports := (g c).ports })⟩,
              count, flag)
  | 0, done, netlist, f => by
    refine ⟨netlist, done, false, f, fun g hg => ?_⟩
    have halike : ∀ c ∈ components, (f c).Alike (g c) := fun c hc =>
      (hg c hc).resolve_right (fun hpos => absurd hpos.1 (Nat.lt_irrefl 0))
    have hstates : States.of components g =
        States.of components (fun c => { f c with ports := (g c).ports }) :=
      States.of_eq_of_iff.2 (fun c hc => ComponentState.Alike.eq
        ⟨(halike c hc).1.symm, (halike c hc).2.symm⟩ rfl)
    rw [settle, ← hstates]
  | fuel + 1, done, netlist, f => by
    let driven := driveSources inputs components netlist
    let next := round components inputs ⟨netlist, States.of components f⟩
    cases hflag : next.2 with
    | true =>
      obtain ⟨final, count, flag, h, hrest⟩ := settle_alike hd inputs fuel (done + 1)
        next.1.netlist (fun c => (f c).follow driven.1 c)
      refine ⟨final, count, flag, h, fun g hg => ?_⟩
      obtain ⟨halike, heq⟩ := round_alike hd (fun c hc => (hg c hc).imp_right (·.2))
      rw [settle_succ, heq, hflag, if_pos rfl, hrest _ (fun c hc => .inl (halike c hc))]
      simp only [ComponentState.ports_follow]
    | false =>
      refine ⟨next.1.netlist, done + 1, true, fun c => (f c).follow driven.1 c, fun g hg => ?_⟩
      obtain ⟨halike, heq⟩ := round_alike hd (fun c hc => (hg c hc).imp_right (·.2))
      have hstates : States.of components (fun c => (g c).follow driven.1 c) =
          States.of components
            (fun c => { (f c).follow driven.1 c with ports := (g c).ports }) :=
        States.of_eq_of_iff.2 (fun c hc => ComponentState.Alike.eq
          ⟨(halike c hc).1.symm, (halike c hc).2.symm⟩ (ComponentState.ports_follow _ _ _))
      rw [settle_succ, heq, hflag, if_neg Bool.false_ne_true, hstates]

end Scene

end Switchyard.Relay
