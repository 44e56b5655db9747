import TerminusMonitor.Proofs.Placement
import TerminusMonitor.Proofs.Trail

/-!
What is the same at all endpoints but one.

Two runs over links that differ at one endpoint take the same steps, but for those at that
endpoint. Such a step is not seen elsewhere (`Step.Hides`), and any other step does the same in
both runs (`Step.Matches`).

* `Trail.Like.run`, `Trail.Like.run_filter`: so whole sequences of steps do the same elsewhere;
* `Correlator.Elsewhere`, `Monitor.Elsewhere`: states that are alike but for one endpoint;
* `Monitor.Concerns.hidden`, `Monitor.Concerns.alike`: what a registration does elsewhere.
-/

namespace TerminusMonitor

variable {σ α κ μ : Type} {away : Eid} {link link' : Link}

/-! ### Steps that are not seen -/

/-- The attempts to send to other endpoints. -/
def elsewhere (away : Eid) (tries : List Try) : List Try := tries.filter (·.eid ≠ away)

theorem elsewhere_append (tries more : List Try) :
    elsewhere away (tries ++ more) = elsewhere away tries ++ elsewhere away more :=
  List.filter_append ..

/-- Two links are alike but for one endpoint. -/
def Link.Elsewhere (away : Eid) (link link' : Link) : Prop :=
  ∀ eid, eid ≠ away → link eid = link' eid

theorem Link.Elsewhere.refl (away : Eid) (link : Link) : link.Elsewhere away link :=
  fun _ _ => rfl

theorem Link.Elsewhere.next {tries tries' : List Try} {eid : Eid}
    (links : link.Elsewhere away link') (same : elsewhere away tries = elsewhere away tries')
    (other : eid ≠ away) : link.next tries eid = link'.next tries' eid := by
  have count (tries : List Try) :
      tries.countP (·.eid == eid) = (elsewhere away tries).countP (·.eid == eid) := by
    rw [elsewhere, List.countP_filter]
    apply List.countP_congr
    intro t _
    simp only [beq_iff_eq, Bool.and_eq_true, decide_eq_true_eq]
    constructor
    · rintro rfl
      exact ⟨rfl, other⟩
    · exact And.left
  rw [Link.next, Link.next, count, same, ← count, links eid other]

/-- A step does the same elsewhere from states that are alike. -/
def Step.Matches (away : Eid) (rel : σ → σ → Prop) (step : Step σ) : Prop :=
  ∀ ⦃s s' : σ⦄ ⦃next next' : Eid → Option TransportFault⦄, rel s s' →
    (∀ eid, eid ≠ away → next eid = next' eid) →
      rel (step s next).state (step s' next').state ∧
        elsewhere away (step s next).tries = elsewhere away (step s' next').tries

/-- A step is not seen elsewhere. -/
def Step.Hides (away : Eid) (rel : σ → σ → Prop) (step : Step σ) : Prop :=
  ∀ ⦃s : σ⦄ ⦃next : Eid → Option TransportFault⦄, rel s s →
    rel s (step s next).state ∧ elsewhere away (step s next).tries = []

/-- A step that is not seen does the same elsewhere whatever comes of its attempt. -/
theorem Step.Hides.matches {rel : σ → σ → Prop} {step : Step σ}
    (symm : ∀ ⦃s s' : σ⦄, rel s s' → rel s' s)
    (trans : ∀ ⦃s s' s'' : σ⦄, rel s s' → rel s' s'' → rel s s'')
    (hides : Step.Hides away rel step) : Step.Matches away rel step := by
  intro s s' next next' like _
  obtain ⟨state, tries⟩ := @hides s next (trans like (symm like))
  obtain ⟨state', tries'⟩ := @hides s' next' (trans (symm like) like)
  exact ⟨trans (symm state) (trans like state'), tries.trans tries'.symm⟩

/-- Trails that are alike elsewhere. -/
structure Trail.Like (away : Eid) (rel : σ → σ → Prop) (x y : Trail σ) : Prop where
  state : rel x.state y.state
  tries : elsewhere away x.tries = elsewhere away y.tries

namespace Trail.Like

variable {rel : σ → σ → Prop} {x y z : Trail σ}

theorem step {step : Step σ} (links : link.Elsewhere away link') (like : x.Like away rel y)
    (same : Step.Matches away rel step) :
    (x.step link step).Like away rel (y.step link' step) := by
  obtain ⟨state, tries⟩ := same like.state fun eid other => links.next like.tries other
  refine ⟨state, ?_⟩
  rw [Trail.step, Trail.step, elsewhere_append, elsewhere_append, like.tries, tries]

/-- Steps that do the same elsewhere. -/
theorem run {steps : List (Step σ)} (links : link.Elsewhere away link')
    (like : x.Like away rel y) (same : ∀ step ∈ steps, Step.Matches away rel step) :
    (x.run link steps).Like away rel (y.run link' steps) := by
  induction steps generalizing x y with
  | nil => exact like
  | cons first rest ih =>
    obtain ⟨sameFirst, sameRest⟩ := List.forall_mem_cons.mp same
    exact ih (like.step links sameFirst) sameRest

variable (symm : ∀ ⦃s s' : σ⦄, rel s s' → rel s' s)
  (trans : ∀ ⦃s s' s'' : σ⦄, rel s s' → rel s' s'' → rel s s'')
include symm trans

theorem glue (like : x.Like away rel z) (like' : y.Like away rel z) : x.Like away rel y :=
  ⟨trans like.state (symm like'.state), like.tries.trans like'.tries.symm⟩

theorem skip {step : Step σ} (like : x.Like away rel y) (hides : Step.Hides away rel step) :
    (x.step link step).Like away rel y := by
  obtain ⟨state, tries⟩ := hides (trans like.state (symm like.state))
  refine ⟨trans (symm state) like.state, ?_⟩
  rw [Trail.step, elsewhere_append, tries, List.append_nil, like.tries]

/-- The steps that are not seen may be left out. -/
theorem run_filter {items : List α} {step : α → Step σ} {seen : α → Bool}
    (links : link.Elsewhere away link') (like : x.Like away rel y)
    (same : ∀ a ∈ items, seen a = true → Step.Matches away rel (step a))
    (hides : ∀ a ∈ items, seen a = false → Step.Hides away rel (step a)) :
    (x.run link (items.map step)).Like away rel (y.run link' ((items.filter seen).map step)) := by
  induction items generalizing x y with
  | nil => exact like
  | cons a rest ih =>
    obtain ⟨sameFirst, sameRest⟩ := List.forall_mem_cons.mp same
    obtain ⟨hidesFirst, hidesRest⟩ := List.forall_mem_cons.mp hides
    rw [List.map_cons, Trail.run_cons]
    cases shown : seen a with
    | true =>
      rw [List.filter_cons_of_pos shown, List.map_cons, Trail.run_cons]
      exact ih (like.step links (sameFirst shown)) sameRest hidesRest
    | false =>
      rw [List.filter_cons_of_neg (by simp [shown])]
      exact ih (like.skip symm trans (hidesFirst shown)) sameRest hidesRest

end Trail.Like

/-! ### Requests -/

theorem Pools.mask_taken {p : Pools} {eid eid' : Eid} {iid : InstanceId} :
    (p.taken eid iid).mask eid' = if eid' = eid then (p.mask eid).take iid else p.mask eid' :=
  mask_set

theorem Pools.mask_refused {p : Pools} {eid eid' : Eid} {iid : InstanceId} :
    ((p.taken eid iid).released eid iid).mask eid' =
      if eid' = eid then ((p.mask eid).take iid).free iid else p.mask eid' := by
  rw [released, if_pos holds_taken_self]
  refine (mask_set (p := p.taken eid iid)).trans ?_
  simp only [mask_taken, if_true]
  split
  next => rfl
  next => rfl

namespace Correlator

variable {c c' c'' : Correlator κ}

/-- Correlators with the same requests and the same IDs in use, but for one endpoint. -/
structure Elsewhere (away : Eid) (c c' : Correlator κ) : Prop where
  clock : c.clock = c'.clock
  policy : c.policy = c'.policy
  pending : ∀ {key}, key.eid ≠ away → c.pending.get? key = c'.pending.get? key
  mask : ∀ {eid}, eid ≠ away → c.ids.mask eid = c'.ids.mask eid

namespace Elsewhere

theorem refl (c : Correlator κ) : c.Elsewhere away c := ⟨rfl, rfl, fun _ => rfl, fun _ => rfl⟩

theorem symm (like : c.Elsewhere away c') : c'.Elsewhere away c :=
  ⟨like.clock.symm, like.policy.symm, fun other => (like.pending other).symm,
    fun other => (like.mask other).symm⟩

theorem trans (like : c.Elsewhere away c') (like' : c'.Elsewhere away c'') :
    c.Elsewhere away c'' :=
  ⟨like.clock.trans like'.clock, like.policy.trans like'.policy,
    fun other => (like.pending other).trans (like'.pending other),
    fun other => (like.mask other).trans (like'.mask other)⟩

theorem opened {key : RequestKey} {request : Request} {message : List UInt8} {cookie : κ}
    (like : c.Elsewhere away c') (other : key.eid ≠ away) :
    (c.opened key request message cookie).Elsewhere away
      (c'.opened key request message cookie) where
  clock := like.clock
  policy := like.policy
  pending apart := by
    simp only [Correlator.opened, Table.get?_insert, like.pending apart, like.clock, like.policy]
  mask apart := by
    simp only [Correlator.opened, Pools.mask_taken, like.mask apart, like.mask other]

theorem refused {eid : Eid} {iid : InstanceId} (like : c.Elsewhere away c')
    (other : eid ≠ away) : (c.refused eid iid).Elsewhere away (c'.refused eid iid) where
  clock := like.clock
  policy := like.policy
  pending apart := like.pending apart
  mask apart := by
    simp only [Correlator.refused, Pools.mask_refused, like.mask apart, like.mask other]

/-- A registration at another endpoint ends in the same way. -/
theorem registered {eid : Eid} (like : c.Elsewhere away c') (other : eid ≠ away)
    (request : Request) (cookie : κ) (fault? : Option TransportFault) :
    let ending := c.registered eid request cookie fault?
    let ending' := c'.registered eid request cookie fault?
    ending.1 = ending'.1 ∧ ending.2.state.Elsewhere away ending'.2.state ∧
      ending.2.tries = ending'.2.tries := by
  have pending (iid : InstanceId) :
      c.pending.contains ⟨eid, iid⟩ = c'.pending.contains ⟨eid, iid⟩ := by
    rw [Table.contains, Table.contains, like.pending other]
  simp only [Correlator.registered, like.mask other, pending]
  cases (c'.ids.mask eid).lowestFree? with
  | none => exact ⟨rfl, like, rfl⟩
  | some iid =>
    dsimp only
    split
    next => exact ⟨rfl, like.refused other, rfl⟩
    next =>
      cases { request with instanceId := iid.toByte }.toBytes with
      | error => exact ⟨rfl, like.refused other, rfl⟩
      | ok message =>
        cases fault? with
        | some => exact ⟨rfl, like.refused other, rfl⟩
        | none =>
          have opens := @opened _ _ _ _ ⟨eid, iid⟩ request message cookie like other
          exact ⟨rfl, opens, rfl⟩

end Elsewhere

theorem opened_elsewhere {key : RequestKey} {request : Request} {message : List UInt8}
    {cookie : κ} (own : key.eid = away) :
    c.Elsewhere away (c.opened key request message cookie) where
  clock := rfl
  policy := rfl
  pending {key'} apart := by
    have other : key' ≠ key := fun same => apart (same ▸ own)
    simp only [opened, Table.get?_insert, if_neg other]
  mask {eid} apart := by
    have other : eid ≠ key.eid := fun same => apart (same ▸ own)
    simp only [opened, Pools.mask_taken, if_neg other]

theorem refused_elsewhere {iid : InstanceId} : c.Elsewhere away (c.refused away iid) where
  clock := rfl
  policy := rfl
  pending _ := rfl
  mask apart := by simp only [refused, Pools.mask_refused, if_neg apart]

/-- A registration is not seen at other endpoints. -/
theorem registered_elsewhere (c : Correlator κ) (away : Eid) (request : Request) (cookie : κ)
    (fault? : Option TransportFault) :
    let ending := c.registered away request cookie fault?
    c.Elsewhere away ending.2.state ∧ elsewhere away ending.2.tries = [] := by
  simp only [registered]
  cases (c.ids.mask away).lowestFree? with
  | none => exact ⟨.refl c, rfl⟩
  | some iid =>
    dsimp only
    split
    next => exact ⟨refused_elsewhere, rfl⟩
    next =>
      cases { request with instanceId := iid.toByte }.toBytes with
      | error => exact ⟨refused_elsewhere, rfl⟩
      | ok message =>
        cases fault? with
        | some => exact ⟨refused_elsewhere, by simp [elsewhere]⟩
        | none => exact ⟨opened_elsewhere rfl, by simp [elsewhere]⟩

/-- What expires does not depend on the link. -/
theorem matches_expireStep (key : RequestKey) :
    Step.Matches away Eq (expireStep key : Step (Correlator κ × List (Completion κ))) := by
  rintro ⟨c, ended⟩ _ next next' rfl same
  simp only [expireStep]
  cases c.pending.get? key with
  | none => exact ⟨rfl, rfl⟩
  | some p =>
    dsimp only
    cases p.retriesLeft with
    | zero => exact ⟨rfl, rfl⟩
    | succ left =>
      refine ⟨rfl, ?_⟩
      by_cases own : key.eid = away
      · simp [elsewhere, own]
      · rw [same _ own]

end Correlator

namespace Monitor

variable {m m' m'' m₁ m₁' : Monitor μ} {home : Tid → Option Eid} {tid : Tid}

/-! ### Termini -/

/-- Monitors that are alike as to one terminus. -/
structure SameAt (tid : Tid) (m m' : Monitor μ) : Prop where
  terminus : m.termini.get? tid = m'.termini.get? tid
  walk : m.walks.get? tid = m'.walks.get? tid
  outstanding : ∀ sensor,
    m.poller.outstanding.get? ⟨tid, sensor⟩ = m'.poller.outstanding.get? ⟨tid, sensor⟩
  lastPoll : ∀ sensor,
    m.poller.lastPoll.get? ⟨tid, sensor⟩ = m'.poller.lastPoll.get? ⟨tid, sensor⟩

namespace SameAt

theorem refl (m : Monitor μ) : SameAt tid m m := ⟨rfl, rfl, fun _ => rfl, fun _ => rfl⟩

theorem symm (same : SameAt tid m m') : SameAt tid m' m :=
  ⟨same.terminus.symm, same.walk.symm, fun sensor => (same.outstanding sensor).symm,
    fun sensor => (same.lastPoll sensor).symm⟩

theorem trans (same : SameAt tid m m') (same' : SameAt tid m' m'') : SameAt tid m m'' :=
  ⟨same.terminus.trans same'.terminus, same.walk.trans same'.walk,
    fun sensor => (same.outstanding sensor).trans (same'.outstanding sensor),
    fun sensor => (same.lastPoll sensor).trans (same'.lastPoll sensor)⟩

end SameAt

/-- A change that concerns one terminus, and leaves it where it is. -/
structure Touches (tid : Tid) (m m' : Monitor μ) : Prop where
  home : m'.home = m.home
  running : m'.poller.running = m.poller.running
  nextTick : m'.poller.nextTick = m.poller.nextTick
  interval : m'.poller.interval = m.poller.interval
  others : ∀ {tid'}, tid' ≠ tid → SameAt tid' m m'

/-- Monitors that are alike but for one endpoint and the termini there. -/
structure Elsewhere (home : Tid → Option Eid) (away : Eid) (m m' : Monitor μ) : Prop where
  requests : m.toCorrelator.Elsewhere away m'.toCorrelator
  homes : m.home = home ∧ m'.home = home
  running : m.poller.running = m'.poller.running
  nextTick : m.poller.nextTick = m'.poller.nextTick
  interval : m.poller.interval = m'.poller.interval
  termini : ∀ {tid}, home tid ≠ some away → SameAt tid m m'

namespace Elsewhere

theorem refl (m : Monitor μ) : Elsewhere m.home away m m :=
  ⟨.refl _, ⟨rfl, rfl⟩, rfl, rfl, rfl, fun _ => .refl m⟩

theorem symm (like : Elsewhere home away m m') : Elsewhere home away m' m :=
  ⟨like.requests.symm, like.homes.symm, like.running.symm, like.nextTick.symm,
    like.interval.symm, fun apart => (like.termini apart).symm⟩

theorem trans (like : Elsewhere home away m m') (like' : Elsewhere home away m' m'') :
    Elsewhere home away m m'' :=
  ⟨like.requests.trans like'.requests, ⟨like.homes.1, like'.homes.2⟩,
    like.running.trans like'.running, like.nextTick.trans like'.nextTick,
    like.interval.trans like'.interval,
    fun apart => (like.termini apart).trans (like'.termini apart)⟩

/-- Changes of one terminus that are alike. -/
theorem change (like : Elsewhere home away m m') (touches : Touches tid m m₁)
    (touches' : Touches tid m' m₁')
    (requests : m₁.toCorrelator.Elsewhere away m₁'.toCorrelator) (same : SameAt tid m₁ m₁') :
    Elsewhere home away m₁ m₁' where
  requests := requests
  homes := ⟨touches.home.trans like.homes.1, touches'.home.trans like.homes.2⟩
  running := by rw [touches.running, touches'.running, like.running]
  nextTick := by rw [touches.nextTick, touches'.nextTick, like.nextTick]
  interval := by rw [touches.interval, touches'.interval, like.interval]
  termini {tid'} apart := by
    by_cases own : tid' = tid
    · exact own ▸ same
    · exact (touches.others own).symm.trans ((like.termini apart).trans (touches'.others own))

/-- A change of a terminus at the endpoint is not seen elsewhere. -/
theorem hidden (like : Elsewhere home away m m) (own : home tid = some away)
    (touches : Touches tid m m₁) (requests : m.toCorrelator.Elsewhere away m₁.toCorrelator) :
    Elsewhere home away m m₁ where
  requests := requests
  homes := ⟨like.homes.1, touches.home.trans like.homes.1⟩
  running := touches.running.symm
  nextTick := touches.nextTick.symm
  interval := touches.interval.symm
  termini apart := touches.others fun same => apart (same ▸ own)

end Elsewhere

namespace SameAt

variable (same : SameAt tid m m')
include same

theorem modifyTerminus (f : Terminus → Terminus) :
    SameAt tid (m.modifyTerminus tid f) (m'.modifyTerminus tid f) where
  terminus := by simp only [Monitor.modifyTerminus, Table.get?_modify, if_true, same.terminus]
  walk := same.walk
  outstanding := same.outstanding
  lastPoll := same.lastPoll

theorem modifyWalk (f : Walk → Walk) :
    SameAt tid { m with walks := m.walks.modify tid f }
      { m' with walks := m'.walks.modify tid f } where
  terminus := same.terminus
  walk := by simp only [Table.get?_modify, if_true, same.walk]
  outstanding := same.outstanding
  lastPoll := same.lastPoll

theorem eraseWalk :
    SameAt tid { m with walks := m.walks.erase tid }
      { m' with walks := m'.walks.erase tid } where
  terminus := same.terminus
  walk := by simp only [Table.get?_erase, if_true]
  outstanding := same.outstanding
  lastPoll := same.lastPoll

theorem withRequests (c c' : Correlator Purpose) :
    SameAt tid (m.withRequests c) (m'.withRequests c') :=
  ⟨same.terminus, same.walk, same.outstanding, same.lastPoll⟩

end SameAt

namespace Touches

theorem refl (m : Monitor μ) : Touches tid m m := ⟨rfl, rfl, rfl, rfl, fun _ => .refl m⟩

theorem trans (touches : Touches tid m m') (touches' : Touches tid m' m'') :
    Touches tid m m'' :=
  ⟨touches'.home.trans touches.home, touches'.running.trans touches.running,
    touches'.nextTick.trans touches.nextTick, touches'.interval.trans touches.interval,
    fun ne => (touches.others ne).trans (touches'.others ne)⟩

theorem withRequests (m : Monitor μ) (c : Correlator Purpose) :
    Touches tid m (m.withRequests c) :=
  ⟨rfl, rfl, rfl, rfl, fun _ => ⟨rfl, rfl, fun _ => rfl, fun _ => rfl⟩⟩

theorem modifyTerminus {f : Terminus → Terminus} (home : ∀ t, (f t).eid = t.eid) :
    Touches tid m (m.modifyTerminus tid f) where
  home := funext fun _ => home_modifyTerminus home
  running := rfl
  nextTick := rfl
  interval := rfl
  others ne := ⟨(Table.get?_modify_of_ne _ ne).symm, rfl, fun _ => rfl, fun _ => rfl⟩

theorem modifyWalk (f : Walk → Walk) :
    Touches tid m { m with walks := m.walks.modify tid f } where
  home := rfl
  running := rfl
  nextTick := rfl
  interval := rfl
  others ne := ⟨rfl, (Table.get?_modify_of_ne _ ne).symm, fun _ => rfl, fun _ => rfl⟩

theorem eraseWalk : Touches tid m { m with walks := m.walks.erase tid } where
  home := rfl
  running := rfl
  nextTick := rfl
  interval := rfl
  others ne := ⟨rfl, by rw [Table.get?_erase, if_neg ne], fun _ => rfl, fun _ => rfl⟩

end Touches

/-! ### Registrations -/

/-- What concerns one terminus takes in the endings of registrations. -/
structure Concerns (tid : Tid) (takeIn : Monitor μ → Except Fault InstanceId → Monitor μ) :
    Prop where
  requests : ∀ m result, (takeIn m result).toCorrelator = m.toCorrelator
  touches : ∀ m result, Touches tid m (takeIn m result)
  same : ∀ {m m'} result, SameAt tid m m' → SameAt tid (takeIn m result) (takeIn m' result)

namespace Concerns

variable {takeIn : Monitor μ → Except Fault InstanceId → Monitor μ}

theorem touches_registering (concerns : Concerns tid takeIn) (m : Monitor μ) (eid : Eid)
    (request : Request) (cookie : Purpose) (fault? : Option TransportFault) :
    Touches tid m (m.registering eid request cookie fault? takeIn).state :=
  (Touches.withRequests m _).trans (concerns.touches _ _)

/-- A registration at the endpoint is not seen elsewhere. -/
theorem hidden (concerns : Concerns tid takeIn) (like : Elsewhere home away m m)
    (own : home tid = some away) (request : Request) (cookie : Purpose)
    (fault? : Option TransportFault) :
    let x := m.registering away request cookie fault? takeIn
    Elsewhere home away m x.state ∧ elsewhere away x.tries = [] := by
  obtain ⟨requests, tries⟩ :=
    m.toCorrelator.registered_elsewhere away request cookie fault?
  refine ⟨like.hidden own (concerns.touches_registering ..) ?_, tries⟩
  rw [registering, concerns.requests]
  exact requests

/-- A registration elsewhere is the same. -/
theorem alike (concerns : Concerns tid takeIn) (like : Elsewhere home away m m')
    (own : home tid ≠ some away) {eid : Eid} (other : eid ≠ away) (request : Request)
    (cookie : Purpose) (fault? : Option TransportFault) :
    let x := m.registering eid request cookie fault? takeIn
    let x' := m'.registering eid request cookie fault? takeIn
    Elsewhere home away x.state x'.state ∧ x.tries = x'.tries := by
  obtain ⟨result, requests, tries⟩ := like.requests.registered other request cookie fault?
  refine ⟨like.change (concerns.touches_registering ..) (concerns.touches_registering ..) ?_ ?_,
    tries⟩
  · rw [registering, registering, concerns.requests, concerns.requests]
    exact requests
  · rw [registering, registering, result]
    exact concerns.same _ ((like.termini own).withRequests _ _)

end Concerns

end Monitor

end TerminusMonitor
