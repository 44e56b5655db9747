import TerminusMonitor.Proofs.Ownership
import TerminusMonitor.Proofs.Turn
import TerminusMonitor.Simulation.Scripted

/-!
What the operations of a monitor keep up, and what they fail with.

`Act.Keeps inv fails act` says that `act` keeps up an invariant and fails at most with
certain faults, over any link. Its rules follow the shape of a program.

All that a monitor does with its requests is to register them, to take in messages and to
let time pass. An invariant that these keep up is `Correlator.Sound`.

* `Monitor.keeps_advance`, `Watch.keeps_poll`: walks and ticks keep up what registering
  does, and do not fail;
* `Operation.ends_unshared`: an operation keeps up a sound invariant, dropped pools apart,
  and is at fault with the state of the requests only when time goes back;
* `Correlator.Accounts.sound`: the account of the instance IDs is one;
* `Turn.accounts_run`: a monitor that alone uses its pools keeps it in every run;
* `ids_used_iff_pending`: so at every moment the instance IDs in use are those of the
  pending requests, whatever became of the termini.
-/

namespace TerminusMonitor

variable {σ τ α β μ : Type}

/-! ### Rules -/

/-- A task keeps up an invariant. -/
def Task.Keeps (inv : σ → Prop) (task : Task σ α) : Prop :=
  ∀ s link journal, inv s → task.Ends s link journal fun _ s' _ => inv s'

/-- An operation keeps up an invariant, and fails at most with certain faults. -/
def Act.Keeps (inv : σ → Prop) (fails : Fault → Prop) (act : Act σ α) : Prop :=
  ∀ s link journal, inv s → act.Ends s link journal fun result s' _ =>
    inv s' ∧ ∀ fault, result = .error fault → fails fault

namespace Act

variable {inv : σ → Prop} {fails fails' : Fault → Prop}

theorem keeps_pure (a : α) : (pure a : Act σ α).Keeps inv fails :=
  fun _ _ _ start => ⟨start, fun _ => no_fault⟩

theorem keeps_throw {fault : Fault} (allowed : fails fault) :
    (throw fault : Act σ α).Keeps inv fails :=
  fun _ _ _ start => ⟨start, fun _ eq => Except.error.inj eq ▸ allowed⟩

theorem keeps_throw_bind {fault : Fault} {next : α → Act σ β} (allowed : fails fault) :
    (throw fault >>= next).Keeps inv fails :=
  fun _ _ _ start => ⟨start, fun _ eq => Except.error.inj eq ▸ allowed⟩

theorem keeps_get : (get : Act σ σ).Keeps inv fails :=
  fun _ _ _ start => ⟨start, fun _ => no_fault⟩

theorem keeps_modify {f : σ → σ} (kept : ∀ s, inv s → inv (f s)) :
    (modify f : Act σ PUnit).Keeps inv fails :=
  fun s _ _ start => ⟨kept s start, fun _ => no_fault⟩

theorem keeps_lift (x : Effect α) : (liftM x : Act σ α).Keeps inv fails :=
  fun _ _ _ start => ⟨start, fun _ => no_fault⟩

namespace Keeps

theorem mono {act : Act σ α} (keeps : act.Keeps inv fails)
    (weaker : ∀ fault, fails fault → fails' fault) : act.Keeps inv fails' := by
  intro s link journal start
  refine (keeps s link journal start).mono ?_
  rintro result _ _ ⟨kept, allowed⟩
  exact ⟨kept, fun fault eq => weaker fault (allowed fault eq)⟩

theorem ofTask {task : Task σ α} (keeps : task.Keeps inv) : (Act.ofTask task).Keeps inv fails := by
  intro s link journal start
  rw [ends_ofTask]
  exact (keeps s link journal start).mono fun _ _ _ kept => ⟨kept, fun _ => no_fault⟩

theorem on {part : τ → σ} {put : σ → τ → τ} {act : Act σ α} (keeps : act.Keeps inv fails)
    (part_put : ∀ s t, part (put s t) = s) :
    (Act.on part put act).Keeps (fun t => inv (part t)) fails := by
  intro t link journal start
  rw [ends_on]
  refine (keeps (part t) link journal start).mono ?_
  rintro _ s' _ ⟨kept, allowed⟩
  refine ⟨?_, allowed⟩
  dsimp only
  rwa [part_put]

theorem bind {act : Act σ α} {next : α → Act σ β} (first : act.Keeps inv fails)
    (rest : ∀ a, (next a).Keeps inv fails) : (act >>= next).Keeps inv fails := by
  intro s link journal start
  rw [ends_bind]
  refine (first s link journal start).mono ?_
  rintro result s' journal' ⟨kept, allowed⟩
  cases result with
  | ok a => exact rest a s' link journal' kept
  | error fault => exact ⟨kept, fun _ eq => Except.error.inj eq ▸ allowed fault rfl⟩

/-- What follows an operation whose fault is looked at. -/
theorem outcome_bind {act : Act σ α} {next : Except Fault α → Act σ β}
    (first : act.Keeps inv fails') (ok : ∀ a, (next (.ok a)).Keeps inv fails)
    (error : ∀ fault, fails' fault → (next (.error fault)).Keeps inv fails) :
    (act.outcome >>= next).Keeps inv fails := by
  intro s link journal start
  rw [ends_bind, ends_outcome]
  refine (first s link journal start).mono ?_
  rintro result s' journal' ⟨kept, allowed⟩
  cases result with
  | ok a => exact ok a s' link journal' kept
  | error fault => exact error fault (allowed fault rfl) s' link journal' kept

theorem discard {act : Act σ α} (keeps : act.Keeps inv fails) :
    (Functor.discard act).Keeps inv fails := by
  intro s link journal start
  rw [ends_discard]
  refine (keeps s link journal start).mono ?_
  rintro result _ _ ⟨kept, allowed⟩
  cases result with
  | ok => exact ⟨kept, fun _ => no_fault⟩
  | error fault => exact ⟨kept, fun _ eq => Except.error.inj eq ▸ allowed fault rfl⟩

end Keeps

end Act

/-! ### Requests -/

/-- A fault that does not lie with the state of the requests. -/
def Fault.External (fault : Fault) : Prop := ∀ state, fault ≠ .state state

namespace Correlator

variable {κ : Type} {inv : Correlator κ → Prop} {others : RequestKey → Prop}

/-- Registering a request keeps up an invariant, and is not at fault with the state. -/
def Admits (inv : Correlator κ → Prop) : Prop :=
  ∀ (eid : Eid) (request : Request) (cookie : κ),
    (register eid request cookie).Keeps inv Fault.External

/-- So does taking in a message. -/
structure Serves (inv : Correlator κ → Prop) : Prop where
  admits : Admits inv
  receive : ∀ {eid : Eid} {message : List UInt8}, (receive eid message).Keeps inv

/-- And so does the passing of time, which fails when it goes back. -/
structure Sound (inv : Correlator κ → Prop) : Prop extends Serves inv where
  update : ∀ {now : Nat}, (update now).Keeps inv (· = .state .timeReversed)

/-- An invariant beside one that registering keeps up only has to survive registrations. -/
theorem Admits.and {also : Correlator κ → Prop} (admits : Admits inv)
    (survives : ∀ {c c' : Correlator κ} {eid : Eid} {request : Request} {cookie : κ}
      {result : Except Fault InstanceId}, inv c → also c →
      Registration c eid request cookie result c' → also c') :
    Admits fun c => inv c ∧ also c := by
  rintro eid request cookie c link journal ⟨start, startAlso⟩
  refine ((admits eid request cookie c link journal start).and ends_register).mono ?_
  rintro result c' _ ⟨⟨kept, external⟩, registration⟩
  exact ⟨⟨kept, survives start startAlso registration⟩, external⟩

theorem Accounts.sound : Sound fun c : Correlator κ => c.Accounts others where
  admits := by
    intro eid request cookie c link journal accounts
    refine ends_register.mono ?_
    intro result c' _ registration
    obtain ⟨accounts', fine⟩ := accounts.registration registration
    exact ⟨accounts', fun fault eq state same => fine state (same ▸ eq)⟩
  receive := by
    intro eid message c link journal accounts
    exact ends_receive.mono fun _ _ _ reception => accounts.reception reception
  update := by
    intro now c link journal accounts
    refine ends_update.mono ?_
    intro result c' _ lapse
    obtain ⟨accounts', late⟩ := accounts.lapse lapse
    exact ⟨accounts', fun fault eq => (late fault eq).1⟩

end Correlator

/-! ### Readings -/

namespace Watch

variable {κ : Type} {cookie : SensorKey → κ} {now : Nat} {inv : Correlator κ → Prop}

theorem keeps_onRequests {act : Act (Correlator κ) α} {fails : Fault → Prop}
    (keeps : act.Keeps inv fails) : (onRequests act).Keeps (inv ·.toCorrelator) fails :=
  keeps.on fun _ _ => rfl

/-- A sensor without a reading is no failure of the tick. -/
theorem keeps_pollSensor (admits : Correlator.Admits inv) {eid : Eid} {s : NumericSensor} :
    (pollSensor cookie now eid s).Keeps (inv ·.toCorrelator) fun _ => False := by
  unfold pollSensor
  refine .bind Act.keeps_get fun w => ?_
  split
  next =>
    cases ReadSensor.request s.key.sensor false with
    | error fault => exact .bind (Act.keeps_lift _) fun _ => Act.keeps_lift _
    | ok request =>
      refine .outcome_bind (keeps_onRequests (admits _ _ _)) ?_ ?_
      · intro iid
        exact Act.keeps_modify fun _ start => start
      · intro fault external
        cases fault with
        | state fault => exact absurd rfl (external fault)
        | transport fault =>
          refine .bind (Act.keeps_lift _) fun _ => ?_
          exact .bind (Act.keeps_modify fun _ start => start) fun _ => Act.keeps_lift _
        | _ => exact Act.keeps_lift _
  next => exact Act.keeps_pure _

theorem keeps_pollSensors (admits : Correlator.Admits inv)
    {sensors : List (Eid × NumericSensor)} :
    (pollSensors cookie now sensors).Keeps (inv ·.toCorrelator) fun _ => False := by
  induction sensors with
  | nil => exact Act.keeps_pure _
  | cons e rest ih => exact .bind (keeps_pollSensor admits) fun _ => ih

theorem keeps_poll (admits : Correlator.Admits inv) :
    (poll cookie now).Keeps (inv ·.toCorrelator) fun _ => False := by
  unfold poll
  refine .bind Act.keeps_get fun w => ?_
  dsimp only
  split
  next =>
    refine .bind (Act.keeps_modify fun _ start => start) fun _ => ?_
    refine .bind Act.keeps_get fun _ => .bind (keeps_pollSensors admits) fun _ => ?_
    exact .bind Act.keeps_get fun _ => Act.keeps_pure _
  next => exact .bind Act.keeps_get fun _ => Act.keeps_pure _

end Watch

/-! ### Walks and outcomes -/

namespace Monitor

variable {inv : Correlator Purpose → Prop}

theorem ends_onRequests {act : Act (Correlator Purpose) α} {m : Monitor μ} {link : Link}
    {journal : Journal} {post : Except Fault α → Monitor μ → Journal → Prop} :
    Act.Ends (onRequests act) m link journal post ↔
      Act.Ends act m.toCorrelator link journal fun result c journal =>
        post result (m.withRequests c) journal := by
  simp only [onRequests, onWatch, Watch.onRequests, Act.ends_on]
  rfl

theorem keeps_onWatch {act : Act (Watch Purpose) α} {fails : Fault → Prop}
    (keeps : act.Keeps (inv ·.toCorrelator) fails) :
    (onWatch act : Act (Monitor μ) α).Keeps (inv ·.toCorrelator) fails :=
  keeps.on fun _ _ => rfl

theorem keeps_onRequests {act : Act (Correlator Purpose) α} {fails : Fault → Prop}
    (keeps : act.Keeps inv fails) :
    (onRequests act : Act (Monitor μ) α).Keeps (inv ·.toCorrelator) fails :=
  keeps_onWatch (Watch.keeps_onRequests keeps)

theorem keeps_complete {completion : Completion Purpose} :
    (complete completion : Task (Monitor μ) Unit).Keeps (inv ·.toCorrelator) := by
  intro m link journal start
  refine ends_complete.mono ?_
  rintro _ m' _ rfl
  rwa [settled_toCorrelator]

theorem keeps_completeAll {completions : List (Completion Purpose)} :
    (completeAll completions : Task (Monitor μ) Unit).Keeps (inv ·.toCorrelator) := by
  induction completions with
  | nil => exact fun _ _ _ start => start
  | cons completion rest ih =>
    intro m link journal start
    rw [completeAll, Task.ends_bind]
    exact (keeps_complete m link journal start).mono fun _ m' journal' => ih m' link journal'

theorem keeps_finishWalk {tid : Tid} :
    (finishWalk tid : Task (Monitor μ) Unit).Keeps (inv ·.toCorrelator) := by
  intro m link journal start
  refine ends_finishWalk.mono ?_
  rintro _ m' _ rfl
  rwa [(finished_frame m tid).1]

/-- A walk that cannot go on has ended or waits. -/
theorem keeps_askNext (admits : Correlator.Admits inv) {tid : Tid} :
    (askNext tid : Act (Monitor μ) Unit).Keeps (inv ·.toCorrelator) fun _ => False := by
  unfold askNext
  refine .bind Act.keeps_get fun m => ?_
  cases m.termini.get? tid with
  | none => exact Act.keeps_modify fun _ start => start
  | some terminus =>
    refine .bind Act.keeps_get fun m => ?_
    cases m.walks.get? tid with
    | none => exact Act.keeps_pure _
    | some walk =>
      obtain ⟨payload, written⟩ := FetchRecord.request_eq walk.next
      dsimp only
      rw [written]
      refine .bind (Act.keeps_pure _) fun request => ?_
      refine .outcome_bind (keeps_onRequests (admits _ _ _)) ?_ ?_
      · intro iid
        exact Act.keeps_modify fun _ start => start
      · intro fault external
        cases fault with
        | state fault => exact absurd rfl (external fault)
        | exhausted => exact Act.keeps_lift _
        | _ => exact .bind (Act.keeps_lift _) fun _ => .ofTask keeps_finishWalk

theorem keeps_askEach (admits : Correlator.Admits inv) {tids : List Tid} :
    (askEach tids : Act (Monitor μ) Unit).Keeps (inv ·.toCorrelator) fun _ => False := by
  induction tids with
  | nil => exact Act.keeps_pure _
  | cons tid rest ih => exact .bind (keeps_askNext admits) fun _ => ih

theorem keeps_advance (admits : Correlator.Admits inv) :
    (advance : Act (Monitor μ) Unit).Keeps (inv ·.toCorrelator) fun _ => False :=
  .bind Act.keeps_get fun _ => keeps_askEach admits

/-- Walks concern neither the clock nor polling nor the inventory. -/
theorem frame_askNext {m : Monitor μ} {link : Link} {journal : Journal} {tid : Tid} :
    Act.Ends (askNext tid) m link journal fun _ m' _ =>
      m'.clock = m.clock ∧ m'.poller = m.poller ∧ m'.inventory = m.inventory := by
  simp only [askNext, Act.ends_bind, Act.ends_get]
  cases m.termini.get? tid with
  | none => exact ⟨rfl, rfl, rfl⟩
  | some terminus =>
    simp only [Act.ends_bind, Act.ends_get]
    cases m.walks.get? tid with
    | none => exact ⟨rfl, rfl, rfl⟩
    | some walk =>
      obtain ⟨payload, written⟩ := FetchRecord.request_eq walk.next
      simp only [written, Act.ends_bind, Act.ofMessage, Act.ends_pure, Act.ends_outcome,
        ends_onRequests]
      refine Correlator.ends_register.mono ?_
      intro result c journal registration
      have clock : c.clock = m.clock := registration.clock
      cases result with
      | ok => exact ⟨clock, rfl, rfl⟩
      | error fault =>
        cases fault with
        | state => exact ⟨clock, rfl, rfl⟩
        | exhausted => exact ⟨clock, rfl, rfl⟩
        | _ =>
          simp only [Act.ends_bind, Act.ends_lift, Effect.ends_log, Act.ends_ofTask]
          refine ends_finishWalk.mono ?_
          rintro _ _ _ rfl
          obtain ⟨requests, poller⟩ := finished_frame (m.withRequests c) tid
          exact ⟨(congrArg Correlator.clock requests).trans clock, poller, finished_inventory⟩

theorem frame_askEach {m : Monitor μ} {link : Link} {journal : Journal} {tids : List Tid} :
    Act.Ends (askEach tids) m link journal fun _ m' _ =>
      m'.clock = m.clock ∧ m'.poller = m.poller ∧ m'.inventory = m.inventory := by
  induction tids generalizing m journal with
  | nil => exact ⟨rfl, rfl, rfl⟩
  | cons tid rest ih =>
    rw [askEach, Act.ends_bind]
    refine frame_askNext.mono ?_
    rintro result m₁ _ ⟨clock, poller, inventory⟩
    cases result with
    | ok => exact clock ▸ poller ▸ inventory ▸ ih
    | error => exact ⟨clock, poller, inventory⟩

theorem frame_advance {m : Monitor μ} {link : Link} {journal : Journal} :
    Act.Ends advance m link journal fun _ m' _ =>
      m'.clock = m.clock ∧ m'.poller = m.poller ∧ m'.inventory = m.inventory := by
  rw [advance, Act.ends_bind]
  exact frame_askEach

/-! ### Operations -/

theorem keeps_discover (admits : Correlator.Admits inv) {tid : Tid} :
    (discover tid : Act (Monitor μ) Unit).Keeps (inv ·.toCorrelator)
      (· = .unknownTerminus tid) := by
  unfold discover
  refine .bind Act.keeps_get fun m => ?_
  dsimp only
  split
  next => exact Act.keeps_throw_bind rfl
  next =>
    refine .bind Act.keeps_get fun m => ?_
    split
    next => exact Act.keeps_lift _
    next =>
      refine .bind (Act.keeps_lift _) fun _ => ?_
      refine .bind (Act.keeps_modify fun _ start => start) fun _ => ?_
      exact (keeps_advance admits).mono fun _ => False.elim

theorem keeps_setProperty (admits : Correlator.Admits inv) {path property : String}
    {value : PropertyValue} :
    (setProperty path property value : Act (Monitor μ) Unit).Keeps (inv ·.toCorrelator)
      Fault.External := by
  unfold setProperty
  refine .bind Act.keeps_get fun m => ?_
  split
  next mapping _ =>
    split
    next fault refused =>
      refine Act.keeps_throw fun state eq => ?_
      subst eq
      unfold EffecterMapping.request at refused
      split at refused <;> split at refused <;> cases refused
    next written _ =>
      cases written with
      | error fault =>
        refine .bind ?_ fun _ => .discard (keeps_onRequests (admits _ _ _))
        exact .bind (Act.keeps_lift _) fun _ => Act.keeps_throw fun _ => nofun
      | ok request =>
        refine .bind (Act.keeps_pure _) fun _ => ?_
        exact .discard (keeps_onRequests (admits _ _ _))
  next => exact Act.keeps_throw fun _ => nofun

theorem keeps_onResponse (serves : Correlator.Serves inv) {eid : Eid} {bytes : List UInt8} :
    (onResponse eid bytes : Act (Monitor μ) Unit).Keeps (inv ·.toCorrelator)
      fun _ => False := by
  unfold onResponse
  refine .bind (keeps_onRequests (.ofTask serves.receive)) fun completion? => ?_
  cases completion? with
  | none => exact Act.keeps_pure _
  | some completion => exact .bind (.ofTask keeps_complete) fun _ => keeps_advance serves.admits

/-- The response of an update manager may be one that cannot be written. -/
theorem keeps_onRequest [UpdateManager μ] {eid : Eid} {bytes : List UInt8} :
    (onRequest eid bytes : Act (Monitor μ) Unit).Keeps (inv ·.toCorrelator)
      fun fault => ∃ cause, fault = .invalid cause := by
  unfold onRequest
  split
  next => exact Act.keeps_lift _
  next request _ =>
    refine .bind ?_ fun response => .bind ?_ fun bytes => .bind (Act.keeps_lift _) fun sent => ?_
    · intro m link journal start
      simp only [onInventory, Act.ends_on, Act.ends_ofTask]
      exact Task.ends_of_forall fun _ _ _ => ⟨start, fun _ => no_fault⟩
    · cases response.toBytes with
      | ok bytes => exact Act.keeps_pure _
      | error cause => exact .bind (Act.keeps_lift _) fun _ => Act.keeps_throw ⟨cause, rfl⟩
    · split
      next => exact Act.keeps_lift _
      next => exact Act.keeps_pure _

theorem keeps_onMessage [UpdateManager μ] (serves : Correlator.Serves inv) {eid : Eid}
    {bytes : List UInt8} :
    (onMessage eid bytes : Act (Monitor μ) Unit).Keeps (inv ·.toCorrelator)
      fun fault => ∃ cause, fault = .invalid cause := by
  have answer : (onResponse eid bytes : Act (Monitor μ) Unit).Keeps (inv ·.toCorrelator)
      fun fault => ∃ cause, fault = .invalid cause :=
    (keeps_onResponse serves).mono fun _ => False.elim
  unfold onMessage
  split
  next header _ =>
    split
    next => exact keeps_onRequest
    next => exact answer
  next => exact .bind (Act.keeps_lift _) fun _ => answer

/-- What follows the requests that expire does not fail. -/
theorem ends_update_safe (admits : Correlator.Admits inv) {m : Monitor μ} {link : Link}
    {journal : Journal} {now : Nat} {fails : Fault → Prop}
    (expires : Act.Ends (Correlator.update now) m.toCorrelator link journal fun result c _ =>
      inv c ∧ ∀ fault, result = .error fault → fails fault) :
    Act.Ends (update now) m link journal fun result m' _ =>
      inv m'.toCorrelator ∧ ∀ fault, result = .error fault → fails fault := by
  rw [update, Act.ends_bind, ends_onRequests]
  refine expires.mono ?_
  rintro result c journal₁ ⟨start, late⟩
  cases result with
  | error fault => exact ⟨start, fun _ eq => Except.error.inj eq ▸ late fault rfl⟩
  | ok completions =>
    have rest : (do
        Act.ofTask (completeAll completions)
        advance
        let poll ← onWatch (Watch.poll .reading now)
        return min poll (← get).nextDelay : Act (Monitor μ) Nat).Keeps (inv ·.toCorrelator)
          fun _ => False := by
      refine .bind (.ofTask keeps_completeAll) fun _ => .bind (keeps_advance admits) fun _ => ?_
      refine .bind (keeps_onWatch (Watch.keeps_poll admits)) fun _ => ?_
      exact .bind Act.keeps_get fun _ => Act.keeps_pure _
    refine (rest _ link journal₁ start).mono fun _ _ _ ended => ?_
    exact ⟨ended.1, fun fault eq => (ended.2 fault eq).elim⟩

theorem keeps_markUnreachable {tid : Tid} :
    (markUnreachable tid : Act (Monitor μ) Unit).Keeps (inv ·.toCorrelator)
      (· = .unknownTerminus tid) := by
  unfold markUnreachable
  refine .bind Act.keeps_get fun m => ?_
  cases m.termini.get? tid with
  | none => exact Act.keeps_throw rfl
  | some terminus =>
    have lost : (do
        modify fun m : Monitor μ =>
          { m with termini := m.termini.modify tid fun t =>
            { t with
              sensors := terminus.sensors.mapValues fun _ s => s.lose, reachable := false } }
        NumericSensor.publishAll (terminus.sensors.mapValues fun _ s => s.lose).values :
          Act (Monitor μ) Unit).Keeps (inv ·.toCorrelator) (· = .unknownTerminus tid) :=
      .bind (Act.keeps_modify fun _ start => start) fun _ => Act.keeps_lift _
    dsimp only
    split
    next => exact .bind (Act.keeps_lift _) fun _ => lost
    next => exact lost

theorem keeps_onPoller {task : Task Poller Unit} :
    (onWatch (.ofTask (Watch.onPoller task)) : Act (Monitor μ) Unit).Keeps (inv ·.toCorrelator)
      fun _ => False := by
  intro m link journal start
  simp only [onWatch, Watch.onPoller, Act.ends_on, Act.ends_ofTask, Task.ends_on]
  exact Task.ends_of_forall fun _ _ _ => ⟨start, fun _ => no_fault⟩

theorem keeps_load {mapping : Except Fault Mapping} :
    (load mapping : Act (Monitor μ) Unit).Keeps (inv ·.toCorrelator) (mapping = .error ·) := by
  cases mapping with
  | error fault => exact Act.keeps_throw rfl
  | ok mapping =>
    exact .bind (Act.keeps_lift _) fun _ => Act.keeps_modify fun _ start => start

end Monitor

/-! ### Pools that are dropped -/

/-- The correlator without the pool of an endpoint, if one is dropped. -/
def Correlator.without {κ : Type} (c : Correlator κ) : Option Eid → Correlator κ
  | none => c
  | some eid => { c with ids := c.ids.dropped eid }

/-- An endpoint, if no request to it is pending. -/
def Correlator.unused? {κ : Type} (c : Correlator κ) (eid : Eid) : Option Eid :=
  if c.pendingFor eid = 0 then some eid else none

/-- The endpoint whose pool an operation drops, if it drops one: one that a terminus
leaves, and to which no request is pending. -/
def Operation.dropped (m : Monitor μ) : Operation μ → Option Eid
  | remove tid => (m.termini.get? tid).bind fun terminus => m.unused? terminus.eid
  | add tid eid _ => (m.termini.get? tid).bind fun terminus =>
    if terminus.eid = eid then none else m.unused? terminus.eid
  | _ => none

namespace Monitor

variable {m : Monitor μ} {link : Link} {journal : Journal} {tid : Tid} {terminus : Terminus}

theorem requests_dropUnused {eid : Eid} {notice : Notice} :
    Act.Ends (do
        if (← get).pendingFor eid = 0 then onIds (.ofTask (Pools.drop eid))
        Effect.log notice) m link journal fun result m' _ =>
      result = .ok () ∧ m'.toCorrelator = m.toCorrelator.without (m.unused? eid) := by
  simp only [Act.ends_bind, Act.ends_get, onIds, Correlator.onIds, Correlator.unused?]
  split
  next =>
    simp only [Act.ends_bind, ends_onRequests, Act.ends_on, Act.ends_ofTask, Act.ends_lift,
      Effect.ends_log]
    refine Pools.ends_drop.mono ?_
    rintro _ ids _ rfl
    exact ⟨trivial, rfl⟩
  next => exact ⟨rfl, rfl⟩

theorem requests_remove (known : m.termini.get? tid = some terminus) :
    Act.Ends (remove tid) m link journal fun result m' _ =>
      result = .ok () ∧ m'.toCorrelator = m.toCorrelator.without (m.unused? terminus.eid) := by
  simp only [remove, Act.ends_bind, Act.ends_get, known, Act.ends_modify, Act.ends_lift,
    Effect.ends_removeAll, onInventory, Act.ends_on, Act.ends_ofTask]
  refine Task.ends_of_forall ?_
  intro erased inventory journal
  split
  next =>
    rw [Act.ends_bind]
    simp only [Act.ends_lift, Effect.ends_log]
    exact requests_dropUnused
  next => exact requests_dropUnused

theorem requests_add {eid : Eid} {name : String} :
    Act.Ends (add tid eid name) m link journal fun result m' _ =>
      result = .ok () ∧
        m'.toCorrelator = m.toCorrelator.without (Operation.dropped m (.add tid eid name)) := by
  simp only [add, Act.ends_bind, Act.ends_get, Operation.dropped]
  cases known : m.termini.get? tid with
  | none => exact ⟨rfl, rfl⟩
  | some terminus =>
    rw [Option.bind_some]
    dsimp only
    split
    next =>
      split
      next => exact ⟨rfl, rfl⟩
      next => exact ⟨rfl, rfl⟩
    next =>
      simp only [Act.ends_bind, Act.ends_lift, Effect.ends_log]
      refine (requests_remove known).mono ?_
      rintro _ m₁ _ ⟨rfl, requests⟩
      exact ⟨rfl, requests⟩

end Monitor

/-- An endpoint has no request pending if none of its instance IDs has. -/
theorem Correlator.pendingFor_eq_zero_iff {κ : Type} {c : Correlator κ} {eid : Eid} :
    c.pendingFor eid = 0 ↔ ∀ iid, c.pending.contains ⟨eid, iid⟩ = false := by
  rw [pendingFor, List.countP_eq_zero]
  constructor
  · intro none iid
    rw [Bool.eq_false_iff]
    intro pending
    exact none _ (Table.mem_keys_iff.mpr (Table.contains_iff.mp pending)) (beq_self_eq_true eid)
  · rintro none ⟨eid', iid⟩ mem same
    have pending := Table.contains_iff.mpr (Table.mem_keys_iff.mp mem)
    rw [show eid' = eid from eq_of_beq same, none iid] at pending
    cases pending

/-- A pool of which nobody holds an ID may be dropped. -/
theorem Correlator.Accounts.without {κ : Type} {c : Correlator κ} {others : RequestKey → Prop}
    {dropped? : Option Eid} (accounts : c.Accounts others)
    (unused : ∀ eid, dropped? = some eid → c.pendingFor eid = 0)
    (free : ∀ eid, dropped? = some eid → ∀ iid, ¬ others ⟨eid, iid⟩) :
    (c.without dropped?).Accounts others := by
  cases dropped? with
  | none => exact accounts
  | some eid =>
    have gone : ∀ {key : RequestKey}, key.eid = eid →
        ¬ c.pending.contains key = true ∧ ¬ others key := by
      rintro ⟨_, iid⟩ rfl
      have none := pendingFor_eq_zero_iff.mp (unused _ rfl) iid
      exact ⟨Bool.eq_false_iff.mp none, free _ rfl iid⟩
    constructor
    · intro key
      change (c.ids.dropped eid).holds key.eid key.iid = true ↔ c.pending.contains key = true ∨ _
      rw [Pools.holds_dropped, Bool.and_eq_true, Bool.not_eq_true', decide_eq_false_iff_not,
        accounts.used]
      exact ⟨And.right, fun owned => ⟨fun same => owned.elim (gone same).1 (gone same).2, owned⟩⟩
    · exact accounts.apart

namespace Operation

variable {m : Monitor μ} {link : Link} {journal : Journal} {operation : Operation μ}

/-- Whether an operation leaves the pools to the monitor. -/
def Unshared : Operation μ → Prop
  | share _ => False
  | _ => True

/-- Whether an operation is one of the monitor itself. No mapping is refused for the
state of the requests. -/
def IsOwn : Operation μ → Prop
  | share _ => False
  | load (.error fault) => fault.External
  | _ => True

theorem IsOwn.unshared (own : operation.IsOwn) : operation.Unshared := by
  cases operation with
  | share => exact own
  | _ => trivial

/-- No request is pending to an endpoint whose pool is dropped. -/
theorem pendingFor_dropped {eid : Eid} (drops : operation.dropped m = some eid) :
    m.pendingFor eid = 0 := by
  have unused {eid' : Eid} (unused : m.unused? eid' = some eid) : m.pendingFor eid = 0 := by
    unfold Correlator.unused? at unused
    split at unused
    next none => exact Option.some.inj unused ▸ none
    next => cases unused
  cases operation with
  | remove tid =>
    obtain ⟨terminus, _, drops⟩ := Option.bind_eq_some_iff.mp drops
    exact unused drops
  | add tid eid' name =>
    obtain ⟨terminus, _, drops⟩ := Option.bind_eq_some_iff.mp drops
    split at drops
    next => cases drops
    next => exact unused drops
  | _ => cases drops

/-- An operation that drops a pool does nothing else to the requests. -/
theorem ends_dropped [UpdateManager μ] {eid : Eid} (drops : operation.dropped m = some eid) :
    Act.Ends operation.act m link journal fun _ m' _ =>
      m'.toCorrelator = m.toCorrelator.without (some eid) := by
  cases operation with
  | remove tid =>
    obtain ⟨terminus, known, unused⟩ := Option.bind_eq_some_iff.mp drops
    refine (Monitor.requests_remove known).mono ?_
    rintro _ m' _ ⟨_, requests⟩
    rw [requests, unused]
  | add tid eid' name =>
    refine Monitor.requests_add.mono ?_
    rintro _ m' _ ⟨_, requests⟩
    rw [requests, drops]
  | _ => cases drops

/-- An operation keeps up a sound invariant of the requests, if the pool that it drops may
be dropped. It is at fault with the state of the requests only when time goes back, or
when it loads mappings that were refused for such a fault. -/
theorem ends_unshared [UpdateManager μ] {inv : Correlator Purpose → Prop}
    (sound : Correlator.Sound inv) (unshared : operation.Unshared) (start : inv m.toCorrelator) :
    Act.Ends operation.act m link journal fun result m' _ =>
      ((∀ eid, operation.dropped m = some eid → inv (m.without (some eid))) →
        inv m'.toCorrelator) ∧
      ∀ state, result = .error (.state state) →
        operation = .load (.error (.state state)) ∨
        state = .timeReversed ∧ ∃ now, operation = .update now ∧ now < m.clock := by
  have fine {fails : Fault → Prop} {act : Act (Monitor μ) Unit}
      (keeps : act.Keeps (inv ·.toCorrelator) fails) (external : ∀ state, ¬ fails (.state state)) :
      Act.Ends act m link journal fun result m' _ =>
        ((∀ eid, operation.dropped m = some eid → inv (m.without (some eid))) →
          inv m'.toCorrelator) ∧
        ∀ state, result = .error (.state state) →
          operation = .load (.error (.state state)) ∨
          state = .timeReversed ∧ ∃ now, operation = .update now ∧ now < m.clock := by
    refine (keeps m link journal start).mono ?_
    rintro result m' _ ⟨kept, allowed⟩
    exact ⟨fun _ => kept, fun state eq => absurd (allowed _ eq) (external state)⟩
  have drop {dropped? : Option Eid} {m' : Monitor μ} (dropped : operation.dropped m = dropped?)
      (requests : m'.toCorrelator = m.without dropped?) :
      (∀ eid, operation.dropped m = some eid → inv (m.without (some eid))) →
        inv m'.toCorrelator := by
    intro may
    rw [requests]
    cases dropped? with
    | none => exact start
    | some eid => exact may eid dropped
  cases operation with
  | add tid eid name =>
    refine Monitor.requests_add.mono ?_
    rintro _ m' _ ⟨rfl, requests⟩
    exact ⟨drop rfl requests, fun _ => no_fault⟩
  | remove tid =>
    cases known : m.termini.get? tid with
    | none =>
      simp only [act, Monitor.remove, Act.ends_bind, Act.ends_get, known]
      exact ⟨fun _ => start, fun _ eq => (by cases eq)⟩
    | some terminus =>
      refine (Monitor.requests_remove known).mono ?_
      rintro _ m' _ ⟨rfl, requests⟩
      have dropped : dropped m (.remove tid) = m.unused? terminus.eid := by
        rw [Operation.dropped, known, Option.bind_some]
      exact ⟨drop dropped requests, fun _ => no_fault⟩
  | markUnreachable tid => exact fine Monitor.keeps_markUnreachable (by simp)
  | discover tid => exact fine (Monitor.keeps_discover sound.admits) (by simp)
  | startPolling =>
    exact fine (.bind Act.keeps_get fun _ => Monitor.keeps_onPoller) fun _ => id
  | stopPolling => exact fine Monitor.keeps_onPoller fun _ => id
  | setProperty path property value =>
    exact fine (Monitor.keeps_setProperty sound.admits) fun state external => external state rfl
  | load mapping =>
    refine (Monitor.keeps_load m link journal start).mono ?_
    rintro result m' _ ⟨kept, refused⟩
    exact ⟨fun _ => kept, fun state eq => .inl (congrArg _ (refused _ eq))⟩
  | update now =>
    simp only [act, Act.ends_discard]
    have late : Act.Ends (Correlator.update now) m.toCorrelator link journal fun result c _ =>
        inv c ∧ ∀ fault, result = .error fault → fault = .state .timeReversed ∧ now < m.clock := by
      refine ((sound.update m.toCorrelator link journal start).and Correlator.ends_update).mono ?_
      rintro result c _ ⟨⟨kept, _⟩, lapse⟩
      cases lapse with
      | reversed earlier => exact ⟨kept, fun _ eq => ⟨(Except.error.inj eq).symm, earlier⟩⟩
      | expired => exact ⟨kept, fun _ => no_fault⟩
    refine (Monitor.ends_update_safe sound.admits late).mono ?_
    rintro result m' _ ⟨kept, late⟩
    refine ⟨fun _ => kept, ?_⟩
    intro state eq
    cases result with
    | ok => cases eq
    | error fault =>
      cases eq
      obtain ⟨eq, earlier⟩ := late _ rfl
      cases eq
      exact .inr ⟨rfl, now, rfl, earlier⟩
  | message eid bytes => exact fine (Monitor.keeps_onMessage sound.toServes) (by simp)
  | response eid bytes => exact fine (Monitor.keeps_onResponse sound.toServes) fun _ => id
  | manage change => exact ⟨fun _ => start, fun _ => no_fault⟩
  | share ids => exact unshared.elim

/-- An operation of the monitor keeps the account, unless it drops a pool of which others
hold an ID. It is at fault with the state of the requests only when time goes back. -/
theorem ends_own [UpdateManager μ] {others : RequestKey → Prop} (own : operation.IsOwn)
    (accounts : m.Accounts others) :
    Act.Ends operation.act m link journal fun result m' _ =>
      ((∀ eid, operation.dropped m = some eid → ∀ iid, ¬ others ⟨eid, iid⟩) →
        m'.Accounts others) ∧
      ∀ state, result = .error (.state state) →
        state = .timeReversed ∧ ∃ now, operation = .update now ∧ now < m.clock := by
  refine (ends_unshared Correlator.Accounts.sound own.unshared accounts).mono ?_
  rintro result m' _ ⟨kept, late⟩
  constructor
  · intro free
    refine kept fun eid drops => accounts.without ?_ ?_
    · rintro _ ⟨⟩
      exact pendingFor_dropped drops
    · rintro _ ⟨⟩
      exact free eid drops
  · intro state eq
    rcases late state eq with refused | late
    · subst refused
      exact absurd rfl (own state)
    · exact late

end Operation

/-! ### Runs -/

namespace Turn

variable [UpdateManager μ] {turns : List (Turn μ)} {m : Monitor μ}

/-- When nobody else uses the pools, turns keep up a sound invariant that does not mind a
pool to be dropped of which no ID is in use. -/
theorem keeps_run {inv : Correlator Purpose → Prop} (sound : Correlator.Sound inv)
    (drops : ∀ {c eid}, inv c → c.pendingFor eid = 0 → inv (c.without (some eid)))
    (unshared : ∀ t ∈ turns, t.operation.Unshared) (start : inv m.toCorrelator) :
    inv (run turns m).toCorrelator := by
  induction turns generalizing m with
  | nil => exact start
  | cons t rest ih =>
    obtain ⟨unsharedFirst, unsharedRest⟩ := List.forall_mem_cons.mp unshared
    refine ih unsharedRest ?_
    refine (Act.ends_iff.mp (Operation.ends_unshared sound unsharedFirst start)).1 ?_
    intro eid dropped
    exact drops start (Operation.pendingFor_dropped dropped)

/-- So they keep the account. -/
theorem accounts_run (unshared : ∀ t ∈ turns, t.operation.Unshared)
    (accounts : m.Accounts fun _ => False) : (run turns m).Accounts fun _ => False := by
  refine keeps_run Correlator.Accounts.sound ?_ unshared accounts
  intro c eid accounts none
  refine accounts.without ?_ fun _ _ _ => id
  rintro _ ⟨⟩
  exact none

end Turn

/-- At the start no ID is in use and no request is pending. -/
theorem Monitor.accounts_start (policy : RetryPolicy) (interval now : Nat) :
    (Monitor.start policy interval now : Monitor μ).Accounts fun _ => False :=
  .fresh rfl rfl fun _ => id

theorem Monitor.pendingFor_of_isEmpty {m : Monitor μ} {eid : Eid}
    (pending : m.pending.isEmpty = true) : m.pendingFor eid = 0 := by
  simp [Correlator.pendingFor, Table.keys, List.isEmpty_iff.mp pending]

/-- After every run in which nobody else uses the pools, the instance IDs in use are those
of the pending requests. So none is in use when the monitor is idle. -/
theorem ids_used_iff_pending [UpdateManager μ] (policy : RetryPolicy) (interval now : Nat)
    {turns : List (Turn μ)} (unshared : ∀ t ∈ turns, t.operation.Unshared) :
    let m := Turn.run turns (Monitor.start policy interval now)
    (∀ eid iid, m.ids.holds eid iid = true ↔ m.pending.contains ⟨eid, iid⟩ = true) ∧
      (∀ eid, m.ids.inUse eid = m.pendingFor eid) ∧
      (m.isIdle = true → ∀ eid, m.ids.inUse eid = 0) := by
  intro m
  have accounts : m.Accounts fun _ => False :=
    Turn.accounts_run unshared (Monitor.accounts_start policy interval now)
  have inUse (eid : Eid) : m.ids.inUse eid = m.pendingFor eid := accounts.inUse_eq fun _ => id
  refine ⟨?_, inUse, ?_⟩
  · intro eid iid
    have used := @Pools.Split.used _ _ _ accounts ⟨eid, iid⟩
    rwa [or_false] at used
  · intro idle eid
    simp only [Monitor.isIdle, Bool.and_eq_true] at idle
    rw [inUse, Monitor.pendingFor_of_isEmpty idle.1.2]

/-- A terminus is asked for its first record at one endpoint, moves to another, where it is
asked again, is removed, and comes back to the first. -/
def comingAndGoing : List (Turn Scripted) :=
  [{ operation := .add 1 8 "Rack" },
    { operation := .discover 1 },
    { operation := .add 1 9 "Rack" },
    { operation := .discover 1 },
    { operation := .remove 1 },
    { operation := .add 1 8 "Rack" },
    { operation := .discover 1 }]

theorem ids_used_iff_pending_comingAndGoing :
    let m := Turn.run comingAndGoing (Monitor.start {} 250 0)
    (∀ t ∈ comingAndGoing, t.operation.Unshared) ∧ m.pendingFor 8 = 2 ∧ m.pendingFor 9 = 1 ∧
      (∀ eid iid, m.ids.holds eid iid = true ↔ m.pending.contains ⟨eid, iid⟩ = true) ∧
      (∀ eid, m.ids.inUse eid = m.pendingFor eid) ∧
      (m.isIdle = true → ∀ eid, m.ids.inUse eid = 0) := by
  have unshared : ∀ t ∈ comingAndGoing, t.operation.Unshared := by
    simp [comingAndGoing, Operation.Unshared]
  exact ⟨unshared, by decide +kernel, by decide +kernel,
    ids_used_iff_pending {} 250 0 unshared⟩

end TerminusMonitor
