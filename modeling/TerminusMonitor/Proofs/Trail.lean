import TerminusMonitor.Proofs.Attempts
import TerminusMonitor.Proofs.Turn

/-!
An update as a function of the monitor and the link.

An update makes one attempt to send after the other: overdue requests are sent again, walks ask
for records, and a tick asks for readings. What each of these steps comes to depends on the state
before it and on how its attempt ends.

* `Trail`: a state with the attempts that led to it, `Trail.run`: the one after some steps;
* `Correlator.expireStep`, `Monitor.askStep`, `Monitor.lookStep`: the steps;
* `Monitor.updated`, `Monitor.ends_update_updated`: an update that does not fail takes these
  steps.
-/

namespace TerminusMonitor

variable {σ κ μ : Type} {link : Link} {journal : Journal}

/-! ### Steps -/

namespace Journal

@[simp] theorem tries_logged (notice : Notice) :
    tries (journal ++ [.logged notice]) = journal.tries := by
  simp [tries]

@[simp] theorem tries_published (path : String) (properties : Properties) :
    tries (journal ++ [.published path properties]) = journal.tries := by
  simp [tries]

@[simp] theorem tries_woken (tasks : List TaskId) :
    tries (journal ++ tasks.map .woken) = journal.tries := by
  simp [tries, List.filterMap_map]

@[simp] theorem tries_sent (eid : Eid) (message : List UInt8) (fault? : Option TransportFault) :
    tries (journal ++ [.sent eid message fault?]) = journal.tries ++ [⟨eid, message, fault?⟩] := by
  simp [tries]

end Journal

/-- How the next attempt to send to each endpoint ends. -/
def Link.next (link : Link) (tries : List Try) (eid : Eid) : Option TransportFault :=
  link eid (tries.countP (·.eid == eid))

theorem Link.next_tries (link : Link) (journal : Journal) (eid : Eid) :
    link.next journal.tries eid = link eid (journal.attempts eid) := by
  have count : journal.tries.countP (·.eid == eid) = journal.attempts eid := by
    rw [Journal.tries, List.countP_filterMap]
    congr 1
    funext event
    cases event <;> rfl
  rw [next, count]

/-- A state with the attempts to send that led to it. -/
structure Trail (σ : Type) where
  state : σ
  tries : List Try := []

/-- What a state comes to, given how the next attempt to send to each endpoint ends. -/
abbrev Step (σ : Type) := σ → (Eid → Option TransportFault) → Trail σ

namespace Trail

/-- The trail after one more step. -/
def step (link : Link) (x : Trail σ) (step : Step σ) : Trail σ :=
  let after := step x.state (link.next x.tries)
  ⟨after.state, x.tries ++ after.tries⟩

/-- The trail after some more steps. -/
def run (link : Link) (steps : List (Step σ)) (x : Trail σ) : Trail σ := steps.foldl (step link) x

theorem run_cons (link : Link) (first : Step σ) (rest : List (Step σ)) (x : Trail σ) :
    run link (first :: rest) x = run link rest (x.step link first) := rfl

end Trail

/-! ### Requests -/

namespace Correlator

variable {c : Correlator κ} {key : RequestKey}

/-- Sends a request again, or adds its outcome to those of the requests that ended. -/
def expireStep (key : RequestKey) : Step (Correlator κ × List (Completion κ)) :=
  fun (c, ended) next =>
    match c.pending.get? key with
    | none => ⟨(c, ended), []⟩
    | some p =>
      match p.retriesLeft with
      | 0 =>
        ⟨(c.closed key, ended ++ [{ key, cookie := p.cookie, result := .error .timedOut }]), []⟩
      | left + 1 => ⟨(c.renewed key left, ended), [⟨key.eid, p.message, next key.eid⟩]⟩

theorem ends_expire_step (ended : List (Completion κ)) :
    Task.Ends (expire key) c link journal fun completion? c' journal' =>
      (⟨(c', ended ++ completion?.toList), journal'.tries⟩ : Trail _) =
        Trail.step link ⟨(c, ended), journal.tries⟩ (expireStep key) := by
  simp only [expire, Task.ends_bind, Task.ends_get, Trail.step, expireStep]
  cases pending : c.pending.get? key with
  | none => simp
  | some p =>
    dsimp only
    cases retries : p.retriesLeft with
    | zero =>
      simp only [Task.ends_bind, Task.ends_lift, Effect.ends_log]
      have silent : (finish key : Task (Correlator κ) Unit).Adds Event.IsSilent :=
        adds_finish (fun _ => trivial) (fun _ => trivial) key
      have logged : journal.Grows Event.IsSilent
          (journal ++ [.logged (.requestExpired key p.command)]) := .single trivial
      refine (ends_finish.and (silent c link _)).mono ?_
      rintro _ c' journal' ⟨rfl, grows⟩
      simp [(logged.trans grows).tries]
    | succ left =>
      simp only [Task.ends_bind, Task.ends_modify, Task.ends_lift, Effect.ends_log,
        Effect.ends_send, Link.next_tries]
      have logged :
          Journal.attempts (journal ++ [.logged (.retrying key p.command left)]) key.eid =
            journal.attempts key.eid := by
        simp [Journal.attempts]
      rw [logged]
      cases link key.eid (journal.attempts key.eid) <;> simp [renewed, -List.append_assoc]

theorem ends_expireAll_run {keys : List RequestKey} (ended : List (Completion κ)) :
    Task.Ends (expireAll keys) c link journal fun completions c' journal' =>
      (⟨(c', ended ++ completions), journal'.tries⟩ : Trail _) =
        Trail.run link (keys.map expireStep) ⟨(c, ended), journal.tries⟩ := by
  induction keys generalizing c journal ended with
  | nil => simp [expireAll, Trail.run]
  | cons key rest ih =>
    rw [expireAll, Task.ends_bind, List.map_cons, Trail.run_cons]
    refine (ends_expire_step ended).mono ?_
    intro completion? c₁ journal₁ first
    rw [← first, Task.ends_bind]
    refine (ih (ended ++ completion?.toList)).mono ?_
    intro completions c₂ journal₂ later
    rw [Task.ends_pure, ← later, List.append_assoc]

/-- The requests that expire at a time, with the outcomes of those that end. -/
def elapse (c : Correlator κ) (link : Link) (now : Nat) :
    Trail (Correlator κ × List (Completion κ)) :=
  let c := { c with clock := now }
  Trail.run link (c.overdue.map expireStep) ⟨(c, []), []⟩

theorem ends_update_elapse {now : Nat} (forward : c.clock ≤ now) :
    Act.Ends (update now) c link [] fun result c' journal' =>
      ∃ completions, result = .ok completions ∧
        (⟨(c', completions), journal'.tries⟩ : Trail _) = c.elapse link now := by
  simp only [update, Act.ends_bind, Act.ends_get, Nat.not_lt.mpr forward, if_false,
    Act.ends_modify, Act.ends_ofTask]
  refine (ends_expireAll_run []).mono ?_
  intro completions c' journal' expired
  exact ⟨completions, rfl, expired⟩

/-- How a registration ends, given how an attempt to send to the endpoint ends. -/
def registered (c : Correlator κ) (eid : Eid) (request : Request) (cookie : κ)
    (fault? : Option TransportFault) : Except Fault InstanceId × Trail (Correlator κ) :=
  match (c.ids.mask eid).lowestFree? with
  | none => (.error .exhausted, ⟨c, []⟩)
  | some iid =>
    if c.pending.contains ⟨eid, iid⟩ then
      (.error (.state .duplicatePending), ⟨c.refused eid iid, []⟩)
    else
      match { request with instanceId := iid.toByte }.toBytes with
      | .error fault => (.error (.invalid fault), ⟨c.refused eid iid, []⟩)
      | .ok message =>
        match fault? with
        | some fault => (.error (.transport fault), ⟨c.refused eid iid, [⟨eid, message, fault?⟩]⟩)
        | none => (.ok iid, ⟨c.opened ⟨eid, iid⟩ request message cookie, [⟨eid, message, fault?⟩]⟩)

theorem ends_register_registered {eid : Eid} {request : Request} {cookie : κ} :
    Act.Ends (register eid request cookie) c link journal fun result c' journal' =>
      let ending := c.registered eid request cookie (link.next journal.tries eid)
      result = ending.1 ∧ c' = ending.2.state ∧
        journal'.tries = journal.tries ++ ending.2.tries := by
  simp only [register, onIds, Act.ends_bind, Act.ends_on, Pools.ends_take, registered,
    Link.next_tries]
  cases free : (c.ids.mask eid).lowestFree? with
  | none => simp
  | some iid =>
    simp only [Act.ends_get]
    split
    next =>
      simp [Pools.ends_free, Pools.holds_taken_self, refused, -List.append_assoc]
    next untaken =>
      simp only [Act.ends_bind, Act.ends_lift, ends_transmit]
      cases { request with instanceId := iid.toByte }.toBytes with
      | error fault =>
        simp [Pools.ends_free, Pools.holds_taken_self, refused, -List.append_assoc]
      | ok message =>
        cases link eid (journal.attempts eid) with
        | none => simp [Except.map, opened]
        | some fault =>
          simp [Pools.ends_free, Pools.holds_taken_self, refused, -List.append_assoc]

end Correlator

namespace Monitor

variable {m : Monitor μ}

/-- Registers a request, and takes in how that ended. -/
def registering (m : Monitor μ) (eid : Eid) (request : Request) (cookie : Purpose)
    (fault? : Option TransportFault)
    (takeIn : Monitor μ → Except Fault InstanceId → Monitor μ) : Trail (Monitor μ) :=
  let ending := m.registered eid request cookie fault?
  ⟨takeIn (m.withRequests ending.2.state) ending.1, ending.2.tries⟩

/-! ### Walks -/

/-- The monitor after the registration of the next request of a walk. -/
def walked (m : Monitor μ) (tid : Tid) : Except Fault InstanceId → Monitor μ
  | .ok _ => { m with walks := m.walks.modify tid fun w => { w with inFlight := true } }
  | .error .exhausted => m
  | .error (.state _) => m
  | .error _ => m.finished tid

/-- Asks for the next record of a walk. -/
def askStep (tid : Tid) : Step (Monitor μ) := fun m next =>
  match m.termini.get? tid, m.walks.get? tid with
  | none, _ => ⟨{ m with walks := m.walks.erase tid }, []⟩
  | some _, none => ⟨m, []⟩
  | some terminus, some walk =>
    match FetchRecord.request walk.next with
    | .error _ => ⟨m, []⟩
    | .ok request =>
      m.registering terminus.eid request (.record tid walk.next) (next terminus.eid) (walked · tid)

/-- A walk that fails is over. -/
theorem ends_failWalk {tid : Tid} {fault : Fault} :
    Act.Ends (do Effect.log (.discoveryFailed tid fault); Act.ofTask (finishWalk tid)) m link
      journal fun _ m' journal' =>
        (⟨m', journal'.tries⟩ : Trail _) = ⟨m.finished tid, journal.tries⟩ := by
  have silent : (finishWalk tid : Task (Monitor μ) Unit).Adds Event.IsSilent :=
    adds_finishWalk (fun _ => trivial) (fun _ _ => trivial) (fun _ => trivial) tid
  simp only [Act.ends_bind, Act.ends_lift, Effect.ends_log, Act.ends_ofTask]
  refine (ends_finishWalk.and (silent m link _)).mono ?_
  rintro _ m' journal' ⟨rfl, grows⟩
  rw [grows.tries, Journal.tries_logged]

theorem ends_askNext_step {tid : Tid} :
    Act.Ends (askNext tid) m link journal fun result m' journal' =>
      result = .ok () → (⟨m', journal'.tries⟩ : Trail _) =
        Trail.step link ⟨m, journal.tries⟩ (askStep tid) := by
  simp only [askNext, Act.ends_bind, Act.ends_get, Trail.step, askStep]
  cases m.termini.get? tid with
  | none => simp
  | some terminus =>
    simp only [Act.ends_bind, Act.ends_get]
    cases m.walks.get? tid with
    | none => simp
    | some walk =>
      obtain ⟨payload, written⟩ := FetchRecord.request_eq walk.next
      simp only [written, Act.ends_bind, Act.ofMessage, Act.ends_pure, Act.ends_outcome,
        onRequests, onWatch, Watch.onRequests, Act.ends_on]
      refine Correlator.ends_register_registered.mono ?_
      rintro result c journal' ⟨same, rfl, tries⟩
      rw [registering, ← same, ← tries]
      cases result with
      | ok iid => simp [withRequests, walked]
      | error fault =>
        cases fault with
        | exhausted => simp [withRequests, walked]
        | state fault => simp
        | _ => exact ends_failWalk.mono fun _ _ _ ended _ => ended

theorem ends_askEach_run {tids : List Tid} :
    Act.Ends (askEach tids) m link journal fun result m' journal' =>
      result = .ok () → (⟨m', journal'.tries⟩ : Trail _) =
        Trail.run link (tids.map askStep) ⟨m, journal.tries⟩ := by
  induction tids generalizing m journal with
  | nil => simp [askEach, Trail.run]
  | cons tid rest ih =>
    rw [askEach, Act.ends_bind, List.map_cons, Trail.run_cons]
    refine ends_askNext_step.mono ?_
    intro result m₁ journal₁ first
    cases result with
    | ok =>
      rw [← first rfl]
      exact ih
    | error => exact no_fault ∘ Eq.symm

/-! ### Ticks -/

/-- The monitor after the registration of a request for a reading. -/
def looked (m : Monitor μ) (now : Nat) (s : NumericSensor) : Except Fault InstanceId → Monitor μ
  | .ok _ => { m with poller := m.poller.asked s.key now }
  | .error (.transport _) => { m with toWatch := m.toWatch.setSensor s.key s.fail }
  | .error _ => m

/-- Asks a sensor for a reading, if it is due. -/
def lookStep (now : Nat) (e : Eid × NumericSensor) : Step (Monitor μ) := fun m next =>
  if m.poller.isDue e.2 now then
    match ReadSensor.request e.2.key.sensor false with
    | .error _ => ⟨m, []⟩
    | .ok request =>
      m.registering e.1 request (.reading e.2.key) (next e.1) (looked · now e.2)
  else ⟨m, []⟩

theorem ends_pollSensor_step {now : Nat} {e : Eid × NumericSensor} :
    Act.Ends (Watch.pollSensor .reading now e.1 e.2) m.toWatch link journal
      fun result w journal' =>
        result = .ok () → (⟨{ m with toWatch := w }, journal'.tries⟩ : Trail (Monitor μ)) =
          Trail.step link ⟨m, journal.tries⟩ (lookStep now e) := by
  simp only [Watch.pollSensor, Act.ends_bind, Act.ends_get, Trail.step, lookStep]
  split
  next due =>
    obtain ⟨payload, written⟩ := ReadSensor.request_eq e.2.key.sensor false
    simp only [written, Act.ends_bind, Act.ends_outcome, Watch.onRequests, Act.ends_on]
    refine Correlator.ends_register_registered.mono ?_
    rintro result c journal' ⟨same, rfl, tries⟩
    rw [registering, ← same, ← tries]
    cases result with
    | ok iid => simp [withRequests, looked]
    | error fault =>
      cases fault with
      | state fault => simp
      | transport fault =>
        simp [withRequests, looked, NumericSensor.publish, Effect.publish, Journal.tries]
      | _ => simp [withRequests, looked]
  next => simp

theorem ends_pollSensors_run {now : Nat} {sensors : List (Eid × NumericSensor)} :
    Act.Ends (Watch.pollSensors .reading now sensors) m.toWatch link journal
      fun result w journal' =>
        result = .ok () → (⟨{ m with toWatch := w }, journal'.tries⟩ : Trail (Monitor μ)) =
          Trail.run link (sensors.map (lookStep now)) ⟨m, journal.tries⟩ := by
  induction sensors generalizing m journal with
  | nil => simp [Watch.pollSensors, Trail.run]
  | cons e rest ih =>
    rw [Watch.pollSensors, Act.ends_bind, List.map_cons, Trail.run_cons]
    refine ends_pollSensor_step.mono ?_
    intro result w journal₁ first
    cases result with
    | ok =>
      rw [← first rfl]
      exact ih (m := { m with toWatch := w })
    | error => exact no_fault ∘ Eq.symm

/-- The monitor with its next tick put off by an interval. -/
def ticking (m : Monitor μ) (now : Nat) : Monitor μ :=
  { m with poller := { m.poller with nextTick := timeAfter now m.poller.interval } }

/-- The trail after a tick, if one is due. -/
def ticked (link : Link) (now : Nat) (x : Trail (Monitor μ)) : Trail (Monitor μ) :=
  if x.state.poller.running ∧ x.state.poller.nextTick ≤ now then
    let begun := x.state.ticking now
    Trail.run link (begun.polled.map (lookStep now)) ⟨begun, x.tries⟩
  else x

theorem ends_poll_ticked {now : Nat} :
    Act.Ends (Watch.poll .reading now) m.toWatch link journal fun result w journal' =>
      ∀ delay, result = .ok delay →
        (⟨{ m with toWatch := w }, journal'.tries⟩ : Trail (Monitor μ)) =
          ticked link now ⟨m, journal.tries⟩ := by
  simp only [Watch.poll, Act.ends_bind, Act.ends_get, ticked]
  split
  next due =>
    simp only [Act.ends_bind, Act.ends_modify, Act.ends_get, Act.ends_pure]
    refine (ends_pollSensors_run (m := m.ticking now)).mono ?_
    intro result w journal' run
    cases result with
    | ok => exact fun _ _ => run rfl
    | error => exact fun _ eq => no_fault eq.symm
  next early => simp

/-! ### Updates -/

/-- The trail after the outcomes of the requests that expire were taken in. -/
def expired (m : Monitor μ) (link : Link) (now : Nat) : Trail (Monitor μ) :=
  let x := m.elapse link now
  ⟨x.state.2.foldl settled (m.withRequests x.state.1), x.tries⟩

/-- The trail after each walk that waits has asked for a record. -/
def advanced (link : Link) (x : Trail (Monitor μ)) : Trail (Monitor μ) :=
  Trail.run link (x.state.waitingWalks.map askStep) x

/-- What an update comes to if it does not fail. -/
def updated (m : Monitor μ) (link : Link) (now : Nat) : Trail (Monitor μ) :=
  ticked link now (advanced link (m.expired link now))

theorem ends_update_updated {now : Nat} (forward : m.clock ≤ now) :
    Act.Ends (update now) m link [] fun result m' journal' =>
      ∀ delay, result = .ok delay →
        (⟨m', journal'.tries⟩ : Trail (Monitor μ)) = m.updated link now := by
  simp only [update, Act.ends_bind, onRequests, onWatch, Watch.onRequests, Act.ends_on]
  refine (Correlator.ends_update_elapse forward).mono ?_
  rintro _ c journal₁ ⟨completions, rfl, elapses⟩
  simp only [Act.ends_ofTask]
  have silent : (completeAll completions : Task (Monitor μ) Unit).Adds Event.IsSilent :=
    adds_completeAll (fun _ => trivial) (fun _ _ => trivial) (fun _ => trivial) completions
  refine (ends_completeAll.and (silent _ link journal₁)).mono ?_
  rintro _ m₁ journal₂ ⟨settled, grows⟩
  have expired : (⟨m₁, journal₂.tries⟩ : Trail (Monitor μ)) = m.expired link now := by
    rw [Monitor.expired, ← elapses, settled, grows.tries]
    rfl
  simp only [advance, Act.ends_bind, Act.ends_get]
  refine ends_askEach_run.mono ?_
  intro result m₂ journal₃ asked
  cases result with
  | error => exact fun _ eq => no_fault eq.symm
  | ok =>
    have advanced : (⟨m₂, journal₃.tries⟩ : Trail (Monitor μ)) =
        Monitor.advanced link (m.expired link now) := by
      rw [asked rfl, ← expired, Monitor.advanced]
    refine ends_poll_ticked.mono ?_
    intro result w journal₄ ticks
    cases result with
    | error => exact fun _ eq => no_fault eq.symm
    | ok delay =>
      rw [advanced] at ticks
      exact fun _ _ => ticks delay rfl

end Monitor

end TerminusMonitor
