import TerminusMonitor.Proofs.Deadlines
import TerminusMonitor.Proofs.Elsewhere

/-!
What comes of sending to one endpoint does not matter elsewhere.

An update takes its steps one by one. Those for a terminus at the endpoint are not seen elsewhere,
and the others are the same over links that are alike there.

* `Monitor.matches_askStep`: a walk asks for the same record;
* `Monitor.Elsewhere.polled`, `Monitor.like_ticked`: a tick asks the same sensors;
* `Monitor.Keyed.like_updated`: so an update does the same elsewhere;
* `endpoint_isolated`: it makes the same attempts to send there, and leaves the same requests,
  IDs, termini, walks and course of polling.
-/

namespace TerminusMonitor

variable {μ : Type} {away : Eid} {link link' : Link}

namespace Monitor

variable {m m' : Monitor μ} {home : Tid → Option Eid} {tid : Tid}

/-! ### Walks -/

theorem SameAt.finished (same : SameAt tid m m') :
    SameAt tid (m.finished tid) (m'.finished tid) := by
  unfold Monitor.finished
  rw [same.walk]
  cases m'.walks.get? tid with
  | none => exact same
  | some walk => exact (same.modifyTerminus fun t => { t with sensors := walk.sensors }).eraseWalk

theorem Touches.finished : Touches tid m (m.finished tid) := by
  unfold Monitor.finished
  split
  next => exact .refl m
  next walk _ =>
    have kept : Touches tid m
        (m.modifyTerminus tid fun t => { t with sensors := walk.sensors }) :=
      .modifyTerminus fun _ => rfl
    exact kept.trans .eraseWalk

/-- A request for a record concerns the terminus of the walk. -/
theorem concerns_walked : Concerns tid (walked (μ := μ) · tid) where
  requests m result := by
    cases result with
    | ok => rfl
    | error fault =>
      cases fault with
      | exhausted => rfl
      | state => rfl
      | _ => exact (finished_frame m tid).1
  touches m result := by
    cases result with
    | ok => exact .modifyWalk _
    | error fault =>
      cases fault with
      | exhausted => exact .refl m
      | state => exact .refl m
      | _ => exact .finished
  same result same := by
    cases result with
    | ok => exact same.modifyWalk _
    | error fault =>
      cases fault with
      | exhausted => exact same
      | state => exact same
      | _ => exact same.finished

/-- What a walk asks for at an endpoint is not seen elsewhere. -/
theorem hides_askStep (own : home tid = some away) :
    Step.Hides away (Elsewhere home away) (askStep tid : Step (Monitor μ)) := by
  intro m next like
  unfold askStep
  split
  next => exact ⟨like.hidden own .eraseWalk (.refl _), rfl⟩
  next => exact ⟨like, rfl⟩
  next terminus walk known found =>
    have here : terminus.eid = away := by
      rw [← like.homes.1, Monitor.home, known] at own
      exact Option.some.inj own
    rw [here]
    split
    next => exact ⟨like, rfl⟩
    next request _ => exact concerns_walked.hidden like own request _ _

/-- Walks elsewhere ask for the same. -/
theorem matches_askStep (tid : Tid) :
    Step.Matches away (Elsewhere home away) (askStep tid : Step (Monitor μ)) := by
  by_cases own : home tid = some away
  · exact (hides_askStep own).matches (fun _ _ => .symm) (fun _ _ _ => .trans)
  · intro m m' next next' like links
    have same := like.termini own
    simp only [askStep, same.terminus, same.walk]
    cases known : m'.termini.get? tid with
    | none => exact ⟨like.change .eraseWalk .eraseWalk like.requests same.eraseWalk, rfl⟩
    | some terminus =>
      have other : terminus.eid ≠ away := by
        rintro rfl
        exact own (by rw [← like.homes.2, Monitor.home, known]; rfl)
      cases m'.walks.get? tid with
      | none => exact ⟨like, rfl⟩
      | some walk =>
        dsimp only
        cases FetchRecord.request walk.next with
        | error => exact ⟨like, rfl⟩
        | ok request =>
          dsimp only
          rw [links _ other]
          obtain ⟨state, tries⟩ := concerns_walked.alike like own other request
            (.record tid walk.next) (next' terminus.eid)
          exact ⟨state, congrArg (elsewhere away) tries⟩

/-! ### Ticks -/

variable {now : Nat} {e : Eid × NumericSensor}

theorem Touches.asked {key : SensorKey} :
    Touches key.tid m { m with poller := m.poller.asked key now } where
  home := rfl
  running := rfl
  nextTick := rfl
  interval := rfl
  others {tid} ne := by
    have other (sensor : SensorId) : (⟨tid, sensor⟩ : SensorKey) ≠ key :=
      fun same => ne (congrArg SensorKey.tid same)
    refine ⟨rfl, rfl, fun sensor => ?_, fun sensor => ?_⟩
    · simp only [Poller.asked, Table.get?_insert, if_neg (other sensor)]
    · simp only [Poller.asked, Table.get?_insert, if_neg (other sensor)]

theorem SameAt.asked {key : SensorKey} (same : SameAt tid m m') :
    SameAt tid { m with poller := m.poller.asked key now }
      { m' with poller := m'.poller.asked key now } where
  terminus := same.terminus
  walk := same.walk
  outstanding sensor := by simp only [Poller.asked, Table.get?_insert, same.outstanding]
  lastPoll sensor := by simp only [Poller.asked, Table.get?_insert, same.lastPoll]

/-- A request for a reading concerns the terminus of the sensor. -/
theorem concerns_looked {s : NumericSensor} :
    Concerns s.key.tid (looked (μ := μ) · now s) where
  requests m result := by
    cases result with
    | ok => rfl
    | error fault => cases fault <;> rfl
  touches m result := by
    cases result with
    | ok => exact .asked
    | error fault =>
      cases fault with
      | transport => exact .modifyTerminus fun _ => rfl
      | _ => exact .refl m
  same result same := by
    cases result with
    | ok => exact same.asked
    | error fault =>
      cases fault with
      | transport => exact same.modifyTerminus _
      | _ => exact same

/-- What a tick asks for at an endpoint is not seen elsewhere. -/
theorem hides_lookStep (own : home e.2.key.tid = some away) (here : e.1 = away) :
    Step.Hides away (Elsewhere home away) (lookStep now e : Step (Monitor μ)) := by
  intro m next like
  rw [lookStep, here]
  split
  next =>
    split
    next => exact ⟨like, rfl⟩
    next request _ => exact concerns_looked.hidden like own request _ _
  next => exact ⟨like, rfl⟩

/-- Sensors elsewhere are asked for the same. -/
theorem matches_lookStep (own : home e.2.key.tid ≠ some away) (other : e.1 ≠ away) :
    Step.Matches away (Elsewhere home away) (lookStep now e : Step (Monitor μ)) := by
  intro m m' next next' like links
  have same := like.termini own
  have due : m.poller.isDue e.2 now = m'.poller.isDue e.2 now := by
    have outstanding := same.outstanding e.2.key.sensor
    have lastPoll := same.lastPoll e.2.key.sensor
    simp only [Poller.isDue, Table.contains]
    rw [outstanding, lastPoll]
  simp only [lookStep, due]
  split
  next =>
    cases ReadSensor.request e.2.key.sensor false with
    | error => exact ⟨like, rfl⟩
    | ok request =>
      dsimp only
      rw [links _ other]
      obtain ⟨state, tries⟩ := concerns_looked.alike like own other request
        (.reading e.2.key) (next' e.1)
      exact ⟨state, congrArg (elsewhere away) tries⟩
  next => exact ⟨like, rfl⟩

/-- The sensors to be polled elsewhere are those of the termini there. -/
theorem polled_elsewhere (m : Monitor μ) (away : Eid) :
    m.polled.filter (·.1 ≠ away) =
      (m.termini.filter fun _ t => t.eid ≠ away).values.flatMap fun t =>
        if t.reachable then t.sensors.values.map fun s => (t.eid, s) else [] := by
  simp only [Watch.polled, Table.values, Table.filter]
  induction m.termini.entries with
  | nil => rfl
  | cons entry rest ih =>
    simp only [List.map_cons, List.flatMap_cons, List.filter_append, ih]
    by_cases here : entry.2.eid = away
    · rw [List.filter_cons_of_neg (by simpa using here)]
      split
      next => simp [List.filter_map, here]
      next => rfl
    · rw [List.filter_cons_of_pos (by simpa using here), List.map_cons, List.flatMap_cons]
      congr 1
      split
      next => simp [List.filter_map, Function.comp_def, here]
      next => rfl

/-- The same termini are elsewhere. -/
theorem Elsewhere.termini_filter (like : Elsewhere home away m m') :
    (m.termini.filter fun _ t => t.eid ≠ away) = m'.termini.filter fun _ t => t.eid ≠ away := by
  have there {m : Monitor μ} {tid : Tid} {t : Terminus} (homes : m.home = home)
      (known : m.termini.get? tid = some t) (other : t.eid ≠ away) : home tid ≠ some away := by
    rw [← homes, Monitor.home, known]
    exact fun same => other (Option.some.inj same)
  refine Table.ext_get? fun tid => Option.ext fun t => ?_
  simp only [Table.get?_filter_eq_some_iff, decide_eq_true_eq]
  refine and_congr_left ?_
  intro other
  constructor
  · intro known
    rwa [← (like.termini (there like.homes.1 known other)).terminus]
  · intro known
    rwa [(like.termini (there like.homes.2 known other)).terminus]

/-- So the same sensors are to be polled there. -/
theorem Elsewhere.polled (like : Elsewhere home away m m') :
    m.polled.filter (·.1 ≠ away) = m'.polled.filter (·.1 ≠ away) := by
  rw [polled_elsewhere, polled_elsewhere, like.termini_filter]

theorem Elsewhere.ticking (like : Elsewhere home away m m') :
    Elsewhere home away (m.ticking now) (m'.ticking now) where
  requests := like.requests
  homes := like.homes
  running := like.running
  nextTick := by simp only [Monitor.ticking, like.interval]
  interval := like.interval
  termini apart :=
    have same := like.termini apart
    ⟨same.terminus, same.walk, same.outstanding, same.lastPoll⟩

/-- The sensors elsewhere alone make up a tick there. -/
theorem Keyed.like_polled (keyed : m.Keyed) (now : Nat) (homes : m.home = home)
    {tries : List Try} {y : Trail (Monitor μ)} (links : link.Elsewhere away link')
    (like : Trail.Like away (Elsewhere home away) ⟨m, tries⟩ y) :
    Trail.Like away (Elsewhere home away)
      (Trail.run link (m.polled.map (lookStep now)) ⟨m, tries⟩)
      (Trail.run link' ((m.polled.filter (·.1 ≠ away)).map (lookStep now)) y) := by
  have own {e : Eid × NumericSensor} (mem : e ∈ m.polled) : home e.2.key.tid = some e.1 := by
    obtain ⟨terminus, known, -, eid, -⟩ := keyed.lists mem
    rw [← homes, Monitor.home, known, ← eid]
    rfl
  refine like.run_filter (fun _ _ => .symm) (fun _ _ _ => .trans) links ?_ ?_
  · intro e mem other
    have other : e.1 ≠ away := of_decide_eq_true other
    refine matches_lookStep ?_ other
    rw [own mem]
    exact fun same => other (Option.some.inj same)
  · intro e mem here
    have here : e.1 = away := of_not_not (of_decide_eq_false here)
    exact hides_lookStep (here ▸ own mem) here

/-- A tick does the same elsewhere. -/
theorem like_ticked {x y : Trail (Monitor μ)} (links : link.Elsewhere away link')
    (keyed : x.state.Keyed) (keyed' : y.state.Keyed)
    (like : x.Like away (Elsewhere home away) y) :
    (ticked link now x).Like away (Elsewhere home away) (ticked link' now y) := by
  unfold ticked
  rw [like.state.running, like.state.nextTick]
  split
  next =>
    have begun : Elsewhere home away (x.state.ticking now) (y.state.ticking now) :=
      like.state.ticking
    have begunKeyed : (x.state.ticking now).Keyed := ⟨keyed.termini, keyed.walks⟩
    have begunKeyed' : (y.state.ticking now).Keyed := ⟨keyed'.termini, keyed'.walks⟩
    have polls := begunKeyed.like_polled now begun.homes.1 links
      (⟨begun, like.tries⟩ : Trail.Like away _ ⟨_, x.tries⟩ ⟨_, y.tries⟩)
    have polls' := begunKeyed'.like_polled now begun.homes.2 (.refl away link')
      (⟨begun.symm.trans begun, rfl⟩ : Trail.Like away _ ⟨_, y.tries⟩ ⟨_, y.tries⟩)
    rw [begun.polled] at polls
    exact polls.glue (fun _ _ => .symm) (fun _ _ _ => .trans) polls'
  next => exact like

/-! ### Updates -/

theorem expired_eq (m : Monitor μ) (now : Nat) (links : link.Elsewhere away link') :
    (m.expired link now).state = (m.expired link' now).state ∧
      elsewhere away (m.expired link now).tries = elsewhere away (m.expired link' now).tries := by
  have like : (m.elapse link now).Like away Eq (m.elapse link' now) := by
    refine Trail.Like.run links ⟨rfl, rfl⟩ ?_
    intro step mem
    obtain ⟨key, -, rfl⟩ := List.mem_map.mp mem
    exact Correlator.matches_expireStep key
  exact ⟨by rw [expired, expired, like.state], like.tries⟩

theorem home_expired (m : Monitor μ) (link : Link) (now : Nat) :
    (m.expired link now).state.home = m.home := by
  have home (completions : List (Completion Purpose)) (m : Monitor μ) :
      (completions.foldl settled m).home = m.home := by
    induction completions generalizing m with
    | nil => rfl
    | cons completion rest ih => exact (ih _).trans (funext fun _ => home_settled)
  exact home _ _

theorem Keyed.expired (keyed : m.Keyed) : (m.expired link now).state.Keyed := by
  have settles (completions : List (Completion Purpose)) {m : Monitor μ} (keyed : m.Keyed) :
      (completions.foldl Monitor.settled m).Keyed := by
    induction completions generalizing m with
    | nil => exact keyed
    | cons completion rest ih => exact ih keyed.settled
  exact settles _ ⟨keyed.termini, keyed.walks⟩

theorem Keyed.walked (keyed : m.Keyed) (result : Except Fault InstanceId) :
    (m.walked tid result).Keyed := by
  unfold Monitor.walked
  split
  next => exact keyed.modifyWalk keyed.walks
  next => exact keyed
  next => exact keyed
  next => exact keyed.finished

theorem Keyed.askStep (keyed : m.Keyed) : (askStep tid m next).state.Keyed := by
  unfold Monitor.askStep
  split
  next => exact keyed.eraseWalk
  next => exact keyed
  next =>
    split
    next => exact keyed
    next =>
      have requested (c : Correlator Purpose) : (m.withRequests c).Keyed :=
        ⟨keyed.termini, keyed.walks⟩
      exact (requested _).walked _

theorem Keyed.advanced {x : Trail (Monitor μ)} (keyed : x.state.Keyed) :
    (Monitor.advanced link x).state.Keyed := by
  rw [Monitor.advanced]
  induction x.state.waitingWalks generalizing x with
  | nil => exact keyed
  | cons tid rest ih => exact ih keyed.askStep

/-- An update does the same elsewhere. -/
theorem Keyed.like_updated (keyed : m.Keyed) (links : link.Elsewhere away link') :
    (m.updated link now).Like away (Elsewhere m.home away) (m.updated link' now) := by
  obtain ⟨state, tries⟩ := expired_eq m now links
  have alike : Elsewhere m.home away (m.expired link now).state (m.expired link' now).state := by
    rw [← state, ← home_expired m link now]
    exact .refl _
  have advances : (Monitor.advanced link (m.expired link now)).Like away (Elsewhere m.home away)
      (Monitor.advanced link' (m.expired link' now)) := by
    rw [Monitor.advanced, Monitor.advanced, state]
    refine Trail.Like.run links ⟨alike, tries⟩ ?_
    intro step mem
    obtain ⟨tid, -, rfl⟩ := List.mem_map.mp mem
    exact matches_askStep tid
  exact like_ticked links keyed.expired.advanced keyed.expired.advanced advances

/-- Time that would go back changes nothing. -/
theorem ends_update_back (back : now < m.clock) :
    Act.Ends (update now) m link [] fun _ m' journal' =>
      (⟨m', journal'.tries⟩ : Trail (Monitor μ)) = ⟨m, []⟩ := by
  simp [update, onRequests, onWatch, Watch.onRequests, Correlator.update, back, Journal.tries]

/-- The trail of an update. -/
def updating (m : Monitor μ) (link : Link) (now : Nat) : Trail (Monitor μ) :=
  ⟨(update now).state m link [], ((update now).journal m link []).tries⟩

theorem Keyed.like_updating {others : RequestKey → Prop} (keyed : m.Keyed)
    (accounts : m.Accounts others) (links : link.Elsewhere away link') :
    (m.updating link now).Like away (Elsewhere m.home away) (m.updating link' now) := by
  by_cases forward : m.clock ≤ now
  · have eq (link : Link) : m.updating link now = m.updated link now := by
      have ends := (@ends_update_updated _ link m now forward).and
        (ends_update_forward accounts forward)
      obtain ⟨updated, ⟨delay, fine⟩, -⟩ := Act.ends_iff.mp ends
      exact updated delay fine
    rw [eq, eq]
    exact keyed.like_updated links
  · have eq (link : Link) : m.updating link now = ⟨m, []⟩ :=
      Act.ends_iff.mp (ends_update_back (Nat.not_le.mp forward))
    rw [eq, eq]
    exact ⟨.refl m, rfl⟩

end Monitor

/-- What comes of the attempts to send to one endpoint does not matter elsewhere. In every state
of a monitor that alone uses its pools, updates over links that are alike but for one endpoint
make the same attempts to send to the others, in the same order, and leave the same requests
pending and the same IDs in use there, and the same termini, walks and course of polling. -/
theorem endpoint_isolated [UpdateManager μ] (policy : RetryPolicy) (interval start : Nat)
    {turns : List (Turn μ)} (unshared : ∀ t ∈ turns, t.operation.Unshared) (now : Nat)
    {away : Eid} {link link' : Link} (links : ∀ eid, eid ≠ away → link eid = link' eid) :
    let m := Turn.run turns (Monitor.start policy interval start)
    let update : Act (Monitor μ) Nat := Monitor.update now
    let after := update.state m link []
    let after' := update.state m link' []
    (update.journal m link []).tries.filter (·.eid ≠ away) =
        (update.journal m link' []).tries.filter (·.eid ≠ away) ∧
      (∀ key : RequestKey, key.eid ≠ away → after.pending.get? key = after'.pending.get? key) ∧
      (∀ eid iid, eid ≠ away → after.ids.holds eid iid = after'.ids.holds eid iid) ∧
      ∀ tid, m.home tid ≠ some away →
        after.termini.get? tid = after'.termini.get? tid ∧
          after.walks.get? tid = after'.walks.get? tid ∧
          ∀ sensor,
            after.poller.outstanding.get? ⟨tid, sensor⟩ =
                after'.poller.outstanding.get? ⟨tid, sensor⟩ ∧
              after.poller.lastPoll.get? ⟨tid, sensor⟩ =
                after'.poller.lastPoll.get? ⟨tid, sensor⟩ := by
  intro m update after after'
  have keyed : m.Keyed := Turn.keyed_run (Monitor.keyed_startWith ..) turns
  have accounts : m.Accounts fun _ => False :=
    Turn.accounts_run unshared (Monitor.accounts_start ..)
  have like : (m.updating link now).Like away (Monitor.Elsewhere m.home away)
      (m.updating link' now) := keyed.like_updating accounts links
  refine ⟨like.tries, fun _ => like.state.requests.pending, ?_, ?_⟩
  · intro eid iid other
    exact congrArg (·.holds iid) (like.state.requests.mask other)
  · intro tid apart
    have same := like.state.termini apart
    exact ⟨same.terminus, same.walk, fun sensor => ⟨same.outstanding sensor, same.lastPoll sensor⟩⟩

/-- Two termini have a sensor each, and a record of a third one is awaited. -/
def threeEndpoints : List (Turn Scripted) :=
  [{ operation := .add 1 8 "Rack" },
    { operation := .discover 1 },
    { operation := .message 8 (FetchRecord.answering 0 0 (.temperature 1)) },
    { operation := .add 2 9 "Shelf" },
    { operation := .discover 2 },
    { operation := .message 9 (FetchRecord.answering 0 0 (.temperature 1)) },
    { operation := .add 3 10 "Bay" },
    { operation := .discover 3 },
    { operation := .startPolling }]

/-- One endpoint cannot be sent to. -/
def cutOff (away : Eid) : Link :=
  fun eid _ => if eid = away then some (.named "TxFailure") else none

/-- The sensor at the endpoint that is cut off has failed and is not awaited; the others are asked
for what they have. -/
theorem endpoint_isolated_cutOff :
    let m := Turn.run threeEndpoints (Monitor.start {} 250 0)
    let update : Act (Monitor Scripted) Nat := Monitor.update 5000
    let after := update.state m (cutOff 8) []
    let after' := update.state m .reliable []
    (∀ t ∈ threeEndpoints, t.operation.Unshared) ∧
      (∀ eid, eid ≠ 8 → cutOff 8 eid = Link.reliable eid) ∧
      (update.journal m (cutOff 8) []).tries.map (·.eid) = [10, 8, 9] ∧
      after.poller.outstanding.keys = [⟨2, 1⟩] ∧
      after'.poller.outstanding.keys = [⟨1, 1⟩, ⟨2, 1⟩] ∧
      (update.journal m (cutOff 8) []).tries.filter (·.eid ≠ 8) =
        (update.journal m .reliable []).tries.filter (·.eid ≠ 8) ∧
      (∀ key : RequestKey, key.eid ≠ 8 → after.pending.get? key = after'.pending.get? key) ∧
      (∀ eid iid, eid ≠ 8 → after.ids.holds eid iid = after'.ids.holds eid iid) ∧
      m.home 2 = some 9 ∧ after.termini.get? 2 = after'.termini.get? 2 ∧
      m.home 3 = some 10 ∧ after.walks.get? 3 = after'.walks.get? 3 := by
  have unshared : ∀ t ∈ threeEndpoints, t.operation.Unshared := by
    simp [threeEndpoints, Operation.Unshared]
  have links : ∀ eid, eid ≠ 8 → cutOff 8 eid = Link.reliable eid := by
    intro eid other
    funext count
    exact if_neg other
  obtain ⟨tries, pending, ids, termini⟩ := endpoint_isolated {} 250 0 unshared 5000 links
  have shelf : (Turn.run threeEndpoints (Monitor.start {} 250 0)).home 2 = some 9 := by
    decide +kernel
  have bay : (Turn.run threeEndpoints (Monitor.start {} 250 0)).home 3 = some 10 := by
    decide +kernel
  refine ⟨unshared, links, ?_, ?_, ?_, tries, pending, ids, shelf, ?_, bay, ?_⟩
  · decide +kernel
  · decide +kernel
  · decide +kernel
  · exact (termini 2 (by rw [shelf]; decide)).1
  · exact (termini 3 (by rw [bay]; decide)).2.1

end TerminusMonitor
