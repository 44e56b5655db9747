import TerminusMonitor.Proofs.Moments
import TerminusMonitor.Proofs.Placement
import TerminusMonitor.Proofs.RoundTrip
import TerminusMonitor.Proofs.Trail

/-!
The messages in which a turn makes its requests.

A deed tells that a record or a reading was asked for. What goes to the transport is a
message, and here each such deed has the attempt to send its message, in their order.

* `FetchRecord.asked?`, `ReadSensor.asked?`: what a message asks for, as its receiver reads it;
* `Deed.FetchedBy`, `Deed.PolledBy`: an attempt at the request that a deed tells of;
* `Turn.fetches_match`, `Turn.looks_match`: the attempts of a turn are those of its deeds;
* `Turn.fetched_match`: so are those that walks make in a run.
-/

namespace TerminusMonitor

variable {μ : Type} {m : Monitor μ} {link : Link} {journal : Journal}

/-! ### What a message asks for -/

/-- The body of a request with a platform command, if a message is one. -/
def Request.body? (α : Type) [Body α] (command : Command) (message : List UInt8) : Option α :=
  match Request.ofBytes message with
  | .ok request =>
    if request.type = platformType ∧ request.command = Coded.code command then
      (Body.ofBytes request.payload).toOption
    else none
  | .error _ => none

/-- The record that a message asks for, if it does. -/
def FetchRecord.asked? (message : List UInt8) : Option UInt32 :=
  (Request.body? Query .getPDR message).map (·.record)

/-- The sensor that a message asks for its reading, if it does. -/
def ReadSensor.asked? (message : List UInt8) : Option SensorId :=
  (Request.body? Query .getSensorReading message).map (·.sensor)

/-- What the attempts at an endpoint ask for: a sensor for its reading, or something else. -/
def Try.sensors (eid : Eid) (tries : List Try) : List (Option SensorId) :=
  (tries.filter (·.eid = eid)).map (ReadSensor.asked? ·.message)

theorem Try.sensors_cons {eid : Eid} {attempt : Try} {tries : List Try} :
    sensors eid (attempt :: tries) =
      if attempt.eid = eid then ReadSensor.asked? attempt.message :: sensors eid tries
      else sensors eid tries := by
  by_cases here : attempt.eid = eid <;> simp [sensors, here]

theorem Try.sensors_append {eid : Eid} {tries later : List Try} :
    sensors eid (tries ++ later) = sensors eid tries ++ sensors eid later := by
  rw [sensors, List.filter_append, List.map_append]
  rfl

/-- The body of a request is read back, whatever instance ID it was sent with. -/
theorem Request.body?_toBytes {α : Type} [Body α] {counted : α → Prop}
    (layout : Body.Exact counted) {command : Command} {body : α} (counts : counted body)
    {request : Request} (asks : ofBody command body = .ok request) {iid : UInt8}
    {message : List UInt8} (written : { request with instanceId := iid }.toBytes = .ok message) :
    body? α command message = some body := by
  obtain ⟨payload, put, rfl⟩ := of_ofBody asks
  obtain ⟨checked, rfl⟩ := Body.toBytes_eq_ok_iff.mp put
  have read : Body.ofBytes (Body.put body) = .ok body :=
    layout.ofBytes_eq_ok_iff.mpr ⟨checked, counts, rfl⟩
  simp [body?, ofBytes_toBytes written, ofPayload, read, Except.toOption]

theorem FetchRecord.asked?_toBytes {handle : UInt32} {request : Request} {iid : UInt8}
    {message : List UInt8} (asks : FetchRecord.request handle = .ok request)
    (written : { request with instanceId := iid }.toBytes = .ok message) :
    asked? message = some handle := by
  rw [asked?, Request.body?_toBytes exact_query trivial asks written]
  rfl

theorem ReadSensor.asked?_toBytes {sensor : SensorId} {rearm : Bool} {request : Request}
    {iid : UInt8} {message : List UInt8} (asks : ReadSensor.request sensor rearm = .ok request)
    (written : { request with instanceId := iid }.toBytes = .ok message) :
    asked? message = some sensor := by
  rw [asked?, Request.body?_toBytes exact_query trivial asks written]
  rfl

/-! ### Attempts at requests -/

namespace Deed

/-- An attempt at the request for a record that a deed tells of, at the endpoint that its
terminus has. -/
inductive FetchedBy (home : Tid → Eid → Prop) : Deed → Try → Prop where
  | asked {key : RequestKey} {tid : Tid} {handle : UInt32} {message : List UInt8}
      (known : home tid key.eid) (numbered : key.iid.isIn message = true)
      (asks : FetchRecord.asked? message = some handle) :
      FetchedBy home (.asked key tid handle) ⟨key.eid, message, none⟩
  | unsent {tid : Tid} {handle : UInt32} {fault : TransportFault} {eid : Eid}
      {message : List UInt8} (known : home tid eid)
      (asks : FetchRecord.asked? message = some handle) :
      FetchedBy home (.unsent tid handle fault) ⟨eid, message, some fault⟩

/-- The attempt at the request for a reading that a deed tells of. -/
inductive PolledBy : Deed → Try → Prop where
  | polled {key : RequestKey} {sensor : SensorKey} {message : List UInt8}
      (numbered : key.iid.isIn message = true)
      (asks : ReadSensor.asked? message = some sensor.sensor) :
      PolledBy (.polled key sensor) ⟨key.eid, message, none⟩

/-- Whether a deed tells of a request for a record. -/
def fetches : Deed → Bool
  | asked .. | unsent .. => true
  | _ => false

/-- Whether a deed tells of a request for a reading. -/
def polls : Deed → Bool
  | polled .. => true
  | _ => false

theorem FetchedBy.mono {home home' : Tid → Eid → Prop} {deed : Deed} {attempt : Try}
    (fetched : deed.FetchedBy home attempt) (same : ∀ {tid eid}, home tid eid → home' tid eid) :
    deed.FetchedBy home' attempt := by
  cases fetched with
  | asked known numbered asks => exact .asked (same known) numbered asks
  | unsent known asks => exact .unsent (same known) asks

end Deed

/-- A registration makes one attempt to send the request, which ends as the registration
does, or it fails without. -/
theorem Correlator.ends_register_tries {κ : Type} (c : Correlator κ) (link : Link)
    (journal : Journal) (eid : Eid) (request : Request) (cookie : κ) :
    Act.Ends (register eid request cookie) c link journal fun result _ journal' =>
      ∃ tries, journal'.tries = journal.tries ++ tries ∧
        (∀ t ∈ tries, t.fault? = link.next journal.tries eid) ∧
        match result with
        | .ok iid => ∃ message,
            { request with instanceId := iid.toByte }.toBytes = .ok message ∧
              tries = [⟨eid, message, none⟩]
        | .error (.transport fault) => ∃ (iid : InstanceId) (message : List UInt8),
            { request with instanceId := iid.toByte }.toBytes = .ok message ∧
              tries = [⟨eid, message, some fault⟩]
        | .error _ => tries = [] := by
  refine ends_register_registered.mono ?_
  rintro _ _ journal' ⟨rfl, _, tries⟩
  refine ⟨_, tries, ?_⟩
  generalize link.next journal.tries eid = fault?
  unfold registered
  split
  next => simp
  next iid free =>
    split
    next => simp
    next =>
      split
      next => simp
      next message written =>
        cases fault? with
        | none => exact ⟨List.forall_mem_singleton.mpr rfl, message, written, rfl⟩
        | some fault => exact ⟨List.forall_mem_singleton.mpr rfl, iid, message, written, rfl⟩

/-! ### Walks -/

namespace Monitor

/-- To ask for the next record of a walk is one attempt at most, at the terminus of the walk. -/
theorem ends_askNext_tries {tid : Tid} :
    Act.Ends (askNext tid) m link journal fun _ m' journal' =>
      m'.home = m.home ∧ ∃ tries, journal'.tries = journal.tries ++ tries ∧
        List.Forall₂ (Deed.FetchedBy fun tid eid => m.home tid = some eid)
          (m.asking link journal tid) tries := by
  simp only [askNext, Act.ends_bind, Act.ends_get, asking]
  cases known : m.termini.get? tid with
  | none => exact ⟨rfl, [], (List.append_nil _).symm, .nil⟩
  | some terminus =>
    have home : m.home tid = some terminus.eid := by rw [Monitor.home, known]; rfl
    simp only [Act.ends_bind, Act.ends_get]
    cases m.walks.get? tid with
    | none => exact ⟨rfl, [], (List.append_nil _).symm, .nil⟩
    | some walk =>
      obtain ⟨payload, asks⟩ := FetchRecord.request_eq walk.next
      simp only [asks, Act.ends_bind, Act.ofMessage, Act.ends_pure, Act.ends_outcome, onRequests,
        onWatch, Watch.onRequests, Act.ends_on]
      have registers := Act.ends_iff.mp (m.ends_register_tries link journal terminus.eid
        (.ofPayload platformType (Coded.code Command.getPDR) payload) (.record tid walk.next))
      rw [Act.ends_iff]
      generalize Act.result _ m.toCorrelator _ journal = result,
        Act.state _ m.toCorrelator _ journal = c, Act.journal _ m.toCorrelator _ journal = journal₁
        at registers ⊢
      obtain ⟨tries, grown, _, registers⟩ := registers
      have fails {fault : Fault} : Act.Ends (do
            Effect.log (.discoveryFailed tid fault)
            Act.ofTask (finishWalk tid)) (m.withRequests c) link journal₁ fun _ m' journal' =>
          m'.home = m.home ∧ journal'.tries = journal.tries ++ tries := by
        refine ends_failWalk.mono ?_
        intro _ m' journal' ended
        obtain ⟨rfl, kept⟩ := Trail.mk.inj ended
        exact ⟨funext fun _ => home_finished, kept.trans grown⟩
      cases result with
      | ok iid =>
        obtain ⟨message, written, rfl⟩ := registers
        have numbered : iid.isIn message = true := (Request.isIn_toBytes written).mpr rfl
        have reads := FetchRecord.asked?_toBytes asks written
        exact ⟨rfl, _, grown, .cons (.asked home numbered reads) .nil⟩
      | error fault =>
        cases fault with
        | transport fault =>
          obtain ⟨iid, message, written, rfl⟩ := registers
          have fetched : Deed.FetchedBy (fun tid eid => m.home tid = some eid)
              (.unsent tid walk.next fault) ⟨terminus.eid, message, some fault⟩ :=
            .unsent home (FetchRecord.asked?_toBytes asks written)
          exact fails.mono fun _ _ _ ended => ⟨ended.1, _, ended.2, .cons fetched .nil⟩
        | exhausted =>
          simp only [Act.ends_lift, Effect.ends_log, Journal.tries_logged]
          exact ⟨rfl, tries, grown, registers ▸ .nil⟩
        | state fault => exact ⟨rfl, tries, grown, registers ▸ .nil⟩
        | _ => exact fails.mono fun _ _ _ ended => ⟨ended.1, tries, ended.2, registers ▸ .nil⟩

theorem ends_askEach_tries {tids : List Tid} :
    Act.Ends (askEach tids) m link journal fun _ _ journal' =>
      ∃ tries, journal'.tries = journal.tries ++ tries ∧
        List.Forall₂ (Deed.FetchedBy fun tid eid => m.home tid = some eid)
          (m.asks link journal tids) tries := by
  induction tids generalizing m journal with
  | nil => exact ⟨[], (List.append_nil _).symm, .nil⟩
  | cons tid rest ih =>
    have first := Act.ends_iff.mp (@ends_askNext_tries μ m link journal tid)
    rw [askEach, Act.ends_bind, Act.ends_iff, asks]
    generalize Act.result _ m link journal = result, Act.state _ m link journal = m₁,
      Act.journal _ m link journal = journal₁ at first ⊢
    obtain ⟨home, tries, grown, fetched⟩ := first
    cases result with
    | error fault => exact ⟨tries, grown, by simpa using fetched⟩
    | ok =>
      refine ih.mono ?_
      rintro _ _ journal₂ ⟨later, grown', fetched'⟩
      rw [home] at fetched'
      refine ⟨tries ++ later, ?_, List.rel_append fetched fetched'⟩
      rw [grown', grown, List.append_assoc]

end Monitor

/-! ### Ticks -/

namespace Watch

variable {w : Watch Purpose} {now : Nat}

/-- A look at a sensor is one attempt at most. -/
theorem ends_pollSensor_tries {eid : Eid} {s : NumericSensor} :
    Act.Ends (pollSensor .reading now eid s) w link journal fun _ _ journal' =>
      ∃ tries, journal'.tries = journal.tries ++ tries ∧
        (link = Link.reliable → ∀ t ∈ tries, t.fault? = none) ∧
        List.Forall₂ Deed.PolledBy (w.polling link journal now eid s) (Try.sent tries) := by
  simp only [pollSensor, Act.ends_bind, Act.ends_get, polling]
  split
  next =>
    obtain ⟨payload, asks⟩ := ReadSensor.request_eq s.key.sensor false
    simp only [asks, Act.ends_bind, Act.ends_outcome, onRequests, Act.ends_on]
    have registers := Act.ends_iff.mp (w.ends_register_tries link journal eid
      (.ofPayload platformType (Coded.code Command.getSensorReading) payload) (.reading s.key))
    rw [Act.ends_iff]
    generalize Act.result _ w.toCorrelator _ journal = result,
      Act.state _ w.toCorrelator _ journal = c, Act.journal _ w.toCorrelator _ journal = journal₁
      at registers ⊢
    obtain ⟨tries, grown, faults, registers⟩ := registers
    have sends : link = Link.reliable → ∀ t ∈ tries, t.fault? = none := by
      rintro rfl
      exact faults
    cases result with
    | ok iid =>
      obtain ⟨message, written, rfl⟩ := registers
      have numbered : iid.isIn message = true := (Request.isIn_toBytes written).mpr rfl
      have reads := ReadSensor.asked?_toBytes asks written
      exact ⟨_, grown, sends, .cons (.polled numbered reads) .nil⟩
    | error fault =>
      cases fault with
      | transport fault =>
        obtain ⟨iid, message, written, rfl⟩ := registers
        simp only [Act.ends_bind, Act.ends_lift, Act.ends_modify, Effect.ends_log,
          NumericSensor.publish, Effect.publish, Effect.ends_record, Journal.tries_published,
          Journal.tries_logged]
        exact ⟨_, grown, sends, .nil⟩
      | state fault => exact ⟨tries, grown, sends, registers ▸ .nil⟩
      | _ =>
        simp only [Act.ends_lift, Effect.ends_log, Journal.tries_logged]
        exact ⟨tries, grown, sends, registers ▸ .nil⟩
  next => exact ⟨[], (List.append_nil _).symm, fun _ => List.forall_mem_nil _, .nil⟩

theorem ends_pollSensors_tries {sensors : List (Eid × NumericSensor)} :
    Act.Ends (pollSensors .reading now sensors) w link journal fun _ _ journal' =>
      ∃ tries, journal'.tries = journal.tries ++ tries ∧
        (link = Link.reliable → ∀ t ∈ tries, t.fault? = none) ∧
        List.Forall₂ Deed.PolledBy (w.polls link journal now sensors) (Try.sent tries) := by
  induction sensors generalizing w journal with
  | nil => exact ⟨[], (List.append_nil _).symm, fun _ => List.forall_mem_nil _, .nil⟩
  | cons e rest ih =>
    have first := Act.ends_iff.mp (@ends_pollSensor_tries link journal w now e.1 e.2)
    rw [pollSensors, Act.ends_bind, Act.ends_iff, polls]
    generalize Act.result _ w link journal = result, Act.state _ w link journal = w₁,
      Act.journal _ w link journal = journal₁ at first ⊢
    obtain ⟨tries, grown, sends, polled⟩ := first
    cases result with
    | error fault => exact ⟨tries, grown, sends, by simpa using polled⟩
    | ok =>
      refine ih.mono ?_
      rintro _ _ journal₂ ⟨later, grown', sends', polled'⟩
      refine ⟨tries ++ later, ?_, ?_, ?_⟩
      · rw [grown', grown, List.append_assoc]
      · exact fun all => List.forall_mem_append.mpr ⟨sends all, sends' all⟩
      · rw [Try.sent_append]
        exact List.rel_append polled polled'

theorem ends_poll_tries :
    Act.Ends (poll .reading now) w link journal fun _ _ journal' =>
      ∃ tries, journal'.tries = journal.tries ++ tries ∧
        (link = Link.reliable → ∀ t ∈ tries, t.fault? = none) ∧
        List.Forall₂ Deed.PolledBy (w.ticking link journal now) (Try.sent tries) := by
  simp only [poll, Act.ends_bind, Act.ends_get, ticking]
  split
  next =>
    simp only [Act.ends_bind, Act.ends_modify, Act.ends_get]
    refine ends_pollSensors_tries.mono ?_
    intro result _ _ polled
    cases result <;> exact polled
  next => exact ⟨[], (List.append_nil _).symm, fun _ => List.forall_mem_nil _, .nil⟩

end Watch

/-! ### Turns -/

theorem Deed.fetches_of_mem_asks {tids : List Tid} {deed : Deed}
    (mem : deed ∈ m.asks link journal tids) : deed.fetches = true := by
  rcases Monitor.mem_asks mem with ⟨_, _, _, rfl⟩ | ⟨_, _, _, rfl⟩ <;> rfl

namespace Monitor

/-- What an operation opens with leaves termini where they are. -/
theorem home_opening (m : Monitor μ) (link : Link) (journal : Journal)
    (operation : Operation μ) :
    Act.Ends operation.opening m link journal fun _ m' _ => m'.home = m.home := by
  have settles {completions : List (Completion Purpose)} {m' : Monitor μ}
      (moves : Moves ⟨m, []⟩ (completions.map .settled) ⟨m', []⟩) : m'.home = m.home := by
    funext tid
    refine (moves.home tid).trans (Deed.rehome_quiet ?_ _)
    exact List.forall_mem_map.mpr fun _ _ => rfl
  have takesIn (eid : Eid) (bytes : List UInt8) (journal : Journal) :
      Act.Ends (takeIn eid bytes) m link journal fun _ m' _ => m'.home = m.home := by
    refine ends_takeIn.mono ?_
    rintro _ m' _ (⟨_, rfl⟩ | ⟨completion, _, moves⟩)
    · rfl
    · exact @settles [completion] m' moves
  cases operation with
  | update now =>
    refine (ends_opening_update m link journal now).mono ?_
    intro result m' _ opens
    split at opens
    next => exact settles opens
    next => rw [opens]
  | message eid bytes =>
    rw [Operation.opening]
    cases Header.ofBytes bytes with
    | error fault =>
      simp only [Act.ends_bind, Act.ends_lift, Effect.ends_remark]
      exact takesIn eid bytes _
    | ok header =>
      dsimp only
      split
      next => rfl
      next => exact takesIn eid bytes journal
  | response eid bytes => exact takesIn eid bytes journal
  | discover tid =>
    simp only [Operation.opening, Act.ends_bind, Act.ends_get]
    split <;> rfl
  | _ => rfl

/-- Walks that go on make the attempts of their requests, after those of the opening. -/
theorem ends_goOn_tries {opening : Act (Monitor μ) (Option (List (Completion Purpose)))}
    (home : (opening.state m link journal).home = m.home) :
    Act.Ends (goOn opening) m link journal fun _ _ journal' =>
      ∃ tries, journal'.tries = (opening.journal m link journal).tries ++ tries ∧
        List.Forall₂ (Deed.FetchedBy fun tid eid => m.home tid = some eid)
          ((m.driven link journal opening).filter Deed.fetches) tries := by
  rw [goOn, Act.ends_bind, Act.ends_iff, driven]
  generalize opening.result m link journal = result, opening.state m link journal = m₁,
    opening.journal m link journal = journal₁ at home ⊢
  cases result with
  | error => exact ⟨[], (List.append_nil _).symm, .nil⟩
  | ok completions? =>
    cases completions? with
    | none => exact ⟨[], (List.append_nil _).symm, .nil⟩
    | some completions =>
      simp only [advance, Act.ends_bind, Act.ends_get]
      refine ends_askEach_tries.mono ?_
      rintro _ _ _ ⟨tries, grown, fetched⟩
      have settled : (completions.map Deed.settled).filter Deed.fetches = [] := by
        simp [Deed.fetches]
      have asks : (m₁.asks link journal₁ m₁.waitingWalks).filter Deed.fetches =
          m₁.asks link journal₁ m₁.waitingWalks :=
        List.filter_eq_self.mpr fun _ => Deed.fetches_of_mem_asks
      rw [home] at fetched
      refine ⟨tries, grown, ?_⟩
      rwa [List.filter_append, settled, asks, List.nil_append]

/-- A message is a request, for which no walks go on, or a response, and then that is all. -/
theorem onMessage_eq [UpdateManager μ] (eid : Eid) (bytes : List UInt8) :
    (Operation.opening (.message eid bytes) : Act (Monitor μ) _) = pure none ∨
      (onMessage eid bytes : Act (Monitor μ) Unit) =
        goOn (Operation.opening (.message eid bytes)) := by
  simp only [Operation.opening, onMessage]
  cases Header.ofBytes bytes with
  | error fault =>
    refine .inr ?_
    simp only [onResponse_eq, goOn, bind_assoc]
  | ok header =>
    cases request : header.request with
    | true => exact .inl (by simp only [request, if_true])
    | false =>
      refine .inr ?_
      simp only [request, Bool.false_eq_true, if_false, onResponse_eq]

/-- A walk that is not started lets none go on, and one that is does nothing else. -/
theorem journal_discover (m : Monitor μ) (link : Link) (tid : Tid) :
    let begins := (goOn (Operation.opening (.discover tid))).journal m link []
    begins = [] ∨ (discover tid).journal m link [] = begins := by
  intro begins
  cases idle : m.termini.contains tid && !m.isDiscovering tid with
  | false =>
    have opens : Act.Ends (goOn (Operation.opening (.discover tid))) m link []
        fun _ _ journal' => journal' = [] := by
      simp only [goOn, Operation.opening, Act.ends_bind, Act.ends_get, idle, Bool.false_eq_true,
        if_false, Act.ends_pure]
    exact .inl (Act.ends_iff.mp opens)
  | true =>
    simp only [Bool.and_eq_true, Bool.not_eq_true'] at idle
    have opens : Act.Ends (goOn (Operation.opening (.discover tid))) m link []
        fun _ _ journal' => journal' = begins := rfl
    have same : Act.Ends (discover tid) m link [] fun _ _ journal' => journal' = begins := by
      simpa only [discover, goOn, Operation.opening, Act.ends_bind, Act.ends_get, idle,
        Bool.not_true, Bool.not_false, Bool.and_true, Bool.false_eq_true, if_true, if_false,
        Act.ends_pure] using opens
    exact .inr (Act.ends_iff.mp same)

/-- Its tick makes the last attempts of an update. -/
theorem ends_update_tries [UpdateManager μ] {now : Nat} :
    Act.Ends (Operation.act (.update now)) m link journal fun _ _ journal' =>
      ∃ tries,
        journal'.tries =
          ((goOn (Operation.opening (.update now))).journal m link journal).tries ++ tries ∧
        (link = Link.reliable → ∀ t ∈ tries, t.fault? = none) ∧
        List.Forall₂ Deed.PolledBy (Operation.ticked m link journal (.update now))
          (Try.sent tries) := by
  rw [Operation.act, Act.ends_discard, update_eq, Act.ends_bind, Act.ends_iff]
  simp only [Operation.ticked]
  generalize Act.result _ m link journal = result, Act.state _ m link journal = m₁,
    Act.journal _ m link journal = journal₁
  cases result with
  | error => exact ⟨[], (List.append_nil _).symm, fun _ => List.forall_mem_nil _, .nil⟩
  | ok =>
    simp only [Act.ends_bind, onWatch, Act.ends_on]
    refine Watch.ends_poll_tries.mono ?_
    intro result _ _ polled
    cases result <;> exact polled

end Monitor

namespace Turn

/-- The journal of a turn up to where walks go on. -/
def opened (t : Turn μ) (m : Monitor μ) : Journal := t.operation.opening.journal m t.link []

/-- The journal of a turn up to where walks have gone on. -/
def wentOn (t : Turn μ) (m : Monitor μ) : Journal :=
  (Monitor.goOn t.operation.opening).journal m t.link []

/-- The attempts that a turn makes when walks go on. -/
def fetches (t : Turn μ) (m : Monitor μ) : List Try :=
  (t.wentOn m).tries.drop (t.opened m).tries.length

theorem wentOn_tries (t : Turn μ) (m : Monitor μ) :
    (t.wentOn m).tries = (t.opened m).tries ++ t.fetches m ∧
      List.Forall₂ (Deed.FetchedBy fun tid eid => m.home tid = some eid)
        ((m.driven t.link [] t.operation.opening).filter Deed.fetches) (t.fetches m) := by
  obtain ⟨tries, grown, fetched⟩ := Act.ends_iff.mp
    (Monitor.ends_goOn_tries (Act.ends_iff.mp (m.home_opening t.link [] t.operation)))
  have fetches : t.fetches m = tries := (congrArg (List.drop _) grown).trans List.drop_left
  rw [fetches]
  exact ⟨grown, fetched⟩

/-- The deeds of a turn that tell of requests for records have their attempts where walks go
on. -/
theorem fetches_match (t : Turn μ) (m : Monitor μ) :
    List.Forall₂ (Deed.FetchedBy fun tid eid => m.home tid = some eid)
      ((t.deeds m).filter Deed.fetches) (t.fetches m) := by
  have arranged : (t.operation.arranged m).filter Deed.fetches = [] := by
    refine List.filter_eq_nil_iff.mpr ?_
    intro deed mem
    have arranges := Operation.arranges_of_mem_arranged mem
    cases deed <;> first | exact Bool.false_ne_true | cases arranges
  have ticked : (t.operation.ticked m t.link []).filter Deed.fetches = [] := by
    refine List.filter_eq_nil_iff.mpr ?_
    intro deed mem
    obtain ⟨key, sensor, rfl⟩ := Operation.polled_of_mem_ticked mem
    exact Bool.false_ne_true
  rw [deeds, Operation.deeds, List.filter_append, List.filter_append, arranged, ticked,
    List.nil_append, List.append_nil]
  exact (t.wentOn_tries m).2

variable [UpdateManager μ]

/-- The attempts that a turn makes at its tick. -/
def looks (t : Turn μ) (m : Monitor μ) : List Try :=
  match t.operation with
  | .update _ => (t.journal m).tries.drop (t.wentOn m).tries.length
  | _ => []

theorem update_tries (m : Monitor μ) (now : Nat) (link : Link) :
    let t : Turn μ := { operation := .update now, link }
    (t.journal m).tries = (t.wentOn m).tries ++ t.looks m ∧
      (link = Link.reliable → ∀ attempt ∈ t.looks m, attempt.fault? = none) ∧
      List.Forall₂ Deed.PolledBy (t.operation.ticked m link []) (Try.sent (t.looks m)) := by
  intro t
  obtain ⟨tries, grown, sends, polled⟩ :
      ∃ tries, (t.journal m).tries = (t.wentOn m).tries ++ tries ∧
        (link = Link.reliable → ∀ attempt ∈ tries, attempt.fault? = none) ∧
        List.Forall₂ Deed.PolledBy (t.operation.ticked m link []) (Try.sent tries) :=
    Act.ends_iff.mp Monitor.ends_update_tries
  have looks : t.looks m = tries := (congrArg (List.drop _) grown).trans List.drop_left
  rw [looks]
  exact ⟨grown, sends, polled⟩

/-- Walks go on in the first part of a turn. -/
theorem journal_tries (t : Turn μ) (m : Monitor μ) :
    ∃ rest, (t.journal m).tries = (t.wentOn m).tries ++ rest := by
  obtain ⟨operation, link⟩ := t
  have whole (same : Turn.journal { operation, link } m = Turn.wentOn { operation, link } m) :
      ∃ rest, (Turn.journal { operation, link } m).tries =
        (Turn.wentOn { operation, link } m).tries ++ rest :=
    ⟨[], by rw [same, List.append_nil]⟩
  have still (none : Turn.wentOn { operation, link } m = []) :
      ∃ rest, (Turn.journal { operation, link } m).tries =
        (Turn.wentOn { operation, link } m).tries ++ rest :=
    ⟨_, by rw [none]; exact (List.nil_append _).symm⟩
  cases operation with
  | update now => exact ⟨_, (update_tries m now link).1⟩
  | response eid bytes =>
    exact whole (congrArg (Act.journal · m link []) (Monitor.onResponse_eq eid bytes))
  | message eid bytes =>
    rcases @Monitor.onMessage_eq μ _ eid bytes with request | response
    · exact still (by rw [wentOn, request]; rfl)
    · exact whole (congrArg (Act.journal · m link []) response)
  | discover tid => exact (Monitor.journal_discover m link tid).elim still whole
  | _ => exact still rfl

/-- The attempts of walks are among those of the turn. -/
theorem fetches_sublist (t : Turn μ) (m : Monitor μ) :
    (t.fetches m).Sublist (t.journal m).tries := by
  obtain ⟨rest, grown⟩ := t.journal_tries m
  rw [grown, (t.wentOn_tries m).1]
  exact (List.sublist_append_right ..).trans (List.sublist_append_left ..)

/-- The deeds that tell of requests for readings, which are all sent, have theirs at the tick. -/
theorem looks_match (t : Turn μ) (m : Monitor μ) :
    List.Forall₂ Deed.PolledBy ((t.deeds m).filter Deed.polls) (Try.sent (t.looks m)) := by
  have early {deeds : List Deed} (none : ∀ key sensor, .polled key sensor ∉ deeds) :
      deeds.filter Deed.polls = [] := by
    refine List.filter_eq_nil_iff.mpr ?_
    intro deed mem
    cases deed with
    | polled key sensor => exact (none key sensor mem).elim
    | _ => exact Bool.false_ne_true
  have arranged : (t.operation.arranged m).filter Deed.polls = [] :=
    early fun _ _ mem => nomatch Operation.arranges_of_mem_arranged mem
  have driven : (m.driven t.link [] t.operation.opening).filter Deed.polls = [] :=
    early fun _ _ => Monitor.polled_notMem_driven
  have ticked : (t.operation.ticked m t.link []).filter Deed.polls =
      t.operation.ticked m t.link [] := by
    refine List.filter_eq_self.mpr ?_
    intro deed mem
    obtain ⟨_, _, rfl⟩ := Operation.polled_of_mem_ticked mem
    rfl
  rw [deeds, Operation.deeds, List.filter_append, List.filter_append, arranged, driven, ticked,
    List.nil_append]
  obtain ⟨operation, link⟩ := t
  cases operation with
  | update now => exact (update_tries m now link).2.2
  | _ => exact .nil

/-- The attempts that turns make when walks go on. -/
def fetched : List (Turn μ) → Monitor μ → List Try
  | [], _ => []
  | t :: rest, m => t.fetches m ++ fetched rest (t.after m)

/-- Walks of a terminus that is not removed ask at the endpoint that it has. -/
theorem fetched_match (keyed : m.Keyed) {turns : List (Turn μ)} {tid : Tid} {eid : Eid}
    (home : m.home tid = some eid) (stays : .removed tid ∉ trace turns m) :
    List.Forall₂ (Deed.FetchedBy fun tid' eid' => tid' = tid → eid' = eid)
      ((trace turns m).filter Deed.fetches) (fetched turns m) := by
  induction turns generalizing m with
  | nil => exact .nil
  | cons t rest ih =>
    rw [trace, List.mem_append, not_or] at stays
    have moves := Turn.moves keyed t
    have here : List.Forall₂ (Deed.FetchedBy fun tid' eid' => tid' = tid → eid' = eid)
        ((t.deeds m).filter Deed.fetches) (t.fetches m) := by
      refine (t.fetches_match m).imp ?_
      rintro _ _ fetched
      refine fetched.mono ?_
      rintro _ eid' known rfl
      exact Option.some.inj (known.symm.trans home)
    rw [trace, List.filter_append]
    exact List.rel_append here
      (ih (Turn.keyed_run keyed [t]) (moves.home_of_stays home stays.1) stays.2)

theorem fetched_sublist (turns : List (Turn μ)) (m : Monitor μ) :
    (fetched turns m).Sublist (history turns m).tries := by
  induction turns generalizing m with
  | nil => exact .slnil
  | cons t rest ih =>
    rw [history, Journal.tries_append]
    exact (t.fetches_sublist m).append (ih (t.after m))

end Turn

end TerminusMonitor
