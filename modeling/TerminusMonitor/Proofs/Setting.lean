import TerminusMonitor.Proofs.Correlator
import TerminusMonitor.Proofs.Numbers
import TerminusMonitor.Proofs.RoundTrip

/-!
What setting a property does.

* `EffecterMapping.Sets`: a request sets an effecter to a property value;
* `EffecterMapping.sets_of_request`: what is asked of an effecter sets it;
* `Correlator.ends_register_seen`: a request that is registered is sent once and pending then,
  one that is not leaves everything as it was;
* `Monitor.setProperty_sets`: setting a property sends one request, which sets the first
  effecter that is mapped to the property, or it changes nothing.
-/

namespace TerminusMonitor

variable {μ κ : Type} {link : Link} {journal : Journal}

/-! ### Sending -/

namespace Journal

theorem sent_sent {eid : Eid} {message : List UInt8} :
    sent (journal ++ [.sent eid message none]) = journal.sent ++ [(eid, message)] := by
  simp [sent]

theorem sent_unsent {eid : Eid} {message : List UInt8} {fault : TransportFault} :
    sent (journal ++ [.sent eid message (some fault)]) = journal.sent := by
  simp [sent]

theorem sent_logged {notice : Notice} : sent (journal ++ [.logged notice]) = journal.sent := by
  simp [sent]

theorem sent_woken {tasks : List TaskId} :
    sent (journal ++ tasks.map .woken) = journal.sent := by
  simp [sent]

theorem sent_remark {fault : MessageFault} :
    sent (Effect.remark fault link journal).2 = journal.sent := by
  simp only [Effect.remark]
  cases fault.remark? with
  | none => rfl
  | some text => exact sent_logged

end Journal

namespace Correlator

variable {c : Correlator κ}

/-- A request that is registered is sent, and nothing is sent if it is not registered. -/
theorem ends_register_sent {eid : Eid} {request : Request} {cookie : κ} :
    Act.Ends (register eid request cookie) c link journal fun result _ journal' =>
      match result with
      | .ok iid => ∃ message, { request with instanceId := iid.toByte }.toBytes = .ok message ∧
          journal'.sent = journal.sent ++ [(eid, message)]
      | .error _ => journal'.sent = journal.sent := by
  simp only [register, onIds, Act.ends_bind, Act.ends_on, Pools.ends_take]
  cases (c.ids.mask eid).lowestFree? with
  | none => exact Journal.sent_logged
  | some iid =>
    simp only [Act.ends_get]
    split
    next =>
      simp only [Act.ends_bind, Act.ends_lift, Effect.ends_log, Act.ends_on, Pools.ends_free,
        Pools.holds_taken_self, if_true, Act.ends_throw]
      exact Journal.sent_woken.trans Journal.sent_logged
    next =>
      simp only [Act.ends_bind, Act.ends_lift, ends_transmit]
      cases written : { request with instanceId := iid.toByte }.toBytes with
      | error fault =>
        simp only [Effect.ends_log, Act.ends_on, Pools.ends_free, Pools.holds_taken_self, if_true,
          Act.ends_throw]
        exact Journal.sent_woken.trans Journal.sent_logged
      | ok message =>
        cases link eid (journal.attempts eid) with
        | none =>
          simp only [Act.ends_bind, Act.ends_modify, Act.ends_pure]
          exact ⟨message, written, Journal.sent_sent⟩
        | some fault =>
          simp only [Act.ends_bind, Act.ends_lift, Effect.ends_log, Act.ends_on, Pools.ends_free,
            Pools.holds_taken_self, if_true, Act.ends_throw]
          exact Journal.sent_woken.trans (Journal.sent_logged.trans Journal.sent_unsent)

/-- An instance ID that was taken and freed again is as free as before. -/
theorem holds_refused {eid : Eid} {iid : InstanceId}
    (free : (c.ids.mask eid).lowestFree? = some iid) (key : RequestKey) :
    (c.refused eid iid).ids.holds key.eid key.iid = c.ids.holds key.eid key.iid := by
  have unheld : c.ids.holds eid iid = false := IdMask.holds_of_lowestFree? free
  have freed := @Pools.holds_released (c.ids.taken eid iid) ⟨eid, iid⟩ key
  have taken := @Pools.holds_taken c.ids ⟨eid, iid⟩ key
  rw [refused, freed, taken]
  by_cases same : key = ⟨eid, iid⟩
  · subst same
    simp [unheld]
  · simp [same]

/-- How a registration ends, as it is seen from outside: a request is sent and pending, or
nothing has changed. -/
theorem ends_register_seen {eid : Eid} {request : Request} {cookie : κ} :
    Act.Ends (register eid request cookie) c link journal fun result c' journal' =>
      match result with
      | .ok iid => ∃ message, { request with instanceId := iid.toByte }.toBytes = .ok message ∧
          journal'.sent = journal.sent ++ [(eid, message)] ∧
          c.pending.get? ⟨eid, iid⟩ = none ∧ c' = c.opened ⟨eid, iid⟩ request message cookie
      | .error _ => journal'.sent = journal.sent ∧ c'.pending = c.pending ∧
          ∀ key : RequestKey, c'.ids.holds key.eid key.iid = c.ids.holds key.eid key.iid := by
  -- `Registration` says what becomes of the state, but not what is sent.
  refine (ends_register.and ends_register_sent).mono ?_
  rintro result c' journal' ⟨registration, sent⟩
  cases registration with
  | sent _ fresh written =>
    obtain ⟨message, written', sent⟩ := sent
    cases written.symm.trans written'
    exact ⟨_, written, sent, fresh, rfl⟩
  | exhausted => exact ⟨sent, rfl, fun _ => rfl⟩
  | duplicate free => exact ⟨sent, rfl, holds_refused free⟩
  | unwritten free => exact ⟨sent, rfl, holds_refused free⟩
  | unsent free => exact ⟨sent, rfl, holds_refused free⟩

end Correlator

/-! ### Requests to effecters -/

namespace EffecterMapping

/-- An effecter is behind a property. -/
def IsBehind (path property : String) (e : EffecterMapping) : Prop :=
  e.path = path ∧ e.property = property

theorem first_of_effecter? {mapping : Mapping} {path property : String} {e : EffecterMapping}
    (found : mapping.effecter? path property = some e) :
    ∃ before after, mapping.effecters = before ++ e :: after ∧ e.IsBehind path property ∧
      ∀ other ∈ before, ¬other.IsBehind path property := by
  obtain ⟨behind, before, after, mapped, first⟩ := List.find?_eq_some_iff_append.mp found
  refine ⟨before, after, mapped, by simpa [IsBehind] using behind, ?_⟩
  intro other mem
  simpa [IsBehind, imp_iff_not_or] using first other mem

/-- A request sets an effecter to a property value: a numeric one to the number that the value
is, in the width of the effecter, and a state effecter to the state for the first of its
property values that equals the value. -/
def Sets (e : EffecterMapping) (value : PropertyValue) (request : Request) : Prop :=
  request.type = platformType ∧
    match e.kind with
    | .numeric tag =>
      request.command = Coded.code Command.setNumericEffecterValue ∧
        ∃ q : Quantity, q.tag = tag ∧ value.number? = some (q.toInt : ℚ) ∧
          Body.ofBytes request.payload =
            .ok ({ effecter := e.effecter, value := q } : SetNumericEffecter.Query)
    | .state states values =>
      request.command = Coded.code Command.setStateEffecterStates ∧
        ∃ before v after state, values = before ++ v :: after ∧ (v == value) = true ∧
          (∀ other ∈ before, (other == value) = false) ∧ states[before.length]? = some state ∧
          Body.ofBytes request.payload =
            .ok ({ effecter := e.effecter, members := [{ request := .requestSet, state }] } :
              SetStateEffecter.Query)

theorem stateFor?_eq_some {states : List UInt8} {values : List PropertyValue}
    {value : PropertyValue} {state : UInt8} (found : stateFor? states values value = some state) :
    ∃ before v after, values = before ++ v :: after ∧ (v == value) = true ∧
      (∀ other ∈ before, (other == value) = false) ∧ states[before.length]? = some state := by
  obtain ⟨i, index, state⟩ := Option.bind_eq_some_iff.mp found
  obtain ⟨inside, equal, first⟩ := List.findIdx?_eq_some_iff_getElem.mp index
  refine ⟨values.take i, values[i], values.drop (i + 1), ?_, equal, ?_, ?_⟩
  · rw [List.getElem_cons_drop, List.take_append_drop]
  · intro other mem
    obtain ⟨j, below, rfl⟩ := List.mem_take_iff_getElem.mp mem
    exact Bool.eq_false_iff.mpr (first j (Nat.lt_of_lt_of_le below (Nat.min_le_left ..)))
  · rwa [List.length_take_of_le (Nat.le_of_lt inside)]

/-- What is asked of an effecter sets it, under whatever instance ID. -/
theorem sets_of_request {e : EffecterMapping} {value : PropertyValue} {request : Request}
    (asked : e.request value = .ok (.ok request)) (iid : UInt8) :
    e.Sets value { request with instanceId := iid } := by
  unfold EffecterMapping.request at asked
  unfold Sets
  split at asked
  next states values kind =>
    split at asked
    next => cases asked
    next state found =>
      obtain ⟨payload, written, rfl⟩ := Request.of_ofBody (Except.ok.inj asked)
      obtain ⟨checked, rfl⟩ := Body.toBytes_eq_ok_iff.mp written
      obtain ⟨before, v, after, values, equal, first, state⟩ := stateFor?_eq_some found
      rw [kind]
      exact ⟨rfl, rfl, before, v, after, _, values, equal, first, state,
        SetStateEffecter.exact_query.ofBytes_eq_ok_iff.mpr ⟨checked, trivial, rfl⟩⟩
  next tag kind =>
    split at asked
    next => cases asked
    next n whole =>
      have asked := Except.ok.inj asked
      cases fits : Quantity.ofInt tag n with
      | error fault =>
        rw [fits] at asked
        cases asked
      | ok q =>
        rw [fits] at asked
        have asked : SetNumericEffecter.request e.effecter q = .ok request := asked
        obtain ⟨payload, written, rfl⟩ := Request.of_ofBody asked
        obtain ⟨checked, rfl⟩ := Body.toBytes_eq_ok_iff.mp written
        obtain ⟨width, number⟩ := PropertyValue.number?_of_whole? whole fits
        rw [kind]
        exact ⟨rfl, rfl, q, width, number,
          SetNumericEffecter.exact_query.ofBytes_eq_ok_iff.mpr ⟨checked, trivial, rfl⟩⟩

end EffecterMapping

namespace Monitor

variable {m : Monitor μ}

/-- How setting a property ends. -/
inductive Setting (m : Monitor μ) (journal : Journal) (path property : String)
    (value : PropertyValue) (m' : Monitor μ) (journal' : Journal) : Except Fault Unit → Prop where
  /-- One request is sent, which sets the first effecter behind the property. It is pending
  then. -/
  | sent {before after : List EffecterMapping} {e : EffecterMapping} {message : List UInt8}
      {request : Request} {iid : InstanceId} {pending : Pending Purpose}
      (mapped : m.mapping.effecters = before ++ e :: after)
      (behind : e.IsBehind path property)
      (first : ∀ other ∈ before, ¬other.IsBehind path property)
      (once : journal'.sent = journal.sent ++ [(e.eid, message)])
      (parsed : Request.ofBytes message = .ok request)
      (numbered : request.instanceId = iid.toByte)
      (sets : e.Sets value request)
      (fresh : m.pending.get? ⟨e.eid, iid⟩ = none)
      (added : m'.pending = m.pending.insert ⟨e.eid, iid⟩ pending)
      (remembered : pending.message = message ∧ pending.cookie = .effecter path property) :
      Setting m journal path property value m' journal' (.ok ())
  /-- Nothing is sent, and the same requests are pending and the same instance IDs in use. -/
  | refused {fault : Fault}
      (unsent : journal'.sent = journal.sent)
      (kept : m'.pending = m.pending)
      (ids : ∀ key : RequestKey, m'.ids.holds key.eid key.iid = m.ids.holds key.eid key.iid) :
      Setting m journal path property value m' journal' (.error fault)

theorem ends_setting {path property : String} {value : PropertyValue} :
    Act.Ends (setProperty path property value) m link journal fun result m' journal' =>
      Setting m journal path property value m' journal' result := by
  simp only [setProperty, Act.ends_bind, Act.ends_get]
  split
  next e found =>
    split
    next => exact .refused rfl rfl fun _ => rfl
    next written asked =>
      cases written with
      | error fault =>
        simp only [Act.ofMessage, Act.ends_bind, Act.ends_lift, Effect.ends_remark]
        exact .refused Journal.sent_remark rfl fun _ => rfl
      | ok request =>
        simp only [Act.ofMessage, Act.ends_bind, Act.ends_pure, Act.ends_discard, onRequests,
          onWatch, Watch.onRequests, Act.ends_on]
        refine Correlator.ends_register_seen.mono ?_
        intro result c journal' seen
        cases result with
        | error => exact .refused seen.1 seen.2.1 seen.2.2
        | ok iid =>
          obtain ⟨message, written, once, fresh, rfl⟩ := seen
          obtain ⟨before, after, mapped, behind, first⟩ := EffecterMapping.first_of_effecter? found
          exact .sent mapped behind first once (Request.ofBytes_toBytes written) rfl
            (EffecterMapping.sets_of_request asked _) fresh rfl ⟨rfl, rfl⟩
  next => exact .refused rfl rfl fun _ => rfl

/-- Setting a property sends one request, which sets the first effecter that is mapped to the
property, or it changes nothing. -/
theorem setProperty_sets (m : Monitor μ) (link : Link) (journal : Journal)
    (path property : String) (value : PropertyValue) :
    let act := setProperty path property value
    Setting m journal path property value (act.state m link journal) (act.journal m link journal)
      (act.result m link journal) :=
  Act.ends_iff.mp ends_setting

end Monitor

end TerminusMonitor
