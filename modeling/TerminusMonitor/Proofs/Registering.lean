import TerminusMonitor.Proofs.Setting
import TerminusMonitor.Proofs.Turn

/-!
What registering a request adds, and what a registration that fails leaves.

An instance ID is taken first. Three things may be in the way of the request after that, and
each has to give the ID back.

* `Correlator.Refusal`: what is in the way of a request, and how it is told;
* `Correlator.ends_register_refusal`: a registration fails if and only if something is in
  its way;
* `request_registered_or_nothing_changed`: it adds one request, one ID and one message, or
  none of them.
-/

namespace TerminusMonitor

variable {κ : Type} {link : Link} {journal : Journal}

/-! ### Messages that can be written -/

namespace Request

variable {request : Request}

/-- A request can be written with each instance ID if its type fits the header. -/
theorem written_numbered (fits : request.type ≤ maxMessageType) (iid : InstanceId) :
    ∃ message, { request with instanceId := iid.toByte }.toBytes = .ok message := by
  simp only [toBytes, header, Header.toBytes, Header.fits, InstanceId.toByte_le, fits]
  exact ⟨_, rfl⟩

theorem unwritten_numbered (unfit : ¬request.type ≤ maxMessageType) (iid : InstanceId) :
    { request with instanceId := iid.toByte }.toBytes = .error .unfitHeader := by
  simp only [toBytes, header, Header.toBytes, Header.fits, unfit]
  simp [bind, Except.bind]

end Request

/-! ### Registering -/

namespace Correlator

variable {c : Correlator κ} {eid : Eid} {request : Request} {cookie : κ} {fault : Fault}

/-- What is in the way of a request to an endpoint, and the fault that tells of it. -/
inductive Refusal (c : Correlator κ) (link : Link) (journal : Journal) (eid : Eid)
    (request : Request) : Fault → Prop where
  /-- All instance IDs are in use. -/
  | full (full : ∀ iid, c.ids.holds eid iid = true) : Refusal c link journal eid request .exhausted
  /-- The lowest free ID is that of a pending request, so someone else has freed it. -/
  | pending {iid : InstanceId} (least : IsLeast {iid | c.ids.holds eid iid = false} iid)
      (pending : c.pending.contains ⟨eid, iid⟩ = true) :
      Refusal c link journal eid request (.state .duplicatePending)
  /-- The message type does not fit the header. -/
  | unfit {iid : InstanceId} (least : IsLeast {iid | c.ids.holds eid iid = false} iid)
      (fresh : c.pending.get? ⟨eid, iid⟩ = none) (unfit : ¬request.type ≤ maxMessageType) :
      Refusal c link journal eid request (.invalid .unfitHeader)
  /-- The transport does not send the message. -/
  | unsent {iid : InstanceId} {fault : TransportFault}
      (least : IsLeast {iid | c.ids.holds eid iid = false} iid)
      (fresh : c.pending.get? ⟨eid, iid⟩ = none) (fits : request.type ≤ maxMessageType)
      (unsent : link eid (journal.attempts eid) = some fault) :
      Refusal c link journal eid request (.transport fault)

/-- A registration fails if and only if something is in its way. -/
theorem ends_register_refusal :
    Act.Ends (register eid request cookie) c link journal fun result _ _ =>
      match result with
      | .ok _ => ∀ fault, ¬Refusal c link journal eid request fault
      | .error fault => Refusal c link journal eid request fault := by
  simp only [register, onIds, Act.ends_bind, Act.ends_on, Pools.ends_take]
  cases free : (c.ids.mask eid).lowestFree? with
  | none => exact .full (IdMask.lowestFree?_eq_none_iff.mp free)
  | some iid =>
    have least := IdMask.lowestFree?_eq_some_iff.mp free
    simp only [Act.ends_get]
    split
    next taken =>
      simpa [Pools.ends_free, Pools.holds_taken_self] using .pending least taken
    next untaken =>
      have fresh := Table.contains_eq_false_iff.mp (Bool.eq_false_iff.mpr untaken)
      simp only [Act.ends_bind, Act.ends_lift, ends_transmit]
      by_cases fits : request.type ≤ maxMessageType
      · obtain ⟨message, written⟩ := Request.written_numbered fits iid
        rw [written]
        cases lost : link eid (journal.attempts eid) with
        | some fault =>
          simpa [Pools.ends_free, Pools.holds_taken_self] using .unsent least fresh fits lost
        | none =>
          simp only [Act.ends_bind, Act.ends_modify, Act.ends_pure]
          rintro _ refusal
          cases refusal with
          | full full => exact Bool.false_ne_true (least.1.symm.trans (full iid))
          | pending least' pending =>
            cases least.unique least'
            exact untaken pending
          | unfit _ _ unfit => exact unfit fits
          | unsent _ _ _ unsent => cases lost.symm.trans unsent
      · rw [Request.unwritten_numbered fits iid]
        simpa [Pools.ends_free, Pools.holds_taken_self] using .unfit least fresh fits

/-- How a registration ends, as it is seen from outside. -/
inductive Admission (c : Correlator κ) (link : Link) (journal : Journal) (eid : Eid)
    (request : Request) (cookie : κ) (c' : Correlator κ) (journal' : Journal) :
    Except Fault InstanceId → Prop where
  /-- The request takes the lowest free instance ID. It is sent once and pending then. -/
  | admitted {iid : InstanceId} {message : List UInt8}
      (least : IsLeast {iid | c.ids.holds eid iid = false} iid)
      (fresh : c.pending.get? ⟨eid, iid⟩ = none)
      (written : { request with instanceId := iid.toByte }.toBytes = .ok message)
      (once : journal'.sent = journal.sent ++ [(eid, message)])
      (added : c'.pending = c.pending.insert ⟨eid, iid⟩ {
        type := request.type
        command := request.command
        message
        deadline := timeAfter c.clock c.policy.timeout
        retriesLeft := c.policy.retries
        cookie })
      (taken : ∀ key : RequestKey, c'.ids.holds key.eid key.iid =
        (decide (key = ⟨eid, iid⟩) || c.ids.holds key.eid key.iid))
      (free : ∀ fault, ¬Refusal c link journal eid request fault) :
      Admission c link journal eid request cookie c' journal' (.ok iid)
  /-- Something is in the way of the request. Nothing is sent, the same requests are pending,
  and the same instance IDs are in use. -/
  | refused {fault : Fault}
      (refusal : Refusal c link journal eid request fault)
      (unsent : journal'.sent = journal.sent)
      (kept : c'.pending = c.pending)
      (ids : ∀ key : RequestKey, c'.ids.holds key.eid key.iid = c.ids.holds key.eid key.iid) :
      Admission c link journal eid request cookie c' journal' (.error fault)

theorem ends_register_admission :
    Act.Ends (register eid request cookie) c link journal fun result c' journal' =>
      Admission c link journal eid request cookie c' journal' result := by
  refine (ends_register.and (ends_register_seen.and ends_register_refusal)).mono ?_
  rintro result c' journal' ⟨registration, seen, refusal⟩
  cases registration with
  | sent free fresh written =>
    obtain ⟨message, written', once, _⟩ := seen
    cases written.symm.trans written'
    exact .admitted (IdMask.isLeast_of_lowestFree? free) fresh written once rfl
      (fun _ => Pools.holds_taken) refusal
  | exhausted | duplicate | unwritten | unsent => exact .refused refusal seen.1 seen.2.1 seen.2.2

end Correlator

/-- Registering a request adds one pending request and one instance ID, the lowest that is
free, and sends one message; or it fails, because something is in the way, and does none of
that. This is so whatever is pending, whatever IDs are in use and whatever is sent. -/
theorem request_registered_or_nothing_changed (c : Correlator κ) (link : Link) (journal : Journal)
    (eid : Eid) (request : Request) (cookie : κ) :
    let act := Correlator.register eid request cookie
    Correlator.Admission c link journal eid request cookie (act.state c link journal)
      (act.journal c link journal) (act.result c link journal) :=
  Act.ends_iff.mp Correlator.ends_register_admission

end TerminusMonitor
