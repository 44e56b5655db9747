import TerminusMonitor.Proofs.Reordering
import TerminusMonitor.Proofs.Resilience
import TerminusMonitor.Proofs.Retries
import TerminusMonitor.Proofs.RoundTrip

/-!
The reply to a pending request completes it.

What is pending under a key is a request that was written with the instance ID of the key, and
whatever happens between, it is what was sent last under that key. So who receives it can read
it, and answers with a response that has the header that is waited for.

* `Correlator.recalls_after`: each call leaves what was sent last in keeping with what is
  pending;
* `Correlator.ends_receive_reply`: a reply to the message of a pending request brings its outcome;
* `reply_completes_request`: so does a reply to what was last sent for it, in every run.
-/

namespace TerminusMonitor

variable {κ : Type} {link : Link} {c : Correlator κ} {key : RequestKey} {p : Pending κ}

/-! ### What was sent last -/

/-- The message of the last attempt at a request. -/
def Try.last? (key : RequestKey) (tries : List Try) : Option (List UInt8) :=
  ((tries.filter (·.isAt key)).getLast?).map (·.message)

namespace Try

variable {tries later : List Try} {message : List UInt8}

theorem last?_append :
    last? key (tries ++ later) = (last? key later).or (last? key tries) := by
  unfold last?
  rw [List.filter_append, List.getLast?_append]
  cases (later.filter (·.isAt key)).getLast? <;> simp

/-- Further attempts with the same message do not change which one was last. -/
theorem last?_append_of_same (last : last? key tries = some message)
    (same : ∀ t ∈ later, t.isAt key = true → t.message = message) :
    last? key (tries ++ later) = some message := by
  rw [last?_append, last]
  unfold last?
  cases found : (later.filter (·.isAt key)).getLast? with
  | none => rfl
  | some t =>
    obtain ⟨mem, isAt⟩ := List.mem_filter.mp (List.mem_of_getLast? found)
    simp [same t mem isAt]

end Try

/-! ### What is pending -/

/-- A pending request was written with the instance ID of its key, and it is what was sent last
under that key, the attempts that failed counted or not. -/
structure Pending.Recalled (p : Pending κ) (key : RequestKey) (tries : List Try) : Prop where
  written : ∃ request : Request, request.type = p.type ∧ request.command = p.command ∧
    { request with instanceId := key.iid.toByte }.toBytes = .ok p.message
  tried : Try.last? key tries = some p.message
  sent : Try.last? key (Try.sent tries) = some p.message

/-- All pending requests are so. -/
def Correlator.Recalls (c : Correlator κ) (tries : List Try) : Prop :=
  ∀ {key p}, c.pending.get? key = some p → p.Recalled key tries

namespace Call

/-- The attempts of calls, the earliest first. -/
def tries : List (Link × Call κ) → Correlator κ → List Try
  | [], _ => []
  | (link, call) :: rest, c =>
    (call.act.journal c link []).tries ++ tries rest (call.after c link)

/-- What is sent of a pending request is its message, and it stays pending with that. -/
theorem Fares.same {call : Call κ} {marks : List (Mark κ)} {p?' : Option (Pending κ)}
    (fares : Fares c p call marks p?') :
    (∀ attempt, .tried attempt ∈ marks → attempt.message = p.message) ∧
      ∀ p', p?' = some p' →
        p'.type = p.type ∧ p'.command = p.command ∧ p'.message = p.message := by
  cases fares with
  | unmoved => exact ⟨nofun, by rintro _ ⟨⟩; exact ⟨rfl, rfl, rfl⟩⟩
  | resent => exact ⟨by simp, by rintro _ ⟨⟩; exact ⟨rfl, rfl, rfl⟩⟩
  | timedOut | answered => exact ⟨by simp, nofun⟩

/-- What is sent in a call under the key of a pending request is the message of the request. -/
theorem message_of_pending {call : Call κ} (addressed : c.Addressed)
    (pending : c.pending.get? key = some p) {t : Try}
    (tried : t ∈ (call.act.journal c link []).tries) (isAt : t.isAt key = true) :
    t.message = p.message := by
  have known : c.pending.contains key = true := by simp [Table.contains, pending]
  have marked : .tried ⟨call, (call.after c link).clock, t.message, t.fault?⟩ ∈
      call.marks key c link := by
    simp only [Call.marks, known, Bool.true_eq_false, and_false, if_false]
    exact List.mem_append_left _ (List.mem_map_of_mem (List.mem_filter.mpr ⟨tried, isAt⟩))
  exact (Call.fares addressed pending call).2.same.1 _ marked

/-- A registration sends what it makes pending. -/
theorem sent_of_register {eid : Eid} {request : Request} {cookie : κ} {iid : InstanceId}
    (result : (Correlator.register eid request cookie).result c link [] = .ok iid) :
    ∃ message, { request with instanceId := iid.toByte }.toBytes = .ok message ∧
      ((register eid request cookie).act.journal c link []).tries = [⟨eid, message, none⟩] ∧
      (register eid request cookie).after c link = c.opened ⟨eid, iid⟩ request message cookie := by
  have ends : Act.Ends (register eid request cookie).act c link [] fun _ c' journal =>
      c' = (Correlator.register eid request cookie).state c link [] ∧
        journal = (Correlator.register eid request cookie).journal c link [] := by
    simp only [act, Act.ends_bind, Act.ends_discard]
    rw [Act.ends_iff, result]
    exact ⟨rfl, rfl⟩
  obtain ⟨state, journal⟩ := Act.ends_iff.mp ends
  obtain ⟨_, events, _, sent⟩ :=
    Act.ends_iff.mp (@Correlator.ends_register_events κ link [] c eid request cookie)
  obtain ⟨message, rfl, written, opened⟩ := sent iid result
  refine ⟨message, written, ?_, state.trans opened⟩
  rw [journal, events]
  rfl

/-- A request that is pending after a call and was not before is sent in it. -/
theorem sent_of_new {call : Call κ} (addressed : c.Addressed)
    (absent : c.pending.get? key = none)
    (pending : (call.after c link).pending.get? key = some p) :
    ∃ request : Request, request.type = p.type ∧ request.command = p.command ∧
      { request with instanceId := key.iid.toByte }.toBytes = .ok p.message ∧
      (call.act.journal c link []).tries = [⟨key.eid, p.message, none⟩] := by
  cases taken : call.takes key c link with
  | false =>
    cases (stays_over addressed absent call taken).2.symm.trans pending
  | true =>
    cases call with
    | register eid request cookie =>
      obtain ⟨rfl, found⟩ := of_decide_eq_true taken
      cases result : (Correlator.register key.eid request cookie).result c link [] with
      | error => rw [result] at found; cases found
      | ok iid =>
        rw [result] at found
        cases found
        obtain ⟨message, written, tried, opened⟩ := sent_of_register result
        rw [opened, Correlator.opened, Table.get?_insert_self] at pending
        cases pending
        exact ⟨request, rfl, rfl, written, tried⟩
    | receive | update | share => cases taken

end Call

/-- Each call leaves what was sent last in keeping with what is pending. -/
theorem Correlator.recalls_after {tries : List Try} (addressed : c.Addressed)
    (recalls : c.Recalls tries) (call : Call κ) :
    (call.after c link).Recalls (tries ++ (call.act.journal c link []).tries) := by
  intro key p' pending'
  cases pending : c.pending.get? key with
  | none =>
    obtain ⟨request, type, command, written, tried⟩ := Call.sent_of_new addressed pending pending'
    have isAt : Try.isAt key ⟨key.eid, p'.message, none⟩ = true := by
      simp [Try.isAt, Request.isIn_toBytes written]
    refine ⟨⟨request, type, command, written⟩, ?_, ?_⟩
    · simp [Try.last?, tried, isAt]
    · simp [Try.last?, Try.sent, tried, isAt]
  | some p =>
    have recalled := recalls pending
    obtain ⟨type, command, message⟩ :=
      (Call.fares addressed pending call).2.same.2 p' pending'
    refine ⟨?_, ?_, ?_⟩
    · rw [type, command, message]
      exact recalled.written
    · rw [message]
      exact Try.last?_append_of_same recalled.tried fun t =>
        Call.message_of_pending addressed pending
    · rw [message, Try.sent_append]
      exact Try.last?_append_of_same recalled.sent fun t mem =>
        Call.message_of_pending addressed pending (List.mem_of_mem_filter mem)

theorem Call.recalls_run {tries : List Try} (addressed : c.Addressed) (recalls : c.Recalls tries)
    (calls : List (Link × Call κ)) :
    (Call.run calls c).Recalls (tries ++ Call.tries calls c) := by
  induction calls generalizing c tries with
  | nil =>
    rw [Call.tries, List.append_nil]
    exact recalls
  | cons call rest ih =>
    rw [Call.tries, ← List.append_assoc]
    exact ih (addressed_after addressed call.2) (Correlator.recalls_after addressed recalls call.2)

/-! ### Replies -/

theorem InstanceId.ofByte?_toByte : ∀ iid : InstanceId, ofByte? iid.toByte = some iid := by decide

/-- A response with the header that a pending request waits for brings its outcome, and ends that
request alone. -/
theorem Correlator.ends_receive_reply {journal : Journal} {response : Response}
    {bytes : List UInt8} (pending : c.pending.get? key = some p)
    (iid : response.instanceId = key.iid.toByte) (type : response.type = p.type)
    (command : response.command = p.command) (written : response.toBytes = .ok bytes) :
    Task.Ends (receive key.eid bytes) c link journal fun completion? c' _ =>
      completion? = some { key, cookie := p.cookie, result := .ok response } ∧
        c' = c.closed key := by
  obtain ⟨_, _, _, read⟩ := Response.of_toBytes written
  have answer : c.answer? (key.eid, bytes) =
      some { key, cookie := p.cookie, result := .ok response } := by
    simp [answer?, read, Response.header, iid, InstanceId.ofByte?_toByte, pending, type, command,
      Response.ofBytes_toBytes written, Except.mapError]
  have received : Task.Ends (receive key.eid bytes) c link journal fun completion? c' _ =>
      completion? = c.answer? (key.eid, bytes) ∧ c' = c.afterMail (key.eid, bytes) :=
    @ends_receive_answer? _ link journal c (key.eid, bytes)
  refine received.mono ?_
  rintro _ _ _ ⟨rfl, rfl⟩
  exact ⟨answer, by rw [afterMail, answer]⟩

/-- Each reply to a request that can be read can be written. -/
theorem Request.written_reply {request : Request} {message : List UInt8}
    (read : Request.ofBytes message = .ok request) (completion : UInt8) (payload : List UInt8) :
    ∃ bytes, { request.reply completion with payload }.toBytes = .ok bytes :=
  Response.written (Request.fits_of_ofBytes read)

/-- What was last sent for a pending request can be read, in every run of a correlator, while others
change its pools at will. Each reply to it, with whatever completion code and payload, can be
written, and when it comes from the endpoint of the request it brings the outcome of the request:
its instance ID, its cookie and that reply. Only that request is over then, and only its
instance ID is free that was not. -/
theorem reply_completes_request (ids : Pools) (policy : RetryPolicy) (clock : Nat)
    (calls : List (Link × Call κ)) (key : RequestKey) (p : Pending κ)
    (pending : (Call.run calls { ids, policy, clock }).pending.get? key = some p) :
    let c := Call.run calls { ids, policy, clock }
    let tries := Call.tries calls ({ ids, policy, clock } : Correlator κ)
    ∃ message request, Try.last? key tries = some message ∧
      Try.last? key (Try.sent tries) = some message ∧
      Request.ofBytes message = .ok request ∧
      ∀ (completion : UInt8) (payload : List UInt8),
        let reply : Response := { request.reply completion with payload }
        ∃ bytes, reply.toBytes = .ok bytes ∧ ∀ (link : Link) (journal : Journal),
          let task : Task (Correlator κ) _ := Correlator.receive key.eid bytes
          task.result c link journal = some { key, cookie := p.cookie, result := .ok reply } ∧
            (task.state c link journal).pending = c.pending.erase key ∧
            ∀ other : RequestKey, (task.state c link journal).ids.holds other.eid other.iid =
              (!decide (other = key) && c.ids.holds other.eid other.iid) := by
  intro c tries
  have fresh : ({ ids, policy, clock } : Correlator κ).Addressed := by
    intro key p pending
    cases pending
  have nothing : ({ ids, policy, clock } : Correlator κ).Recalls [] := by
    intro key p pending
    cases pending
  have recalled : p.Recalled key tries := Call.recalls_run fresh nothing calls pending
  obtain ⟨request, type, command, written⟩ := recalled.written
  have read := Request.ofBytes_toBytes written
  refine ⟨_, _, recalled.tried, recalled.sent, read, ?_⟩
  intro completion payload reply
  obtain ⟨bytes, written⟩ := Request.written_reply read completion payload
  refine ⟨bytes, written, ?_⟩
  intro link journal task
  have ends : Task.Ends task c link journal _ :=
    Correlator.ends_receive_reply pending rfl type command written
  obtain ⟨result, state⟩ : _ ∧ task.state c link journal = c.closed key := ends
  refine ⟨result, by rw [state]; rfl, ?_⟩
  intro other
  rw [state]
  exact Pools.holds_released

/-- Two requests are sent, and again when time has passed, one of them in vain. The first is
answered, and a third one takes its instance ID. -/
def conversation : List (Link × Call Nat) :=
  [(.reliable, .register 8 (.ofPayload 2 0x11 [1]) 1),
    (.reliable, .register 8 (.ofPayload 5 0x12 []) 2),
    (fun _ n => if n = 0 then none else some (.named "TxFailure"), .update 110),
    (.reliable, .receive 8 [0, 2, 0x11, 0]),
    (.reliable, .register 8 (.ofPayload 2 0x51 [7]) 3)]

/-- A reply to the third request is its outcome, and the second stays pending. -/
theorem reply_completes_request_reusing_id :
    let c := Call.run conversation { policy := twice }
    let reply : Response :=
      { instanceId := 0, type := 2, command := 0x51, completion := 0x80, payload := [1, 2] }
    ∃ bytes, reply.toBytes = .ok bytes ∧
      (Correlator.receive 8 bytes).result c .reliable [] =
        some { key := ⟨8, 0⟩, cookie := 3, result := .ok reply } ∧
      ((Correlator.receive 8 bytes).state c .reliable []).pending.keys = [⟨8, 1⟩] := by
  intro c reply
  have pending : c.pending.get? ⟨8, 0⟩ = some
      { type := 2, command := 0x51, message := [0x80, 2, 0x51, 7], deadline := 210
        retriesLeft := 2, cookie := 3 } := by
    decide +kernel
  obtain ⟨message, request, last, _, read, completes⟩ :=
    reply_completes_request {} twice 0 conversation ⟨8, 0⟩ _ pending
  have known : Try.last? ⟨8, 0⟩ (Call.tries conversation { policy := twice }) =
      some [0x80, 2, 0x51, 7] := by
    decide +kernel
  cases known.symm.trans last
  cases read
  obtain ⟨bytes, written, outcome⟩ := completes 0x80 [1, 2]
  obtain ⟨result, left, _⟩ := outcome .reliable []
  refine ⟨bytes, written, result, ?_⟩
  rw [left]
  decide +kernel

end TerminusMonitor
