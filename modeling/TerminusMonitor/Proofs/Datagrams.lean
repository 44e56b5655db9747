import TerminusMonitor.Proofs.Framing
import TerminusMonitor.Proofs.Moments
import TerminusMonitor.Proofs.Reordering
import TerminusMonitor.Proofs.Resilience
import TerminusMonitor.Proofs.Roster
import TerminusMonitor.Proofs.Trail

/-!
Responses to the requests of others.

The header of a request tells whether it is a datagram, which wants no response. This is no part of
the request that is read from a message, and nothing that is done with the request depends on it:
datagrams are answered like all other requests.

* `Monitor.onMessage_plain`: a monitor does the same with a message whether or not it is a datagram;
* `Roster.reply`: the response to a request, and `Inventory.ends_dispatch_reply`: update managers
  give it, and send nothing themselves;
* `Monitor.ends_onMessage_reply`: one attempt is made to send it, or none if it cannot be written;
* `Turn.requests_answered_in_order`: so any number of requests are answered one for one;
* `answered_as_asked_iff`: a request is answered as its header asks just if it is no datagram;
* `datagram_answered`: a datagram that gets a response.
-/

namespace TerminusMonitor

variable {μ : Type} {link : Link} {journal : Journal} {eid : Eid} {bytes : List UInt8}

/-! ### The bit of a datagram -/

/-- Of a message without its datagram bit and its reserved bit the same header is read, but that of
no datagram. -/
theorem Header.ofBytes_plain (bytes : List UInt8) :
    ofBytes (plain bytes) = (ofBytes bytes).map ({ · with datagram := false }) := by
  match bytes with
  | [] | [_] | [_, _] => rfl
  | first :: second :: third :: rest =>
    have same (mask : UInt8) : first &&& ~~~0x60 &&& mask = first &&& (~~~0x60 &&& mask) :=
      UInt8.and_assoc ..
    have request : (~~~0x60 : UInt8) &&& 0x80 = 0x80 := rfl
    have datagram : (~~~0x60 : UInt8) &&& 0x40 = 0 := rfl
    have iid : (~~~0x60 : UInt8) &&& maxInstanceId = maxInstanceId := rfl
    simp only [plain, List.modifyHead_cons, ofBytes, same, request, datagram, iid, UInt8.and_zero]
    split <;> rfl

theorem Header.drop_plain (bytes : List UInt8) (n : Nat) :
    (plain bytes).drop (n + 1) = bytes.drop (n + 1) := by
  cases bytes <;> rfl

theorem Request.ofBytes_plain (bytes : List UInt8) :
    ofBytes (Header.plain bytes) = ofBytes bytes := by
  rw [ofBytes, ofBytes, Header.ofBytes_plain, headerLength, Header.drop_plain]
  cases Header.ofBytes bytes <;> rfl

theorem Response.ofBytes_plain (bytes : List UInt8) :
    ofBytes (Header.plain bytes) = ofBytes bytes := by
  rw [ofBytes, ofBytes, Header.ofBytes_plain, headerLength, Header.drop_plain]
  cases Header.ofBytes bytes <;> rfl

theorem Correlator.receive_plain {κ : Type} (eid : Eid) (bytes : List UInt8) :
    (receive eid (Header.plain bytes) : Task (Correlator κ) _) = receive eid bytes := by
  simp only [receive, Header.ofBytes_plain, Response.ofBytes_plain]
  cases Header.ofBytes bytes <;> rfl

/-- A monitor does the same with a message whether or not it is a datagram. -/
theorem Monitor.onMessage_plain [UpdateManager μ] (eid : Eid) (bytes : List UInt8) :
    (onMessage eid (Header.plain bytes) : Act (Monitor μ) Unit) = onMessage eid bytes := by
  simp only [onMessage, onRequest, onResponse, Header.ofBytes_plain, Request.ofBytes_plain,
    Correlator.receive_plain]
  cases Header.ofBytes bytes <;> rfl

/-! ### Responses of update managers -/

variable [UpdateManager μ] {request : Request}

namespace Roster

variable {α : Type} {line : List (α × μ)}

/-- The response to a request that comes from an endpoint: that of an update manager, or a refusal
if there is none to ask. -/
def reply (r : Roster μ) (eid : Eid) (request : Request) : Response :=
  (answer? eid request (r.line eid)).getD (request.reply CompletionCode.commandNotExpected)

/-- An answer to a request is the response of somebody in the line. -/
theorem mem_of_answer? {response : Response} (answered : answer? eid request line = some response) :
    ∃ m ∈ line, (UpdateManager.offer m.2 eid request).1.response = response := by
  obtain ⟨m, answerer, response⟩ := Option.map_eq_some_iff.mp answered
  refine ⟨m, ?_, response⟩
  rcases Option.or_eq_some_iff.mp answerer with claims | ⟨_, last⟩
  · exact List.mem_of_find?_eq_some claims
  · exact List.mem_of_getLast? last

end Roster

namespace Inventory

variable {i : Inventory μ}

/-- Whether all update managers that may be offered a request answer it with responses that fit
their headers. -/
def AnswersFit (i : Inventory μ) (eid : Eid) (request : Request) : Prop :=
  ∀ m ∈ i.roster.line eid, (UpdateManager.offer m.2 eid request).1.response.header.fits = true

/-- Update managers whose responses always fit answer a request so. -/
theorem Writes.answersFit (writes : i.Writes) (fits : request.header.fits = true) :
    i.AnswersFit eid request := by
  intro m mem
  rcases List.mem_append.mp mem with primary | component
  · obtain ⟨manager, found, rfl⟩ := List.mem_map.mp primary
    exact ((writes.primary manager (Option.mem_toList.mp found)).offer eid fits).1
  · obtain ⟨entry, listed, rfl⟩ := List.mem_map.mp component
    exact ((writes.managers entry (List.mem_filter.mp listed).1).offer eid fits).1

/-- Then the response to the request can be written. -/
theorem AnswersFit.written (answers : i.AnswersFit eid request)
    (fits : request.header.fits = true) :
    ∃ message, (i.roster.reply eid request).toBytes = .ok message := by
  refine Response.written ?_
  unfold Roster.reply
  cases answered : Roster.answer? eid request (i.roster.line eid) with
  | none => exact fits
  | some response =>
    obtain ⟨m, mem, rfl⟩ := Roster.mem_of_answer? answered
    exact answers m mem

/-- Update managers give the response to a request and send nothing themselves. If their responses
always fit, they still do afterwards. -/
theorem ends_dispatch_reply (fits : request.header.fits = true) :
    Task.Ends (dispatch eid request) i link journal fun response i' journal' =>
      response = i.roster.reply eid request ∧ (i.Writes → i'.Writes) ∧
        journal'.tries = journal.tries := by
  have silent : (dispatch eid request : Task (Inventory μ) Response).Adds Event.IsSilent :=
    adds_dispatch (fun _ => trivial) (fun _ => trivial) eid request
  have stays : Task.Ends (dispatch eid request) i link journal fun _ i' _ =>
      i.Writes → i'.Writes := fun writes => (ends_dispatch fits writes).2
  refine (ends_dispatch_line.and (stays.and (silent i link journal))).mono ?_
  rintro response _ _ ⟨⟨answered, _⟩, still, grows⟩
  exact ⟨answered, still, grows.tries⟩

end Inventory

/-! ### Requests -/

/-- What is read as a request is a message whose header says so. -/
theorem Request.exists_ofBytes_iff_header :
    (∃ request, ofBytes bytes = .ok request) ↔
      ∃ header, Header.ofBytes bytes = .ok header ∧ header.request = true := by
  unfold ofBytes
  cases Header.ofBytes bytes with
  | error fault => simp [bind, Except.bind]
  | ok header =>
    cases isRequest : header.request with
    | false => simp [bind, Except.bind, isRequest]
    | true => simp [bind, Except.bind, isRequest, pure, Except.pure]

namespace Monitor

variable {m : Monitor μ}

/-- One attempt is made to send the response to a request, or none if it cannot be written. Update
managers whose responses always fit remain so. -/
theorem ends_onMessage_reply (read : Request.ofBytes bytes = .ok request) :
    Act.Ends (onMessage eid bytes) m link journal fun result m' journal' =>
      (m.inventory.Writes → m'.inventory.Writes) ∧
      match (m.inventory.roster.reply eid request).toBytes with
      | .ok message => result = .ok () ∧
          journal'.tries = journal.tries ++ [⟨eid, message, link.next journal.tries eid⟩]
      | .error fault => result = .error (.invalid fault) ∧ journal'.tries = journal.tries := by
  obtain ⟨header, head, isRequest⟩ := Request.exists_ofBytes_iff_header.mp ⟨request, read⟩
  simp only [onMessage, head, isRequest, if_true, onRequest, read, Act.ends_bind, onInventory,
    Act.ends_on, Act.ends_ofTask]
  refine (Inventory.ends_dispatch_reply (Request.fits_of_ofBytes read)).mono ?_
  rintro _ inventory journal₁ ⟨rfl, writes, tries⟩
  cases (m.inventory.roster.reply eid request).toBytes with
  | error fault =>
    have remarked : journal₁.Grows Event.IsSilent (Effect.remark fault link journal₁).2 :=
      Effect.adds_remark (fun _ => trivial) fault link journal₁
    simp only [Act.ofMessage, Act.ends_bind, Act.ends_lift, Effect.ends_remark, Act.ends_throw]
    exact ⟨writes, trivial, remarked.tries.trans tries⟩
  | ok message =>
    -- Nothing was sent yet, so the attempt ends as the next one to the endpoint does.
    have next : link eid (journal₁.attempts eid) = link.next journal.tries eid := by
      rw [← tries, Link.next_tries]
    simp only [Act.ofMessage, Act.ends_pure, Act.ends_lift, Effect.ends_send, next]
    split <;> simpa [tries, -List.append_assoc] using writes

/-- If update managers answer a request with responses that fit and the transport sends what it is
given, one response is sent to where the request comes from. -/
theorem ends_onMessage_answered (journal : Journal) (read : Request.ofBytes bytes = .ok request)
    (answers : m.inventory.AnswersFit eid request)
    (accepts : ∀ attempt, link eid attempt = none) :
    Act.Ends (onMessage eid bytes) m link journal fun result m' journal' =>
      result = .ok () ∧ (m.inventory.Writes → m'.inventory.Writes) ∧ ∃ message,
        Response.ofBytes message = .ok (m.inventory.roster.reply eid request) ∧
        journal'.tries = journal.tries ++ [⟨eid, message, none⟩] := by
  obtain ⟨message, written⟩ := answers.written (Request.fits_of_ofBytes read)
  refine (ends_onMessage_reply read).mono ?_
  rw [written, Link.next, accepts]
  rintro _ _ _ ⟨writes, fine, tries⟩
  exact ⟨fine, writes, message, Response.ofBytes_toBytes written, tries⟩

end Monitor

/-! ### Requests in turn -/

/-- A message with the attempt that answers it: a response was sent to where the message comes
from. -/
def Try.Answers (mail : Mail) (t : Try) : Prop :=
  t.eid = mail.1 ∧ t.fault? = none ∧ ∃ response, Response.ofBytes t.message = .ok response

/-- Requests that come one after the other are answered one for one and in their order, whether or
not they are datagrams. -/
theorem Turn.requests_answered_in_order {m : Monitor μ} {mails : List Mail}
    (requests : ∀ mail ∈ mails, ∃ request, Request.ofBytes mail.2 = .ok request)
    (writes : m.inventory.Writes) (accepts : ∀ eid attempt, link eid attempt = none) :
    List.Forall₂ Try.Answers mails (history (deliveries link mails) m).tries := by
  induction mails generalizing m with
  | nil => exact .nil
  | cons mail rest ih =>
    obtain ⟨⟨request, read⟩, requestsRest⟩ := List.forall_mem_cons.mp requests
    have answers : m.inventory.AnswersFit mail.1 request :=
      writes.answersFit (Request.fits_of_ofBytes read)
    obtain ⟨-, still, message, reads, tries⟩ :=
      Act.ends_iff.mp (Monitor.ends_onMessage_answered [] read answers (accepts mail.1))
    have first : Journal.tries (Turn.journal { operation := .message mail.1 mail.2, link } m) =
        [⟨mail.1, message, none⟩] := tries
    rw [deliveries, List.map_cons, history, Journal.tries_append, first]
    exact .cons ⟨rfl, rfl, _, reads⟩ (ih requestsRest (still writes))

/-! ### Datagrams -/

/-- A request that comes from an endpoint is answered as its header asks: nothing is sent for a
datagram, and for any other request one response to the endpoint and nothing else. -/
def Header.AnsweredAsAsked (header : Header) (eid : Eid) (journal journal' : Journal) : Prop :=
  if header.datagram then journal'.tries = journal.tries
  else ∃ message response, Response.ofBytes message = .ok response ∧
    journal'.tries = journal.tries ++ [⟨eid, message, none⟩]

/-- If update managers answer with responses that fit and the transport sends what it is given,
each request gets one response, which is sent to where the request comes from, and nothing else is
sent. That is so for a datagram too, with which nothing else is done than without its bit. So a
request is answered as its header asks just if it is no datagram. -/
theorem answered_as_asked_iff (m : Monitor μ) (link : Link) (journal : Journal) {header : Header}
    (head : Header.ofBytes bytes = .ok header) (isRequest : header.request = true)
    (accepts : ∀ attempt, link eid attempt = none)
    (answers : ∀ request, Request.ofBytes bytes = .ok request →
      m.inventory.AnswersFit eid request) :
    let act : Act (Monitor μ) Unit := Monitor.onMessage eid bytes
    let journal' := act.journal m link journal
    act = Monitor.onMessage eid (Header.plain bytes) ∧
    act.result m link journal = .ok () ∧
    (∃ request message, Request.ofBytes bytes = .ok request ∧
      Response.ofBytes message = .ok (m.inventory.roster.reply eid request) ∧
      journal'.tries = journal.tries ++ [⟨eid, message, none⟩]) ∧
    (header.AnsweredAsAsked eid journal journal' ↔ header.datagram = false) := by
  intro act journal'
  obtain ⟨request, read⟩ := Request.exists_ofBytes_iff_header.mpr ⟨header, head, isRequest⟩
  obtain ⟨fine, -, message, reads, tries⟩ := Act.ends_iff.mp
    (Monitor.ends_onMessage_answered journal read (answers request read) accepts)
  refine ⟨(Monitor.onMessage_plain eid bytes).symm, fine, ⟨_, _, read, reads, tries⟩, ?_⟩
  unfold Header.AnsweredAsAsked
  cases header.datagram with
  | true =>
    have sent : journal'.tries ≠ journal.tries := by
      rw [tries]
      simp
    exact iff_of_false sent nofun
  | false => exact iff_of_true ⟨message, _, reads, tries⟩ rfl

/-- A monitor whose primary update manager claims all requests. -/
def claiming : Monitor Scripted :=
  { (Monitor.start {} 250 0 : Monitor Scripted) with
    inventory := Inventory.setPrimary {}
      { tag := 7, claims := true, completion := 0, instanceId? := none } }

theorem writes_claiming : claiming.inventory.Writes where
  managers := by
    have none : claiming.inventory.managers = [] := by decide +kernel
    rw [none]
    exact List.forall_mem_nil _
  primary := by
    rintro _ ⟨⟩
    exact Scripted.writes (by rintro _ ⟨⟩)

/-- The same request, first not as a datagram and then as one. -/
theorem answered_as_asked_iff_claimed :
    let header : Header := { request := true, datagram := false, instanceId := 4, type := 5
                             command := 0x15 }
    let after (bytes : List UInt8) : Journal :=
      (Monitor.onMessage 30 bytes).journal claiming Link.reliable []
    Header.ofBytes [0x84, 5, 0x15, 1] = .ok header ∧
    Header.ofBytes [0xc4, 5, 0x15, 1] = .ok { header with datagram := true } ∧
    (∀ attempt, Link.reliable 30 attempt = none) ∧
    (∀ bytes request, Request.ofBytes bytes = .ok request →
      claiming.inventory.AnswersFit 30 request) ∧
    header.AnsweredAsAsked 30 [] (after [0x84, 5, 0x15, 1]) ∧
    ¬ { header with datagram := true }.AnsweredAsAsked 30 [] (after [0xc4, 5, 0x15, 1]) := by
  intro header after
  have plain : Header.ofBytes [0x84, 5, 0x15, 1] = .ok header := rfl
  have datagram : Header.ofBytes [0xc4, 5, 0x15, 1] = .ok { header with datagram := true } := rfl
  have accepts : ∀ attempt, Link.reliable 30 attempt = none := fun _ => rfl
  have answers (bytes : List UInt8) (request : Request)
      (read : Request.ofBytes bytes = .ok request) : claiming.inventory.AnswersFit 30 request :=
    writes_claiming.answersFit (Request.fits_of_ofBytes read)
  refine ⟨plain, datagram, accepts, answers, ?_, ?_⟩
  · exact (answered_as_asked_iff claiming _ [] plain rfl accepts (answers _)).2.2.2.mpr rfl
  · intro asAsked
    cases (answered_as_asked_iff claiming _ [] datagram rfl accepts (answers _)).2.2.2.mp asAsked

/-- A datagram gets a response. -/
theorem datagram_answered :
    claiming.inventory.Writes ∧
    Header.ofBytes [0xc4, 5, 0x15, 1] =
      .ok { request := true, datagram := true, instanceId := 4, type := 5, command := 0x15 } ∧
    (∀ eid attempt, Link.reliable eid attempt = none) ∧
    ((Monitor.onMessage 30 [0xc4, 5, 0x15, 1]).journal claiming Link.reliable []).tries =
      [⟨30, [4, 5, 0x15, 0, 7], none⟩] :=
  ⟨writes_claiming, rfl, fun _ _ => rfl, by decide +kernel⟩

end TerminusMonitor
