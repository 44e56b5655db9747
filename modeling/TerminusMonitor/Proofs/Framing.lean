import TerminusMonitor.Proofs.Records

/-!
Requests and responses as bytes.

The first bit of a message tells whether it is a request. Of the other bits of its first byte the
lowest five are the instance ID; those between, the datagram bit and a reserved one, are no part
of a request or a response: they are ignored when it is read, and clear when it is written.

* `Request.toBytes_eq`, `Response.toBytes_eq`: what can be written, and as what;
* `Request.ofBytes_eq_ok_iff`, `Response.ofBytes_eq_ok_iff`: what is read, and from what;
* `Request.toBytes_of_ofBytes`, `Response.toBytes_of_ofBytes`: writing what was read;
* `framing_round_trips`: both ways, and that no bytes are a request and a response.
-/

namespace TerminusMonitor

variable {bytes : List UInt8}

/-! ### The bits of a header -/

/-- The bytes of a message without the bits of the first one that are no part of a request or a
response: the datagram bit and the reserved one. -/
def Header.plain (bytes : List UInt8) : List UInt8 := bytes.modifyHead (· &&& ~~~0x60)

/-- The first byte of what was read as a message, when it is written: as a request if its first bit
was set, and as a response if not. -/
theorem Header.rewritten_first (first : UInt8) :
    (first &&& 0x80 ≠ 0 → first &&& maxInstanceId ||| 0x80 = first &&& ~~~0x60) ∧
      (first &&& 0x80 = 0 → first &&& maxInstanceId = first &&& ~~~0x60) ∧
      first &&& maxInstanceId ≤ maxInstanceId := by
  have table : ∀ first : Fin 256,
      (UInt8.ofFin first &&& 0x80 ≠ 0 →
        UInt8.ofFin first &&& maxInstanceId ||| 0x80 = UInt8.ofFin first &&& ~~~0x60) ∧
      (UInt8.ofFin first &&& 0x80 = 0 →
        UInt8.ofFin first &&& maxInstanceId = UInt8.ofFin first &&& ~~~0x60) ∧
      UInt8.ofFin first &&& maxInstanceId ≤ maxInstanceId := by
    decide +kernel
  exact table first.toFin

/-- The second byte of a message of version 0 is its type. -/
theorem Header.type_of_second (second : UInt8) :
    (second &&& 0xc0 = 0 ↔ second ≤ maxMessageType) ∧
      (second >>> 6 = 0 ↔ second ≤ maxMessageType) ∧
      (second ≤ maxMessageType → second &&& maxMessageType = second) := by
  have table : ∀ second : Fin 256,
      (UInt8.ofFin second &&& 0xc0 = 0 ↔ UInt8.ofFin second ≤ maxMessageType) ∧
      (UInt8.ofFin second >>> 6 = 0 ↔ UInt8.ofFin second ≤ maxMessageType) ∧
      (UInt8.ofFin second ≤ maxMessageType →
        UInt8.ofFin second &&& maxMessageType = UInt8.ofFin second) := by
    decide +kernel
  exact table second.toFin

/-- Bytes start with a header if there are enough of them and the version is 0. -/
theorem Header.ofBytes_eq_ok_iff {header : Header} :
    ofBytes bytes = .ok header ↔
      ∃ first rest, bytes = first :: header.type :: header.command :: rest ∧
        header.type ≤ maxMessageType ∧ header.request = (first &&& 0x80 != 0) ∧
        header.datagram = (first &&& 0x40 != 0) ∧
        header.instanceId = first &&& maxInstanceId := by
  constructor
  · intro read
    unfold ofBytes at read
    split at read
    next first second third rest =>
      split at read
      next version =>
        cases read
        have type := (type_of_second second).1.mp version
        have same := (type_of_second second).2.2 type
        exact ⟨first, rest, by rw [same], by rwa [same], rfl, rfl, rfl⟩
      next => cases read
    next => cases read
  · rintro ⟨first, rest, rfl, type, request, datagram, iid⟩
    obtain ⟨version, -, same⟩ := type_of_second header.type
    rw [ofBytes, if_pos (version.mpr type), same type, ← request, ← datagram, ← iid]

/-- A header is written with what follows it just if instance ID and type fit their bits. -/
theorem Header.toBytes_append (header : Header) (rest : List UInt8) :
    (do return (← header.toBytes) ++ rest : Except MessageFault (List UInt8)) =
      if header.instanceId ≤ maxInstanceId ∧ header.type ≤ maxMessageType then
        .ok (header.firstByte :: header.type :: header.command :: rest)
      else .error .unfitHeader := by
  simp only [toBytes, fits, Bool.and_eq_true, decide_eq_true_eq]
  split <;> rfl

/-! ### Requests -/

namespace Request

variable {request : Request}

theorem toBytes_eq (request : Request) :
    request.toBytes =
      if request.instanceId ≤ maxInstanceId ∧ request.type ≤ maxMessageType then
        .ok ((request.instanceId ||| 0x80) :: request.type :: request.command :: request.payload)
      else .error .unfitHeader := by
  have first : request.header.firstByte = request.instanceId ||| 0x80 := by
    simp [Header.firstByte, header]
  have written := request.header.toBytes_append request.payload
  rw [first] at written
  exact written

theorem toBytes_eq_ok_iff :
    request.toBytes = .ok bytes ↔
      (request.instanceId ≤ maxInstanceId ∧ request.type ≤ maxMessageType) ∧
        bytes = (request.instanceId ||| 0x80) :: request.type :: request.command ::
          request.payload := by
  rw [toBytes_eq]
  split
  next fits => rw [and_iff_right fits, Except.ok.injEq, eq_comm]
  next unfit => exact iff_of_false nofun fun h => unfit h.1

theorem ofBytes_eq_ok_iff :
    ofBytes bytes = .ok request ↔
      ∃ first, bytes = first :: request.type :: request.command :: request.payload ∧
        request.type ≤ maxMessageType ∧ first &&& 0x80 ≠ 0 ∧
        request.instanceId = first &&& maxInstanceId := by
  rw [show ofBytes bytes = (Header.ofBytes bytes).bind _ from rfl, bind_eq_ok_iff]
  constructor
  · rintro ⟨header, head, read⟩
    obtain ⟨first, rest, rfl, type, isRequest, -, iid⟩ := Header.ofBytes_eq_ok_iff.mp head
    cases flag : header.request with
    | false =>
      simp only [flag] at read
      cases read
    | true =>
      simp only [flag] at read
      cases read
      exact ⟨first, rfl, type, by simpa [flag] using isRequest.symm, iid⟩
  · rintro ⟨first, rfl, type, isRequest, iid⟩
    have head : Header.ofBytes (first :: request.type :: request.command :: request.payload) =
        .ok ⟨true, first &&& 0x40 != 0, request.instanceId, request.type, request.command⟩ :=
      Header.ofBytes_eq_ok_iff.mpr
        ⟨first, _, rfl, type, (bne_iff_ne.mpr isRequest).symm, rfl, iid⟩
    exact ⟨_, head, rfl⟩

/-- Writing what was read gives the bytes again, but for what is no part of a request. -/
theorem toBytes_of_ofBytes (read : ofBytes bytes = .ok request) :
    request.toBytes = .ok (Header.plain bytes) := by
  obtain ⟨first, rfl, type, isRequest, iid⟩ := ofBytes_eq_ok_iff.mp read
  obtain ⟨again, -, fits⟩ := Header.rewritten_first first
  rw [toBytes_eq_ok_iff, iid, again isRequest]
  exact ⟨⟨fits, type⟩, rfl⟩

/-- Bytes are a request if they are enough for a header, its version is 0 and its first bit set. -/
theorem exists_ofBytes_iff :
    (∃ request, ofBytes bytes = .ok request) ↔
      ∃ first second third rest, bytes = first :: second :: third :: rest ∧
        second ≤ maxMessageType ∧ first &&& 0x80 ≠ 0 := by
  simp only [ofBytes_eq_ok_iff]
  constructor
  · rintro ⟨request, first, rfl, type, isRequest, -⟩
    exact ⟨first, _, _, _, rfl, type, isRequest⟩
  · rintro ⟨first, second, third, rest, rfl, type, isRequest⟩
    exact ⟨⟨first &&& maxInstanceId, second, third, rest⟩, first, rfl, type, isRequest, rfl⟩

end Request

/-! ### Responses -/

namespace Response

variable {response : Response}

theorem toBytes_eq (response : Response) :
    response.toBytes =
      if response.instanceId ≤ maxInstanceId ∧ response.type ≤ maxMessageType then
        .ok (response.instanceId :: response.type :: response.command :: response.completion ::
          response.payload)
      else .error .unfitHeader := by
  have first : response.header.firstByte = response.instanceId := by
    simp [Header.firstByte, header]
  have written := response.header.toBytes_append (response.completion :: response.payload)
  rw [first] at written
  exact written

theorem toBytes_eq_ok_iff :
    response.toBytes = .ok bytes ↔
      (response.instanceId ≤ maxInstanceId ∧ response.type ≤ maxMessageType) ∧
        bytes = response.instanceId :: response.type :: response.command ::
          response.completion :: response.payload := by
  rw [toBytes_eq]
  split
  next fits => rw [and_iff_right fits, Except.ok.injEq, eq_comm]
  next unfit => exact iff_of_false nofun fun h => unfit h.1

theorem ofBytes_eq_ok_iff :
    ofBytes bytes = .ok response ↔
      ∃ first, bytes = first :: response.type :: response.command :: response.completion ::
          response.payload ∧
        response.type ≤ maxMessageType ∧ first &&& 0x80 = 0 ∧
        response.instanceId = first &&& maxInstanceId := by
  rw [show ofBytes bytes = (Header.ofBytes bytes).bind _ from rfl, bind_eq_ok_iff]
  constructor
  · rintro ⟨header, head, read⟩
    obtain ⟨first, rest, rfl, type, isRequest, -, iid⟩ := Header.ofBytes_eq_ok_iff.mp head
    cases flag : header.request with
    | true =>
      simp only [flag] at read
      cases read
    | false =>
      cases rest with
      | nil =>
        simp only [flag] at read
        cases read
      | cons completion payload =>
        simp only [flag] at read
        cases read
        exact ⟨first, rfl, type, by simpa [flag] using isRequest, iid⟩
  · rintro ⟨first, rfl, type, isResponse, iid⟩
    have head : Header.ofBytes (first :: response.type :: response.command ::
          response.completion :: response.payload) =
        .ok ⟨false, first &&& 0x40 != 0, response.instanceId, response.type, response.command⟩ :=
      Header.ofBytes_eq_ok_iff.mpr ⟨first, _, rfl, type, by simp [isResponse], rfl, iid⟩
    exact ⟨_, head, rfl⟩

/-- Writing what was read gives the bytes again, but for what is no part of a response. -/
theorem toBytes_of_ofBytes (read : ofBytes bytes = .ok response) :
    response.toBytes = .ok (Header.plain bytes) := by
  obtain ⟨first, rfl, type, isResponse, iid⟩ := ofBytes_eq_ok_iff.mp read
  obtain ⟨-, again, fits⟩ := Header.rewritten_first first
  rw [toBytes_eq_ok_iff, iid, and_iff_right ⟨fits, type⟩, again isResponse]
  rfl

/-- Bytes are a response if they are enough for a header and a completion code, the version is 0
and the first bit clear. -/
theorem exists_ofBytes_iff :
    (∃ response, ofBytes bytes = .ok response) ↔
      ∃ first second third completion rest,
        bytes = first :: second :: third :: completion :: rest ∧
        second ≤ maxMessageType ∧ first &&& 0x80 = 0 := by
  simp only [ofBytes_eq_ok_iff]
  constructor
  · rintro ⟨response, first, rfl, type, isResponse, -⟩
    exact ⟨first, _, _, _, _, rfl, type, isResponse⟩
  · rintro ⟨first, second, third, completion, rest, rfl, type, isResponse⟩
    exact ⟨⟨first &&& maxInstanceId, second, third, completion, rest⟩, first, rfl, type,
      isResponse, rfl⟩

end Response

/-! ### Messages -/

/-- Requests and responses can be written just if the instance ID is below 32 and the type below
64, and are read back then. What is read is written as the same bytes, but for the datagram bit
and the reserved one. No bytes are read as a request and as a response, and of those that have
room for a completion code and a header of version 0, all are read as one of them. -/
theorem framing_round_trips :
    (∀ request : Request,
      ((∃ bytes, request.toBytes = .ok bytes) ↔ request.instanceId ≤ 31 ∧ request.type ≤ 63) ∧
        ∀ bytes, request.toBytes = .ok bytes → Request.ofBytes bytes = .ok request) ∧
    (∀ response : Response,
      ((∃ bytes, response.toBytes = .ok bytes) ↔
        response.instanceId ≤ 31 ∧ response.type ≤ 63) ∧
        ∀ bytes, response.toBytes = .ok bytes → Response.ofBytes bytes = .ok response) ∧
    (∀ bytes request, Request.ofBytes bytes = .ok request →
      request.toBytes = .ok (Header.plain bytes)) ∧
    (∀ bytes response, Response.ofBytes bytes = .ok response →
      response.toBytes = .ok (Header.plain bytes)) ∧
    (∀ bytes, ¬ ((∃ request, Request.ofBytes bytes = .ok request) ∧
      ∃ response, Response.ofBytes bytes = .ok response)) ∧
    ∀ (bytes : List UInt8) (second : UInt8), 4 ≤ bytes.length → bytes[1]? = some second →
      second >>> 6 = 0 →
        ((∃ request, Request.ofBytes bytes = .ok request) ↔
          ¬ ∃ response, Response.ofBytes bytes = .ok response) := by
  refine ⟨fun request => ⟨?_, fun _ => Request.ofBytes_toBytes⟩,
    fun response => ⟨?_, fun _ => Response.ofBytes_toBytes⟩, fun _ _ => Request.toBytes_of_ofBytes,
    fun _ _ => Response.toBytes_of_ofBytes, fun bytes => ?_, fun bytes second enough => ?_⟩
  · simp only [Request.toBytes_eq_ok_iff, exists_and_left, exists_eq, and_true]
    rfl
  · simp only [Response.toBytes_eq_ok_iff, exists_and_left, exists_eq, and_true]
    rfl
  · rw [Request.exists_ofBytes_iff, Response.exists_ofBytes_iff]
    rintro ⟨⟨first, _, _, _, rfl, -, isRequest⟩, _, _, _, _, _, eq, -, isResponse⟩
    cases eq
    exact isRequest isResponse
  · match bytes, enough with
    | first :: second :: third :: completion :: rest, _ =>
      rintro ⟨⟩ version
      have type := (Header.type_of_second second).2.1.mp version
      rw [Request.exists_ofBytes_iff, Response.exists_ofBytes_iff]
      constructor
      · rintro ⟨_, _, _, _, ⟨⟩, -, isRequest⟩ ⟨_, _, _, _, _, ⟨⟩, -, isResponse⟩
        exact isRequest isResponse
      · intro none
        refine ⟨first, second, third, _, rfl, type, fun isResponse => none ?_⟩
        exact ⟨first, second, third, completion, rest, rfl, type, isResponse⟩

/-- A request with the largest instance ID and type, and all bits of its first byte set, and a
response whose datagram bit and reserved bit are set. -/
theorem framing_round_trips_flagged :
    let request : Request := { instanceId := 31, type := 63, command := 0x11, payload := [1] }
    let response : Response :=
      { instanceId := 7, type := 2, command := 0x11, completion := 0, payload := [0xaa] }
    Request.ofBytes [0xff, 0x3f, 0x11, 1] = .ok request ∧
    request.toBytes = .ok [0x9f, 0x3f, 0x11, 1] ∧
    Request.ofBytes [0x9f, 0x3f, 0x11, 1] = .ok request ∧
    (¬ ∃ response, Response.ofBytes [0xff, 0x3f, 0x11, 1] = .ok response) ∧
    Response.ofBytes [0x67, 2, 0x11, 0, 0xaa] = .ok response ∧
    response.toBytes = .ok [7, 2, 0x11, 0, 0xaa] ∧
    Response.ofBytes [7, 2, 0x11, 0, 0xaa] = .ok response := by
  intro request response
  obtain ⟨requests, responses, rewritten, rewritten', -, oneOf⟩ := framing_round_trips
  have read : Request.ofBytes [0xff, 0x3f, 0x11, 1] = .ok request := rfl
  have read' : Response.ofBytes [0x67, 2, 0x11, 0, 0xaa] = .ok response := rfl
  have written : request.toBytes = .ok [0x9f, 0x3f, 0x11, 1] := rewritten _ _ read
  have written' : response.toBytes = .ok [7, 2, 0x11, 0, 0xaa] := rewritten' _ _ read'
  exact ⟨read, written, (requests request).2 _ written,
    (oneOf _ 0x3f (by decide) rfl (by decide)).mp ⟨request, read⟩, read', written',
    (responses response).2 _ written'⟩

end TerminusMonitor
