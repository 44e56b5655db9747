import TerminusMonitor.Proofs.Framing

/-!
A buffer is written whole or not at all.

What is written is made first, and then looked at beside the buffer: only if all of it can be made
and has room does it take the place of as many bytes.

* `overwrite`: bytes over the start of a buffer, if they have room;
* `Body.write_eq_error_iff`, `Body.write_eq_ok_iff`: a body written over the start of a buffer;
* `Body.writeRequest_eq_error_iff`, `Body.writeRequest_eq_ok_iff`: a whole request;
* `buffer_written_whole_or_kept`: what is left in the buffer, and what is read of it again.
-/

namespace TerminusMonitor

variable {α : Type} [Body α] {m : α} {iid : UInt8} {command : Command}
  {bytes buffer after : List UInt8} {fault : MessageFault} {n : Nat}

/-! ### Bytes over the start of a buffer -/

/-- Bytes in the place of as many at the start of a buffer, if that is as long. -/
def overwrite (bytes buffer : List UInt8) : Except MessageFault Nat × List UInt8 :=
  if buffer.length < bytes.length then (.error .noRoom, buffer)
  else (.ok bytes.length, bytes ++ buffer.drop bytes.length)

theorem overwrite_eq_error_iff :
    overwrite bytes buffer = (.error fault, after) ↔
      after = buffer ∧ fault = .noRoom ∧ buffer.length < bytes.length := by
  unfold overwrite
  split
  next short => simp [short, eq_comm, and_comm]
  next room => simp [room]

theorem overwrite_eq_ok_iff :
    overwrite bytes buffer = (.ok n, after) ↔
      n = bytes.length ∧ n ≤ buffer.length ∧ after = bytes ++ buffer.drop n := by
  unfold overwrite
  split
  next short =>
    refine iff_of_false nofun ?_
    rintro ⟨rfl, room, -⟩
    omega
  next room =>
    constructor
    · rintro ⟨⟩
      exact ⟨rfl, Nat.le_of_not_lt room, rfl⟩
    · rintro ⟨rfl, -, rfl⟩
      rfl

/-! ### Bodies and requests -/

namespace Body

/-- A body cannot be written just if its fields do not agree. -/
theorem toBytes_eq_error_iff : toBytes m = .error fault ↔ check m = .error fault := by
  unfold toBytes
  cases check m with
  | error fault =>
    constructor
    · rintro ⟨⟩
      rfl
    · rintro ⟨⟩
      rfl
  | ok => exact iff_of_false nofun nofun

theorem write_eq :
    write m buffer =
      match toBytes m with
      | .error fault => (.error fault, buffer)
      | .ok bytes => overwrite bytes buffer := rfl

/-- Writing a body fails just if its fields do not agree or it has no room. -/
theorem write_eq_error_iff :
    write m buffer = (.error fault, after) ↔
      after = buffer ∧ (check m = .error fault ∨
        fault = .noRoom ∧ ∃ bytes, toBytes m = .ok bytes ∧ buffer.length < bytes.length) := by
  rw [write_eq, ← toBytes_eq_error_iff]
  cases toBytes m with
  | error => simp [eq_comm, and_comm]
  | ok bytes => simp [overwrite_eq_error_iff]

/-- A body that is written takes the place of as many bytes. -/
theorem write_eq_ok_iff :
    write m buffer = (.ok n, after) ↔
      ∃ bytes, toBytes m = .ok bytes ∧ n = bytes.length ∧ n ≤ buffer.length ∧
        after = bytes ++ buffer.drop n := by
  rw [write_eq]
  cases toBytes m with
  | error => simp
  | ok bytes => simp [overwrite_eq_ok_iff]

theorem length_request {body : List UInt8} :
    ((iid ||| 0x80) :: platformType :: Coded.code command :: body).length =
      headerLength + body.length :=
  Nat.add_comm body.length 3

/-- A request whose instance ID fits is written if its body is and all of it has room. If the ID
does not fit, that is found only if there is room. -/
theorem writeRequest_eq :
    writeRequest iid command m buffer =
      match toBytes m with
      | .error fault => (.error fault, buffer)
      | .ok body =>
        if iid ≤ maxInstanceId then
          overwrite ((iid ||| 0x80) :: platformType :: Coded.code command :: body) buffer
        else
          (.error (if buffer.length < headerLength + body.length then .noRoom else .unfitHeader),
            buffer) := by
  have known : platformType ≤ maxMessageType := by decide
  unfold writeRequest
  cases toBytes m with
  | error => rfl
  | ok body =>
    simp only [Request.toBytes_eq, known, and_true]
    by_cases fits : iid ≤ maxInstanceId
    · simp only [fits, if_true, overwrite, length_request]
    · simp only [fits, if_false]
      split <;> rfl

/-- Writing a request fails just if the fields of its body do not agree, or it has no room, or it
has and the instance ID does not fit the header. -/
theorem writeRequest_eq_error_iff :
    writeRequest iid command m buffer = (.error fault, after) ↔
      after = buffer ∧ (check m = .error fault ∨
        ∃ body, toBytes m = .ok body ∧
          (fault = .noRoom ∧ buffer.length < headerLength + body.length ∨
            fault = .unfitHeader ∧ headerLength + body.length ≤ buffer.length ∧
              ¬ iid ≤ maxInstanceId)) := by
  rw [writeRequest_eq, ← toBytes_eq_error_iff]
  cases toBytes m with
  | error => simp [eq_comm, and_comm]
  | ok body =>
    simp only
    split
    next fits =>
      rw [overwrite_eq_error_iff, length_request]
      simp [fits]
    next unfit =>
      split
      next short => simp [short, Nat.not_le_of_lt short, eq_comm, and_comm]
      next room =>
        have room' := Nat.le_of_not_lt room
        simp [room, room', UInt8.not_le.mp unfit, eq_comm, and_comm]

/-- A request that is written takes the place of as many bytes: three for its header, and those of
its body. -/
theorem writeRequest_eq_ok_iff :
    writeRequest iid command m buffer = (.ok n, after) ↔
      iid ≤ maxInstanceId ∧ ∃ body, toBytes m = .ok body ∧ n = headerLength + body.length ∧
        n ≤ buffer.length ∧
        after = (iid ||| 0x80) :: platformType :: Coded.code command :: body ++ buffer.drop n := by
  rw [writeRequest_eq]
  cases toBytes m with
  | error => simp
  | ok body =>
    simp only
    split
    next fits =>
      rw [overwrite_eq_ok_iff, length_request]
      simp [fits]
    next unfit => exact iff_of_false nofun fun h => unfit h.1

end Body

/-! ### What is left in a buffer -/

/-- Writing a body or a whole request over the start of a buffer leaves the buffer as it is if it
fails, and it fails only if the fields of the body do not agree, or there is no room for all of
it, or, for a request, the instance ID is above 31. If it does not fail, as many bytes as it tells
are those of the body, after a header of three bytes for a request, and the others are as before;
and what was written of a request is read as one with the instance ID, the type 2, the command
and the bytes of the body. -/
theorem buffer_written_whole_or_kept (m : α) (iid : UInt8) (command : Command)
    (buffer : List UInt8) :
    (∀ fault after, Body.write m buffer = (.error fault, after) →
      after = buffer ∧ (Body.check m = .error fault ∨
        ∃ bytes, Body.toBytes m = .ok bytes ∧ buffer.length < bytes.length)) ∧
    (∀ n after, Body.write m buffer = (.ok n, after) →
      ∃ bytes, Body.toBytes m = .ok bytes ∧ n = bytes.length ∧ n ≤ buffer.length ∧
        after = bytes ++ buffer.drop n) ∧
    (∀ fault after, Body.writeRequest iid command m buffer = (.error fault, after) →
      after = buffer ∧ (Body.check m = .error fault ∨
        (∃ body, Body.toBytes m = .ok body ∧ buffer.length < 3 + body.length) ∨ 31 < iid)) ∧
    ∀ n after, Body.writeRequest iid command m buffer = (.ok n, after) →
      ∃ header body, header.length = 3 ∧ Body.toBytes m = .ok body ∧ n = 3 + body.length ∧
        n ≤ buffer.length ∧ after = header ++ body ++ buffer.drop n ∧
        Request.ofBytes (after.take n) =
          .ok { instanceId := iid, type := 2, command := Coded.code command, payload := body } := by
  have known : platformType ≤ maxMessageType := by decide
  refine ⟨fun fault after written => ?_, fun n after => Body.write_eq_ok_iff.mp,
    fun fault after written => ?_, fun n after written => ?_⟩
  · obtain ⟨kept, invalid | ⟨-, short⟩⟩ := Body.write_eq_error_iff.mp written
    · exact ⟨kept, .inl invalid⟩
    · exact ⟨kept, .inr short⟩
  · obtain ⟨kept, invalid | ⟨body, made, ⟨-, short⟩ | ⟨-, -, unfit⟩⟩⟩ :=
      Body.writeRequest_eq_error_iff.mp written
    · exact ⟨kept, .inl invalid⟩
    · exact ⟨kept, .inr (.inl ⟨body, made, short⟩)⟩
    · exact ⟨kept, .inr (.inr (UInt8.not_le.mp unfit))⟩
  · obtain ⟨fits, body, made, rfl, room, rfl⟩ := Body.writeRequest_eq_ok_iff.mp written
    refine ⟨[iid ||| 0x80, platformType, Coded.code command], body, rfl, made, rfl, room, rfl, ?_⟩
    rw [List.take_left' Body.length_request]
    exact Request.ofBytes_toBytes (Request.toBytes_eq_ok_iff.mpr ⟨⟨fits, known⟩, rfl⟩)

/-- Asks for the first part of a record. -/
def firstPart : FetchRecord.Query :=
  { record := 7, transfer := 0, operation := .getFirstPart, count := 100, change := 0 }

/-- The request for a part of a record takes 16 bytes: 15 are left as they are, of 18 the last two
are, and all are if the instance ID is 32; of its body alone the 13 bytes are the same. -/
theorem buffer_written_whole_or_kept_firstPart :
    let query : List UInt8 := [7, 0, 0, 0, 0, 0, 0, 0, 1, 100, 0, 0, 0]
    Body.toBytes firstPart = .ok query ∧
    (∃ after, Body.write firstPart (List.replicate 12 0xa5) = (.error .noRoom, after) ∧
      after = List.replicate 12 0xa5) ∧
    (∃ after, Body.write firstPart (List.replicate 14 0xa5) = (.ok 13, after) ∧
      after = query ++ [0xa5]) ∧
    (∃ after, Body.writeRequest 1 .getPDR firstPart (List.replicate 15 0xa5) =
      (.error .noRoom, after) ∧ after = List.replicate 15 0xa5) ∧
    (∃ after, Body.writeRequest 32 .getPDR firstPart (List.replicate 18 0xa5) =
      (.error .unfitHeader, after) ∧ after = List.replicate 18 0xa5) ∧
    ∃ after, Body.writeRequest 1 .getPDR firstPart (List.replicate 18 0xa5) = (.ok 16, after) ∧
      after = [0x81, 2, 0x51] ++ query ++ [0xa5, 0xa5] ∧
      Request.ofBytes (after.take 16) =
        .ok { instanceId := 1, type := 2, command := 0x51, payload := query } := by
  intro query
  have made : Body.toBytes firstPart = .ok query := rfl
  have whole (buffer : List UInt8) (iid : UInt8) :=
    buffer_written_whole_or_kept firstPart iid .getPDR buffer
  refine ⟨made, ⟨_, rfl, ((whole _ 1).1 _ _ rfl).1⟩, ⟨_, rfl, ?_⟩,
    ⟨_, rfl, ((whole _ 1).2.2.1 _ _ rfl).1⟩, ⟨_, rfl, ((whole _ 32).2.2.1 _ _ rfl).1⟩,
    ⟨_, rfl, rfl, ?_⟩⟩
  · obtain ⟨bytes, written, -, -, after⟩ := (whole (List.replicate 14 0xa5) 1).2.1 13 _ rfl
    cases made.symm.trans written
    exact after
  · obtain ⟨_, body, -, written, -, -, -, read⟩ :=
      (whole (List.replicate 18 0xa5) 1).2.2.2 16 _ rfl
    cases made.symm.trans written
    exact read

end TerminusMonitor
