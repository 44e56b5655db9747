import TerminusMonitor.Platform.Exchange
import TerminusMonitor.Proofs.RoundTrip

/-!
Records are read from exactly the bytes that they are written as.

Three formats are nested in the answer to a request for a record: the answer counts the bytes of
the record, the header of the record those of its data, and a sensor in the data tells the
widths of its numbers.

* `Record.ofBytes_put_append`: what is read from a header and the bytes after it, or why nothing
  is; `Record.ofBytes_short`: fewer bytes than a header has are no record;
* `Record.ofBytes_eq_ok_iff`: what is read is written as the bytes that it was read from;
* `FetchRecord.parse_eq_ok_iff`, `FetchRecord.parse_of_part`: from a response that carries an
  answer the record is read if the answer holds the whole of it, and not otherwise;
* `Record.read_from_its_bytes`: which bytes are records, that reading loses nothing of them, and
  that the record of a sensor is read from the response that carries it in one part.
-/

namespace TerminusMonitor

variable {bytes rest : List UInt8}

/-! ### What succeeds -/

section

variable {ε α β : Type} {e : Except ε α} {b : β}

theorem map_eq_ok_iff {f : α → β} : f <$> e = .ok b ↔ ∃ a, e = .ok a ∧ f a = b := by
  cases e <;> simp [Functor.map, Except.map]

theorem bind_eq_ok_iff {f : α → Except ε β} : e.bind f = .ok b ↔ ∃ a, e = .ok a ∧ f a = .ok b := by
  cases e <;> simp [Except.bind]

end

/-! ### Headers -/

/-- Any two bytes are a number. -/
theorem Wire.exists_put16 (low high : UInt8) : ∃ n : UInt16, put16 n = [low, high] := by
  obtain ⟨eqLow, eqHigh⟩ := join16_eq_iff.mp (rfl : low.toUInt16 ||| (high.toUInt16 <<< 8) = _)
  exact ⟨low.toUInt16 ||| (high.toUInt16 <<< 8), by rw [put16, ← eqLow, ← eqHigh]⟩

/-- Any four bytes are a number. -/
theorem Wire.exists_put32 (b₀ b₁ b₂ b₃ : UInt8) : ∃ n : UInt32, put32 n = [b₀, b₁, b₂, b₃] := by
  obtain ⟨low, lowBytes⟩ := exists_put16 b₀ b₁
  obtain ⟨high, highBytes⟩ := exists_put16 b₂ b₃
  obtain ⟨eqLow, eqHigh⟩ := join32_eq_iff.mp (rfl : low.toUInt32 ||| (high.toUInt32 <<< 16) = _)
  exact ⟨low.toUInt32 ||| (high.toUInt32 <<< 16), by
    rw [put32_eq, ← eqLow, ← eqHigh, lowBytes, highBytes]
    rfl⟩

/-- The two bytes of a number are worth it, the second one 256 times as much. -/
theorem Wire.toNat_of_bytes (n : UInt16) :
    n.toUInt8.toNat + 256 * (n >>> 8).toUInt8.toNat = n.toNat := by
  rw [← toNat_join16, join16_eq_iff.mpr ⟨rfl, rfl⟩]

namespace RecordHeader

@[simp] theorem reads_get {header : RecordHeader} :
    Reads get bytes header rest ↔ bytes = header.put ++ rest := by
  cases header
  simp [get, put]

theorem length_put (header : RecordHeader) : header.put.length = size := rfl

/-- Any bytes that are enough for a header start with one. -/
theorem exists_put (enough : size ≤ bytes.length) :
    ∃ (header : RecordHeader) (rest : List UInt8), bytes = header.put ++ rest := by
  match bytes, enough with
  | b₀ :: b₁ :: b₂ :: b₃ :: version :: type :: b₆ :: b₇ :: b₈ :: b₉ :: rest, _ =>
    obtain ⟨handle, handleBytes⟩ := Wire.exists_put32 b₀ b₁ b₂ b₃
    obtain ⟨change, changeBytes⟩ := Wire.exists_put16 b₆ b₇
    obtain ⟨length, lengthBytes⟩ := Wire.exists_put16 b₈ b₉
    refine ⟨{ handle, version, type, change, length }, rest, ?_⟩
    simp [put, Field.put, handleBytes, changeBytes, lengthBytes]

end RecordHeader

/-! ### Data -/

/-- A sensor is read from its bytes and from no others. -/
theorem NumericSensorRecord.ofBytes_eq_ok_iff {r : NumericSensorRecord} :
    Body.ofBytes bytes = .ok r ↔ Body.toBytes r = .ok bytes := by
  rw [NumericSensorRecord.exact.ofBytes_eq_ok_iff, Body.toBytes_eq_ok_iff, true_and,
    eq_comm (a := bytes)]

namespace RecordData

variable {type : UInt8} {data : RecordData}

/-- Whether data is of a type. -/
def IsOf (type : UInt8) : RecordData → Prop
  | numericSensor _ => type = Record.numericSensorType
  | other _ => type ≠ Record.numericSensorType

/-- The bytes of data. -/
def toBytes : RecordData → Except MessageFault (List UInt8)
  | numericSensor sensor => Body.toBytes sensor
  | other bytes => .ok bytes

/-- Reads data of a type. -/
def ofBytes (type : UInt8) (bytes : List UInt8) : Except MessageFault RecordData :=
  if type = Record.numericSensorType then numericSensor <$> Body.ofBytes bytes
  else .ok (other bytes)

theorem ofBytes_eq_ok_iff :
    ofBytes type bytes = .ok data ↔ data.IsOf type ∧ data.toBytes = .ok bytes := by
  unfold ofBytes
  split
  next sensor =>
    simp only [map_eq_ok_iff, NumericSensorRecord.ofBytes_eq_ok_iff]
    cases data <;> simp [IsOf, toBytes, sensor]
  next opaqueType => cases data <;> simp [IsOf, toBytes, opaqueType, eq_comm]

/-- Bytes are data of a type unless they are to be a sensor and are none. -/
theorem exists_ofBytes_iff :
    (∃ data, ofBytes type bytes = .ok data) ↔
      (type = Record.numericSensorType →
        ∃ r : NumericSensorRecord, Body.ofBytes bytes = .ok r) := by
  unfold ofBytes
  split
  next sensor => simp [map_eq_ok_iff, sensor]
  next opaqueType => simp [opaqueType]

end RecordData

/-! ### Records -/

namespace Record

variable {record : Record}

/-- The bytes of a record: its header as it is, and its data. -/
def toBytes (r : Record) : Except MessageFault (List UInt8) := do
  return r.header.put ++ (← r.data.toBytes)

/-- What is read from the bytes of a header and those after it. -/
theorem ofBytes_put_append (header : RecordHeader) (rest : List UInt8) :
    ofBytes (header.put ++ rest) =
      if header.version ≠ RecordHeader.knownVersion then
        .error (.recordVersion header.handle header.version)
      else if rest.length ≠ header.length.toNat then
        .error (.recordLength header.handle header.length rest.length)
      else ({ header, data := · }) <$> RecordData.ofBytes header.type rest := by
  have read : RecordHeader.get.run (header.put ++ rest) = .ok (header, rest) :=
    RecordHeader.reads_get.mpr rfl
  unfold ofBytes RecordData.ofBytes
  rw [read]
  change (if header.version != RecordHeader.knownVersion then throw _ else _) = _
  simp only [bne_iff_ne]
  split
  next => rfl
  next =>
    split
    next => rfl
    next =>
      split
      next => cases (Body.ofBytes rest : Except MessageFault NumericSensorRecord) <;> rfl
      next => rfl

/-- Fewer bytes than a header has are no record. -/
theorem ofBytes_short (tooShort : bytes.length < RecordHeader.size) :
    ofBytes bytes = .error .short := by
  match bytes, tooShort with
  | [], _ | [_], _ | [_, _], _ | [_, _, _], _ | [_, _, _, _], _ | [_, _, _, _, _], _
  | [_, _, _, _, _, _], _ | [_, _, _, _, _, _, _], _ | [_, _, _, _, _, _, _, _], _
  | [_, _, _, _, _, _, _, _, _], _ => rfl

/-- From the bytes of a header and those after it a record is read if the header is of the known
version and tells their number, and if they are data of its type. -/
theorem ofBytes_put_append_eq_ok_iff {header : RecordHeader} :
    ofBytes (header.put ++ rest) = .ok record ↔
      header.version = RecordHeader.knownVersion ∧ rest.length = header.length.toNat ∧
        record.header = header ∧ RecordData.ofBytes header.type rest = .ok record.data := by
  rw [ofBytes_put_append]
  split
  next other => exact iff_of_false nofun fun h => other h.1
  next known =>
    split
    next other => exact iff_of_false nofun fun h => other h.2.1
    next counts =>
      rw [Decidable.not_not] at known counts
      rw [map_eq_ok_iff, and_iff_right known, and_iff_right counts]
      constructor
      · rintro ⟨data, read, rfl⟩
        exact ⟨rfl, read⟩
      · rintro ⟨rfl, read⟩
        exact ⟨record.data, read, rfl⟩

/-- What is read is written as the bytes that it was read from: the header is of the known
version and tells the type and the number of the bytes of the data. -/
theorem ofBytes_eq_ok_iff :
    ofBytes bytes = .ok record ↔
      record.header.version = RecordHeader.knownVersion ∧
      record.data.IsOf record.header.type ∧
      ∃ data, record.data.toBytes = .ok data ∧ data.length = record.header.length.toNat ∧
        bytes = record.header.put ++ data := by
  rcases Nat.lt_or_ge bytes.length RecordHeader.size with tooShort | enough
  · rw [ofBytes_short tooShort]
    refine iff_of_false nofun ?_
    rintro ⟨-, -, data, -, -, rfl⟩
    rw [List.length_append, RecordHeader.length_put] at tooShort
    omega
  · obtain ⟨header, rest, rfl⟩ := RecordHeader.exists_put enough
    rw [ofBytes_put_append_eq_ok_iff, RecordData.ofBytes_eq_ok_iff]
    constructor
    · rintro ⟨known, counts, rfl, isOf, written⟩
      exact ⟨known, isOf, rest, written, counts, rfl⟩
    · rintro ⟨known, isOf, data, written, counts, eq⟩
      have read := RecordHeader.reads_get.mpr (rfl : header.put ++ rest = header.put ++ rest)
      cases read.symm.trans (RecordHeader.reads_get.mpr eq)
      exact ⟨known, counts, rfl, isOf, written⟩

/-- What bytes have to be for a record: enough for a header, of the known version and with the
number of the bytes after it, and those bytes a sensor if the header says so. -/
structure Formed (bytes : List UInt8) : Prop where
  size_le : RecordHeader.size ≤ bytes.length
  version : bytes[4]? = some RecordHeader.knownVersion
  length : ∃ low high, bytes[8]? = some low ∧ bytes[9]? = some high ∧
    (bytes.drop RecordHeader.size).length = low.toNat + 256 * high.toNat
  sensor : bytes[5]? = some numericSensorType →
    ∃ r : NumericSensorRecord, Body.ofBytes (bytes.drop RecordHeader.size) = .ok r

theorem formed_put_append_iff {header : RecordHeader} :
    Formed (header.put ++ rest) ↔
      header.version = RecordHeader.knownVersion ∧ rest.length = header.length.toNat ∧
        (header.type = numericSensorType →
          ∃ r : NumericSensorRecord, Body.ofBytes rest = .ok r) := by
  have version : (header.put ++ rest)[4]? = some header.version := rfl
  have type : (header.put ++ rest)[5]? = some header.type := rfl
  have low : (header.put ++ rest)[8]? = some header.length.toUInt8 := rfl
  have high : (header.put ++ rest)[9]? = some (header.length >>> 8).toUInt8 := rfl
  have data : (header.put ++ rest).drop RecordHeader.size = rest := rfl
  constructor
  · rintro ⟨-, known, ⟨l, h, isLow, isHigh, counts⟩, sensor⟩
    rw [version, Option.some.injEq] at known
    cases low.symm.trans isLow
    cases high.symm.trans isHigh
    rw [data, Wire.toNat_of_bytes] at counts
    rw [type, Option.some.injEq, data] at sensor
    exact ⟨known, counts, sensor⟩
  · rintro ⟨known, counts, sensor⟩
    refine ⟨?_, version.trans (congrArg some known), ⟨_, _, low, high, ?_⟩, ?_⟩
    · rw [List.length_append, RecordHeader.length_put]
      exact Nat.le_add_right ..
    · rw [data, Wire.toNat_of_bytes, counts]
    · rwa [type, Option.some.injEq, data]

/-- Bytes are those of a record just if they are formed so. -/
theorem exists_ofBytes_iff : (∃ record, ofBytes bytes = .ok record) ↔ Formed bytes := by
  rcases Nat.lt_or_ge bytes.length RecordHeader.size with tooShort | enough
  · refine iff_of_false ?_ fun formed => Nat.not_le_of_lt tooShort formed.size_le
    rw [ofBytes_short tooShort]
    rintro ⟨_, ⟨⟩⟩
  · obtain ⟨header, rest, rfl⟩ := RecordHeader.exists_put enough
    rw [formed_put_append_iff, ← RecordData.exists_ofBytes_iff]
    simp only [ofBytes_put_append_eq_ok_iff]
    constructor
    · rintro ⟨record, known, counts, -, read⟩
      exact ⟨known, counts, record.data, read⟩
    · rintro ⟨known, counts, data, read⟩
      exact ⟨{ header, data }, known, counts, rfl, read⟩

end Record

/-! ### Records of sensors -/

theorem Quantity.length_put_le (q : Quantity) : q.put.length ≤ 4 := by
  cases q <;> simp [put, Field.put, Wire.put16, Wire.put32]

theorem Limit.length_put_le (l : Limit) : l.put.length ≤ 4 := by
  cases l with
  | whole q => exact q.length_put_le
  | real x => exact Nat.le_refl _

namespace NumericSensorRecord

variable {r : NumericSensorRecord}

/-- A sensor takes 47 bytes beside its twelve numbers of up to four bytes. -/
theorem length_put_le (r : NumericSensorRecord) : (Body.put r).length ≤ 95 := by
  have := r.hysteresis.length_put_le
  have := r.maxReadable.length_put_le
  have := r.minReadable.length_put_le
  have := r.nominal.length_put_le
  have := r.normalMax.length_put_le
  have := r.normalMin.length_put_le
  have := r.warningHigh.length_put_le
  have := r.warningLow.length_put_le
  have := r.criticalHigh.length_put_le
  have := r.criticalLow.length_put_le
  have := r.fatalHigh.length_put_le
  have := r.fatalLow.length_put_le
  simp only [Body.put, Field.put, Wire.put16, Wire.put32, List.length_append, List.length_cons,
    List.length_nil]
  omega

/-- The record of a sensor under a handle. -/
def record (handle : UInt32) (r : NumericSensorRecord) : Record where
  header :=
    { handle, version := RecordHeader.knownVersion, type := Record.numericSensorType, change := 0
      length := (Body.put r).length.toUInt16 }
  data := .numericSensor r

/-- The record of a sensor whose fields agree is read back from the bytes made of it. -/
theorem ofBytes_recordBytes (handle : UInt32) (ok : Body.check r = .ok ()) :
    ∃ content, r.recordBytes handle = .ok content ∧ content.length < 0x10000 ∧
      Record.ofBytes content = .ok (r.record handle) := by
  have written : Body.toBytes r = .ok (Body.put r) := Body.toBytes_eq_ok_iff.mpr ⟨ok, rfl⟩
  have few := r.length_put_le
  refine ⟨(r.record handle).header.put ++ Body.put r, ?_, ?_, ?_⟩
  · unfold recordBytes
    rw [written]
    rfl
  · rw [List.length_append, RecordHeader.length_put]
    change 10 + _ < _
    omega
  · refine Record.ofBytes_eq_ok_iff.mpr ⟨rfl, rfl, Body.put r, written, ?_, rfl⟩
    exact eq_count16_iff.mpr ⟨by omega, rfl⟩

end NumericSensorRecord

/-! ### Responses -/

namespace FetchRecord

variable {response : Response} {answer : Answer}

/-- A response is one to the request for a record, successful, and carries an answer. -/
structure Carries (response : Response) (answer : Answer) : Prop where
  type : response.type = platformType
  command : response.command = Coded.code Command.getPDR
  success : response.completion = success
  payload : Body.toBytes answer = .ok response.payload

/-- The answer that a response carries is read from it, as far as the bytes of its content fit
their count, and no other is. -/
theorem ofBytes_payload_iff (type : response.type = platformType)
    (command : response.command = Coded.code Command.getPDR)
    (success : response.completion = success) :
    Body.ofBytes response.payload = .ok answer ↔
      Carries response answer ∧ answer.content.length < 0x10000 := by
  rw [exact_answer.ofBytes_eq_ok_iff]
  constructor
  · rintro ⟨ok, counts, bytes⟩
    exact ⟨⟨type, command, success, Body.toBytes_eq_ok_iff.mpr ⟨ok, bytes.symm⟩⟩, counts⟩
  · rintro ⟨carries, counts⟩
    obtain ⟨ok, bytes⟩ := Body.toBytes_eq_ok_iff.mp carries.payload
    exact ⟨ok, counts, bytes.symm⟩

/-- What is read from a response: it has to be one to the request for a record and successful,
and the answer in it has to hold the whole of a record. -/
theorem parse_eq (response : Response) :
    parse response =
      if response.type = platformType ∧ response.command = Coded.code Command.getPDR then
        if response.completion = success then
          (Body.ofBytes response.payload : Except MessageFault Answer).bind fun answer =>
            if answer.flag = .startAndEnd then
              (·, answer.nextRecord) <$> Record.ofBytes answer.content
            else .error (.multipart answer.flag)
        else .error (.refused response.completion)
      else .error (.otherCommand response.type response.command .getPDR) := by
  unfold parse Response.expect Body.ofResponse accepted
  split
  next =>
    split
    next =>
      cases (Body.ofBytes response.payload : Except MessageFault Answer) with
      | error => rfl
      | ok answer =>
        change (if answer.flag != .startAndEnd then throw _ else _) = _
        simp only [Except.bind, bne_iff_ne, ite_not]
        split
        next => cases Record.ofBytes answer.content <;> rfl
        next => rfl
    next => rfl
  next => rfl

/-- A record is read from a response just if that is one to the request for a record, successful,
and carries an answer that holds the whole of it. -/
theorem parse_eq_ok_iff {record : Record} {next : UInt32} :
    parse response = .ok (record, next) ↔
      ∃ answer, Carries response answer ∧ answer.content.length < 0x10000 ∧
        answer.flag = .startAndEnd ∧ Record.ofBytes answer.content = .ok record ∧
        answer.nextRecord = next := by
  rw [parse_eq]
  constructor
  · intro read
    split at read
    next expected =>
      split at read
      next success =>
        obtain ⟨answer, payload, read⟩ := bind_eq_ok_iff.mp read
        obtain ⟨carries, counts⟩ := (ofBytes_payload_iff expected.1 expected.2 success).mp payload
        split at read
        next whole =>
          obtain ⟨_, content, eq⟩ := map_eq_ok_iff.mp read
          cases eq
          exact ⟨answer, carries, counts, whole, content, rfl⟩
        next => cases read
      next => cases read
    next => cases read
  · rintro ⟨answer, carries, counts, whole, read, rfl⟩
    rw [if_pos ⟨carries.type, carries.command⟩, if_pos carries.success,
      (ofBytes_payload_iff carries.type carries.command carries.success).mpr ⟨carries, counts⟩,
      Except.bind, if_pos whole, read]
    rfl

/-- A response that carries another part than the whole of a record is refused. -/
theorem parse_of_part (carries : Carries response answer)
    (counts : answer.content.length < 0x10000) (part : answer.flag ≠ .startAndEnd) :
    parse response = .error (.multipart answer.flag) := by
  rw [parse_eq, if_pos ⟨carries.type, carries.command⟩, if_pos carries.success,
    (ofBytes_payload_iff carries.type carries.command carries.success).mpr ⟨carries, counts⟩]
  exact if_neg part

end FetchRecord

/-- Bytes are a record just if they are a header of the known version, which counts the bytes
after it, and those are a sensor if the header says so; and what is read of them is written as
the same bytes. Of a sensor whose fields agree a record can be made under any handle, and from
a response that carries it in one part it is read back, with that handle and the handle of the
next record; a response that carries it as any other part is refused. Nothing is read from a
response that carries no answer with the whole of a record. -/
theorem Record.read_from_its_bytes :
    (∀ bytes, (∃ record, Record.ofBytes bytes = .ok record) ↔ Record.Formed bytes) ∧
    (∀ bytes record, Record.ofBytes bytes = .ok record → record.toBytes = .ok bytes) ∧
    (∀ (handle : UInt32) (r : NumericSensorRecord), Body.check r = .ok () →
      ∃ content, r.recordBytes handle = .ok content ∧
        ∀ response answer, FetchRecord.Carries response answer → answer.content = content →
          (answer.flag = .startAndEnd →
            ∃ record, FetchRecord.parse response = .ok (record, answer.nextRecord) ∧
              record.header.handle = handle ∧ record.data = .numericSensor r) ∧
          (answer.flag ≠ .startAndEnd →
            FetchRecord.parse response = .error (.multipart answer.flag))) ∧
    ∀ response record next, FetchRecord.parse response = .ok (record, next) →
      ∃ answer, FetchRecord.Carries response answer ∧ answer.flag = .startAndEnd ∧
        Record.ofBytes answer.content = .ok record ∧ answer.nextRecord = next := by
  refine ⟨fun _ => Record.exists_ofBytes_iff, fun bytes record read => ?_,
    fun handle r ok => ?_, fun response record next read => ?_⟩
  · obtain ⟨-, -, data, written, -, rfl⟩ := Record.ofBytes_eq_ok_iff.mp read
    unfold Record.toBytes
    rw [written]
    rfl
  · obtain ⟨content, made, counts, read⟩ := NumericSensorRecord.ofBytes_recordBytes handle ok
    refine ⟨content, made, ?_⟩
    rintro response answer carries rfl
    refine ⟨fun whole => ?_, FetchRecord.parse_of_part carries counts⟩
    exact ⟨r.record handle,
      FetchRecord.parse_eq_ok_iff.mpr ⟨answer, carries, counts, whole, read, rfl⟩, rfl, rfl⟩
  · obtain ⟨answer, carries, -, whole, content, eq⟩ := FetchRecord.parse_eq_ok_iff.mp read
    exact ⟨answer, carries, whole, content, eq⟩

/-- The record of a temperature sensor comes in one part, and another time as a last part. -/
theorem Record.read_from_its_bytes_temperature :
    ∃ whole last : Response, ∃ content record,
      (NumericSensorRecord.temperature 5).recordBytes 1 = .ok content ∧
      FetchRecord.Carries whole ⟨2, 0, .startAndEnd, content, none⟩ ∧
      FetchRecord.parse whole = .ok (record, 2) ∧ record.header.handle = 1 ∧
      record.data = .numericSensor (NumericSensorRecord.temperature 5) ∧
      FetchRecord.Carries last ⟨2, 0, .last, content, some 0xa5⟩ ∧
      FetchRecord.parse last = .error (.multipart .last) := by
  have agree : Body.check (NumericSensorRecord.temperature 5) = .ok () := rfl
  obtain ⟨content, made, read⟩ := Record.read_from_its_bytes.2.2.1 1 _ agree
  let response (answer : FetchRecord.Answer) : Response :=
    ⟨0, platformType, Coded.code Command.getPDR, success, Body.put answer⟩
  have carriesWhole : FetchRecord.Carries (response ⟨2, 0, .startAndEnd, content, none⟩)
      ⟨2, 0, .startAndEnd, content, none⟩ := ⟨rfl, rfl, rfl, rfl⟩
  have carriesLast : FetchRecord.Carries (response ⟨2, 0, .last, content, some 0xa5⟩)
      ⟨2, 0, .last, content, some 0xa5⟩ := ⟨rfl, rfl, rfl, rfl⟩
  obtain ⟨record, parsed, handle, data⟩ := (read _ _ carriesWhole rfl).1 rfl
  exact ⟨_, _, content, record, made, carriesWhole, parsed, handle, data, carriesLast,
    (read _ _ carriesLast rfl).2 nofun⟩

end TerminusMonitor
