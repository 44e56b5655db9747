import TerminusMonitor.Proofs.Reading

/-!
Messages are read back from what is written of them, and bodies from nothing else.

* `Request.ofBytes_toBytes`, `Response.ofBytes_toBytes`: requests and responses are read back;
* `Body.Exact`: what the layout of a body has to be for that, and
  `Body.Exact.ofBytes_eq_ok_iff`: what follows from it;
* `BodyKind.exact`: the layouts of all bodies are so;
* `BodyKind.written_body_is_read`, `BodyKind.read_body_is_written`: reading undoes writing, and
  writing undoes reading.
-/

namespace TerminusMonitor

variable {α : Type} {bytes rest : List UInt8}

/-! ### Requests and responses -/

/-- The flags and the instance ID share the first byte. -/
private theorem Header.firstByte_bits : ∀ iid : Fin 256, UInt8.ofFin iid ≤ maxInstanceId →
    ∀ request datagram : Bool,
      let first := UInt8.ofFin iid ||| (if request then 0x80 else 0) |||
        (if datagram then 0x40 else 0)
      (first &&& 0x80 != 0) = request ∧ (first &&& 0x40 != 0) = datagram ∧
        first &&& maxInstanceId = UInt8.ofFin iid := by
  decide +kernel

private theorem Header.type_bits : ∀ type : Fin 256, UInt8.ofFin type ≤ maxMessageType →
    UInt8.ofFin type &&& 0xc0 = 0 ∧ UInt8.ofFin type &&& maxMessageType = UInt8.ofFin type := by
  decide +kernel

/-- A header is read back from what was written of it, whatever follows. -/
theorem Header.ofBytes_append {header : Header} (written : header.toBytes = .ok bytes) :
    bytes.length = headerLength ∧ Header.ofBytes (bytes ++ rest) = .ok header := by
  unfold toBytes at written
  split at written
  next fits =>
    cases written
    simp only [Header.fits, Bool.and_eq_true, decide_eq_true_eq] at fits
    have flags := firstByte_bits header.instanceId.toFin fits.1 header.request header.datagram
    have version := type_bits header.type.toFin fits.2
    simp only [UInt8.ofFin_toFin] at flags version
    refine ⟨rfl, ?_⟩
    simp only [List.cons_append, List.nil_append, Header.ofBytes, version, if_true, firstByte,
      flags]
  next => cases written

theorem Request.ofBytes_toBytes {request : Request} (written : request.toBytes = .ok bytes) :
    Request.ofBytes bytes = .ok request := by
  unfold toBytes at written
  cases head : request.header.toBytes with
  | error fault =>
    rw [head] at written
    cases written
  | ok header =>
    rw [head] at written
    cases written
    obtain ⟨length, read⟩ : header.length = headerLength ∧
        Header.ofBytes (header ++ request.payload) = .ok request.header :=
      Header.ofBytes_append head
    unfold ofBytes
    rw [read, ← length]
    simp [bind, Except.bind, Request.header, pure, Except.pure]

/-- A response is written as its header, its completion code and its payload, and the header is
read back. -/
theorem Response.of_toBytes {response : Response} (written : response.toBytes = .ok bytes) :
    ∃ header : List UInt8, header.length = headerLength ∧
      bytes = header ++ response.completion :: response.payload ∧
      Header.ofBytes bytes = .ok response.header := by
  unfold toBytes at written
  cases head : response.header.toBytes with
  | error fault =>
    rw [head] at written
    cases written
  | ok header =>
    rw [head] at written
    cases written
    obtain ⟨length, read⟩ := Header.ofBytes_append head
    exact ⟨header, length, rfl, read⟩

theorem Response.ofBytes_toBytes {response : Response} (written : response.toBytes = .ok bytes) :
    Response.ofBytes bytes = .ok response := by
  obtain ⟨header, length, rfl, read⟩ := of_toBytes written
  unfold ofBytes
  rw [read, ← length]
  simp [bind, Except.bind, Response.header, pure, Except.pure]

/-! ### Bodies -/

namespace Body

variable [Body α] {m : α}

theorem toBytes_eq_ok_iff : toBytes m = .ok bytes ↔ check m = .ok () ∧ put m = bytes := by
  unfold toBytes
  cases check m with
  | error fault => exact ⟨nofun, nofun⟩
  | ok =>
    constructor
    · rintro ⟨⟩
      exact ⟨rfl, rfl⟩
    · rintro ⟨_, rfl⟩
      rfl

/-- What is read is all there is, and agrees in its fields. -/
theorem ofBytes_eq_ok_iff : ofBytes bytes = .ok m ↔
    shortest α ≤ bytes.length ∧ Reads get bytes m [] ∧ check m = .ok () := by
  unfold ofBytes
  split
  next tooShort => exact iff_of_false (by simp) fun h => absurd h.1 (Nat.not_le_of_lt tooShort)
  next enough =>
    have enough := Nat.le_of_not_lt enough
    simp only [enough, true_and, Reads]
    cases (get : Reader α).run bytes with
    | error fault =>
      constructor
      · rintro ⟨⟩
      · rintro ⟨⟨⟩, _⟩
    | ok r =>
      obtain ⟨m', rest⟩ := r
      cases rest with
      | cons b rest =>
        constructor
        · rintro ⟨⟩
        · rintro ⟨⟨⟩, _⟩
      | nil =>
        constructor
        · intro read
          change (check m' >>= fun _ => .ok m') = .ok m at read
          cases checked : check m' with
          | error fault =>
            rw [checked] at read
            cases read
          | ok =>
            rw [checked] at read
            cases read
            exact ⟨rfl, checked⟩
        · rintro ⟨⟨⟩, checked⟩
          change (check m >>= fun _ => .ok m) = .ok m
          rw [checked]
          rfl

/-- A layout from which exactly what was written is read back, as far as `counted` holds: it
says that each count fits the field it is written in. -/
structure Exact (counted : α → Prop) : Prop where
  shortest_le : ∀ {m : α}, check m = .ok () → shortest α ≤ (put m).length
  reads_iff : ∀ {m : α} {bytes rest : List UInt8}, check m = .ok () →
    (Reads get bytes m rest ↔ counted m ∧ bytes = put m ++ rest)

theorem Exact.ofBytes_eq_ok_iff {counted : α → Prop} (layout : Exact counted) :
    ofBytes bytes = .ok m ↔ check m = .ok () ∧ counted m ∧ bytes = put m := by
  rw [Body.ofBytes_eq_ok_iff]
  constructor
  · rintro ⟨_, reads, ok⟩
    obtain ⟨counts, rfl⟩ := (layout.reads_iff ok).mp reads
    exact ⟨ok, counts, List.append_nil _⟩
  · rintro ⟨ok, counts, rfl⟩
    exact ⟨layout.shortest_le ok, (layout.reads_iff ok).mpr ⟨counts, (List.append_nil _).symm⟩, ok⟩

end Body

/-- A platform request holds the bytes of its body. -/
theorem Request.of_ofBody [Body α] {command : Command} {body : α} {request : Request}
    (asked : Request.ofBody command body = .ok request) :
    ∃ payload, Body.toBytes body = .ok payload ∧
      .ofPayload platformType (Coded.code command) payload = request := by
  unfold ofBody at asked
  cases written : Body.toBytes body with
  | error fault =>
    rw [written] at asked
    cases asked
  | ok payload =>
    rw [written] at asked
    cases asked
    exact ⟨payload, rfl, rfl⟩

/-! ### Layouts -/

theorem Quantity.length_put_pos (q : Quantity) : 1 ≤ q.put.length := by
  cases q <;> exact Nat.le_add_left ..

theorem Limit.length_put_pos (l : Limit) : 1 ≤ l.put.length := by
  cases l with
  | whole q => exact q.length_put_pos
  | real x => exact Nat.le_add_left ..

theorem ReadSensor.exact_query : Body.Exact fun _ : ReadSensor.Query => True where
  shortest_le _ := Nat.le_refl _
  reads_iff {m _ _} _ := by
    cases m
    simp [Body.get, Body.put]

theorem ReadSensor.exact_answer : Body.Exact fun _ : ReadSensor.Answer => True where
  shortest_le {m} _ := by
    have reading := m.reading.length_put_pos
    simp only [Body.shortest, Body.put, Field.put, List.length_append, List.length_cons,
      List.length_nil]
    omega
  reads_iff {m _ _} _ := by
    cases m
    simp [Body.get, Body.put]

theorem SetNumericEffecter.exact_query : Body.Exact fun _ : SetNumericEffecter.Query => True where
  shortest_le {m} _ := by
    have value := m.value.length_put_pos
    simp only [Body.shortest, Body.put, Field.put, Wire.put16, List.length_append,
      List.length_cons, List.length_nil]
    omega
  reads_iff {m _ _} _ := by
    cases m
    simp [Body.get, Body.put]

theorem ReadNumericEffecter.exact_query :
    Body.Exact fun _ : ReadNumericEffecter.Query => True where
  shortest_le _ := Nat.le_refl _
  reads_iff {m _ _} _ := by
    cases m
    simp [Body.get, Body.put]

theorem ReadNumericEffecter.check_answer {a : ReadNumericEffecter.Answer} :
    Body.check a = .ok () ↔ a.pending.tag = a.present.tag := by
  simp [Body.check]

theorem ReadNumericEffecter.exact_answer :
    Body.Exact fun _ : ReadNumericEffecter.Answer => True where
  shortest_le {a} _ := by
    have pending := a.pending.length_put_pos
    have present := a.present.length_put_pos
    simp only [Body.shortest, Body.put, Field.put, List.length_append, List.length_cons,
      List.length_nil]
    omega
  reads_iff {a _ _} ok := by
    have tags := check_answer.mp ok
    obtain ⟨operation, pending, present⟩ := a
    simp [Body.get, Body.put, show pending.tag = present.tag from tags]

theorem SetStateEffecter.reads_member {m : Member} :
    Reads Member.get bytes m rest ↔ bytes = m.put ++ rest := by
  cases m
  simp [Member.get, Member.put]

theorem SetStateEffecter.check_query {q : SetStateEffecter.Query} :
    Body.check q = .ok () ↔ 1 ≤ q.members.length ∧ q.members.length ≤ maxMembers := by
  simp [Body.check]

theorem SetStateEffecter.exact_query : Body.Exact fun _ : SetStateEffecter.Query => True where
  shortest_le {q} ok := by
    have some := (check_query.mp ok).1
    obtain ⟨effecter, members⟩ := q
    cases members with
    | nil => cases some
    | cons m rest =>
      simp [Body.shortest, Body.put, Field.put, Wire.put16, Member.put]
  reads_iff {q _ _} ok := by
    have few := (check_query.mp ok).2
    obtain ⟨effecter, members⟩ := q
    have counts : members.length < 0x100 := Nat.lt_of_le_of_lt few (by decide)
    simp [Body.get, Body.put, reads_times reads_member, eq_count8_iff, counts]

theorem FetchRecord.exact_query : Body.Exact fun _ : FetchRecord.Query => True where
  shortest_le _ := Nat.le_refl _
  reads_iff {m _ _} _ := by
    cases m
    simp [Body.get, Body.put]

theorem FetchRecord.check_answer {a : FetchRecord.Answer} :
    Body.check a = .ok () ↔ (a.flag = .last ↔ a.checksum.isSome) := by
  simp [Body.check]

theorem FetchRecord.reads_checksum {flag : TransferFlag} {checksum : Option UInt8} :
    Reads (getChecksum flag) bytes checksum rest ↔
      (flag = .last ↔ checksum.isSome) ∧ bytes = checksum.toList ++ rest := by
  unfold getChecksum
  split
  next last => cases checksum <;> simp [last, Field.put]
  next notLast => cases checksum <;> simp [notLast]

theorem FetchRecord.exact_answer :
    Body.Exact fun a : FetchRecord.Answer => a.content.length < 0x10000 where
  shortest_le {a} _ := by
    simp [Body.shortest, Body.put, Field.put, Wire.put16, Wire.put32]
  reads_iff {a _ _} ok := by
    have last := check_answer.mp ok
    obtain ⟨nextRecord, nextTransfer, flag, content, checksum⟩ := a
    have checked : (flag = .last ↔ checksum.isSome) = True := eq_true last
    have tail : (if flag = .last then checksum.toList else []) = checksum.toList := by
      cases checksum <;> simp_all
    simp [Body.get, Body.put, eq_count16_iff, reads_checksum, checked, tail, and_comm]

theorem NumericSensorRecord.check_record {r : NumericSensorRecord} :
    Body.check r = .ok () ↔ r.uniform = true := by
  simp [Body.check]

set_option maxRecDepth 2000 in
theorem NumericSensorRecord.exact : Body.Exact fun _ : NumericSensorRecord => True where
  shortest_le {r} _ := by
    have := r.hysteresis.length_put_pos
    have := r.maxReadable.length_put_pos
    have := r.minReadable.length_put_pos
    have := r.nominal.length_put_pos
    have := r.normalMax.length_put_pos
    have := r.normalMin.length_put_pos
    have := r.warningHigh.length_put_pos
    have := r.warningLow.length_put_pos
    have := r.criticalHigh.length_put_pos
    have := r.criticalLow.length_put_pos
    have := r.fatalHigh.length_put_pos
    have := r.fatalLow.length_put_pos
    simp only [Body.shortest, Body.put, Field.put, Wire.put16, Wire.put32, List.length_append,
      List.length_cons, List.length_nil]
    omega
  reads_iff {r _ _} ok := by
    have tags := check_record.mp ok
    cases r
    simp only [uniform, List.all_cons, List.all_nil, Bool.and_eq_true, beq_iff_eq, and_true] at tags
    simp only [Body.get, Body.put, reads_bind, reads_field, reads_quantity, reads_limit,
      reads_pure, NumericSensorRecord.mk.injEq, List.append_assoc, existsAndEq, and_true,
      true_and, and_assoc, tags]

/-! ### Kinds of bodies -/

/-- The kinds of platform message bodies, and the body of a sensor record. -/
inductive BodyKind where
  | readSensorQuery
  | readSensorAnswer
  | setNumericEffecterQuery
  | readNumericEffecterQuery
  | readNumericEffecterAnswer
  | setStateEffecterQuery
  | fetchRecordQuery
  | fetchRecordAnswer
  | numericSensorRecord
deriving DecidableEq, Repr

namespace BodyKind

/-- The bodies of a kind. -/
def Of : BodyKind → Type
  | readSensorQuery => ReadSensor.Query
  | readSensorAnswer => ReadSensor.Answer
  | setNumericEffecterQuery => SetNumericEffecter.Query
  | readNumericEffecterQuery => ReadNumericEffecter.Query
  | readNumericEffecterAnswer => ReadNumericEffecter.Answer
  | setStateEffecterQuery => SetStateEffecter.Query
  | fetchRecordQuery => FetchRecord.Query
  | fetchRecordAnswer => FetchRecord.Answer
  | numericSensorRecord => NumericSensorRecord

instance : (kind : BodyKind) → Body kind.Of
  | readSensorQuery => inferInstanceAs (Body ReadSensor.Query)
  | readSensorAnswer => inferInstanceAs (Body ReadSensor.Answer)
  | setNumericEffecterQuery => inferInstanceAs (Body SetNumericEffecter.Query)
  | readNumericEffecterQuery => inferInstanceAs (Body ReadNumericEffecter.Query)
  | readNumericEffecterAnswer => inferInstanceAs (Body ReadNumericEffecter.Answer)
  | setStateEffecterQuery => inferInstanceAs (Body SetStateEffecter.Query)
  | fetchRecordQuery => inferInstanceAs (Body FetchRecord.Query)
  | fetchRecordAnswer => inferInstanceAs (Body FetchRecord.Answer)
  | numericSensorRecord => inferInstanceAs (Body NumericSensorRecord)

/-- Whether the content of a body, if it holds a part of a record, is shorter than 65536 bytes,
so that its count can be written. -/
def counted : (kind : BodyKind) → kind.Of → Prop
  | fetchRecordAnswer, answer => answer.content.length < 0x10000
  | _, _ => True

theorem exact : (kind : BodyKind) → Body.Exact kind.counted
  | readSensorQuery => ReadSensor.exact_query
  | readSensorAnswer => ReadSensor.exact_answer
  | setNumericEffecterQuery => SetNumericEffecter.exact_query
  | readNumericEffecterQuery => ReadNumericEffecter.exact_query
  | readNumericEffecterAnswer => ReadNumericEffecter.exact_answer
  | setStateEffecterQuery => SetStateEffecter.exact_query
  | fetchRecordQuery => FetchRecord.exact_query
  | fetchRecordAnswer => FetchRecord.exact_answer
  | numericSensorRecord => NumericSensorRecord.exact

/-- A body whose fields agree can be written, and no other, and it is read back from what was
written. -/
theorem written_body_is_read (kind : BodyKind) (m : kind.Of) :
    ((∃ bytes, Body.toBytes m = .ok bytes) ↔ Body.check m = .ok ()) ∧
      ∀ bytes, Body.toBytes m = .ok bytes → kind.counted m → Body.ofBytes bytes = .ok m := by
  simp only [Body.toBytes_eq_ok_iff]
  constructor
  · exact ⟨fun ⟨_, ok, _⟩ => ok, fun ok => ⟨_, ok, rfl⟩⟩
  · rintro bytes ⟨ok, rfl⟩ counts
    exact (exact kind).ofBytes_eq_ok_iff.mpr ⟨ok, counts, rfl⟩

/-- The last part of a record, with its check sum. -/
def lastPart : FetchRecord.Answer :=
  { nextRecord := 0x102, nextTransfer := 0, flag := .last, content := [7, 8, 9]
    checksum := some 0xa5 }

/-- The bytes of that part. -/
def lastPartBytes : List UInt8 := [2, 1, 0, 0, 0, 0, 0, 0, 4, 3, 0, 7, 8, 9, 0xa5]

theorem written_lastPart_is_read :
    Body.toBytes lastPart = .ok lastPartBytes ∧ fetchRecordAnswer.counted lastPart ∧
      Body.ofBytes lastPartBytes = .ok lastPart := by
  have written : Body.toBytes lastPart = .ok lastPartBytes := rfl
  have counts : fetchRecordAnswer.counted lastPart := by
    change 3 < 0x10000
    decide
  exact ⟨written, counts,
    (written_body_is_read fetchRecordAnswer lastPart).2 lastPartBytes written counts⟩

/-- What is read agrees in its fields and is written as the bytes it was read from, so that it
is read from no others. -/
theorem read_body_is_written (kind : BodyKind) {m : kind.Of} (read : Body.ofBytes bytes = .ok m) :
    Body.check m = .ok () ∧ Body.toBytes m = .ok bytes ∧
      ∀ other, Body.ofBytes other = .ok m → other = bytes := by
  obtain ⟨ok, counts, rfl⟩ := (exact kind).ofBytes_eq_ok_iff.mp read
  refine ⟨ok, Body.toBytes_eq_ok_iff.mpr ⟨ok, rfl⟩, fun other again => ?_⟩
  exact ((exact kind).ofBytes_eq_ok_iff.mp again).2.2

theorem read_lastPart_is_written :
    Body.ofBytes lastPartBytes = .ok lastPart ∧ Body.check lastPart = .ok () ∧
      Body.toBytes lastPart = .ok lastPartBytes ∧
      ∀ other, Body.ofBytes other = .ok lastPart → other = lastPartBytes := by
  have read : Body.ofBytes lastPartBytes = .ok lastPart := rfl
  exact ⟨read, read_body_is_written fetchRecordAnswer read⟩

end BodyKind

end TerminusMonitor
