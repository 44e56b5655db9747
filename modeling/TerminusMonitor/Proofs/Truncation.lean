import TerminusMonitor.Proofs.Records

/-!
What is cut short or padded is refused for its length, and for nothing else.

What a reader makes of bytes does not hang on the bytes after them, unless they end too early for
it (`Steady`). So if bytes are read to their end, a reader of fewer of them finds nothing wrong
before they run out, and a reader of more is left with the rest.

* the instances of `Steady`: each construct of readers keeps it, so all bodies are read so;
* `Body.ofBytes_of_cut`, `Body.ofBytes_padded`: a body cut short, and one with bytes after it;
* `Record.ofBytes_of_cut`, `Record.ofBytes_padded`: a record, whose header counts its data;
* `wrong_length_is_refused`: both, for bodies of each kind and for records.
-/

namespace TerminusMonitor

variable {α β : Type} {bytes more rest : List UInt8}

/-! ### Steady readers -/

/-- A reader whose outcome does not depend on what follows the bytes, unless they end too early for
it. What follows is left. -/
class Steady (read : Reader α) : Prop where
  run_append : ∀ {bytes : List UInt8}, read.run bytes ≠ .error .short → ∀ more : List UInt8,
    read.run (bytes ++ more) = (read.run bytes).map fun r => (r.1, r.2 ++ more)

instance {x : α} : Steady (pure x : Reader α) := ⟨fun _ _ => rfl⟩

instance {fault : MessageFault} : Steady (throw fault : Reader α) := ⟨fun _ _ => rfl⟩

instance {read : Reader α} {f : α → Reader β} [first : Steady read] [next : ∀ x, Steady (f x)] :
    Steady (read >>= f) where
  run_append {bytes} enough more := by
    rw [StateT.run_bind] at enough
    rw [StateT.run_bind, StateT.run_bind]
    cases outcome : read.run bytes with
    | error fault =>
      rw [outcome] at enough
      have same : read.run bytes ≠ .error .short := by
        rw [outcome]
        rintro ⟨⟩
        exact enough rfl
      rw [first.run_append same, outcome]
      rfl
    | ok r =>
      rw [outcome] at enough
      have same : read.run bytes ≠ .error .short := outcome ▸ nofun
      rw [first.run_append same, outcome]
      exact (next r.1).run_append enough more

instance {read : Reader α} {f : α → β} [Steady read] : Steady (f <$> read) := by
  rw [← bind_pure_comp]
  infer_instance

instance : Steady Wire.byte where
  run_append {bytes} enough more := by
    cases bytes with
    | nil => exact absurd rfl enough
    | cons b rest => rfl

instance {n : Nat} : Steady (Wire.bytes n) where
  run_append {bytes} enough more := by
    simp only [Wire.bytes, StateT.run] at enough ⊢
    split at enough
    next => exact absurd rfl enough
    next left =>
      have fewer : ¬ (bytes ++ more).length < n := by
        rw [List.length_append]
        omega
      have le := Nat.le_of_not_lt left
      rw [if_neg left, if_neg fewer, List.take_append_of_le_length le,
        List.drop_append_of_le_length le]
      rfl

instance {read : Reader α} [Steady read] (n : Nat) : Steady (Wire.times read n) := by
  induction n with
  | zero => exact inferInstanceAs (Steady (pure [] : Reader (List α)))
  | succ n ih =>
    unfold Wire.times
    infer_instance

/-! ### Fields -/

instance : Steady (Field.get : Reader UInt8) := inferInstanceAs (Steady Wire.byte)

instance : Steady Wire.get16 := by
  unfold Wire.get16
  infer_instance

instance : Steady Wire.get32 := by
  unfold Wire.get32
  infer_instance

instance : Steady (Field.get : Reader UInt16) := inferInstanceAs (Steady Wire.get16)

instance : Steady (Field.get : Reader UInt32) := inferInstanceAs (Steady Wire.get32)

instance : Steady (Field.get : Reader Int8) :=
  inferInstanceAs (Steady (do return (← Wire.byte).toInt8))

instance : Steady (Field.get : Reader Int16) :=
  inferInstanceAs (Steady (do return (← Wire.get16).toInt16))

instance : Steady (Field.get : Reader Int32) :=
  inferInstanceAs (Steady (do return (← Wire.get32).toInt32))

instance : Steady (Field.get : Reader Real32) :=
  inferInstanceAs (Steady (do return Real32.mk (← Wire.get32)))

instance : Steady (Field.get : Reader Bool) := by
  simp only [Field.get]
  have decides (code : UInt8) : Steady (match code with
      | 0 => return false
      | 1 => return true
      | _ => throw .undefinedCode : Reader Bool) := by
    split <;> infer_instance
  infer_instance

instance [Coded α] : Steady (Field.get : Reader α) := by
  simp only [Field.get]
  have decides (code : UInt8) : Steady (match Coded.ofCode? code with
      | some x => return x
      | none => throw .undefinedCode : Reader α) := by
    split <;> infer_instance
  infer_instance

instance {tag : UInt8} : Steady (Quantity.get tag) := by
  unfold Quantity.get
  split <;> infer_instance

instance {tag : UInt8} : Steady (Limit.get tag) := by
  unfold Limit.get
  split <;> infer_instance

/-! ### Bodies -/

instance : Steady SetStateEffecter.Member.get := by
  unfold SetStateEffecter.Member.get
  infer_instance

instance {flag : TransferFlag} : Steady (FetchRecord.getChecksum flag) := by
  unfold FetchRecord.getChecksum
  split <;> infer_instance

/-- All bodies are read so. -/
theorem BodyKind.steady (kind : BodyKind) : Steady (Body.get : Reader kind.Of) := by
  cases kind
  case' readSensorQuery => change Steady (Body.get : Reader ReadSensor.Query)
  case' readSensorAnswer => change Steady (Body.get : Reader ReadSensor.Answer)
  case' setNumericEffecterQuery => change Steady (Body.get : Reader SetNumericEffecter.Query)
  case' readNumericEffecterQuery => change Steady (Body.get : Reader ReadNumericEffecter.Query)
  case' readNumericEffecterAnswer => change Steady (Body.get : Reader ReadNumericEffecter.Answer)
  case' setStateEffecterQuery => change Steady (Body.get : Reader SetStateEffecter.Query)
  case' fetchRecordQuery => change Steady (Body.get : Reader FetchRecord.Query)
  case' fetchRecordAnswer => change Steady (Body.get : Reader FetchRecord.Answer)
  case' numericSensorRecord => change Steady (Body.get : Reader NumericSensorRecord)
  all_goals
    simp only [Body.get]
    infer_instance

namespace Body

variable [Body α] {m : α}

/-- Bytes that are left when a body was read are trailing. -/
theorem ofBytes_of_left (enough : shortest α ≤ bytes.length) (reads : Reads get bytes m rest)
    (left : rest ≠ []) : (ofBytes bytes : Except MessageFault α) = .error .trailing := by
  unfold ofBytes
  rw [if_neg (Nat.not_lt_of_le enough), show (get : Reader α).run bytes = .ok (m, rest) from reads]
  cases rest with
  | nil => exact absurd rfl left
  | cons b rest => rfl

variable [steady : Steady (get : Reader α)]

/-- A body that is cut short is short. -/
theorem ofBytes_of_cut (read : ofBytes (bytes ++ more) = .ok m) (missing : more ≠ []) :
    (ofBytes bytes : Except MessageFault α) = .error .short := by
  obtain ⟨_, reads, _⟩ := ofBytes_eq_ok_iff.mp read
  have short : (get : Reader α).run bytes = .error .short := by
    refine Classical.byContradiction fun enough => ?_
    have same := (steady.run_append enough more).symm.trans reads
    cases outcome : (get : Reader α).run bytes with
    | error fault =>
      rw [outcome] at same
      cases same
    | ok r =>
      rw [outcome] at same
      -- The bytes that were cut off would be left.
      have left : r.2 ++ more = [] := (Prod.mk.inj (Except.ok.inj same)).2
      exact missing (List.append_eq_nil_iff.mp left).2
  unfold ofBytes
  split
  next => rfl
  next =>
    rw [short]
    rfl

/-- Bytes after a body are trailing. -/
theorem ofBytes_padded (read : ofBytes bytes = .ok m) (padded : more ≠ []) :
    (ofBytes (bytes ++ more) : Except MessageFault α) = .error .trailing := by
  obtain ⟨enough, reads, _⟩ := ofBytes_eq_ok_iff.mp read
  have ok : (get : Reader α).run bytes = .ok (m, []) := reads
  have left : Reads (get : Reader α) (bytes ++ more) m more := by
    unfold Reads
    rw [steady.run_append (by rw [ok]; exact nofun), ok]
    rfl
  refine ofBytes_of_left ?_ left padded
  rw [List.length_append]
  exact Nat.le_add_right_of_le enough

end Body

/-! ### Records -/

namespace Record

variable {record : Record}

theorem length_sub_size (header : RecordHeader) :
    (header.put ++ rest).length - RecordHeader.size = rest.length := by
  rw [List.length_append, RecordHeader.length_put, Nat.add_sub_cancel_left]

/-- A record that is cut short has no whole header, or less data than that tells. -/
theorem ofBytes_of_cut (read : ofBytes (bytes ++ more) = .ok record) (missing : more ≠ []) :
    ofBytes bytes = .error (if bytes.length < RecordHeader.size then .short
      else .recordLength record.header.handle record.header.length
        (bytes.length - RecordHeader.size)) := by
  split
  next tooShort => exact ofBytes_short tooShort
  next enough =>
    obtain ⟨header, rest, rfl⟩ := RecordHeader.exists_put (Nat.le_of_not_lt enough)
    rw [List.append_assoc] at read
    obtain ⟨known, counts, rfl, _⟩ := ofBytes_put_append_eq_ok_iff.mp read
    have fewer : rest.length ≠ record.header.length.toNat := by
      have := List.length_pos_iff.mpr missing
      rw [List.length_append] at counts
      omega
    rw [ofBytes_put_append, if_neg (not_not_intro known), if_pos fewer, length_sub_size]

/-- Bytes after a record are more data than its header tells. -/
theorem ofBytes_padded (read : ofBytes bytes = .ok record) (padded : more ≠ []) :
    ofBytes (bytes ++ more) = .error (.recordLength record.header.handle record.header.length
      ((bytes ++ more).length - RecordHeader.size)) := by
  obtain ⟨known, _, data, _, counts, rfl⟩ := ofBytes_eq_ok_iff.mp read
  have longer : (data ++ more).length ≠ record.header.length.toNat := by
    have := List.length_pos_iff.mpr padded
    rw [List.length_append]
    omega
  rw [List.append_assoc, ofBytes_put_append, if_neg (not_not_intro known), if_pos longer,
    length_sub_size]

end Record

/-! ### Bodies and records -/

/-- Of bytes that are read, as a body of any kind or as a record, each proper part from the front
and each longer sequence that starts with them is refused, as being of an invalid length. -/
theorem wrong_length_is_refused :
    (∀ (kind : BodyKind) (bytes : List UInt8) (m : kind.Of), Body.ofBytes bytes = .ok m →
      ∀ other, other ≠ bytes → other <+: bytes ∨ bytes <+: other →
        ∃ fault, (Body.ofBytes other : Except MessageFault kind.Of) = .error fault ∧
          fault.kind = .invalidLength) ∧
    ∀ (bytes : List UInt8) (record : Record), Record.ofBytes bytes = .ok record →
      ∀ other, other ≠ bytes → other <+: bytes ∨ bytes <+: other →
        ∃ fault, Record.ofBytes other = .error fault ∧ fault.kind = .invalidLength := by
  constructor
  · rintro kind bytes m read other differs (⟨more, rfl⟩ | ⟨more, rfl⟩)
    · have := kind.steady
      exact ⟨_, Body.ofBytes_of_cut read (by simpa using differs), rfl⟩
    · have := kind.steady
      exact ⟨_, Body.ofBytes_padded read (by simpa using differs), rfl⟩
  · rintro bytes record read other differs (⟨more, rfl⟩ | ⟨more, rfl⟩)
    · refine ⟨_, Record.ofBytes_of_cut read (by simpa using differs), ?_⟩
      split <;> rfl
    · exact ⟨_, Record.ofBytes_padded read (by simpa using differs), rfl⟩

/-- The bytes of a record of another type, with three bytes of data. -/
def otherRecordBytes : List UInt8 := [1, 0, 0, 0, 1, 11, 0, 0, 3, 0, 0xaa, 0xbb, 0xcc]

/-- A last part is refused without its check sum, and a record with a byte after it. -/
theorem wrong_length_is_refused_ends :
    Body.ofBytes BodyKind.lastPartBytes = .ok BodyKind.lastPart ∧
    (∃ fault, (Body.ofBytes BodyKind.lastPartBytes.dropLast : Except _ FetchRecord.Answer) =
      .error fault ∧ fault.kind = .invalidLength) ∧
    (∃ record, Record.ofBytes otherRecordBytes = .ok record) ∧
    ∃ fault, Record.ofBytes (otherRecordBytes ++ [0]) = .error fault ∧
      fault.kind = .invalidLength := by
  have body : Body.ofBytes BodyKind.lastPartBytes = .ok BodyKind.lastPart := rfl
  obtain ⟨record, read⟩ : ∃ record, Record.ofBytes otherRecordBytes = .ok record := ⟨_, rfl⟩
  exact ⟨body, wrong_length_is_refused.1 .fetchRecordAnswer _ _ body _ (by decide)
      (.inl (List.dropLast_prefix _)),
    ⟨record, read⟩, wrong_length_is_refused.2 _ _ read _ (by decide)
      (.inr (List.prefix_append ..))⟩

end TerminusMonitor
