import TerminusMonitor.Proofs.Truncation

/-!
Counts in bodies.

A body with a list tells the number of its elements before them, in one byte for the members of a
composite effecter and in two bytes for a part of a record. There are never more members than eight
in what is written. But nothing bounds a part of a record, so of the number of its bytes only what
two bytes hold is written: such a part cannot be read again.

* `BodyKind.count_of_written`: the count that is written of a list;
* `FetchRecord.Answer.ofBytes_put_of_uncounted`: a part whose count is not the number of its bytes
  is refused when it is read;
* `counts_hold_iff_they_fit`: counts are true just if they fit, and members of an effecter that do
  not fit are refused;
* `part_written_uncounted`: but parts of a record are not.
-/

namespace TerminusMonitor

variable {bytes : List UInt8}

/-! ### The part of a record -/

namespace FetchRecord

variable {answer : Answer}

/-- What a part of a record is taken for when it is read: its content is as much as the count
tells, and the check sum is the byte after that. -/
def Answer.misread (answer : Answer) : Answer :=
  let counted := answer.content.length % 0x10000
  { answer with
    content := answer.content.take counted
    checksum := if answer.flag = .last then (answer.content.drop counted).head? else none }

/-- After as many bytes as the count tells come more than one. -/
theorem Answer.exists_uncounted (uncounted : 0x10000 ≤ answer.content.length) :
    ∃ b left, answer.content.drop (answer.content.length % 0x10000) = b :: left ∧ left ≠ [] := by
  have many : 2 ≤ (answer.content.drop (answer.content.length % 0x10000)).length := by
    rw [List.length_drop]
    omega
  match answer.content.drop (answer.content.length % 0x10000), many with
  | b :: c :: left, _ => exact ⟨b, c :: left, rfl, nofun⟩

theorem Answer.check_misread (uncounted : 0x10000 ≤ answer.content.length) :
    Body.check answer.misread = .ok () := by
  obtain ⟨b, left, dropped, _⟩ := exists_uncounted uncounted
  refine check_answer.mpr ?_
  simp only [misread, dropped, List.head?_cons]
  split
  next last => exact iff_of_true last rfl
  next part => exact iff_of_false part nofun

/-- The bytes of a part whose count is not the number of its bytes start with those of what it is
taken for, and some are left. -/
theorem Answer.put_eq_put_misread (uncounted : 0x10000 ≤ answer.content.length) :
    ∃ left, left ≠ [] ∧ Body.put answer = Body.put answer.misread ++ left := by
  obtain ⟨b, left, dropped, more⟩ := exists_uncounted uncounted
  have content := List.take_append_drop (answer.content.length % 0x10000) answer.content
  have count : (answer.content.take (answer.content.length % 0x10000)).length.toUInt16 =
      answer.content.length.toUInt16 := by
    rw [List.length_take_of_le (Nat.mod_le ..)]
    simp [← UInt16.toNat_inj]
  rw [dropped] at content
  refine ⟨if answer.flag = .last then left ++ answer.checksum.toList else b :: left, ?_, ?_⟩
  · split <;> simp [more]
  · simp only [Body.put, misread, dropped, count]
    generalize answer.content.take (answer.content.length % 0x10000) = taken at content
    split
    next last => simp [← content]
    next part => simp [← content]

/-- So it is refused, as having bytes after its end. -/
theorem Answer.ofBytes_put_of_uncounted (ok : Body.check answer = .ok ())
    (uncounted : 0x10000 ≤ answer.content.length) :
    (Body.ofBytes (Body.put answer) : Except MessageFault Answer) = .error .trailing := by
  obtain ⟨left, more, put⟩ := put_eq_put_misread uncounted
  have counts : answer.misread.content.length < 0x10000 := by
    simp only [misread, List.length_take]
    omega
  have reads : Reads Body.get (Body.put answer) answer.misread left :=
    (exact_answer.reads_iff (check_misread uncounted)).mpr ⟨counts, put⟩
  exact Body.ofBytes_of_left (exact_answer.shortest_le ok) reads more

end FetchRecord

/-! ### Counts -/

namespace BodyKind

/-- The bytes of the elements in the list of a body: the members of a composite effecter, or the
bytes of a part of a record. -/
def elements? : (kind : BodyKind) → kind.Of → Option (List (List UInt8))
  | setStateEffecterQuery, query => some (query.members.map SetStateEffecter.Member.put)
  | fetchRecordAnswer, answer => some (answer.content.map Field.put)
  | _, _ => none

/-- Where the elements start in the bytes of a body: after the effecter and the count, or after two
handles, the flag and the count. -/
def listStart : BodyKind → Nat
  | setStateEffecterQuery => 3
  | fetchRecordAnswer => 11
  | _ => 0

/-- The count in the bytes of a body, just before the elements: one byte or two. -/
def count? : BodyKind → List UInt8 → Option Nat
  | setStateEffecterQuery, bytes => bytes[2]?.map (·.toNat)
  | fetchRecordAnswer, bytes => do
    let low ← bytes[9]?
    let high ← bytes[10]?
    return low.toNat + 256 * high.toNat
  | _, _ => none

variable {kind : BodyKind} {m : kind.Of} {elements : List (List UInt8)}

/-- The elements of a list are written one after the other, and before them as much of their number
as two bytes hold. -/
theorem count_of_written (written : Body.toBytes m = .ok bytes)
    (list : kind.elements? m = some elements) :
    elements.flatten <+: bytes.drop kind.listStart ∧
      kind.count? bytes = some (elements.length % 0x10000) := by
  obtain ⟨ok, rfl⟩ := Body.toBytes_eq_ok_iff.mp written
  cases kind with
  | setStateEffecterQuery =>
    change SetStateEffecter.Query at m
    cases list
    refine ⟨List.prefix_refl _, ?_⟩
    have few := (SetStateEffecter.check_query.mp ok).2
    have count : (Body.put m)[2]? = some m.members.length.toUInt8 := rfl
    change (Body.put m)[2]?.map _ = _
    rw [count, Option.map_some, List.length_map]
    unfold SetStateEffecter.maxMembers at few
    simp
    omega
  | fetchRecordAnswer =>
    change FetchRecord.Answer at m
    cases list
    have start : (Body.put m).drop 11 =
        m.content ++ if m.flag = .last then m.checksum.toList else [] := rfl
    have low : (Body.put m)[9]? = some m.content.length.toUInt16.toUInt8 := rfl
    have high : (Body.put m)[10]? = some (m.content.length.toUInt16 >>> 8).toUInt8 := rfl
    have flat : (m.content.map Field.put).flatten = m.content := List.flatMap_singleton' m.content
    constructor
    · change _ <+: (Body.put m).drop 11
      rw [start, flat]
      exact List.prefix_append ..
    · change ((Body.put m)[9]?.bind fun low => (Body.put m)[10]?.bind fun high => _) = _
      rw [low, high, Option.bind_some, Option.bind_some, List.length_map]
      exact congrArg some ((Wire.toNat_of_bytes _).trans (by simp))
  | _ => cases list

/-- If the elements are more than two bytes can count, what is written is refused. -/
theorem ofBytes_of_uncounted (written : Body.toBytes m = .ok bytes)
    (list : kind.elements? m = some elements) (uncounted : 0x10000 ≤ elements.length) :
    (Body.ofBytes bytes : Except MessageFault kind.Of) = .error .trailing := by
  obtain ⟨ok, rfl⟩ := Body.toBytes_eq_ok_iff.mp written
  cases kind with
  | setStateEffecterQuery =>
    cases list
    have few := (SetStateEffecter.check_query.mp ok).2
    rw [List.length_map] at uncounted
    exact absurd (Nat.le_trans uncounted few) (by decide)
  | fetchRecordAnswer =>
    cases list
    rw [List.length_map] at uncounted
    exact FetchRecord.Answer.ofBytes_put_of_uncounted ok uncounted
  | _ => cases list

end BodyKind

theorem SetStateEffecter.exists_toBytes_iff {query : SetStateEffecter.Query} :
    (∃ bytes, Body.toBytes query = .ok bytes) ↔
      1 ≤ query.members.length ∧ query.members.length ≤ maxMembers := by
  simp only [Body.toBytes_eq_ok_iff, exists_and_left, exists_eq', and_true, check_query]

/-- Whenever a body with a list is written, the elements of the list stand one after the other, and
the count before them is their number as far as two bytes hold it: it is their number just if they
are fewer than 65536. Of members of a composite effecter just one to eight are written, and other
numbers of them are refused. What is written of a longer part of a record is no part of a record:
it is refused when it is read, as having bytes after its end. -/
theorem counts_hold_iff_they_fit (kind : BodyKind) (m : kind.Of) (elements : List (List UInt8))
    (list : kind.elements? m = some elements) :
    (∀ bytes, Body.toBytes m = .ok bytes →
      elements.flatten <+: bytes.drop kind.listStart ∧
      kind.count? bytes = some (elements.length % 0x10000) ∧
      (kind.count? bytes = some elements.length ↔ elements.length < 0x10000) ∧
      (0x10000 ≤ elements.length →
        (Body.ofBytes bytes : Except MessageFault kind.Of) = .error .trailing)) ∧
    (kind = .setStateEffecterQuery →
      ((∃ bytes, Body.toBytes m = .ok bytes) ↔ 1 ≤ elements.length ∧ elements.length ≤ 8)) := by
  constructor
  · intro bytes written
    obtain ⟨follow, count⟩ := BodyKind.count_of_written written list
    refine ⟨follow, count, ?_, BodyKind.ofBytes_of_uncounted written list⟩
    rw [count, Option.some.injEq]
    omega
  · rintro rfl
    cases list
    rw [List.length_map]
    exact SetStateEffecter.exists_toBytes_iff

/-- A part of a record with 65536 bytes. -/
def uncountedPart : FetchRecord.Answer :=
  { nextRecord := 0, nextTransfer := 0, flag := .startAndEnd, content := List.replicate 0x10000 1
    checksum := none }

/-- A last part of three bytes has the count 3, and one of 65536 bytes is written and cannot be read
again. -/
theorem counts_hold_iff_they_fit_parts :
    BodyKind.fetchRecordAnswer.elements? BodyKind.lastPart = some [[7], [8], [9]] ∧
    Body.toBytes BodyKind.lastPart = .ok BodyKind.lastPartBytes ∧
    BodyKind.fetchRecordAnswer.count? BodyKind.lastPartBytes = some 3 ∧
    ∃ bytes, Body.toBytes uncountedPart = .ok bytes ∧
      (Body.ofBytes bytes : Except MessageFault FetchRecord.Answer) = .error .trailing := by
  have list : BodyKind.fetchRecordAnswer.elements? BodyKind.lastPart = some [[7], [8], [9]] := rfl
  have written : Body.toBytes BodyKind.lastPart = .ok BodyKind.lastPartBytes := rfl
  have long : Body.toBytes uncountedPart = .ok (Body.put uncountedPart) := rfl
  have enough : 0x10000 ≤ (uncountedPart.content.map Field.put).length := by
    rw [List.length_map]
    exact Nat.le_of_eq List.length_replicate.symm
  exact ⟨list, written,
    ((counts_hold_iff_they_fit .fetchRecordAnswer _ _ list).1 _ written).2.1, _, long,
    ((counts_hold_iff_they_fit .fetchRecordAnswer _ _ rfl).1 _ long).2.2.2 enough⟩

/-- A part of 65536 bytes is written with a count of 0. -/
theorem part_written_uncounted :
    ∃ bytes elements, Body.toBytes uncountedPart = .ok bytes ∧
      BodyKind.fetchRecordAnswer.elements? uncountedPart = some elements ∧
      elements.length = 0x10000 ∧ BodyKind.fetchRecordAnswer.count? bytes = some 0 := by
  have written : Body.toBytes uncountedPart = .ok (Body.put uncountedPart) := rfl
  have list : BodyKind.fetchRecordAnswer.elements? uncountedPart =
      some (uncountedPart.content.map Field.put) := rfl
  have length : (uncountedPart.content.map Field.put).length = 0x10000 :=
    (List.length_map _).trans List.length_replicate
  have count := (BodyKind.count_of_written written list).2
  rw [length] at count
  exact ⟨_, _, written, list, length, count⟩

end TerminusMonitor
