import Mathlib.Tactic.Simproc.ExistsAndEq
import TerminusMonitor.Platform.Exchange

/-!
What a reader takes from the front of its bytes.

`Reads read bytes x rest` says that a reader takes `x` off the bytes and leaves the rest. For
each field this is the case exactly when the bytes start with the written form of `x`, so
nothing else is ever read as `x`, and nothing is lost. The rules below are equivalences: they
run the reader of a body through and leave the form that its bytes have.

* `reads_field`: fields of one width;
* `reads_quantity`, `reads_limit`: numbers whose width a tag tells;
* `reads_bytes`, `reads_times`: as many bytes or values as a count tells.
-/

namespace TerminusMonitor

variable {α β : Type} {bytes rest : List UInt8}

/-- A reader takes a value off the front of bytes and leaves the rest. -/
def Reads (read : Reader α) (bytes : List UInt8) (x : α) (rest : List UInt8) : Prop :=
  read.run bytes = .ok (x, rest)

/-! ### Constructs of readers -/

@[simp] theorem reads_pure {x y : α} : Reads (pure x) bytes y rest ↔ x = y ∧ bytes = rest := by
  change Except.ok (x, bytes) = Except.ok (y, rest) ↔ _
  simp

@[simp] theorem reads_bind {read : Reader α} {f : α → Reader β} {y : β} :
    Reads (read >>= f) bytes y rest ↔
      ∃ x middle, Reads read bytes x middle ∧ Reads (f x) middle y rest := by
  simp only [Reads, StateT.run_bind]
  cases read.run bytes with
  | error fault => simp [bind, Except.bind]
  | ok r =>
    obtain ⟨x, middle⟩ := r
    constructor
    · exact fun reads => ⟨x, middle, rfl, reads⟩
    · rintro ⟨_, _, ⟨⟩, reads⟩
      exact reads

@[simp] theorem reads_map {read : Reader α} {f : α → β} {y : β} :
    Reads (f <$> read) bytes y rest ↔ ∃ x, Reads read bytes x rest ∧ f x = y := by
  simp only [← bind_pure_comp, reads_bind, reads_pure]
  constructor
  · rintro ⟨x, _, reads, eq, rfl⟩
    exact ⟨x, reads, eq⟩
  · rintro ⟨x, reads, eq⟩
    exact ⟨x, rest, reads, eq, rfl⟩

@[simp] theorem not_reads_throw {fault : MessageFault} {x : α} :
    ¬ Reads (throw fault) bytes x rest := nofun

@[simp] theorem reads_byte {b : UInt8} : Reads Wire.byte bytes b rest ↔ bytes = b :: rest := by
  cases bytes with
  | nil => exact ⟨nofun, nofun⟩
  | cons b' rest' => simp [Reads, Wire.byte, StateT.run]

@[simp] theorem reads_bytes {n : Nat} {content : List UInt8} :
    Reads (Wire.bytes n) bytes content rest ↔ content.length = n ∧ bytes = content ++ rest := by
  simp only [Reads, Wire.bytes, StateT.run]
  constructor
  · intro reads
    split at reads
    · cases reads
    next enough =>
      cases reads
      exact ⟨List.length_take_of_le (Nat.le_of_not_lt enough), (List.take_append_drop n bytes).symm⟩
  · rintro ⟨rfl, rfl⟩
    simp

/-! A count tells a number if the number fits it. -/

theorem eq_count8_iff {n : Nat} {count : UInt8} :
    n = count.toNat ↔ n < 0x100 ∧ count = n.toUInt8 := by
  have fits := count.toNat_lt
  rw [← UInt8.toNat_inj]
  simp
  omega

theorem eq_count16_iff {n : Nat} {count : UInt16} :
    n = count.toNat ↔ n < 0x10000 ∧ count = n.toUInt16 := by
  have fits := count.toNat_lt
  rw [← UInt16.toNat_inj]
  simp
  omega

/-- A reader that takes what `put` wrote takes as many values as it is told to. -/
theorem reads_times {read : Reader α} {put : α → List UInt8} {n : Nat} {xs : List α}
    (faithful : ∀ {bytes rest x}, Reads read bytes x rest ↔ bytes = put x ++ rest) :
    Reads (Wire.times read n) bytes xs rest ↔ xs.length = n ∧ bytes = xs.flatMap put ++ rest := by
  induction n generalizing bytes xs rest with
  | zero =>
    simp only [Wire.times, reads_pure, List.length_eq_zero_iff]
    constructor
    · rintro ⟨rfl, rfl⟩
      exact ⟨rfl, rfl⟩
    · rintro ⟨rfl, rfl⟩
      exact ⟨rfl, rfl⟩
  | succ n ih =>
    simp only [Wire.times, reads_bind, reads_pure, faithful, ih]
    constructor
    · rintro ⟨x, _, rfl, xs, _, ⟨rfl, rfl⟩, rfl, rfl⟩
      exact ⟨rfl, by rw [List.flatMap_cons, List.append_assoc]⟩
    · rintro ⟨length, rfl⟩
      cases xs with
      | nil => cases length
      | cons x xs =>
        refine ⟨x, _, ?_, xs, rest, ⟨Nat.succ.inj length, rfl⟩, rfl, rfl⟩
        rw [List.flatMap_cons, List.append_assoc]

/-! ### Numbers of several bytes -/

namespace Wire

theorem toNat_join16 (low high : UInt8) :
    (low.toUInt16 ||| (high.toUInt16 <<< 8)).toNat = low.toNat + 256 * high.toNat := by
  have lowFits := low.toNat_lt
  have highFits := high.toNat_lt
  have shifted : (high.toUInt16 <<< 8).toNat = high.toNat <<< 8 := by
    simp [Nat.shiftLeft_eq]
    omega
  rw [UInt16.toNat_or, shifted, UInt8.toNat_toUInt16, Nat.or_comm,
    ← Nat.shiftLeft_add_eq_or_of_lt lowFits, Nat.shiftLeft_eq]
  omega

theorem toNat_join32 (low high : UInt16) :
    (low.toUInt32 ||| (high.toUInt32 <<< 16)).toNat = low.toNat + 65536 * high.toNat := by
  have lowFits := low.toNat_lt
  have highFits := high.toNat_lt
  have shifted : (high.toUInt32 <<< 16).toNat = high.toNat <<< 16 := by
    simp [Nat.shiftLeft_eq]
    omega
  rw [UInt32.toNat_or, shifted, UInt16.toNat_toUInt32, Nat.or_comm,
    ← Nat.shiftLeft_add_eq_or_of_lt lowFits, Nat.shiftLeft_eq]
  omega

theorem join16_eq_iff {n : UInt16} {low high : UInt8} :
    low.toUInt16 ||| (high.toUInt16 <<< 8) = n ↔
      low = n.toUInt8 ∧ high = (n >>> 8).toUInt8 := by
  have lowFits := low.toNat_lt
  have highFits := high.toNat_lt
  have fits := n.toNat_lt
  simp only [← UInt8.toNat_inj, ← UInt16.toNat_inj, toNat_join16, UInt16.toNat_toUInt8,
    UInt16.toNat_shiftRight, Nat.shiftRight_eq_div_pow]
  simp
  omega

theorem join32_eq_iff {n : UInt32} {low high : UInt16} :
    low.toUInt32 ||| (high.toUInt32 <<< 16) = n ↔
      low = n.toUInt16 ∧ high = (n >>> 16).toUInt16 := by
  have lowFits := low.toNat_lt
  have highFits := high.toNat_lt
  have fits := n.toNat_lt
  simp only [← UInt16.toNat_inj, ← UInt32.toNat_inj, toNat_join32, UInt32.toNat_toUInt16,
    UInt32.toNat_shiftRight, Nat.shiftRight_eq_div_pow]
  simp
  omega

theorem put32_eq (n : UInt32) : put32 n = put16 n.toUInt16 ++ put16 (n >>> 16).toUInt16 := by
  simp [put32, put16, ← UInt8.toNat_inj, Nat.shiftRight_eq_div_pow]
  omega

end Wire

theorem reads_get16 {n : UInt16} :
    Reads Wire.get16 bytes n rest ↔ bytes = Wire.put16 n ++ rest := by
  simp only [Wire.get16, reads_bind, reads_byte, reads_pure, Wire.join16_eq_iff]
  constructor
  · rintro ⟨_, _, rfl, _, _, rfl, ⟨rfl, rfl⟩, rfl⟩
    rfl
  · rintro rfl
    exact ⟨_, _, rfl, _, _, rfl, ⟨rfl, rfl⟩, rfl⟩

theorem reads_get32 {n : UInt32} :
    Reads Wire.get32 bytes n rest ↔ bytes = Wire.put32 n ++ rest := by
  simp only [Wire.get32, reads_bind, reads_get16, reads_pure, Wire.join32_eq_iff, Wire.put32_eq,
    List.append_assoc]
  constructor
  · rintro ⟨_, _, rfl, _, _, rfl, ⟨rfl, rfl⟩, rfl⟩
    rfl
  · rintro rfl
    exact ⟨_, _, rfl, _, _, rfl, ⟨rfl, rfl⟩, rfl⟩

/-! ### Fields -/

/-- Fields that are read exactly from what is written of them. -/
class ExactField (α : Type) [Field α] : Prop where
  reads_iff : ∀ {bytes rest : List UInt8} {x : α},
    Reads Field.get bytes x rest ↔ bytes = Field.put x ++ rest

instance : ExactField UInt8 := ⟨reads_byte⟩

instance : ExactField UInt16 := ⟨reads_get16⟩

instance : ExactField UInt32 := ⟨reads_get32⟩

/-- Reading a number and putting it in another form. -/
theorem reads_form [Field α] [ExactField α] {into : α → β} {back : β → α}
    (inverse : ∀ x y, into x = y ↔ x = back y) {y : β} :
    Reads (do return into (← Field.get)) bytes y rest ↔ bytes = Field.put (back y) ++ rest := by
  simp only [reads_bind, reads_pure, ExactField.reads_iff, inverse]
  constructor
  · rintro ⟨_, _, rfl, rfl, rfl⟩
    rfl
  · rintro rfl
    exact ⟨_, _, rfl, rfl, rfl⟩

instance : ExactField Int8 :=
  ⟨reads_form fun _ _ => ⟨fun h => h ▸ rfl, fun h => h ▸ rfl⟩⟩

instance : ExactField Int16 :=
  ⟨reads_form fun _ _ => ⟨fun h => h ▸ rfl, fun h => h ▸ rfl⟩⟩

instance : ExactField Int32 :=
  ⟨reads_form fun _ _ => ⟨fun h => h ▸ rfl, fun h => h ▸ rfl⟩⟩

instance : ExactField Real32 :=
  ⟨reads_form fun _ _ => ⟨fun h => h ▸ rfl, fun h => h ▸ rfl⟩⟩

instance : ExactField Bool where
  reads_iff {bytes rest b} := by
    simp only [Field.get, reads_bind, reads_byte]
    constructor
    · rintro ⟨code, _, rfl, reads⟩
      split at reads
      next =>
        obtain ⟨rfl, rfl⟩ := reads_pure.mp reads
        rfl
      next =>
        obtain ⟨rfl, rfl⟩ := reads_pure.mp reads
        rfl
      next => exact absurd reads not_reads_throw
    · rintro rfl
      refine ⟨_, _, rfl, ?_⟩
      cases b <;> exact reads_pure.mpr ⟨rfl, rfl⟩

instance [Coded α] : ExactField α where
  reads_iff {bytes rest x} := by
    simp only [Field.get, reads_bind, reads_byte]
    constructor
    · rintro ⟨code, _, rfl, reads⟩
      split at reads
      next found =>
        obtain ⟨rfl, rfl⟩ := reads_pure.mp reads
        rw [← Coded.code_of_ofCode? found]
        rfl
      next => exact absurd reads not_reads_throw
    · rintro rfl
      refine ⟨_, _, rfl, ?_⟩
      rw [Coded.ofCode?_code]
      exact reads_pure.mpr ⟨rfl, rfl⟩

@[simp] theorem reads_field [Field α] [ExactField α] {x : α} :
    Reads Field.get bytes x rest ↔ bytes = Field.put x ++ rest := ExactField.reads_iff

/-! ### Numbers under a tag -/

@[simp] theorem reads_quantity {tag : UInt8} {q : Quantity} :
    Reads (Quantity.get tag) bytes q rest ↔ q.tag = tag ∧ bytes = q.put ++ rest := by
  constructor
  · intro reads
    unfold Quantity.get at reads
    split at reads
    case h_7 => exact absurd reads not_reads_throw
    all_goals
      obtain ⟨n, number, rfl⟩ := reads_map.mp reads
      exact ⟨rfl, reads_field.mp number⟩
  · rintro ⟨rfl, rfl⟩
    cases q <;> exact reads_map.mpr ⟨_, reads_field.mpr rfl, rfl⟩

theorem Quantity.tag_ne_realTag (q : Quantity) : q.tag ≠ Limit.realTag := by
  cases q <;> exact nofun

@[simp] theorem reads_limit {tag : UInt8} {l : Limit} :
    Reads (Limit.get tag) bytes l rest ↔ l.tag = tag ∧ bytes = l.put ++ rest := by
  unfold Limit.get
  constructor
  · intro reads
    split at reads
    next real =>
      obtain ⟨x, number, rfl⟩ := reads_map.mp reads
      exact ⟨real.symm, reads_field.mp number⟩
    next =>
      obtain ⟨q, number, rfl⟩ := reads_map.mp reads
      exact reads_quantity.mp number
  · rintro ⟨rfl, rfl⟩
    cases l with
    | whole q =>
      rw [show (Limit.whole q).tag = q.tag from rfl, if_neg q.tag_ne_realTag]
      exact reads_map.mpr ⟨q, reads_quantity.mpr ⟨rfl, rfl⟩, rfl⟩
    | real x => exact reads_map.mpr ⟨x, reads_field.mpr rfl, rfl⟩

end TerminusMonitor
