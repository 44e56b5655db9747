/-!
Finite tables kept in the order of their keys.

A key type is `Ranked` when each key has a number of its own; a `Table` lists
its entries by rising number, so a key occurs once and two tables with the same
entries are equal. Listing a table always gives key order, which is the order in
which a monitor visits termini, sensors and pending requests.

* `get?_insert_self`, `get?_insert_of_ne`, `get?_erase_self`,
  `get?_erase_of_ne`: each change is seen at its own key only;
* `mem_entries_iff`: the listing and the answers agree.
-/

namespace TerminusMonitor

/-- Keys told apart and ordered by a number. -/
class Ranked (κ : Type) where
  rank : κ → Nat
  rank_inj : ∀ {a b : κ}, rank a = rank b → a = b

export Ranked (rank)

instance : Ranked UInt8 := ⟨UInt8.toNat, fun h => UInt8.toNat_inj.mp h⟩

instance : Ranked UInt16 := ⟨UInt16.toNat, fun h => UInt16.toNat_inj.mp h⟩

instance : Ranked UInt32 := ⟨UInt32.toNat, fun h => UInt32.toNat_inj.mp h⟩

/-- A finite table, listed by rising key. -/
structure Table (κ ν : Type) [Ranked κ] where
  entries : List (κ × ν)
  sorted : entries.Pairwise fun a b => rank a.1 < rank b.1

/-- A finite set of keys. -/
abbrev KeySet (κ : Type) [Ranked κ] := Table κ Unit

namespace Table

variable {κ ν : Type} [Ranked κ]

theorem ext_entries {s t : Table κ ν} (h : s.entries = t.entries) : s = t := by
  cases s; cases t; cases h; rfl

instance [DecidableEq κ] [DecidableEq ν] : DecidableEq (Table κ ν) := fun s t =>
  decidable_of_iff (s.entries = t.entries) ⟨ext_entries, fun h => h ▸ rfl⟩

/-! ### Operations -/

/-- The table without entries. -/
def empty : Table κ ν := ⟨[], .nil⟩

instance : EmptyCollection (Table κ ν) := ⟨empty⟩

instance : Inhabited (Table κ ν) := ⟨empty⟩

/-- The value at a key. -/
def get? (t : Table κ ν) (k : κ) : Option ν :=
  (t.entries.find? fun e => rank e.1 == rank k).map (·.2)

/-- Whether a key has an entry. -/
def contains (t : Table κ ν) (k : κ) : Bool := (t.get? k).isSome

/-- The keys, in order. -/
def keys (t : Table κ ν) : List κ := t.entries.map (·.1)

/-- The values, in the order of their keys. -/
def values (t : Table κ ν) : List ν := t.entries.map (·.2)

/-- The number of entries. -/
def size (t : Table κ ν) : Nat := t.entries.length

/-- Whether there is no entry. -/
def isEmpty (t : Table κ ν) : Bool := t.entries.isEmpty

/-- Puts an entry at its place in a list of entries. -/
def place (k : κ) (v : ν) : List (κ × ν) → List (κ × ν)
  | [] => [(k, v)]
  | e :: rest =>
    if rank k < rank e.1 then (k, v) :: e :: rest
    else if rank k = rank e.1 then (k, v) :: rest
    else e :: place k v rest

theorem mem_place {k : κ} {v : ν} {l : List (κ × ν)} {e : κ × ν} (h : e ∈ place k v l) :
    e = (k, v) ∨ e ∈ l := by
  induction l with
  | nil => exact .inl (List.mem_singleton.mp h)
  | cons a rest ih =>
    simp only [place] at h
    split at h
    · exact List.mem_cons.mp h
    · split at h
      · rcases List.mem_cons.mp h with eq | mem
        · exact .inl eq
        · exact .inr (List.mem_cons_of_mem _ mem)
      · rcases List.mem_cons.mp h with eq | mem
        · exact .inr (eq ▸ List.mem_cons_self)
        · exact (ih mem).imp id (List.mem_cons_of_mem _)

theorem pairwise_place (k : κ) (v : ν) {l : List (κ × ν)}
    (h : l.Pairwise fun a b => rank a.1 < rank b.1) :
    (place k v l).Pairwise fun a b => rank a.1 < rank b.1 := by
  induction l with
  | nil => exact List.pairwise_singleton _ _
  | cons a rest ih =>
    obtain ⟨above, sorted⟩ := List.pairwise_cons.mp h
    simp only [place]
    split
    next lt =>
      refine List.pairwise_cons.mpr ⟨fun b mem => ?_, h⟩
      rcases List.mem_cons.mp mem with rfl | mem
      · exact lt
      · exact Nat.lt_trans lt (above b mem)
    next notLt =>
      split
      next eq => exact List.pairwise_cons.mpr ⟨fun b mem => eq ▸ above b mem, sorted⟩
      next ne =>
        refine List.pairwise_cons.mpr ⟨fun b mem => ?_, ih sorted⟩
        rcases mem_place mem with rfl | mem
        · exact Nat.lt_of_le_of_ne (Nat.le_of_not_lt notLt) (Ne.symm ne)
        · exact above b mem

/-- Sets the value at a key. -/
def insert (t : Table κ ν) (k : κ) (v : ν) : Table κ ν :=
  ⟨place k v t.entries, pairwise_place k v t.sorted⟩

/-- Keeps the entries that pass a test. -/
def filter (t : Table κ ν) (keep : κ → ν → Bool) : Table κ ν :=
  ⟨t.entries.filter fun e => keep e.1 e.2, t.sorted.filter _⟩

/-- Drops the entry at a key. -/
def erase (t : Table κ ν) (k : κ) : Table κ ν := t.filter fun k' _ => rank k' != rank k

/-- Changes every value. -/
def mapValues (t : Table κ ν) (f : κ → ν → ν) : Table κ ν :=
  ⟨t.entries.map fun e => (e.1, f e.1 e.2), t.sorted.map _ fun _ _ h => h⟩

/-- Changes the value at a key, if there is one. -/
def modify (t : Table κ ν) (k : κ) (f : ν → ν) : Table κ ν :=
  t.mapValues fun k' v => if rank k' = rank k then f v else v

/-- The table of a list of entries; of two entries at one key the later one
stays. -/
def ofList (l : List (κ × ν)) : Table κ ν := l.foldl (fun t e => t.insert e.1 e.2) ∅

/-! ### What each change is seen as -/

variable {t : Table κ ν} {k k' : κ} {v : ν}

theorem get?_empty : (∅ : Table κ ν).get? k = none := rfl

theorem get?_insert_self : (t.insert k v).get? k = some v := by
  suffices ∀ l : List (κ × ν),
      ((place k v l).find? fun e => rank e.1 == rank k) = some (k, v) by
    simp [get?, insert, this]
  intro l
  induction l with
  | nil => simp [place]
  | cons a rest ih =>
    simp only [place]
    split
    · simp
    · split
      · simp
      next ne => simp [ih, show ¬ rank a.1 = rank k from fun h => ne h.symm]

theorem get?_insert_of_ne (ne : k' ≠ k) : (t.insert k v).get? k' = t.get? k' := by
  have rankNe : ¬ rank k = rank k' := fun h => ne (Ranked.rank_inj h).symm
  suffices ∀ l : List (κ × ν), ((place k v l).find? fun e => rank e.1 == rank k') =
      l.find? fun e => rank e.1 == rank k' by
    simp [get?, insert, this]
  intro l
  induction l with
  | nil => simp [place, rankNe]
  | cons a rest ih =>
    simp only [place]
    split
    · simp [List.find?_cons, rankNe]
    · split
      next eq => simp [← eq, rankNe]
      · simp [List.find?_cons, ih]

theorem get?_erase_self : (t.erase k).get? k = none := by
  simp [get?, erase, filter]

theorem get?_erase_of_ne (ne : k' ≠ k) : (t.erase k).get? k' = t.get? k' := by
  have rankNe : ¬ rank k' = rank k := fun h => ne (Ranked.rank_inj h)
  simp only [get?, erase, filter, List.find?_filter]
  congr 2
  funext e
  by_cases h : rank e.1 = rank k' <;> simp [h, rankNe]

/-- An entry is listed exactly when its key answers with its value. -/
theorem mem_entries_iff : (k, v) ∈ t.entries ↔ t.get? k = some v := by
  obtain ⟨l, sorted⟩ := t
  simp only [get?]
  induction l with
  | nil => simp
  | cons a rest ih =>
    obtain ⟨above, sortedRest⟩ := List.pairwise_cons.mp sorted
    have ih := ih sortedRest
    by_cases h : rank a.1 = rank k
    · have keyEq := Ranked.rank_inj h
      have notMem : (k, v) ∉ rest := fun mem => by
        have := above _ mem
        simp only [h] at this
        exact Nat.lt_irrefl _ this
      simp only [List.mem_cons, notMem, or_false, List.find?_cons, h, BEq.rfl, Option.map_some,
        Option.some.injEq]
      exact ⟨fun eq => eq ▸ rfl, fun eq => by rw [← eq, ← keyEq]⟩
    · have ne : (k, v) ≠ a := fun eq => h (eq ▸ rfl)
      simp [h, ne, ih]

end Table

end TerminusMonitor
