import Mathlib.Data.List.Perm.Basic
import TerminusMonitor.Table

/-!
More on tables: how a change is seen at every key, and what it does to the listing.

* `ext_get?`: a table is determined by its answers;
* `entries_insert_perm`, `entries_erase_perm`: a new key adds its entry to the
  listing, an erased key takes its entry away, and no other entry changes.
-/

namespace TerminusMonitor.Table

variable {κ ν : Type} [Ranked κ] {t : Table κ ν} {k k' : κ} {v : ν}

/-! ### Answers -/

theorem get?_insert [DecidableEq κ] :
    (t.insert k v).get? k' = if k' = k then some v else t.get? k' := by
  split
  next eq => rw [eq, get?_insert_self]
  next ne => exact get?_insert_of_ne ne

theorem get?_erase [DecidableEq κ] :
    (t.erase k).get? k' = if k' = k then none else t.get? k' := by
  split
  next eq => rw [eq, get?_erase_self]
  next ne => exact get?_erase_of_ne ne

theorem get?_mapValues (f : κ → ν → ν) : (t.mapValues f).get? k = (t.get? k).map (f k) := by
  obtain ⟨l, sorted⟩ := t
  simp only [get?, mapValues, List.find?_map, Option.map_map, Function.comp_def]
  cases found : l.find? fun e => rank e.1 == rank k with
  | none => rfl
  | some e =>
    have hit := List.find?_some found
    simp [Ranked.rank_inj (beq_iff_eq.mp hit)]

theorem get?_modify [DecidableEq κ] (f : ν → ν) :
    (t.modify k f).get? k' = if k' = k then (t.get? k).map f else t.get? k' := by
  rw [modify, get?_mapValues]
  by_cases eq : k' = k
  · simp [eq]
  · simp [eq, show ¬ rank k' = rank k from fun h => eq (Ranked.rank_inj h)]

theorem get?_modify_of_ne (f : ν → ν) (ne : k' ≠ k) : (t.modify k f).get? k' = t.get? k' := by
  classical rw [get?_modify, if_neg ne]

/-! What is found after a change was there before, or was put there. -/

theorem get?_insert_some {v' : ν} (found : (t.insert k v).get? k' = some v') :
    (k' = k ∧ v' = v) ∨ t.get? k' = some v' := by
  classical
  rw [get?_insert] at found
  split at found
  next eq => exact .inl ⟨eq, (Option.some.inj found).symm⟩
  next => exact .inr found

theorem get?_erase_some (found : (t.erase k).get? k' = some v) : t.get? k' = some v := by
  classical
  rw [get?_erase] at found
  split at found
  next => cases found
  next => exact found

theorem get?_modify_some {f : ν → ν} {v' : ν} (found : (t.modify k f).get? k' = some v') :
    (k' = k ∧ ∃ v, t.get? k = some v ∧ f v = v') ∨ t.get? k' = some v' := by
  classical
  rw [get?_modify] at found
  split at found
  next eq => exact .inl ⟨eq, Option.map_eq_some_iff.mp found⟩
  next => exact .inr found

theorem get?_filter_eq_some_iff {keep : κ → ν → Bool} :
    (t.filter keep).get? k = some v ↔ t.get? k = some v ∧ keep k v = true := by
  rw [← mem_entries_iff, ← mem_entries_iff]
  exact List.mem_filter

theorem get?_filter_some {keep : κ → ν → Bool} (h : (t.filter keep).get? k = some v) :
    t.get? k = some v ∧ keep k v = true :=
  get?_filter_eq_some_iff.mp h

theorem contains_iff : t.contains k = true ↔ ∃ v, t.get? k = some v := Option.isSome_iff_exists

theorem contains_eq_false_iff : t.contains k = false ↔ t.get? k = none := by
  rw [contains, Option.isSome_eq_false_iff, Option.isNone_iff_eq_none]

theorem contains_insert [DecidableEq κ] :
    (t.insert k v).contains k' = true ↔ k' = k ∨ t.contains k' = true := by
  rw [contains, get?_insert, contains]
  split <;> simp_all

theorem contains_erase [DecidableEq κ] :
    (t.erase k).contains k' = true ↔ k' ≠ k ∧ t.contains k' = true := by
  rw [contains, get?_erase, contains]
  split <;> simp_all

theorem contains_modify {f : ν → ν} : (t.modify k f).contains k' = t.contains k' := by
  classical
  rw [contains, get?_modify, contains]
  split
  next same => rw [Option.isSome_map, same]
  next => rfl

theorem nodup_entries (t : Table κ ν) : t.entries.Nodup := by
  refine t.sorted.imp ?_
  intro a b lt eq
  rw [eq] at lt
  exact Nat.lt_irrefl _ lt

/-- A table is determined by its answers. -/
theorem ext_get? {s t : Table κ ν} (same : ∀ k, s.get? k = t.get? k) : s = t := by
  refine ext_entries (List.Perm.eq_of_pairwise
    (fun a b _ _ ab ba => absurd ab (Nat.lt_asymm ba)) s.sorted t.sorted ?_)
  refine (List.perm_ext_iff_of_nodup (nodup_entries s) (nodup_entries t)).mpr ?_
  intro e
  rw [show e = (e.1, e.2) from rfl, mem_entries_iff, mem_entries_iff, same]

theorem modify_congr {f g : ν → ν} (h : ∀ v, t.get? k = some v → f v = g v) :
    t.modify k f = t.modify k g := by
  classical
  refine ext_get? ?_
  intro k'
  rw [get?_modify, get?_modify]
  cases found : t.get? k with
  | none => rfl
  | some v => rw [Option.map_some, Option.map_some, h v found]

theorem modify_eq_self {f : ν → ν} (h : ∀ v, t.get? k = some v → f v = v) : t.modify k f = t := by
  classical
  refine ext_get? ?_
  intro k'
  rw [get?_modify]
  split
  next eq =>
    subst eq
    cases found : t.get? k' with
    | none => rfl
    | some v => rw [Option.map_some, h v found]
  · rfl

/-! ### Listing -/

theorem nodup_keys (t : Table κ ν) : t.keys.Nodup := by
  refine List.pairwise_map.mpr (t.sorted.imp ?_)
  intro a b lt eq
  rw [eq] at lt
  exact Nat.lt_irrefl _ lt

theorem mem_keys_iff : k ∈ t.keys ↔ ∃ v, t.get? k = some v := by
  simp only [keys, List.mem_map, Prod.exists]
  constructor
  · rintro ⟨_, v, mem, rfl⟩
    exact ⟨v, mem_entries_iff.mp mem⟩
  · rintro ⟨v, found⟩
    exact ⟨k, v, mem_entries_iff.mpr found, rfl⟩

theorem mem_values_iff : v ∈ t.values ↔ ∃ k, t.get? k = some v := by
  simp only [values, List.mem_map, Prod.exists]
  constructor
  · rintro ⟨k, _, mem, rfl⟩
    exact ⟨k, mem_entries_iff.mp mem⟩
  · rintro ⟨k, found⟩
    exact ⟨k, v, mem_entries_iff.mpr found, rfl⟩

/-- A table without values has no entries. -/
theorem isEmpty_of_forall (absent : ∀ k, t.get? k = none) : t.isEmpty = true := by
  rw [isEmpty, List.isEmpty_iff, List.eq_nil_iff_forall_not_mem]
  rintro ⟨k, v⟩ mem
  cases (absent k).symm.trans (mem_entries_iff.mp mem)

/-- What is read off the entries alike before and after a change of one value. -/
theorem map_entries_modify {α : Type} {f : ν → ν} {g : κ × ν → α}
    (same : ∀ k v, g (k, f v) = g (k, v)) :
    (t.modify k f).entries.map g = t.entries.map g := by
  simp only [modify, mapValues, List.map_map]
  refine List.map_congr_left ?_
  intro e _
  simp only [Function.comp_apply]
  split
  · exact same e.1 e.2
  · rfl

private theorem place_perm {l : List (κ × ν)} (absent : ∀ e ∈ l, rank e.1 ≠ rank k) :
    (place k v l).Perm ((k, v) :: l) := by
  induction l with
  | nil => exact .refl _
  | cons a rest ih =>
    simp only [place]
    split
    · exact .refl _
    · rw [if_neg fun eq => absent a List.mem_cons_self eq.symm]
      exact ((ih fun e mem => absent e (List.mem_cons_of_mem _ mem)).cons a).trans (.swap _ _ _)

/-- A new key adds its entry to the listing. -/
theorem entries_insert_perm (absent : t.get? k = none) :
    (t.insert k v).entries.Perm ((k, v) :: t.entries) := by
  refine place_perm ?_
  intro e mem eq
  have found := mem_entries_iff.mp (show (e.1, e.2) ∈ t.entries from mem)
  rw [Ranked.rank_inj eq, absent] at found
  cases found

/-- Erasing a key takes its entry away from the listing. -/
theorem entries_erase_perm (found : t.get? k = some v) :
    t.entries.Perm ((k, v) :: (t.erase k).entries) := by
  classical
  have notMem : (k, v) ∉ (t.erase k).entries := by
    rw [mem_entries_iff, get?_erase_self]
    exact nofun
  refine (List.perm_ext_iff_of_nodup (nodup_entries t)
    (List.nodup_cons.mpr ⟨notMem, nodup_entries _⟩)).mpr ?_
  rintro ⟨k', v'⟩
  rw [List.mem_cons, mem_entries_iff, mem_entries_iff, get?_erase]
  by_cases eq : k' = k
  · subst eq
    rw [found]
    simp [eq_comm]
  · simp [eq]

end TerminusMonitor.Table
