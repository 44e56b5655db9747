import Mathlib
import TerminusMonitor.Proofs.Settling
import TerminusMonitor.Proofs.Table

/-!
How many more records walks can ask for.

A walk ends at a record that it has seen, so that it asks for no more records than there are
handles that it has not seen, and for the one that is due.

* `Walk.reach_follow`: a walk that goes on to another record reaches no further for it;
* `Monitor.reach_settled`: nor do walks for any outcome.
-/

namespace TerminusMonitor

/-! ### Tables of limited size -/

namespace Table

variable {κ ν : Type} [Ranked κ] {t : Table κ ν} {k : κ} {v : ν} {f : ν → Nat}

theorem size_insert (absent : t.get? k = none) : (t.insert k v).size = t.size + 1 :=
  (entries_insert_perm absent).length_eq

theorem size_le {bound : Nat} (ranks : ∀ k : κ, rank k < bound) : t.size ≤ bound := by
  have once : (t.entries.map fun e => rank e.1).Nodup :=
    List.pairwise_map.mpr (t.sorted.imp Nat.ne_of_lt)
  have within : (t.entries.map fun e => rank e.1) ⊆ List.range bound := by
    intro n mem
    obtain ⟨e, _, rfl⟩ := List.mem_map.mp mem
    exact List.mem_range.mpr (ranks e.1)
  have length := (List.subperm_of_subset once within).length_le
  rwa [List.length_map, List.length_range] at length

/-- What the values of a table come to. -/
def total (t : Table κ ν) (f : ν → Nat) : Nat := (t.entries.map fun e => f e.2).sum

theorem total_erase (found : t.get? k = some v) : t.total f = f v + (t.erase k).total f := by
  have entries := (entries_erase_perm found).map fun e => f e.2
  simpa only [total, List.map_cons, List.sum_cons] using entries.sum_nat

theorem total_erase_le : (t.erase k).total f ≤ t.total f := by
  cases found : t.get? k with
  | none =>
    have same : t.erase k = t := by
      classical
      refine ext_get? fun k' => ?_
      rw [get?_erase]
      split
      next eq => rw [eq, found]
      next => rfl
    exact Nat.le_of_eq (by rw [same])
  | some v =>
    rw [total_erase found]
    exact Nat.le_add_left _ _

theorem total_modify_eq {g : ν → ν} (same : ∀ v, f (g v) = f v) :
    (t.modify k g).total f = t.total f := by
  rw [total, total, map_entries_modify fun _ v => same v]

theorem total_modify {g : ν → ν} (found : t.get? k = some v) :
    (t.modify k g).total f + f v = t.total f + f (g v) := by
  classical
  have found' : (t.modify k g).get? k = some (g v) := by
    rw [get?_modify, if_pos rfl, found, Option.map_some]
  have others : (t.modify k g).erase k = t.erase k := by
    refine ext_get? fun k' => ?_
    simp only [get?_erase, get?_modify]
    split <;> rfl
  rw [total_erase found', total_erase found, others]
  omega

end Table

/-! ### Walks -/

namespace Walk

/-- How many more records a walk can ask for: those that it has not seen, and the one that
is due. -/
def reach (walk : Walk) : Nat := 2 ^ 32 - walk.seen.size + if walk.inFlight then 0 else 1

theorem reach_follow {walk : Walk} {next : UInt32} (unseen : walk.seen.contains next = false) :
    (walk.follow next).reach ≤ walk.reach := by
  have more : (walk.seen.insert next ()).size = walk.seen.size + 1 :=
    Table.size_insert (Table.contains_eq_false_iff.mp unseen)
  have within : (walk.seen.insert next ()).size ≤ 2 ^ 32 := Table.size_le UInt32.toNat_lt
  simp only [reach, follow, more, Bool.false_eq_true, if_false]
  split <;> omega

end Walk

namespace Monitor

variable {μ : Type} {m : Monitor μ} {tid : Tid}

/-- How many more records the walks can ask for. -/
def reach (m : Monitor μ) : Nat := m.walks.total Walk.reach

theorem reach_finished : (m.finished tid).reach ≤ m.reach := by
  unfold finished
  split
  next => exact Nat.le_refl _
  next => exact Table.total_erase_le

theorem reach_noted {record : Record} : (m.noted tid record).reach = m.reach := by
  unfold noted
  split
  next => rfl
  next => exact Table.total_modify_eq fun _ => rfl

theorem reach_recorded {result : Except Fault Response} :
    (m.recorded tid result).reach ≤ m.reach := by
  unfold recorded
  split
  next => exact Nat.le_refl _
  next walk found =>
    split
    next => exact reach_finished
    next record next _ =>
      have noted : (m.noted tid record).reach = m.reach := reach_noted
      dsimp only
      split
      next => exact noted ▸ reach_finished
      next unseen =>
        obtain ⟨sensors, found'⟩ := noted_walk record found
        have goesOn : ((m.noted tid record).walks.modify tid (·.follow next)).total Walk.reach +
            Walk.reach { walk with sensors } =
              (m.noted tid record).reach + Walk.reach (Walk.follow { walk with sensors } next) :=
          Table.total_modify found'
        have follows : Walk.reach (Walk.follow { walk with sensors } next) ≤
            Walk.reach { walk with sensors } := by
          apply Walk.reach_follow
          simpa using (not_or.mp unseen).2
        change ((m.noted tid record).walks.modify tid _).total Walk.reach ≤ m.reach
        omega

/-- No outcome lets walks ask for more records. -/
theorem reach_settled {completion : Completion Purpose} :
    (m.settled completion).reach ≤ m.reach := by
  obtain ⟨key, cookie, result⟩ := completion
  cases cookie with
  | record => exact reach_recorded
  | _ => exact Nat.le_refl _

end Monitor

end TerminusMonitor
