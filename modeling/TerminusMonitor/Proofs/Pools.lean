import TerminusMonitor.Pools
import TerminusMonitor.Proofs.Outcome
import TerminusMonitor.Proofs.Table
import Mathlib.Order.Bounds.Basic
import Mathlib.Order.Fin.Basic

/-!
Taking and freeing instance IDs.

* `holds_take`, `holds_free`: a change of a mask is seen at its own ID only;
* `IdMask.lowestFree?_eq_some_iff`: the ID handed out is the least of those that are free;
* `Pools.ends_take`, `Pools.ends_free`: what becomes of the pools, and when taking
  or freeing fails;
* `Pools.holds_taken`, `Pools.holds_released`, `Pools.holds_dropped`: a change of the
  pools is seen at its own ID or endpoint only;
* `Loan.ends_act`: an ID that is borrowed, waited for or not, was free.
-/

namespace TerminusMonitor

variable {link : Link} {journal : Journal} {p : Pools}

/-! ### Masks -/

namespace IdMask

variable {mask : IdMask} {iid iid' : InstanceId}

theorem holds_take : (mask.take iid).holds iid' = (decide (iid' = iid) || mask.holds iid') := by
  simp [holds, take, Fin.ext_iff, Bool.or_comm]

theorem holds_free : (mask.free iid).holds iid' = (!decide (iid' = iid) && mask.holds iid') := by
  simp [holds, free, Fin.ext_iff, Bool.and_comm, eq_comm]

theorem holds_of_lowestFree? (free : mask.lowestFree? = some iid) : mask.holds iid = false := by
  simpa using List.find?_some free

/-- There is no free ID when all are in use. -/
theorem lowestFree?_eq_none_iff : mask.lowestFree? = none ↔ ∀ iid, mask.holds iid = true := by
  simp [lowestFree?, poolSize]

/-- The lowest free ID is the least of those that are free. -/
theorem isLeast_of_lowestFree? (found : mask.lowestFree? = some iid) :
    IsLeast {iid | mask.holds iid = false} iid := by
  obtain ⟨free, before, after, split, used⟩ := List.find?_eq_some_iff_append.mp found
  refine ⟨by simpa using free, fun other freeOther => ?_⟩
  have sorted : (before ++ iid :: after).Pairwise (· < ·) := split ▸ List.pairwise_lt_finRange _
  have mem : other ∈ before ++ iid :: after := split ▸ List.mem_finRange other
  obtain earlier | rfl | later : other ∈ before ∨ other = iid ∨ other ∈ after := by
    simpa using mem
  · have usedOther : mask.holds other = true := by simpa using used other earlier
    simp [usedOther] at freeOther
  · exact le_rfl
  · exact ((List.pairwise_cons.mp (List.pairwise_append.mp sorted).2.1).1 other later).le

theorem lowestFree?_eq_some_iff :
    mask.lowestFree? = some iid ↔ IsLeast {iid | mask.holds iid = false} iid := by
  refine ⟨isLeast_of_lowestFree?, fun least => ?_⟩
  cases found : mask.lowestFree? with
  | none => exact absurd (lowestFree?_eq_none_iff.mp found iid) (by simpa using least.1)
  | some other => rw [(isLeast_of_lowestFree? found).unique least]

/-- One more ID is in use when a free one is taken. -/
theorem count_take (free : mask.holds iid = false) : (mask.take iid).count = mask.count + 1 := by
  have others : ∀ iid' ∈ (List.finRange 32).erase iid,
      (mask.take iid).holds iid' = true ↔ mask.holds iid' = true := by
    intro iid' mem
    have ne := ((List.nodup_finRange 32).mem_erase_iff.mp mem).1
    simp [holds_take, ne]
  have split := List.perm_cons_erase (List.mem_finRange iid)
  calc (mask.take iid).count
      = ((List.finRange 32).erase iid).countP (mask.take iid).holds + 1 := by
        simp [count, poolSize, split.countP_eq, holds_take]
    _ = ((List.finRange 32).erase iid).countP mask.holds + 1 := by
        rw [List.countP_congr others]
    _ = mask.count + 1 := by simp [count, poolSize, split.countP_eq, free]

theorem count_le : mask.count ≤ poolSize := by
  simpa [count, poolSize] using List.countP_le_length (p := mask.holds) (l := List.finRange 32)

/-- There is no free ID if and only if as many are in use as there are. -/
theorem lowestFree?_eq_none_iff_count : mask.lowestFree? = none ↔ mask.count = poolSize := by
  have all := @List.countP_eq_length _ (List.finRange 32) mask.holds
  simp only [List.length_finRange, List.mem_finRange, true_imp_iff] at all
  exact lowestFree?_eq_none_iff.trans all.symm

end IdMask

/-! ### Pools -/

namespace Pools

/-- The pools with an ID of an endpoint in use. -/
def taken (p : Pools) (eid : Eid) (iid : InstanceId) : Pools := p.set eid ((p.mask eid).take iid)

/-- The pools after an ID of an endpoint was freed. They stay as they are if it was
free already. -/
def released (p : Pools) (eid : Eid) (iid : InstanceId) : Pools :=
  if p.holds eid iid then { p.set eid ((p.mask eid).free iid) with waiting := [] } else p

/-- The pools without that of an endpoint. -/
def dropped (p : Pools) (eid : Eid) : Pools :=
  if p.masks.contains eid then { masks := p.masks.erase eid, waiting := [] } else p

theorem mask_set_self {eid : Eid} {mask : IdMask} : (p.set eid mask).mask eid = mask := by
  simp [Pools.mask, set, Table.get?_insert_self]

theorem holds_taken_self {eid : Eid} {iid : InstanceId} :
    (p.taken eid iid).holds eid iid = true := by
  simp [holds, taken, mask_set_self, IdMask.holds_take]

theorem mask_set {eid eid' : Eid} {mask : IdMask} :
    (p.set eid mask).mask eid' = if eid' = eid then mask else p.mask eid' := by
  simp only [Pools.mask, set, Table.get?_insert]
  split <;> rfl

/-- Only the masks tell which IDs are in use. -/
theorem holds_congr {p' : Pools} (same : p'.masks = p.masks) {eid : Eid} {iid : InstanceId} :
    p'.holds eid iid = p.holds eid iid := by
  simp only [holds, Pools.mask, same]

/-- One more ID of its endpoint is in use when a free one is taken. -/
theorem inUse_taken {eid eid' : Eid} {iid : InstanceId}
    (free : (p.mask eid).lowestFree? = some iid) :
    (p.taken eid iid).inUse eid' = if eid' = eid then p.inUse eid + 1 else p.inUse eid' := by
  simp only [inUse, taken, mask_set]
  split
  next => exact IdMask.count_take (IdMask.holds_of_lowestFree? free)
  next => rfl

/-- Without pools no ID is in use. -/
theorem holds_empty {eid : Eid} {iid : InstanceId} : Pools.holds {} eid iid = false := by
  simp [holds, Pools.mask, Table.get?_empty, IdMask.holds]

section Changes

variable {key key' : RequestKey}

theorem holds_taken : (p.taken key.eid key.iid).holds key'.eid key'.iid =
    (decide (key' = key) || p.holds key'.eid key'.iid) := by
  obtain ⟨eid, iid⟩ := key
  obtain ⟨eid', iid'⟩ := key'
  simp only [holds, taken, mask_set, RequestKey.mk.injEq]
  split
  next same => simp [IdMask.holds_take, same]
  next other => simp [other]

theorem holds_released : (p.released key.eid key.iid).holds key'.eid key'.iid =
    (!decide (key' = key) && p.holds key'.eid key'.iid) := by
  unfold released
  split
  next held =>
    refine (holds_congr (p := p.set key.eid ((p.mask key.eid).free key.iid)) rfl).trans ?_
    obtain ⟨eid, iid⟩ := key
    obtain ⟨eid', iid'⟩ := key'
    simp only [holds, mask_set, RequestKey.mk.injEq]
    split
    next same => simp [IdMask.holds_free, same]
    next other => simp [other]
  next unheld =>
    by_cases same : key' = key
    · subst same
      simpa using unheld
    · simp [same]

theorem holds_dropped {eid : Eid} : (p.dropped eid).holds key.eid key.iid =
    (!decide (key.eid = eid) && p.holds key.eid key.iid) := by
  unfold dropped
  split
  next present =>
    simp only [holds, Pools.mask, Table.get?_erase]
    split
    next same => simp [same, IdMask.holds]
    next other => simp [other]
  next absent =>
    by_cases same : key.eid = eid
    · have none := Table.contains_eq_false_iff.mp (Bool.eq_false_iff.mpr absent)
      simp [holds, Pools.mask, same, none, IdMask.holds]
    · simp [same]

end Changes

/-- The lowest free ID is taken, if there is one. -/
theorem ends_take {eid : Eid} {post : Except Fault InstanceId → Pools → Journal → Prop} :
    Act.Ends (take eid) p link journal post ↔
      match (p.mask eid).lowestFree? with
      | none => post (.error .exhausted) p (journal ++ [.logged (.noFreeId eid)])
      | some iid => post (.ok iid) (p.taken eid iid) journal := by
  simp only [take, Act.ends_bind, Act.ends_get]
  cases (p.mask eid).lowestFree? <;> simp [taken, Except.map]

private theorem ends_wake_tasks (tasks : List TaskId) {post : Unit → Journal → Prop} :
    Effect.Ends (Effect.wake tasks) link journal post ↔ post () (journal ++ tasks.map .woken) := by
  induction tasks generalizing journal with
  | nil => simp [Effect.wake]
  | cons task rest ih => simp [Effect.wake, ih]

/-- The tasks that wait are woken, and wait no longer. -/
theorem ends_wake {post : Unit → Pools → Journal → Prop} :
    Task.Ends wake p link journal post ↔
      post () { p with waiting := [] } (journal ++ p.waiting.map .woken) := by
  simp [wake, ends_wake_tasks]

/-- An ID that is in use is freed, and the tasks that wait are woken; to free another
one is a failure. -/
theorem ends_free {eid : Eid} {iid : InstanceId}
    {post : Except Fault Unit → Pools → Journal → Prop} :
    Act.Ends (free eid iid) p link journal post ↔
      if p.holds eid iid then
        post (.ok ()) (p.released eid iid) (journal ++ p.waiting.map .woken)
      else post (.error (.state .unusedId)) p (journal ++ [.logged (.unusedIdFreed eid iid)]) := by
  simp only [free, Act.ends_bind, Act.ends_get]
  split
  next held => simp [ends_wake, released, held, set]
  next unheld => simp

theorem ends_drop {eid : Eid} :
    Task.Ends (drop eid) p link journal fun _ p' _ => p' = p.dropped eid := by
  simp only [drop, Task.ends_bind, Task.ends_get]
  split
  next present =>
    simp only [Task.ends_bind, Task.ends_get, Task.ends_modify]
    split <;> simp [ends_wake, dropped, present]
  next absent => simp [dropped, absent]

end Pools

/-! ### Loans -/

/-- A way to take an instance ID, other than for a request. -/
inductive Loan where
  | next (eid : Eid)
  /-- A task looks for a free ID, and waits if there is none. -/
  | poll (eid : Eid) (task : TaskId)
  /-- A task that waited looks for the last time. -/
  | pollLast (eid : Eid) (task : TaskId)

namespace Loan

/-- The endpoint whose ID is taken. -/
def eid : Loan → Eid
  | next eid => eid
  | poll eid _ => eid
  | pollLast eid _ => eid

/-- Takes an ID, if there is one. -/
def act : Loan → Act Pools (Option InstanceId)
  | next eid => some <$> Pools.take eid
  | poll eid task => .ofTask (Pools.poll eid task)
  | pollLast eid task => some <$> Pools.pollLast eid task

/-- How an attempt to take an ID ends. -/
inductive Ending (p : Pools) (eid : Eid) : Except Fault (Option InstanceId) → Pools → Prop where
  | lent {iid : InstanceId} {p' : Pools} (free : (p.mask eid).lowestFree? = some iid)
      (masks : p'.masks = (p.taken eid iid).masks) : Ending p eid (.ok (some iid)) p'
  | waits {p' : Pools} (masks : p'.masks = p.masks) : Ending p eid (.ok none) p'
  | refused {p' : Pools} (masks : p'.masks = p.masks) : Ending p eid (.error .exhausted) p'

end Loan

/-- Whether no attempt to free an instance ID has failed. -/
def Journal.Clean (journal : Journal) : Prop :=
  ∀ eid iid, .logged (.unusedIdFreed eid iid) ∉ journal

namespace Journal

theorem clean_append {journal' : Journal} :
    Clean (journal ++ journal') ↔ journal.Clean ∧ journal'.Clean := by
  simp only [Clean, List.mem_append, not_or, forall_and]

namespace Clean

theorem snoc {event : Event} (clean : journal.Clean)
    (other : ∀ eid iid, event ≠ .logged (.unusedIdFreed eid iid)) : Clean (journal ++ [event]) :=
  clean_append.mpr ⟨clean, fun eid iid mem => other eid iid (List.mem_singleton.mp mem).symm⟩

theorem log (clean : journal.Clean) (notice : Notice)
    (other : ∀ eid iid, notice ≠ .unusedIdFreed eid iid := by simp) :
    Clean (journal ++ [.logged notice]) :=
  clean.snoc fun eid iid eq => other eid iid (Event.logged.inj eq)

theorem remark {fault : MessageFault} (clean : journal.Clean) :
    Clean (Effect.remark fault link journal).2 := by
  unfold Effect.remark
  cases fault.remark? with
  | none => exact clean
  | some text => exact clean.log _

theorem sent {eid : Eid} {message : List UInt8} {fault? : Option TransportFault}
    (clean : journal.Clean) : Clean (journal ++ [.sent eid message fault?]) :=
  clean.snoc fun _ _ => nofun

theorem woken (clean : journal.Clean) (tasks : List TaskId) :
    Clean (journal ++ tasks.map .woken) :=
  clean_append.mpr ⟨clean, by simp [Clean]⟩

end Clean

end Journal

/-- Tasks that wait for an ID concern no mask. -/
theorem Pools.ends_enlist {task : TaskId} (clean : journal.Clean) :
    Task.Ends (enlist task) p link journal fun _ p' journal' =>
      p'.masks = p.masks ∧ journal'.Clean := by
  simp only [enlist, Task.ends_bind, Task.ends_get]
  split
  next => exact ⟨rfl, clean⟩
  next =>
    simp only [Task.ends_bind, Task.ends_get]
    split
    next =>
      simp only [Task.ends_bind, Pools.ends_wake, Task.ends_modify]
      exact ⟨trivial, clean.woken _⟩
    next => exact ⟨rfl, clean⟩

theorem Pools.ends_poll {eid : Eid} {task : TaskId} (clean : journal.Clean) :
    Task.Ends (poll eid task) p link journal fun result p' journal' =>
      Loan.Ending p eid (.ok result) p' ∧ journal'.Clean := by
  simp only [poll, Task.ends_bind, Act.ends_run, Pools.ends_take]
  cases free : (p.mask eid).lowestFree? with
  | some iid => exact ⟨.lent free rfl, clean⟩
  | none =>
    refine (ends_enlist (clean.log (.noFreeId eid))).mono ?_
    rintro _ p' _ ⟨masks, clean⟩
    exact ⟨.waits masks, clean⟩

theorem Loan.ends_act (loan : Loan) (clean : journal.Clean) :
    Act.Ends loan.act p link journal fun result p' journal' =>
      Ending p loan.eid result p' ∧ journal'.Clean := by
  cases loan with
  | next eid =>
    simp only [act, Act.ends_map, Pools.ends_take]
    cases free : (p.mask eid).lowestFree? with
    | some iid => exact ⟨.lent free rfl, clean⟩
    | none => exact ⟨.refused rfl, clean.log _⟩
  | poll eid task =>
    simp only [act, Act.ends_ofTask]
    exact Pools.ends_poll clean
  | pollLast eid task =>
    simp only [act, Act.ends_map, Pools.pollLast, Act.ends_bind, Act.ends_liftTask]
    refine (Pools.ends_poll clean).mono ?_
    rintro result p' journal' ⟨ending, clean⟩
    cases ending with
    | lent free masks => exact ⟨.lent free masks, clean⟩
    | waits masks => exact ⟨.refused masks, clean.log _⟩

end TerminusMonitor
