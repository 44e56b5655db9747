import TerminusMonitor.Effect

/-!
Pools of instance IDs, one for each endpoint.

A pool is a mask of 32 bits, of which those of the IDs in use are set; an endpoint
without a pool has none in use. The lowest free ID is handed out first. Pools have
no holders: whoever frees an ID frees it, and several originators may share the
pools of a monitor.

Tasks can wait for an ID. There is room for eight of them in the order in which
they came; each ID freed and each pool dropped wakes them all, and so does the
ninth one before it takes its place.
-/

namespace TerminusMonitor

/-- The number of instance IDs of an endpoint. -/
def poolSize : Nat := 32

/-- The IDs of an endpoint, those in use being set. -/
abbrev IdMask := BitVec 32

namespace IdMask

/-- Whether an ID is in use. -/
def holds (mask : IdMask) (iid : InstanceId) : Bool := mask.getLsbD iid.val

/-- The lowest free ID. -/
def lowestFree? (mask : IdMask) : Option InstanceId :=
  (List.finRange poolSize).find? fun iid => !mask.holds iid

/-- The mask with an ID in use. -/
def take (mask : IdMask) (iid : InstanceId) : IdMask := mask ||| BitVec.twoPow 32 iid.val

/-- The mask with an ID free. -/
def free (mask : IdMask) (iid : InstanceId) : IdMask := mask &&& ~~~BitVec.twoPow 32 iid.val

/-- The number of IDs in use. -/
def count (mask : IdMask) : Nat := (List.finRange poolSize).countP mask.holds

end IdMask

/-- The pools of all endpoints, and the tasks that wait for an ID. -/
structure Pools where
  masks : Table Eid IdMask := ∅
  waiting : List TaskId := []
deriving DecidableEq

namespace Pools

/-- The mask of an endpoint. -/
def mask (p : Pools) (eid : Eid) : IdMask := (p.masks.get? eid).getD 0

/-- Whether an ID of an endpoint is in use. -/
def holds (p : Pools) (eid : Eid) (iid : InstanceId) : Bool := (p.mask eid).holds iid

/-- The number of IDs of an endpoint in use. -/
def inUse (p : Pools) (eid : Eid) : Nat := (p.mask eid).count

/-- The pools with another mask for an endpoint. -/
def set (p : Pools) (eid : Eid) (mask : IdMask) : Pools :=
  { p with masks := p.masks.insert eid mask }

/-- A text that shows the masks. -/
def text (p : Pools) : String :=
  let pools := p.masks.entries.map fun (eid, mask) => s!"Eid({eid}): {mask.toNat}"
  "InstanceIds \x7b pools: \x7b" ++ ", ".intercalate pools ++ "\x7d, .. \x7d"

/-! ### Taking and freeing -/

/-- Takes the lowest free ID of an endpoint. -/
def take (eid : Eid) : Act Pools InstanceId := do
  match ((← get).mask eid).lowestFree? with
  | none =>
    Effect.log (.noFreeId eid)
    throw .exhausted
  | some iid =>
    modify fun p => p.set eid ((p.mask eid).take iid)
    return iid

/-- Wakes the tasks that wait. -/
def wake : Task Pools Unit := do
  Effect.wake (← get).waiting
  modify ({ · with waiting := [] })

/-- Frees an ID of an endpoint. -/
def free (eid : Eid) (iid : InstanceId) : Act Pools Unit := do
  if (← get).holds eid iid then
    modify fun p => p.set eid ((p.mask eid).free iid)
    wake
  else
    Effect.log (.unusedIdFreed eid iid)
    throw (.state .unusedId)

/-- Drops the pool of an endpoint, so that all its IDs are free. -/
def drop (eid : Eid) : Task Pools Unit := do
  if (← get).masks.contains eid then
    let inUse := (← get).inUse eid
    modify fun p => { p with masks := p.masks.erase eid }
    if inUse ≠ 0 then Effect.log (.poolDropped eid inUse)
    wake

/-! ### Waiting -/

/-- The number of tasks that can wait. -/
def maxWaiting : Nat := 8

/-- Lets a task wait. -/
def enlist (task : TaskId) : Task Pools Unit := do
  unless (← get).waiting.contains task do
    if maxWaiting ≤ (← get).waiting.length then wake
    modify fun p => { p with waiting := p.waiting ++ [task] }

/-- Takes an ID of an endpoint, or lets a task wait for one. -/
def poll (eid : Eid) (task : TaskId) : Task Pools (Option InstanceId) := do
  match ← (take eid).run with
  | .ok iid => return some iid
  | .error _ =>
    enlist task
    return none

/-- Takes an ID of an endpoint when the time for it is over. -/
def pollLast (eid : Eid) (task : TaskId) : Act Pools InstanceId := do
  match ← poll eid task with
  | some iid => return iid
  | none =>
    Effect.log (.idWaitExpired eid)
    throw .exhausted

/-- Takes an ID of an endpoint within a time in which nobody frees one. -/
def takeWithin (eid : Eid) (task : TaskId) (time : Nat) : Act Pools InstanceId := do
  if 0 < time then
    if let some iid ← poll eid task then return iid
  pollLast eid task

end Pools

end TerminusMonitor
