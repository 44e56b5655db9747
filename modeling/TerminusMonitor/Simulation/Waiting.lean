import TerminusMonitor.Pools

/-!
Two tasks at once: one waits for an instance ID while the other frees one.
-/

namespace TerminusMonitor.Pools

/-- Waits for an ID of an endpoint for a time, while another task frees the ID `iid`
after a delay. What comes of both. -/
def takeWhileFreed (eid : Eid) (task : TaskId) (time delay : Nat) (iid : InstanceId) :
    Task Pools (Except Fault InstanceId × Except Fault Unit) := do
  if time ≤ delay then
    let taken ← (takeWithin eid task time).run
    let freed ← (free eid iid).run
    return (taken, freed)
  let first? ← poll eid task
  -- The waiting task is looked at again once the other one has begun to wait.
  let taken? ← match first? with
    | some taken => pure (some taken)
    | none => poll eid task
  let freed ← (free eid iid).run
  match taken? with
  | some taken => return (.ok taken, freed)
  | none => return (← (pollLast eid task).run, freed)

end TerminusMonitor.Pools
