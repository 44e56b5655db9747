import TerminusMonitor.Monitor.Discovery

/-!
Termini coming and going.

Removing a terminus takes along its objects, its walk, its polling history and the
inventory of its endpoint. Requests that are outstanding then stay so until they
are answered or expire; the pool of the endpoint is dropped if there are none.
-/

namespace TerminusMonitor.Monitor

variable {μ : Type}

/-- Removes a terminus. -/
def remove (tid : Tid) : Act (Monitor μ) Unit := do
  let some terminus := (← get).termini.get? tid | throw (.unknownTerminus tid)
  modify fun m => { m with termini := m.termini.erase tid }
  Effect.removeAll (terminus.sensors.values.map (·.path))
  modify fun m => { m with walks := m.walks.erase tid, poller := m.poller.forget tid }
  let erased ← onInventory (.ofTask (Inventory.eraseIf (·.eid == terminus.eid)))
  if 0 < erased then Effect.log (.recordsRemoved erased terminus.eid)
  if (← get).pendingFor terminus.eid = 0 then onIds (.ofTask (Pools.drop terminus.eid))
  Effect.log (.terminusRemoved tid)

/-- Adds a terminus that is not known. -/
def addNew (tid : Tid) (eid : Eid) (name : String) : Act (Monitor μ) Unit := do
  Effect.log (.terminusAdded tid name eid)
  modify fun m => { m with termini := m.termini.insert tid { tid, eid, name } }

/-- Adds a terminus. One that is known at the same endpoint can be reached again;
one that is known at another endpoint is removed first. -/
def add (tid : Tid) (eid : Eid) (name : String) : Act (Monitor μ) Unit := do
  match (← get).termini.get? tid with
  | none => addNew tid eid name
  | some terminus =>
    if terminus.eid = eid then
      unless terminus.reachable do Effect.log (.terminusReachable tid)
      modify fun m =>
        { m with termini := m.termini.modify tid fun t => { t with reachable := true } }
    else
      Effect.log (.terminusMoved tid terminus.eid eid)
      remove tid
      addNew tid eid name

/-- Notes that a terminus cannot be reached. Its sensors become unavailable. -/
def markUnreachable (tid : Tid) : Act (Monitor μ) Unit := do
  let some terminus := (← get).termini.get? tid | throw (.unknownTerminus tid)
  if terminus.reachable then Effect.log (.terminusUnreachable tid)
  let sensors := terminus.sensors.mapValues fun _ s => s.lose
  modify fun m =>
    { m with termini := m.termini.modify tid fun t => { t with sensors, reachable := false } }
  NumericSensor.publishAll sensors.values

end TerminusMonitor.Monitor
