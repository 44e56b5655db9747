import TerminusMonitor.Monitor.Basic

/-!
Discovery of the sensors of a terminus, by a walk through its record repository.

A walk asks for one record at a time, from record 0 on; each answer names the next
record. It ends at the last record, at a record that was asked for before, and at
any failure. Then the sensors found take the place of those the terminus had.
Without a free instance ID a walk waits, and goes on when requests have completed.
-/

namespace TerminusMonitor.Monitor

variable {μ : Type}

/-- The sensor that a record describes. A mapping tells its name and path; without
one it is named for its terminus. -/
def newSensor (m : Monitor μ) (tid : Tid) (r : NumericSensorRecord) : NumericSensor :=
  match m.mapping.sensor? r.sensor with
  | some mapping => .ofRecord tid r mapping.name (some mapping.path)
  | none =>
    let terminus := ((m.termini.get? tid).map (·.name)).getD "Terminus"
    .ofRecord tid r s!"{terminus}_Sensor_{r.sensor}" none

/-- Ends a walk: removes the sensors that were not found again, and publishes those
that were found. -/
def finishWalk (tid : Tid) : Task (Monitor μ) Unit := do
  let some walk := (← get).walks.get? tid | return
  modify fun m => { m with walks := m.walks.erase tid }
  let some terminus := (← get).termini.get? tid | return
  let lost := terminus.sensors.values.filter fun s => !walk.sensors.contains s.key.sensor
  Effect.removeAll (lost.map (·.path))
  modify fun m =>
    { m with termini := m.termini.modify tid fun t => { t with sensors := walk.sensors } }
  NumericSensor.publishAll walk.sensors.values
  Effect.log (.discovered tid walk.sensors.size walk.seen.size)

/-- Asks for the next record of a walk. -/
def askNext (tid : Tid) : Act (Monitor μ) Unit := do
  let some terminus := (← get).termini.get? tid
    | modify fun m => { m with walks := m.walks.erase tid }
  let some walk := (← get).walks.get? tid | return
  let request ← Act.ofMessage (FetchRecord.request walk.next)
  match ← (onRequests
      (Correlator.register terminus.eid request (.record tid walk.next))).outcome with
  | .ok _ =>
    modify fun m => { m with walks := m.walks.modify tid fun w => { w with inFlight := true } }
  | .error .exhausted => Effect.log (.discoveryDeferred tid)
  | .error (.state fault) => throw (.state fault)
  | .error fault =>
    Effect.log (.discoveryFailed tid fault)
    Act.ofTask (finishWalk tid)

/-- Asks for the next records of walks in turn. -/
def askEach : List Tid → Act (Monitor μ) Unit
  | [] => return
  | tid :: rest => do
    askNext tid
    askEach rest

/-- The walks that have no record in flight. -/
def waitingWalks (m : Monitor μ) : List Tid := (m.walks.filter fun _ w => !w.inFlight).keys

/-- Goes on with every walk that has no record in flight. -/
def advance : Act (Monitor μ) Unit := do
  askEach (← get).waitingWalks

/-- Starts a walk through the records of a terminus, unless one is under way. -/
def discover (tid : Tid) : Act (Monitor μ) Unit := do
  if !(← get).termini.contains tid then throw (.unknownTerminus tid)
  if (← get).isDiscovering tid then
    Effect.log (.discoveryRunning tid)
  else
    Effect.log (.discovering tid)
    modify fun m => { m with walks := m.walks.insert tid {} }
    advance

/-- Takes in the outcome of a request for a record. -/
def recordComplete (tid : Tid) (handle : UInt32) (result : Except Fault Response) :
    Task (Monitor μ) Unit := do
  if !(← get).isDiscovering tid then
    Effect.log (.recordDropped handle tid)
    return
  match ← Correlator.understand FetchRecord.parse result with
  | .error fault =>
    Effect.log (.recordFailed tid handle fault)
    finishWalk tid
  | .ok (record, next) =>
    if let some r := record.sensor? then
      modify fun m =>
        let sensor := m.newSensor tid r
        { m with walks := m.walks.modify tid fun w =>
            { w with sensors := w.sensors.insert sensor.key.sensor sensor } }
    let some walk := (← get).walks.get? tid | return
    if next = 0 then finishWalk tid
    else if walk.seen.contains next then
      Effect.log (.repositoryLoops tid next)
      finishWalk tid
    else
      modify fun m => { m with walks := m.walks.modify tid (·.follow next) }

end TerminusMonitor.Monitor
