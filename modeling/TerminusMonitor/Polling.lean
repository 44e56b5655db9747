import TerminusMonitor.Correlator
import TerminusMonitor.Platform.Exchange
import TerminusMonitor.Sensor.Basic

/-!
Termini and their sensors, and the polling of all sensors.

While polling runs, each tick asks for the readings of the sensors that are due,
without waiting for answers: those of the reachable termini that have no reading
outstanding and were not polled within their update interval. A reading, or its
failure, is taken in whenever it comes.
-/

namespace TerminusMonitor

/-- A remote terminus. -/
structure Terminus where
  tid : Tid
  eid : Eid
  name : String
  sensors : Table SensorId NumericSensor := ∅
  /-- Whether the terminus can be reached; if not, it is not polled. -/
  reachable : Bool := true

/-- The course of polling. -/
structure Poller where
  /-- Milliseconds between ticks. -/
  interval : Nat := 250
  running : Bool := false
  nextTick : Nat := 0
  /-- The sensors of which a reading is outstanding. -/
  outstanding : KeySet SensorKey := ∅
  /-- When each sensor was last asked for a reading. -/
  lastPoll : Table SensorKey Nat := ∅

namespace Poller

/-- The delay until the next tick. -/
def nextDelay (p : Poller) (now : Nat) : Nat :=
  if p.running then delayUntil p.nextTick now else forever

/-- Starts polling with a tick at once, unless it runs already. -/
def start (now : Nat) : Task Poller Unit := do
  unless (← get).running do
    Effect.log (.pollingStarted (← get).interval)
    modify fun p => { p with running := true, nextTick := now }

/-- Stops polling. Readings that are outstanding are still taken in. -/
def stop : Task Poller Unit := do
  if (← get).running then Effect.log .pollingStopped
  modify ({ · with running := false })

/-- Forgets when the sensors of a terminus were polled. -/
def forget (p : Poller) (tid : Tid) : Poller :=
  { p with lastPoll := p.lastPoll.filter fun key _ => key.tid != tid }

/-- Whether a sensor is due at a time: no reading of it is outstanding, and its
update interval, if it has one, is over. -/
def isDue (p : Poller) (s : NumericSensor) (now : Nat) : Bool :=
  !p.outstanding.contains s.key &&
    match p.lastPoll.get? s.key with
    | some last => s.updateInterval == 0 || timeAfter last s.updateInterval ≤ now
    | none => true

/-- The poller after a request for a reading was sent. -/
def asked (p : Poller) (key : SensorKey) (now : Nat) : Poller :=
  { p with
    outstanding := p.outstanding.insert key ()
    lastPoll := p.lastPoll.insert key now }

end Poller

/-- What is being watched: the termini with their sensors, the course of polling,
and the outstanding requests. -/
structure Watch (κ : Type) extends Correlator κ where
  termini : Table Tid Terminus := ∅
  poller : Poller := {}

namespace Watch

variable {κ : Type}

/-- Works on the requests. -/
def onRequests {α : Type} (act : Act (Correlator κ) α) : Act (Watch κ) α :=
  act.on (·.toCorrelator) fun toCorrelator w => { w with toCorrelator }

/-- Works on the course of polling. -/
def onPoller {α : Type} (task : Task Poller α) : Task (Watch κ) α :=
  task.on (·.poller) fun poller w => { w with poller }

/-- A sensor of a known terminus. -/
def sensor? (w : Watch κ) (key : SensorKey) : Option NumericSensor :=
  (w.termini.get? key.tid).bind (·.sensors.get? key.sensor)

/-- The same termini with another state of a sensor. -/
def setSensor (w : Watch κ) (key : SensorKey) (s : NumericSensor) : Watch κ :=
  { w with termini := w.termini.modify key.tid fun t =>
      { t with sensors := t.sensors.modify key.sensor fun _ => s } }

/-- The sensors of the reachable termini with their endpoints, in the order of
their keys. -/
def polled (w : Watch κ) : List (Eid × NumericSensor) :=
  w.termini.values.flatMap fun t =>
    if t.reachable then t.sensors.values.map fun s => (t.eid, s) else []

/-! ### A tick -/

/-- Asks a sensor for a reading, if it is due. A sensor whose request cannot be
sent has failed; one for which there is no instance ID has to wait for another
tick. Only an invalid state of the requests is a failure of the tick. -/
def pollSensor (cookie : SensorKey → κ) (now : Nat) (eid : Eid) (s : NumericSensor) :
    Act (Watch κ) Unit := do
  unless (← get).poller.isDue s now do return
  match ReadSensor.request s.key.sensor false with
  | .error fault =>
    Effect.remark fault
    Effect.log (.queryFailed s.key fault)
  | .ok request =>
    match ← (onRequests (Correlator.register eid request (cookie s.key))).outcome with
    | .ok _ => modify fun w => { w with poller := w.poller.asked s.key now }
    | .error .exhausted => Effect.log (.noIdForReading s.key)
    | .error (.transport fault) =>
      Effect.log (.readingUnsent eid s.key fault)
      modify (·.setSensor s.key s.fail)
      s.fail.publish
    | .error (.state fault) => throw (.state fault)
    | .error fault => Effect.log (.pollFailed s.key fault)

/-- Asks sensors for readings in turn. -/
def pollSensors (cookie : SensorKey → κ) (now : Nat) :
    List (Eid × NumericSensor) → Act (Watch κ) Unit
  | [] => return
  | (eid, s) :: rest => do
    pollSensor cookie now eid s
    pollSensors cookie now rest

/-- Runs a tick if one is due; the delay until the next one. -/
def poll (cookie : SensorKey → κ) (now : Nat) : Act (Watch κ) Nat := do
  let poller := (← get).poller
  if poller.running ∧ poller.nextTick ≤ now then
    modify fun w =>
      { w with poller := { w.poller with nextTick := timeAfter now w.poller.interval } }
    pollSensors cookie now (← get).polled
  return (← get).poller.nextDelay now

/-! ### Readings -/

/-- Takes in the outcome of a request for a reading, and publishes the sensor. An
outcome for a sensor that is no longer there is dropped. -/
def complete (key : SensorKey) (result : Except Fault Response) : Task (Watch κ) Unit := do
  modify fun w =>
    { w with poller := { w.poller with outstanding := w.poller.outstanding.erase key } }
  match (← get).sensor? key with
  | none => Effect.log (.readingDropped key)
  | some s =>
    let next ← match ← Correlator.understand ReadSensor.parse result with
      | .ok answer => s.receive answer
      | .error fault => do
        Effect.log (.readingFailed s.name fault)
        pure s.fail
    modify (·.setSensor key next)
    next.publish

/-! ### On its own

A watch whose requests are all for readings, each with its sensor as the cookie. -/

/-- Takes in the outcomes of requests in turn; their sensors. -/
def completeAll : List (Completion SensorKey) → Task (Watch SensorKey) (List SensorKey)
  | [] => return []
  | completion :: rest => do
    complete completion.cookie completion.result
    return completion.cookie :: (← completeAll rest)

/-- Takes in a message; the sensor whose request it completes, if it completes one. -/
def receive (eid : Eid) (message : List UInt8) : Act (Watch SensorKey) (Option SensorKey) := do
  let completion? ← onRequests (.ofTask (Correlator.receive eid message))
  return (← Act.ofTask (completeAll completion?.toList)).head?

/-- Sets the clock, and takes in the requests that expire. The delay until the next
deadline, and the sensors of those requests. -/
def update (now : Nat) : Act (Watch SensorKey) (Nat × List SensorKey) := do
  let completions ← onRequests (Correlator.update now)
  let delay := (← get).nextDelay
  return (delay, ← Act.ofTask (completeAll completions))

end Watch

end TerminusMonitor
