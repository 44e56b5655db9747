import TerminusMonitor.Inventory.Basic
import TerminusMonitor.Mapping
import TerminusMonitor.Polling

/-!
The monitor: everything that is known about the remote termini, and everything
that is going on with them.
-/

namespace TerminusMonitor

/-- What a request was sent for. -/
inductive Purpose where
  | reading (key : SensorKey)
  | record (tid : Tid) (handle : UInt32)
  | effecter (path property : String)
deriving DecidableEq, Repr

/-- A walk through the record repository of a terminus, from one record to the
next. -/
structure Walk where
  /-- The record to ask for next. -/
  next : UInt32 := 0
  /-- Whether that record was asked for and has not come yet. -/
  inFlight : Bool := false
  /-- The records that were or are to be asked for. -/
  seen : KeySet UInt32 := (∅ : KeySet UInt32).insert 0 ()
  /-- The sensors found so far. -/
  sensors : Table SensorId NumericSensor := ∅

/-- The walk that goes on to another record. -/
def Walk.follow (walk : Walk) (next : UInt32) : Walk :=
  { walk with next, inFlight := false, seen := walk.seen.insert next () }

/-- A monitor of remote termini. -/
structure Monitor (μ : Type) extends Watch Purpose where
  walks : Table Tid Walk := ∅
  inventory : Inventory μ := {}
  mapping : Mapping := {}

namespace Monitor

variable {μ : Type}

/-- A monitor of no termini, with given policies, at a given time. -/
def start (policy : RetryPolicy) (interval now : Nat) : Monitor μ :=
  { policy, poller := { interval }, clock := now }

/-- Works on the watch: termini, polling and requests. -/
def onWatch {α : Type} (act : Act (Watch Purpose) α) : Act (Monitor μ) α :=
  act.on (·.toWatch) fun toWatch m => { m with toWatch }

/-- Works on the requests. -/
def onRequests {α : Type} (act : Act (Correlator Purpose) α) : Act (Monitor μ) α :=
  onWatch (Watch.onRequests act)

/-- Works on the pools. -/
def onIds {α : Type} (act : Act Pools α) : Act (Monitor μ) α :=
  onRequests (Correlator.onIds act)

/-- Works on the inventory. -/
def onInventory {α : Type} (act : Act (Inventory μ) α) : Act (Monitor μ) α :=
  act.on (·.inventory) fun inventory m => { m with inventory }

/-- Whether a walk through the records of a terminus is under way. -/
def isDiscovering (m : Monitor μ) (tid : Tid) : Bool := m.walks.contains tid

/-- Whether nothing is left to do: polling has stopped, no request is outstanding
and no walk under way. -/
def isIdle (m : Monitor μ) : Bool :=
  !m.poller.running && m.pending.isEmpty && m.walks.isEmpty

/-- Starts polling. -/
def startPolling : Act (Monitor μ) Unit := do
  let now := (← get).clock
  onWatch (.ofTask (Watch.onPoller (Poller.start now)))

/-- Stops polling. Readings that are outstanding are still taken in. -/
def stopPolling : Act (Monitor μ) Unit :=
  onWatch (.ofTask (Watch.onPoller Poller.stop))

/-- Loads mappings. Those in use stay if the new ones are refused. -/
def load (mapping : Except Fault Mapping) : Act (Monitor μ) Unit := do
  match mapping with
  | .error fault => throw fault
  | .ok mapping =>
    Effect.log (.mappingsLoaded mapping.sensors.length mapping.effecters.length)
    modify ({ · with mapping })

end Monitor

end TerminusMonitor
