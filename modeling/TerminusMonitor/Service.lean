import TerminusMonitor.Monitor.Update

/-!
Running a monitor: it is updated, then waits for a message or for the end of its
delay, whichever comes first, and so on. The run ends when nothing is left to do
after a shutdown, when receiving fails, or when the monitor fails.

Messages and time come from a `Source`. It sees what has been done so far, since
what arrives may depend on what was sent.
-/

namespace TerminusMonitor

/-- What comes of waiting for a message. -/
inductive Arrival where
  | message (eid : Eid) (bytes : List UInt8)
  | failure (fault : TransportFault)
  /-- No message came within the delay. -/
  | quiet
deriving DecidableEq, Repr

/-- Sources of messages and time. -/
class Source (ε : Type) where
  /-- Milliseconds since the start. -/
  clock : ε → Nat
  /-- Waits for a message, for a number of milliseconds at most. -/
  wait : ε → Journal → Nat → Arrival × ε

/-- A monitor that is being run. -/
structure Service (μ : Type) extends Monitor μ where
  /-- Whether the run is to end when nothing is left to do. -/
  stopping : Bool := false

namespace Service

variable {μ ε : Type}

/-- The longest wait in milliseconds. It bounds the time until a change made from
outside takes effect. -/
def maxWait : Nat := 100

/-- Works on the monitor. -/
def onMonitor {α : Type} (act : Act (Monitor μ) α) : Act (Service μ) α :=
  act.on (·.toMonitor) fun toMonitor s => { s with toMonitor }

/-- Stops polling, and lets the run end when no request is outstanding. -/
def shutdown : Act (Service μ) Unit := do
  Effect.log .shuttingDown
  onMonitor Monitor.stopPolling
  modify ({ · with stopping := true })

/-- Works on the monitor of a service with its source. -/
def onRun {α : Type} (act : Act (Monitor μ) α) : Act (Service μ × ε) α :=
  (onMonitor act).on (·.1) fun s r => (s, r.2)

variable [UpdateManager μ] [Source ε]

/-- Updates the monitor at the time of the source. -/
def update : Act (Service μ × ε) Nat := do
  let now := Source.clock (← get).2
  onRun (Monitor.update now)

/-- One round of the run. Whether there is another one. -/
def turn : Act (Service μ × ε) Bool := do
  let delay ← update
  if (← get).1.stopping && (← get).1.isIdle then
    Effect.log .idle
    return false
  let (arrival, source) := Source.wait (← get).2 (← Effect.journal) (min delay maxWait)
  modify fun r => (r.1, source)
  match arrival with
  | .message eid bytes =>
    -- Deadlines have to be up to date before the message is looked at.
    discard update
    onRun (Monitor.onMessage eid bytes)
    return true
  | .failure fault =>
    Effect.log (.receiveFailed fault)
    throw (.transport fault)
  | .quiet => return true

/-- Runs the monitor for a number of rounds at most. -/
def run : Nat → Act (Service μ × ε) Unit
  | 0 => return
  | rounds + 1 => do
    if ← turn then run rounds

end Service

end TerminusMonitor
