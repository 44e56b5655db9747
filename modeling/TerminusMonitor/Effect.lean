import TerminusMonitor.Notice

/-!
What an operation does to the world around it, and what the world lets it do.

An operation keeps a `Journal` of its events in their order: lines logged,
messages given to the transport with their outcome, objects published or removed,
tasks woken, update managers asked. The transport is a `Link`, which answers each
attempt to send; it is fixed for one operation and may differ for each. So the
outcome of an operation is a function of its inputs, the state before and the link.

`Act σ` are the operations on a state `σ` that may fail. The state and the
journal stay as they are at a failure: nothing is undone unless it is undone
explicitly.
-/

namespace TerminusMonitor

/-- The properties of an object, in the order of publication. -/
abbrev Properties := List (String × PropertyValue)

/-- A task that waits for an instance ID. -/
abbrev TaskId := Nat

/-- A thing that an operation does. -/
inductive Event where
  | logged (notice : Notice)
  /-- A message was given to the transport, which may have failed to send it. -/
  | sent (eid : Eid) (message : List UInt8) (fault? : Option TransportFault)
  | published (path : String) (properties : Properties)
  | removed (path : String)
  | woken (task : TaskId)
  /-- A request was offered to an update manager: that of a component, or the
  primary one. -/
  | offered (component? : Option Component)

/-- The events of an operation, the earliest first. -/
abbrev Journal := List Event

/-- The transport during an operation: how the attempts to send to each endpoint
end, the first attempt being number 0. -/
abbrev Link := Eid → Nat → Option TransportFault

/-- A link that sends every message. -/
def Link.reliable : Link := fun _ _ => none

/-- Computations that add to a journal over a link. -/
abbrev Effect := ReaderT Link (StateM Journal)

/-- Computations that also change a state. -/
abbrev Task (σ : Type) := StateT σ Effect

/-- Computations that also may fail, leaving the state as it is then. -/
abbrev Act (σ : Type) := ExceptT Fault (Task σ)

/-- The number of attempts to send to an endpoint. -/
def Journal.attempts (journal : Journal) (eid : Eid) : Nat :=
  journal.countP fun
    | .sent other _ _ => other == eid
    | _ => false

/-- A message with the endpoint that it goes to or comes from. -/
abbrev Mail := Eid × List UInt8

/-- The messages that were sent. -/
def Journal.sent (journal : Journal) : List Mail :=
  journal.filterMap fun
    | .sent eid message none => some (eid, message)
    | _ => none

/-- The tasks that were woken. -/
def Journal.woken (journal : Journal) : List TaskId :=
  journal.filterMap fun
    | .woken task => some task
    | _ => none

/-- The lines of a log that keeps what is at least as grave as `least`. -/
def Journal.lines (least : Severity) (journal : Journal) : List String :=
  journal.filterMap fun
    | .logged notice =>
      if notice.level.place ≤ least.place then some s!"{notice.level.name} {notice.text}"
      else none
    | _ => none

/-- What a log says that stands in for published objects. -/
def Event.publication : Event → List Notice
  | .published path properties =>
    properties.map fun (name, value) => .propertyPublished path name value
  | .removed path => [.objectRemoved path]
  | _ => []

namespace Effect

/-- The journal so far. -/
def journal : Effect Journal := fun _ => get

/-- Adds an event to the journal. -/
def record (event : Event) : Effect Unit := fun _ => modify (· ++ [event])

/-- Logs a notice. -/
def log (notice : Notice) : Effect Unit := record (.logged notice)

/-- Logs notices, one after the other. -/
def logAll : List Notice → Effect Unit
  | [] => return
  | notice :: rest => do
    log notice
    logAll rest

/-- Logs the remark of a message fault, if it has one. -/
def remark (fault : MessageFault) : Effect Unit :=
  match fault.remark? with
  | some text => log (.remark text)
  | none => return

/-- Publishes an object. -/
def publish (path : String) (properties : Properties) : Effect Unit :=
  record (.published path properties)

/-- Removes an object. -/
def remove (path : String) : Effect Unit := record (.removed path)

/-- Removes objects, one after the other. -/
def removeAll : List String → Effect Unit
  | [] => return
  | path :: rest => do
    remove path
    removeAll rest

/-- Wakes tasks, one after the other. -/
def wake : List TaskId → Effect Unit
  | [] => return
  | task :: rest => do
    record (.woken task)
    wake rest

/-- Tries to send a message. -/
def send (eid : Eid) (message : List UInt8) : Effect (Except TransportFault Unit) :=
  fun link => do
    let fault? := link eid ((← get).attempts eid)
    modify (· ++ [.sent eid message fault?])
    return match fault? with
      | some fault => .error fault
      | none => .ok ()

end Effect

/-- Works on a part of a state. -/
def Task.on {σ τ α : Type} (part : σ → τ) (put : τ → σ → σ) (task : Task τ α) : Task σ α :=
  fun s => do
    let (a, t) ← task (part s)
    return (a, put t s)

/-- Works on a part of a state, and may fail. -/
def Act.on {σ τ α : Type} (part : σ → τ) (put : τ → σ → σ) (act : Act τ α) : Act σ α :=
  .mk (Task.on part put act.run)

/-- A computation that cannot fail. -/
def Act.ofTask {σ α : Type} (task : Task σ α) : Act σ α := .lift task

/-- The result of an operation, or its fault, as a value. -/
def Act.outcome {σ α : Type} (act : Act σ α) : Act σ (Except Fault α) := .lift act.run

/-- A result of reading a message as the result of an operation; the remark of a
fault is logged. -/
def Act.ofMessage {σ α : Type} (result : Except MessageFault α) : Act σ α := do
  match result with
  | .ok a => return a
  | .error fault =>
    Effect.remark fault
    throw (.invalid fault)

end TerminusMonitor
