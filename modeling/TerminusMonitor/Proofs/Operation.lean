import TerminusMonitor.Monitor.Update
import TerminusMonitor.Proofs.Outcome

/-!
Operations of a monitor, runs of them, and what is seen of a run.

An `Operation` is a call of a monitor, or a change that others make to its inventory
or its pools. A `Turn` is an operation with the link during it; a run is a list of
turns, which may fail and go on.

What a turn does for the termini and for the requests of the monitor are its `deeds`,
in their order. They are read off the runs of the functions that do them: `opening`
is an operation up to the point where walks go on, and `asking` and `polling` look at
how the request of a walk or for a reading is registered.
-/

namespace TerminusMonitor

open Monitor

variable {μ : Type}

/-- A call of a monitor, or a change that others make to what it works with. -/
inductive Operation (μ : Type) where
  | add (tid : Tid) (eid : Eid) (name : String)
  | remove (tid : Tid)
  | markUnreachable (tid : Tid)
  | discover (tid : Tid)
  | startPolling
  | stopPolling
  | setProperty (path property : String) (value : PropertyValue)
  | load (mapping : Except Fault Mapping)
  | update (now : Nat)
  | message (eid : Eid) (bytes : List UInt8)
  | response (eid : Eid) (bytes : List UInt8)
  /-- The inventory changes, which is open to the users of the monitor. -/
  | manage (change : Inventory μ → Inventory μ)
  /-- The pools change, which other originators may share. -/
  | share (ids : Pools)

/-- Something that a turn does. -/
inductive Deed where
  /-- A terminus was registered that was not known, or not known any more. -/
  | placed (tid : Tid) (eid : Eid)
  | removed (tid : Tid)
  /-- A terminus was noted as unreachable. -/
  | lost (tid : Tid)
  /-- Mappings were loaded. -/
  | mapped (mapping : Mapping)
  /-- Others changed the pools. -/
  | shared
  /-- A walk through the records of a terminus was started. -/
  | begun (tid : Tid)
  /-- The outcome of a request was taken in. -/
  | settled (completion : Completion Purpose)
  /-- A record was asked for. -/
  | asked (key : RequestKey) (tid : Tid) (handle : UInt32)
  /-- The transport did not send the request for a record. -/
  | unsent (tid : Tid) (handle : UInt32) (fault : TransportFault)
  /-- A sensor was asked for a reading. -/
  | polled (key : RequestKey) (sensor : SensorKey)

namespace Monitor

/-- What comes of asking for the next record of a walk. -/
def asking (m : Monitor μ) (link : Link) (journal : Journal) (tid : Tid) : List Deed :=
  match m.termini.get? tid, m.walks.get? tid with
  | some terminus, some walk =>
    match FetchRecord.request walk.next with
    | .error _ => []
    | .ok request =>
      let register := Correlator.register terminus.eid request (.record tid walk.next)
      match register.result m.toCorrelator link journal with
      | .ok iid => [.asked ⟨terminus.eid, iid⟩ tid walk.next]
      | .error (.transport fault) => [.unsent tid walk.next fault]
      | .error _ => []
  | _, _ => []

/-- What comes of asking for the next records of walks in turn, until a failure. -/
def asks (m : Monitor μ) (link : Link) (journal : Journal) : List Tid → List Deed
  | [] => []
  | tid :: rest =>
    m.asking link journal tid ++
      match (askNext tid).result m link journal with
      | .error _ => []
      | .ok () =>
        asks ((askNext tid).state m link journal) link ((askNext tid).journal m link journal) rest

/-- Takes in a response up to the point where walks go on; the outcome taken in, if
they do. -/
def takeIn (eid : Eid) (bytes : List UInt8) :
    Act (Monitor μ) (Option (List (Completion Purpose))) := do
  match ← onRequests (.ofTask (Correlator.receive eid bytes)) with
  | none => return none
  | some completion =>
    Act.ofTask (complete completion)
    return some [completion]

/-- What an operation does that takes in outcomes and lets walks go on. -/
def driven (m : Monitor μ) (link : Link) (journal : Journal)
    (opening : Act (Monitor μ) (Option (List (Completion Purpose)))) : List Deed :=
  match opening.result m link journal with
  | .ok (some completions) =>
    let m' := opening.state m link journal
    completions.map .settled ++ m'.asks link (opening.journal m link journal) m'.waitingWalks
  | _ => []

/-- Lets walks go on after the opening of an operation. -/
def goOn (opening : Act (Monitor μ) (Option (List (Completion Purpose)))) :
    Act (Monitor μ) Unit := do
  match ← opening with
  | none => return
  | some _ => advance

end Monitor

namespace Watch

/-- What comes of a look at a sensor at a tick. -/
def polling (w : Watch Purpose) (link : Link) (journal : Journal) (now : Nat) (eid : Eid)
    (s : NumericSensor) : List Deed :=
  if w.poller.isDue s now then
    match ReadSensor.request s.key.sensor false with
    | .error _ => []
    | .ok request =>
      let register := Correlator.register eid request (.reading s.key)
      match register.result w.toCorrelator link journal with
      | .ok iid => [.polled ⟨eid, iid⟩ s.key]
      | .error _ => []
  else []

/-- What comes of a look at sensors in turn, until a failure. -/
def polls (w : Watch Purpose) (link : Link) (journal : Journal) (now : Nat) :
    List (Eid × NumericSensor) → List Deed
  | [] => []
  | (eid, s) :: rest =>
    let poll := pollSensor .reading now eid s
    w.polling link journal now eid s ++
      match poll.result w link journal with
      | .error _ => []
      | .ok () =>
        polls (poll.state w link journal) link (poll.journal w link journal) now rest

/-- What a tick does, if one is due. -/
def ticking (w : Watch Purpose) (link : Link) (journal : Journal) (now : Nat) : List Deed :=
  if w.poller.running ∧ w.poller.nextTick ≤ now then
    polls { w with poller := { w.poller with nextTick := timeAfter now w.poller.interval } } link
      journal now w.polled
  else []

end Watch

namespace Operation

/-- Carries out an operation. -/
def act [UpdateManager μ] : Operation μ → Act (Monitor μ) Unit
  | add tid eid name => Monitor.add tid eid name
  | remove tid => Monitor.remove tid
  | markUnreachable tid => Monitor.markUnreachable tid
  | discover tid => Monitor.discover tid
  | startPolling => Monitor.startPolling
  | stopPolling => Monitor.stopPolling
  | setProperty path property value => Monitor.setProperty path property value
  | load mapping => Monitor.load mapping
  | update now => discard (Monitor.update now)
  | message eid bytes => onMessage eid bytes
  | response eid bytes => onResponse eid bytes
  | manage change => modify fun m => { m with inventory := change m.inventory }
  | share ids => modify fun m => { m with ids }

/-- An operation up to the point where walks go on; the outcomes taken in, if they do. -/
def opening : Operation μ → Act (Monitor μ) (Option (List (Completion Purpose)))
  | discover tid => do
    if (← get).termini.contains tid && !(← get).isDiscovering tid then
      Effect.log (.discovering tid)
      modify fun m => { m with walks := m.walks.insert tid {} }
      return some []
    else return none
  | update now => do
    let completions ← onRequests (Correlator.update now)
    Act.ofTask (completeAll completions)
    return some completions
  | message eid bytes => do
    match Header.ofBytes bytes with
    | .ok header => if header.request then return none else takeIn eid bytes
    | .error fault =>
      Effect.remark fault
      takeIn eid bytes
  | response eid bytes => takeIn eid bytes
  | _ => return none

/-- What an operation does before walks go on, the outcomes taken in apart. -/
def arranged (m : Monitor μ) : Operation μ → List Deed
  | add tid eid _ =>
    match m.termini.get? tid with
    | none => [.placed tid eid]
    | some terminus => if terminus.eid = eid then [] else [.removed tid, .placed tid eid]
  | remove tid => if m.termini.contains tid then [.removed tid] else []
  | markUnreachable tid => if m.termini.contains tid then [.lost tid] else []
  | discover tid => if m.termini.contains tid && !m.isDiscovering tid then [.begun tid] else []
  | load (.ok mapping) => [.mapped mapping]
  | share _ => [.shared]
  | _ => []

/-- What the tick of an operation does that comes after all else. -/
def ticked (m : Monitor μ) (link : Link) (journal : Journal) : Operation μ → List Deed
  | update now =>
    let rest := goOn (opening (update now))
    match rest.result m link journal with
    | .error _ => []
    | .ok () =>
      (rest.state m link journal).toWatch.ticking link (rest.journal m link journal) now
  | _ => []

/-- What an operation does, in its order. -/
def deeds (m : Monitor μ) (link : Link) (journal : Journal) (operation : Operation μ) :
    List Deed :=
  operation.arranged m ++ m.driven link journal operation.opening ++
    operation.ticked m link journal

end Operation

/-- An operation with the link during it. -/
structure Turn (μ : Type) where
  operation : Operation μ
  link : Link := Link.reliable

namespace Turn

/-- What a turn does, in its order. -/
def deeds (t : Turn μ) (m : Monitor μ) : List Deed := t.operation.deeds m t.link []

variable [UpdateManager μ]

/-- The monitor after a turn. -/
def after (t : Turn μ) (m : Monitor μ) : Monitor μ := t.operation.act.state m t.link []

/-- The monitor after turns. -/
def run (turns : List (Turn μ)) (m : Monitor μ) : Monitor μ := turns.foldl (fun m t => t.after m) m

/-- What turns do, in their order. -/
def trace : List (Turn μ) → Monitor μ → List Deed
  | [], _ => []
  | t :: rest, m => t.deeds m ++ trace rest (t.after m)

theorem run_append (turns later : List (Turn μ)) (m : Monitor μ) :
    run (turns ++ later) m = run later (run turns m) :=
  List.foldl_append

theorem trace_append (turns later : List (Turn μ)) (m : Monitor μ) :
    trace (turns ++ later) m = trace turns m ++ trace later (run turns m) := by
  induction turns generalizing m with
  | nil => rfl
  | cons t rest ih => rw [List.cons_append, trace, ih, trace, List.append_assoc]; rfl

end Turn

/-- A monitor of no termini with given pools, before any turn. -/
def Monitor.startWith (ids : Pools) (policy : RetryPolicy) (interval now : Nat) : Monitor μ :=
  { Monitor.start policy interval now with ids }

end TerminusMonitor
