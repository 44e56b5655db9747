import TerminusMonitor.Service
import TerminusMonitor.Simulation.Network

/-!
A state in a simulated network: operations on it, and runs of a service. Time
passes only while a service waits for a message.
-/

namespace TerminusMonitor

/-- A network that a service listens to. -/
structure Listener where
  network : Network
  /-- The number of events that the network has dealt with. -/
  seen : Nat := 0
  clock : Nat
  /-- Whether a message is waited for when there is none; if not, receiving fails
  then. -/
  patient : Bool

/-- Lets the network deal with the events since the last time. -/
def Listener.catchUp (l : Listener) (journal : Journal) : Listener :=
  { l with
    network := l.network.carry (Journal.sent (journal.drop l.seen))
    seen := journal.length }

instance : Source Listener where
  clock := Listener.clock
  wait l journal delay :=
    let l := l.catchUp journal
    match l.network.queue with
    | (eid, message) :: queue =>
      (.message eid message, { l with network := { l.network with queue } })
    | [] =>
      if l.patient then (.quiet, { l with clock := l.clock + delay })
      else (.failure (.named "RxFailure"), l)

/-- A state in a simulated network. -/
structure World (σ : Type) where
  state : σ
  network : Network := {}
  /-- Milliseconds since the start. -/
  clock : Nat := 0

namespace World

variable {σ α μ : Type}

/-- Runs an operation: its outcome, its events, and the world afterwards. -/
def act (w : World σ) (act : Act σ α) : Except Fault α × Journal × World σ :=
  let ((result, state), journal) := act.run w.state w.network.link []
  (result, journal, { w with state, network := w.network.carry journal.sent })

/-- Lets a monitor take in the messages that wait, also those that come meanwhile, up
to a number of them. How many it took in, the events, and the world afterwards. -/
def pump [UpdateManager μ] (w : World (Service μ)) :
    Nat → Except Fault Nat × Journal × World (Service μ)
  | 0 => (.ok 0, [], w)
  | limit + 1 =>
    match w.network.queue with
    | [] => (.ok 0, [], w)
    | (eid, message) :: queue =>
      let before := { w with network := { w.network with queue } }
      match before.act (Service.onMonitor (Monitor.onMessage eid message)) with
      | (.error fault, journal, w) => (.error fault, journal, w)
      | (.ok (), journal, w) =>
        let (count, more, w) := pump w limit
        (count.map (· + 1), journal ++ more, w)

/-- Runs a service, for a number of rounds at most: the outcome, the events, and
the world afterwards. -/
def serve [UpdateManager μ] (w : World (Service μ)) (patient : Bool) (rounds : Nat) :
    Except Fault Unit × Journal × World (Service μ) :=
  let listener : Listener := { network := w.network, clock := w.clock, patient }
  let run : Act (Service μ × Listener) Unit := Service.run rounds
  let ((result, state, listener), journal) := run.run (w.state, listener) w.network.link []
  let listener := listener.catchUp journal
  (result, journal, { state, network := listener.network, clock := listener.clock })

end World

end TerminusMonitor
