import TerminusMonitor.Monitor.Effecter
import TerminusMonitor.Monitor.Terminus

/-!
What drives a monitor: the messages that arrive, and the passing of time.
-/

namespace TerminusMonitor.Monitor

variable {μ : Type}

/-- Takes in the outcome of a request. -/
def complete (completion : Completion Purpose) : Task (Monitor μ) Unit :=
  match completion.cookie with
  | .reading key =>
    Task.on (·.toWatch) (fun toWatch m => { m with toWatch })
      (Watch.complete key completion.result)
  | .record tid handle => recordComplete tid handle completion.result
  | .effecter path property => effecterComplete path property completion.result

/-- Takes in the outcomes of requests in turn. -/
def completeAll : List (Completion Purpose) → Task (Monitor μ) Unit
  | [] => return
  | completion :: rest => do
    complete completion
    completeAll rest

/-! ### Messages -/

/-- Takes in a response. If it completes a request, walks that wait for an instance
ID may go on. -/
def onResponse (eid : Eid) (message : List UInt8) : Act (Monitor μ) Unit := do
  match ← onRequests (.ofTask (Correlator.receive eid message)) with
  | none => return
  | some completion =>
    Act.ofTask (complete completion)
    advance

variable [UpdateManager μ]

/-- Answers a request with the response of an update manager. -/
def onRequest (eid : Eid) (message : List UInt8) : Act (Monitor μ) Unit := do
  match Request.ofBytes message with
  | .error fault => Effect.log (.badRequest eid fault)
  | .ok request =>
    let response ← onInventory (.ofTask (Inventory.dispatch eid request))
    let bytes ← Act.ofMessage response.toBytes
    if let .error fault ← Effect.send eid bytes then
      Effect.log (.replyFailed eid fault)

/-- Takes in a message. Requests are answered; all else is looked at as a
response. -/
def onMessage (eid : Eid) (message : List UInt8) : Act (Monitor μ) Unit := do
  match Header.ofBytes message with
  | .ok header => if header.request then onRequest eid message else onResponse eid message
  | .error fault =>
    Effect.remark fault
    onResponse eid message

/-! ### Time -/

/-- Lets requests expire, goes on with walks, and runs a tick of polling if one is
due. The delay until the next update. -/
def update (now : Nat) : Act (Monitor μ) Nat := do
  let completions ← onRequests (Correlator.update now)
  Act.ofTask (completeAll completions)
  advance
  let poll ← onWatch (Watch.poll .reading now)
  return min poll (← get).nextDelay

end TerminusMonitor.Monitor
