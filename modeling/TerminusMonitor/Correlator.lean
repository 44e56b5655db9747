import TerminusMonitor.Message.Basic
import TerminusMonitor.Pools

/-!
Outstanding requests, and the responses that complete them.

Each request takes an instance ID of its endpoint and is pending until a response
comes from that endpoint with the same ID, message type and command, or until it
has been sent as often as the policy allows and no response came in time. It
carries a cookie of the caller, which its completion gives back.

Time is told by the caller, in milliseconds that never go back. Delays are told to
the caller, and the longest one (`forever`) stands for no deadline at all. Times have
64 bits, and nothing here looks whether a sum of times has more. It wraps round
(`timeAfter`), as the sums of an optimized build do; one that checks its sums stops there.
-/

namespace TerminusMonitor

/-- How long responses are waited for. -/
structure RetryPolicy where
  /-- Milliseconds to wait for each response. -/
  timeout : Nat := 2000
  /-- How often a request is sent again before it fails. -/
  retries : Nat := 2
deriving DecidableEq, Repr

/-- A request that is waiting for its response. -/
structure Pending (κ : Type) where
  type : UInt8
  command : UInt8
  /-- The whole message, to be sent again. -/
  message : List UInt8
  deadline : Nat
  retriesLeft : Nat
  cookie : κ
deriving DecidableEq, Repr

/-- The outcome of a request. -/
structure Completion (κ : Type) where
  key : RequestKey
  cookie : κ
  result : Except Fault Response

/-- The outstanding requests of one originator, and the pools it takes IDs from. -/
structure Correlator (κ : Type) where
  ids : Pools := {}
  policy : RetryPolicy := {}
  pending : Table RequestKey (Pending κ) := ∅
  clock : Nat := 0

/-- The time that is a delay after another, in the 64 bits that hold it. -/
def timeAfter (time delay : Nat) : Nat := (time + delay) % UInt64.size

/-- It is the sum of 64-bit words, -/
theorem timeAfter_toNat (time delay : UInt64) :
    timeAfter time.toNat delay.toNat = (time + delay).toNat :=
  (UInt64.toNat_add time delay).symm

/-- exact if it fits, -/
theorem timeAfter_of_lt {time delay : Nat} (fits : time + delay < UInt64.size) :
    timeAfter time delay = time + delay :=
  Nat.mod_eq_of_lt fits

/-- and never too late. -/
theorem timeAfter_le (time delay : Nat) : timeAfter time delay ≤ time + delay :=
  Nat.mod_le ..

/-- A sum that does not fit is no later than the time itself. -/
theorem timeAfter_le_self {time delay : Nat} (wraps : UInt64.size ≤ time + delay)
    (word : delay < UInt64.size) : timeAfter time delay ≤ time := by
  rw [timeAfter, Nat.mod_eq_sub_mod wraps]
  have left := Nat.mod_le (time + delay - UInt64.size) UInt64.size
  omega

/-- The longest delay in milliseconds. -/
def forever : Nat := 0xffffffff

/-- The delay until a moment, none if it has passed. -/
def delayUntil (moment now : Nat) : Nat := min (moment - now) forever

namespace Correlator

variable {κ : Type}

/-- Works on the pools. -/
def onIds {α : Type} (act : Act Pools α) : Act (Correlator κ) α :=
  act.on (·.ids) fun ids c => { c with ids }

/-- The number of outstanding requests to an endpoint. -/
def pendingFor (c : Correlator κ) (eid : Eid) : Nat :=
  c.pending.keys.countP fun key => key.eid == eid

/-- The delay until the next deadline. -/
def nextDelay (c : Correlator κ) : Nat :=
  (c.pending.values.map fun p => delayUntil p.deadline c.clock).foldl min forever

/-! ### Sending -/

/-- Writes and sends a request; its bytes. -/
def transmit (eid : Eid) (request : Request) : Effect (Except Fault (List UInt8)) := do
  match request.toBytes with
  | .error fault => return .error (.invalid fault)
  | .ok message =>
    match ← Effect.send eid message with
    | .error fault => return .error (.transport fault)
    | .ok () => return .ok message

/-- Sends a request with an instance ID of its endpoint. The ID is freed again if
the request is not sent. -/
def register (eid : Eid) (request : Request) (cookie : κ) : Act (Correlator κ) InstanceId := do
  let iid ← onIds (Pools.take eid)
  let key : RequestKey := { eid, iid }
  -- Somebody else may have freed the ID of a request that is still pending.
  if (← get).pending.contains key then
    Effect.log (.duplicatePending key)
    onIds (Pools.free eid iid)
    throw (.state .duplicatePending)
  match ← transmit eid { request with instanceId := iid.toByte } with
  | .error fault =>
    Effect.log (.requestFailed eid request.command fault)
    onIds (Pools.free eid iid)
    throw fault
  | .ok message =>
    modify fun c =>
      { c with pending := c.pending.insert key {
          type := request.type
          command := request.command
          message
          deadline := timeAfter c.clock c.policy.timeout
          retriesLeft := c.policy.retries
          cookie } }
    return iid

/-! ### Completing -/

/-- Ends a pending request and frees its instance ID. An ID that is free already
is only noted in the log. -/
def finish (key : RequestKey) : Task (Correlator κ) Unit := do
  modify fun c => { c with pending := c.pending.erase key }
  discard (onIds (Pools.free key.eid key.iid)).run

/-- Takes in a message. The completion of the request that it answers, if it
answers one; a message that does not is discarded. -/
def receive (eid : Eid) (message : List UInt8) : Task (Correlator κ) (Option (Completion κ)) := do
  match Header.ofBytes message with
  | .error fault =>
    Effect.remark fault
    Effect.log (.badMessage eid fault)
    return none
  | .ok header =>
    if header.request then
      Effect.log (.strayRequest eid header.command)
      return none
    let some iid := InstanceId.ofByte? header.instanceId | return none
    let key : RequestKey := { eid, iid }
    match (← get).pending.get? key with
    | none =>
      Effect.log (.unexpectedResponse key)
      return none
    | some pending =>
      if pending.type ≠ header.type ∨ pending.command ≠ header.command then
        Effect.log
          (.otherResponse key header.type header.command pending.type pending.command)
        return none
      finish key
      match Response.ofBytes message with
      | .error fault =>
        Effect.log (.badResponse key fault)
        return some { key, cookie := pending.cookie, result := .error (.invalid fault) }
      | .ok response => return some { key, cookie := pending.cookie, result := .ok response }

/-- Reads what the response to a request says. The remark of a fault found in it
is logged. -/
def understand {α : Type} (parse : Response → Except MessageFault α)
    (result : Except Fault Response) : Effect (Except Fault α) := do
  match result with
  | .error fault => return .error fault
  | .ok response =>
    match parse response with
    | .ok a => return .ok a
    | .error fault =>
      Effect.remark fault
      return .error (.invalid fault)

/-! ### Expiring -/

/-- Sends a request again whose deadline has passed, or ends it when it was sent
often enough. A failure to send is left to the new deadline. -/
def expire (key : RequestKey) : Task (Correlator κ) (Option (Completion κ)) := do
  let some pending := (← get).pending.get? key | return none
  match pending.retriesLeft with
  | 0 =>
    Effect.log (.requestExpired key pending.command)
    finish key
    return some { key, cookie := pending.cookie, result := .error .timedOut }
  | left + 1 =>
    modify fun c =>
      { c with pending := c.pending.modify key fun p =>
          { p with retriesLeft := left, deadline := timeAfter c.clock c.policy.timeout } }
    Effect.log (.retrying key pending.command left)
    if let .error fault ← Effect.send key.eid pending.message then
      Effect.log (.resendFailed key.eid fault)
    return none

/-- Expires requests in turn; the completions of those that ended. -/
def expireAll : List RequestKey → Task (Correlator κ) (List (Completion κ))
  | [] => return []
  | key :: rest => do
    let first? ← expire key
    return first?.toList ++ (← expireAll rest)

/-- The requests whose deadline has passed. -/
def overdue (c : Correlator κ) : List RequestKey :=
  (c.pending.filter fun _ p => p.deadline ≤ c.clock).keys

/-- Sets the clock, and expires the requests whose deadline has passed. The
completions of those that ended. -/
def update (now : Nat) : Act (Correlator κ) (List (Completion κ)) := do
  let before := (← get).clock
  if now < before then
    Effect.log (.timeReversed before now)
    throw (.state .timeReversed)
  modify ({ · with clock := now })
  Act.ofTask (expireAll (← get).overdue)

end Correlator

end TerminusMonitor
